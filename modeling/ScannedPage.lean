import ScannedPage.Checks
import ScannedPage.Job.Memory
import ScannedPage.Main
import ScannedPage.Raster.Operations
import ScannedPage.Synthetic
import ScannedPage.Proofs.Grid
import ScannedPage.Proofs.Region.Paths
import ScannedPage.Proofs.Region.UnionFind
import ScannedPage.Proofs.Region.FirstScan
import ScannedPage.Proofs.Rect
import ScannedPage.Proofs.Region.Components
import ScannedPage.Proofs.Outcome
import ScannedPage.Proofs.Raster
import ScannedPage.Proofs.Colour
import ScannedPage.Proofs.Morphology
import ScannedPage.Proofs.Threshold
import ScannedPage.Proofs.Region.Picture
import ScannedPage.Proofs.Convergence
import ScannedPage.Proofs.Page.Shapes
import ScannedPage.Proofs.Page.Mixed
import ScannedPage.Proofs.Page.Debug
import ScannedPage.Proofs.Page.Colour
import ScannedPage.Proofs.Page.Foreground
import ScannedPage.Proofs.Page.Warnings
import ScannedPage.Proofs.Page.Rejection
import ScannedPage.Proofs.Page.Modes
import ScannedPage.Proofs.Sharing.Copies
import ScannedPage.Proofs.Sharing.Isolation
import ScannedPage.Proofs.Sharing.History
import ScannedPage.Proofs.Sharing.Transparency
import ScannedPage.Proofs.Batch
import ScannedPage.Proofs.Job.Course
import ScannedPage.Proofs.Job.Accounting
import ScannedPage.Proofs.Page.Batch
import ScannedPage.Proofs.Morphology.Geodesic
import ScannedPage.Proofs.Morphology.Plane
import ScannedPage.Proofs.Morphology.Passes
import ScannedPage.Proofs.Morphology.Smoothing
import ScannedPage.Proofs.Morphology.Topology
import ScannedPage.Proofs.Document.Omission
import ScannedPage.Proofs.Page.Persistence
import ScannedPage.Proofs.Morphology.Extremes
import ScannedPage.Proofs.Morphology.Growth
import ScannedPage.Proofs.Morphology.Caps
import ScannedPage.Proofs.Morphology.Filling
import ScannedPage.Proofs.Threshold.Fallback
import ScannedPage.Proofs.Morphology.Replacement
import ScannedPage.Proofs.Morphology.Padding
import ScannedPage.Proofs.Region.Broad
import ScannedPage.Proofs.Region.Specks
import ScannedPage.Proofs.Region.Despeckling
import ScannedPage.Proofs.Counting
import ScannedPage.Proofs.Region.Contraction
import ScannedPage.Proofs.Region.Detection
import ScannedPage.Proofs.Zone.Drawing
import ScannedPage.Proofs.Page.Edits
import ScannedPage.Proofs.Exact
import ScannedPage.Proofs.Zone.Winding
import ScannedPage.Proofs.Threshold.Sums
import ScannedPage.Proofs.Threshold.Moments
import ScannedPage.Proofs.Histogram
import ScannedPage.Proofs.Threshold.Otsu
import ScannedPage.Proofs.Threshold.Masking
import ScannedPage.Proofs.Threshold.Adjustment
import ScannedPage.Proofs.Floating.Rounding
import ScannedPage.Proofs.Floating.Signs
import ScannedPage.Proofs.Levels
import ScannedPage.Proofs.Threshold.Background
import ScannedPage.Proofs.Morphology.Laws
import ScannedPage.Proofs.Page.Composition
import ScannedPage.Proofs.Page.Illumination
import ScannedPage.Proofs.Threshold.Uniform
import ScannedPage.Proofs.Zone.Validity
import ScannedPage.Proofs.Resampling
import ScannedPage.Proofs.Page.Painting
import ScannedPage.Proofs.Contrast
import ScannedPage.Proofs.Threshold.Fitting
import ScannedPage.Proofs.Region.Classes
import ScannedPage.Proofs.Words
import ScannedPage.Proofs.Region.Rectangles
import ScannedPage.Proofs.Bitmap.RoundTrip
import ScannedPage.Proofs.Scanning
import ScannedPage.Proofs.Morphology.InWords
import ScannedPage.Proofs.Region.InWords
import ScannedPage.Proofs.Job.Answers
