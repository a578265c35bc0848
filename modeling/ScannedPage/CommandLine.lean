import ScannedPage.Job.Run

/-!
# The command line

The arguments are job files, unless one of them asks for help or for the version. The command succeeds
when every job does. Nothing cancels it.
-/

namespace ScannedPage.CommandLine

/-- What the arguments ask for. -/
inductive Request
  /-- How the command is used; without any argument that is a failure. -/
  | usage (succeeds : Bool)
  | version
  | jobs (paths : List String)
deriving DecidableEq, Repr

/-- The request of a list of arguments. -/
def Request.ofArguments (arguments : List String) : Request :=
  if arguments.isEmpty then .usage false
  else if arguments.any fun a => a == "--help" || a == "-h" then .usage true
  else if arguments.any fun a => a == "--version" || a == "-V" then .version
  else .jobs arguments

/-- What the command reports, and whether it succeeded. -/
structure Outcome where
  lines : List String
  succeeds : Bool
deriving DecidableEq, Repr

/-- How the command is used. -/
def usageLines : List String :=
  ["Usage: scanraster <job.yaml>...",
   "  Binarize and composite page images according to job files.",
   "  Set RUST_LOG (e.g. RUST_LOG=info) for progress logs."]

/-- The name and the version of the command. -/
def versionLine : String := "scanraster 0.1.0"

/-- The outcome of jobs. -/
def Outcome.ofLogs (logs : List JobLog) : Outcome :=
  ⟨logs.flatMap fun log => log.entries.map (·.text), logs.all (·.succeeds)⟩

/-- Runs the command on files. -/
def run {m : Type → Type} [Monad m] (store : PageStore m) (arguments : List String) : m Outcome := do
  match Request.ofArguments arguments with
  | .usage succeeds => return ⟨usageLines, succeeds⟩
  | .version => return ⟨[versionLine], true⟩
  | .jobs paths => return .ofLogs (← paths.mapM fun path => Job.runFile store path false)

end ScannedPage.CommandLine
