import ScannedPage.Document.Json.Reader
import ScannedPage.Document.Json.Writer
import ScannedPage.Document.Yaml.Node
import ScannedPage.Page.Error
import ScannedPage.Page.Record
import ScannedPage.Path

/-!
# Stored settings

Settings are stored as JSON, one record per page, or as YAML. A file tells by its extension which of
the two it holds.
-/

namespace ScannedPage

/-- JSON admits lists for records. -/
def Json.rules : DocumentRules := ⟨true, 127⟩

/-- YAML does not. -/
def Yaml.rules : DocumentRules := ⟨false, 128⟩

namespace PageSettings

/-- The settings of a JSON text. -/
def ofJson (text : String) : Except PageError PageSettings :=
  match (Json.read? text).bind (ofValue? Json.rules 0) with
  | some s => .ok s
  | none => .error (.settings "failed to parse settings JSON")

/-- The settings of a YAML text. -/
def ofYaml (text : String) : Except PageError PageSettings :=
  match (Yaml.read? text).bind (ofValue? Yaml.rules 0) with
  | some s => .ok s
  | none => .error (.settings "failed to parse settings YAML")

/-- The settings of a file with its content, or with the reason why there is none. -/
def ofFile (path : String) (content : Except String String) : Except PageError PageSettings := do
  let text ← content.mapError .file
  match Path.extension? path with
  | some "json" => ofJson text
  | some "yaml" => ofYaml text
  | some "yml" => ofYaml text
  | _ => throw (.settings ("unsupported settings file extension: " ++ path))

/-- The settings as a JSON text. -/
def toJson (s : PageSettings) : String := Json.write s.toValue

end PageSettings

end ScannedPage
