import SpanStore.Fault
import SpanStore.Text.Blank
import SpanStore.Text.Split

namespace SpanStore.Template

inductive Branch where
  | v2
  | v5
  deriving DecidableEq

namespace Branch

/-- The branch for a version: the trimmed text before the first dot is the major version. -/
def ofVersion (version : Option String) : Except Fault Branch :=
  match (Text.cut (· == '.') (Text.trim (version.getD "").toList)).1 with
  | ['2'] => .ok v2
  | ['5'] => .ok v5
  | _ => .error (.unsupportedVersion version)

def name : Branch → String
  | v2 => "V2"
  | v5 => "V5"

def ofName (s : String) : Except Fault Branch :=
  if s = v2.name then .ok v2 else if s = v5.name then .ok v5 else .error (.unknownBranch s)

end Branch

end SpanStore.Template
