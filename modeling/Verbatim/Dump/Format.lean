import Verbatim.Dump.Json
import Verbatim.Dump.Yaml

/-!
# Dumping a document

A dump shows every node of a document with its identity.
-/

namespace Verbatim

inductive DumpFormat where
  | json | yaml
  deriving DecidableEq, Repr

/-- The document as text in a format. -/
def Document.dump (d : Document) : DumpFormat → String
  | .json => Dump.json 0 (Dump.Data.ofDocument d)
  | .yaml => String.ofList (Dump.yaml (Dump.Data.ofDocument d))

end Verbatim
