import PkgRecipe.Data.Keys
import PkgRecipe.Yaml.ScalarType

namespace PkgRecipe.Yaml

inductive Fault where
  | malformed
  | scalar (fault : ScalarFault)
  /-- A fault in the words of the reader. -/
  | reported (message : List Char)
deriving DecidableEq, Repr

/-- Reads a text as data. No mapping that is read has a key twice. -/
structure Reader where
  load : List Char → Except Fault Data
  distinctKeys {text : List Char} {entries : Data.Entries}
    (loaded : load text = .ok (.mapping entries)) : entries.DistinctKeys

end PkgRecipe.Yaml
