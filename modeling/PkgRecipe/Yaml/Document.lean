import PkgRecipe.Yaml.Draft

namespace PkgRecipe.Yaml

/-! YAML documents without anchors, tags and directives. -/

def Node.toData (node : Node) : Except Fault Data :=
  let draft := Draft.ofNode node
  match draft.fault? with
  | some fault => .error fault
  | none => .ok draft.toData

/-- The data of a text; an empty document is null. -/
def load (text : List Char) : Except Fault Data :=
  match (tokens? text).bind Node.ofTokens? with
  | some node => node.toData
  | none => .error .malformed

theorem distinctKeys_of_load {text : List Char} {entries : Data.Entries}
    (loaded : load text = .ok (.mapping entries)) : entries.DistinctKeys := by
  unfold load at loaded
  split at loaded
  · rename_i node _
    unfold Node.toData at loaded
    dsimp only at loaded
    split at loaded
    · contradiction
    · exact Draft.distinctKeys_toData (Draft.ofNode node) (Except.ok.inj loaded)
  · contradiction

def plainReader : Reader where
  load := load
  distinctKeys := distinctKeys_of_load

end PkgRecipe.Yaml
