import PkgRecipe.Data.Tree

namespace PkgRecipe.Data

/-! One mapping laid over another. Mappings merge key by key, a null removes its key, and any other
value replaces the value below it. -/

mutual
def mergeEntries (base : Entries) : Entries → Entries
  | [] => base
  | entry :: rest => mergeEntries (mergeEntry base entry) rest

def mergeEntry (base : Entries) : Scalar × Data → Entries
  | (key, value) => mergeValue base key value

def mergeValue (base : Entries) (key : Scalar) : Data → Entries
  | .scalar .null => base.without key
  | .scalar s => base.put key (.scalar s)
  | .sequence items => base.put key (.sequence items)
  | .mapping entries =>
      match base.find? key with
      | some (.mapping below) => base.put key (.mapping (mergeEntries below entries))
      | _ => base.put key (.mapping entries)
end

/-- Lays one mapping over another. -/
def merge (base override : Entries) : Entries :=
  mergeEntries base override

end PkgRecipe.Data
