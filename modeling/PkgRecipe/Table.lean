namespace PkgRecipe

abbrev Table (α : Type) := List (List Char × α)

namespace Table

variable {α : Type}

/-- Gives a key a value: in its place if it is present, otherwise at the end. -/
def put (key : List Char) (value : α) : Table α → Table α
  | [] => [(key, value)]
  | (other, old) :: rest =>
      if other = key then (key, value) :: rest else (other, old) :: put key value rest

def ofEntries (entries : List (List Char × α)) : Table α :=
  entries.foldl (fun table entry => put entry.1 entry.2 table) []

def keys (table : Table α) : List (List Char) :=
  table.map (·.1)

@[simp] theorem lookup_put (key : List Char) (value : α) (table : Table α) :
    (put key value table).lookup key = some value := by
  induction table with
  | nil => simp [put]
  | cons entry rest ih =>
      obtain ⟨other, old⟩ := entry
      by_cases same : other = key
      · simp [put, same]
      · have differs : (key == other) = false := by
          simpa using fun h : key = other => same h.symm
        simp [put, same, List.lookup_cons, differs, ih]

theorem lookup_put_of_ne {key other : List Char} (h : other ≠ key) (value : α)
    (table : Table α) : (put key value table).lookup other = table.lookup other := by
  have differs : (other == key) = false := by simpa using h
  induction table with
  | nil => simp [put, List.lookup_cons, differs]
  | cons entry rest ih =>
      obtain ⟨present, old⟩ := entry
      by_cases same : present = key
      · simp [put, same, List.lookup_cons, differs]
      · simp [put, same, List.lookup_cons, ih]

end Table

end PkgRecipe
