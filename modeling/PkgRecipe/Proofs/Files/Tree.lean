import PkgRecipe.Files.Tree

namespace PkgRecipe.Files

def Found.place? : Found → Option Location
  | .file location _ => some location
  | .vacant location => some location
  | _ => none

namespace Tree

variable {tree : Tree}

section Put

variable {location other : Location} {content : Content}

theorem at?_of_ne_nil (below : location ≠ []) :
    tree.at? location = tree.entries.lookup location := by
  cases location with
  | nil => contradiction
  | cons name rest => rfl

private theorem lookup_replaced {entries : List (Location × Content)}
    (present : entries.any (·.1 = location) = true) :
    (entries.map fun entry => if entry.1 = location then (location, content) else entry).lookup
      location = some content := by
  induction entries with
  | nil => contradiction
  | cons entry rest ih =>
      rw [List.map_cons]
      by_cases here : entry.1 = location
      · simp [here]
      · have apart : (location == entry.1) = false := beq_eq_false_iff_ne.2 (Ne.symm here)
        rw [if_neg here, List.lookup_cons, apart]
        exact ih (by simpa [here] using present)

private theorem lookup_replaced_of_ne (entries : List (Location × Content)) (apart : other ≠ location) :
    (entries.map fun entry => if entry.1 = location then (location, content) else entry).lookup
      other = entries.lookup other := by
  induction entries with
  | nil => rfl
  | cons entry rest ih =>
      rw [List.map_cons, List.lookup_cons, List.lookup_cons, ih]
      by_cases here : entry.1 = location
      · rw [if_pos here, here, beq_eq_false_iff_ne.2 apart]
      · rw [if_neg here]

private theorem at?_put (below : location ≠ []) :
    (tree.put location content).at? location = some content := by
  rw [at?_of_ne_nil below, put]
  cases present : tree.entries.any (·.1 = location) with
  | true => exact lookup_replaced present
  | false =>
      have absent : tree.entries.lookup location = none := by
        rw [List.lookup_eq_none_iff]
        intro entry member
        have differs := List.any_eq_false.1 present entry member
        exact bne_iff_ne.2 fun same => differs (decide_eq_true same.symm)
      simp [List.lookup_append, absent]

theorem at?_put_of_ne (apart : other ≠ location) :
    (tree.put location content).at? other = tree.at? other := by
  cases other with
  | nil => rfl
  | cons name names =>
      rw [at?_of_ne_nil (List.cons_ne_nil _ _), at?_of_ne_nil (List.cons_ne_nil _ _), put]
      split
      · exact lookup_replaced_of_ne _ apart
      · simp [List.lookup_append, List.lookup_cons, beq_eq_false_iff_ne.2 apart]

end Put

private theorem ne_nil_of_at? {location : Location} (vacant : tree.at? location ≠ some .directory) :
    location ≠ [] := by
  rintro rfl
  exact vacant rfl

theorem place?_foundAt {here location : Location}
    (found : (tree.foundAt here).place? = some location) :
    here.reverse = location ∧ tree.at? location ≠ some .directory := by
  simp only [foundAt] at found
  cases stands : tree.at? here.reverse with
  | none =>
      rw [stands] at found
      obtain rfl := Option.some.inj found
      exact ⟨rfl, by simp [stands]⟩
  | some content =>
      rw [stands] at found
      cases content with
      | directory => contradiction
      | file bytes =>
          obtain rfl := Option.some.inj found
          exact ⟨rfl, by simp [stands]⟩

/-- A path goes on only from a directory that may be passed. -/
theorem passed_of_follow_cons {here : Location} {part : List Char} {rest : List (List Char)}
    {location : Location} (found : (tree.follow here (part :: rest)).place? = some location) :
    tree.at? here.reverse = some .directory ∧ tree.forbids here.reverse .pass = false := by
  simp only [follow, foundAt] at found
  cases stands : tree.at? here.reverse with
  | none =>
      rw [stands] at found
      contradiction
  | some content =>
      rw [stands] at found
      cases content with
      | directory =>
          refine ⟨rfl, ?_⟩
          dsimp only at found
          split at found
          · contradiction
          · rename_i passable
            exact Bool.eq_false_iff.2 passable
      | file bytes => contradiction

theorem follow_of_directory {here : Location} (stands : tree.at? here.reverse = some .directory)
    (passable : tree.forbids here.reverse .pass = false) (part : List Char)
    (rest : List (List Char)) :
    tree.follow here (part :: rest) =
      if part = "..".toList then tree.follow here.tail rest
      else if Path.isLongName part then .tooLong
      else tree.follow (part :: here) rest := by
  simp only [follow, foundAt, stands, passable, Bool.false_eq_true, if_false]

private theorem at?_of_place?_follow {here location : Location} {parts : List (List Char)}
    (found : (tree.follow here parts).place? = some location) :
    tree.at? location ≠ some .directory := by
  induction parts generalizing here with
  | nil => exact (place?_foundAt found).2
  | cons part rest ih =>
      obtain ⟨stands, passable⟩ := passed_of_follow_cons found
      rw [follow_of_directory stands passable] at found
      split at found
      · exact ih found
      · split at found
        · contradiction
        · exact ih found

/-- The directories on the way to a file that is written stay directories. -/
private theorem follow_put {here location : Location} {parts : List (List Char)}
    (found : (tree.follow here parts).place? = some location) (bytes : List UInt8) :
    (tree.put location (.file bytes)).follow here parts = .file location bytes := by
  induction parts generalizing here with
  | nil =>
      obtain ⟨same, vacant⟩ := place?_foundAt found
      simp only [follow, foundAt, same, at?_put (ne_nil_of_at? vacant)]
  | cons part rest ih =>
      obtain ⟨stands, passable⟩ := passed_of_follow_cons found
      have apart : here.reverse ≠ location := by
        intro same
        rw [same] at stands
        exact at?_of_place?_follow found stands
      rw [follow_of_directory stands passable] at found
      rw [follow_of_directory ((at?_put_of_ne apart).trans stands) passable]
      split at found
      · rename_i up
        rw [if_pos up]
        exact ih found
      · rename_i down
        split at found
        · contradiction
        · rename_i short
          rw [if_neg down, if_neg short]
          exact ih found

/-- Where a path starts, with the last name first. -/
def start (tree : Tree) (path : Path) : Location :=
  if path.slashes = 0 then tree.working.reverse else []

private theorem place?_find {path : Path} {location : Location}
    (found : (tree.find path).place? = some location) :
    path.isUsable = true ∧ path.isTooLong = false ∧
      (tree.follow (tree.start path) path.parts).place? = some location := by
  unfold find at found
  split at found
  · contradiction
  · rename_i usable
    split at found
    · contradiction
    · rename_i short
      exact ⟨by simpa using usable, by simpa using short, found⟩

private theorem find_put {path : Path} {location : Location}
    (found : (tree.find path).place? = some location) (bytes : List UInt8) :
    (tree.put location (.file bytes)).find path = .file location bytes := by
  obtain ⟨usable, short, followed⟩ := place?_find found
  rw [find, usable, short]
  exact follow_put followed bytes

section Written

variable {path : Path} {bytes : List UInt8} {after : Tree}

private theorem exists_place_of_write (wrote : tree.write path bytes = .ok after) :
    ∃ location, (tree.find path).place? = some location ∧
      after = tree.put location (.file bytes) := by
  unfold write at wrote
  split at wrote
  · contradiction
  · split at wrote
    · rename_i location old found
      split at wrote
      · contradiction
      · exact ⟨location, by rw [found]; rfl, (Except.ok.inj wrote).symm⟩
    · rename_i location found
      split at wrote
      · contradiction
      · exact ⟨location, by rw [found]; rfl, (Except.ok.inj wrote).symm⟩
    all_goals contradiction

/-- The file that is written stands where its path leads to, also through directories that lead up
again, and nothing else is changed. -/
theorem find_of_write (wrote : tree.write path bytes = .ok after) :
    ∃ location, after.find path = .file location bytes ∧
      ∀ other, after.at? other ≠ tree.at? other → other = location := by
  obtain ⟨location, found, rfl⟩ := exists_place_of_write wrote
  refine ⟨location, find_put found bytes, fun other changed => ?_⟩
  by_cases same : other = location
  · exact same
  · exact absurd (at?_put_of_ne same) changed

end Written

end Tree

end PkgRecipe.Files
