import PkgRecipe.Data.Merge
import PkgRecipe.Proofs.Data.Entries

namespace PkgRecipe.Data

/-- What stands under a key when a value is laid over what stands there. -/
def overlay (below : Option Data) : Data → Option Data
  | .scalar .null => none
  | .scalar s => some (.scalar s)
  | .sequence items => some (.sequence items)
  | .mapping entries =>
      match below with
      | some (.mapping under) => some (.mapping (mergeEntries under entries))
      | _ => some (.mapping entries)

theorem overlay_of_not_mapping {below : Option Data}
    (other : ∀ part, below ≠ some (.mapping part)) {value : Data} (notNull : value ≠ .null) :
    overlay below value = some value := by
  cases value with
  | scalar s =>
      cases s with
      | null => contradiction
      | _ => rfl
  | sequence items => rfl
  | mapping entries =>
      rw [overlay]
      exact other

theorem overlay_eq_mapping {below : Option Data} {value : Data} {left : Entries}
    (same : overlay below value = some (.mapping left)) : ∃ entries, value = .mapping entries := by
  cases value with
  | scalar s =>
      cases s with
      | null => contradiction
      | _ => exact Data.noConfusion (Option.some.inj same)
  | sequence items => exact Data.noConfusion (Option.some.inj same)
  | mapping entries => exact ⟨entries, rfl⟩

private theorem find?_mergeValue (base : Entries) (key : Scalar) (value : Data) (other : Scalar) :
    (mergeValue base key value).find? other =
      if key.sameKey other then overlay (base.find? other) value else base.find? other := by
  cases value with
  | scalar s =>
      cases s with
      | null => exact base.find?_without key other
      | _ => exact base.find?_put key _ other
  | sequence items => exact base.find?_put key _ other
  | mapping entries =>
      rw [mergeValue]
      split
      · rename_i under found
        rw [Entries.find?_put]
        split
        · rename_i same
          rw [← Entries.find?_congr same, found, overlay]
        · rfl
      · rename_i found
        rw [Entries.find?_put]
        split
        · rename_i same
          rw [← Entries.find?_congr same, overlay]
          exact found
        · rfl

theorem find?_mergeEntries (base entries : Entries) (key : Scalar) :
    (mergeEntries base entries).find? key = (entries.given key).foldl overlay (base.find? key) := by
  induction entries generalizing base with
  | nil =>
      rw [mergeEntries]
      rfl
  | cons entry rest ih =>
      obtain ⟨other, value⟩ := entry
      rw [mergeEntries, mergeEntry, ih, find?_mergeValue, Entries.given_cons]
      split
      · rfl
      · rfl

section Distinct

variable {override : Entries} (distinct : override.Distinct)

include distinct

theorem find?_mergeEntries_of_some (base : Entries) {key : Scalar}
    {value : Data} (found : override.find? key = some value) :
    (mergeEntries base override).find? key = overlay (base.find? key) value := by
  rw [find?_mergeEntries, distinct.given, found]
  rfl

theorem find?_mergeEntries_of_none (base : Entries)
    {key : Scalar} (absent : override.find? key = none) :
    (mergeEntries base override).find? key = base.find? key := by
  rw [find?_mergeEntries, distinct.given, absent]
  rfl

end Distinct

section Kind

variable {p : Scalar → Bool} (kind : IsKind p)

include kind

private theorem among_mergeValue (base : Entries) (key : Scalar) (value : Data) :
    (mergeValue base key value).among p =
      if p key then mergeValue (base.among p) key value else base.among p := by
  cases value with
  | scalar s =>
      cases s with
      | null => exact among_without kind key base
      | _ => exact among_put kind key _ base
  | sequence items => exact among_put kind key _ base
  | mapping entries =>
      cases here : p key with
      | true =>
          rw [if_pos rfl, mergeValue, mergeValue, find?_among kind here]
          split
          · rw [among_put kind, if_pos here]
          · rw [among_put kind, if_pos here]
      | false =>
          rw [if_neg Bool.false_ne_true, mergeValue]
          split
          · rw [among_put kind, if_neg (by simp [here])]
          · rw [among_put kind, if_neg (by simp [here])]

theorem among_mergeEntries (base entries : Entries) :
    (mergeEntries base entries).among p = mergeEntries (base.among p) (entries.among p) := by
  induction entries generalizing base with
  | nil =>
      rw [mergeEntries]
      exact (mergeEntries.eq_1 _).symm
  | cons entry rest ih =>
      obtain ⟨key, value⟩ := entry
      rw [mergeEntries, mergeEntry, ih, among_mergeValue kind]
      simp only [Entries.among, List.filter_cons]
      split
      · rw [mergeEntries, mergeEntry]
      · rfl

end Kind

theorem overlay_ne_null (below : Option Data) (value : Data) :
    overlay below value ≠ some .null := by
  cases value with
  | scalar s => cases s <;> simp [overlay, null]
  | sequence items => simp [overlay, null]
  | mapping entries =>
      rw [overlay.eq_def]
      dsimp only
      split
      · simp [null]
      · simp [null]

end PkgRecipe.Data
