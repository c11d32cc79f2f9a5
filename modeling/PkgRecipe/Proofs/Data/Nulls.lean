import PkgRecipe.Proofs.Data.Merge

namespace PkgRecipe.Data

/-! Nulls in nested mappings that are laid over each other. A null removes its key where the
mapping it stands in meets a mapping below. A mapping that meets none is taken over with its
nulls. -/

namespace Entries

/-- The mapping that a row of keys leads to, each key looked up in the mapping that the ones in
front lead to. -/
def part? (entries : Entries) : List Scalar → Option Entries
  | [] => some entries
  | key :: path =>
      match entries.find? key with
      | some (.mapping inner) => part? inner path
      | _ => none

theorem part?_cons_of_mapping {entries inner : Entries} {key : Scalar}
    (found : entries.find? key = some (.mapping inner)) (path : List Scalar) :
    entries.part? (key :: path) = inner.part? path := by
  rw [part?, found]

theorem exists_of_part?_cons {entries part : Entries} {key : Scalar} {path : List Scalar}
    (found : entries.part? (key :: path) = some part) :
    ∃ inner : Entries,
      entries.find? key = some (.mapping inner) ∧ inner.part? path = some part := by
  unfold part? at found
  split at found
  · rename_i inner here
    exact ⟨inner, here, found⟩
  · contradiction

def NullAt (entries : Entries) (path : List Scalar) (key : Scalar) : Prop :=
  ∃ part, entries.part? path = some part ∧ part.find? key = some .null

/-- No key has the value null, however deep in nested mappings. -/
def NullFree (entries : Entries) : Prop :=
  ∀ path key, ¬entries.NullAt path key

theorem NullFree.find?_ne_null {entries : Entries} (free : entries.NullFree) (key : Scalar) :
    entries.find? key ≠ some .null :=
  fun null => free [] key ⟨entries, rfl, null⟩

theorem NullFree.inner {entries inner : Entries} (free : entries.NullFree) {key : Scalar}
    (found : entries.find? key = some (.mapping inner)) : inner.NullFree := by
  rintro path other ⟨part, here, null⟩
  exact free (key :: path) other ⟨part, (part?_cons_of_mapping found path).trans here, null⟩

theorem NullFree.of_mem {entries : Entries} (values : ∀ entry ∈ entries, entry.2 ≠ .null)
    (inner : ∀ entry ∈ entries, ∀ part, entry.2 = .mapping part → NullFree part) :
    entries.NullFree := by
  rintro path key ⟨part, here, null⟩
  cases path with
  | nil =>
      cases here
      obtain ⟨present, -, member⟩ := mem_of_find? null
      exact values _ member rfl
  | cons first path =>
      obtain ⟨below, found, here⟩ := exists_of_part?_cons here
      obtain ⟨present, -, member⟩ := mem_of_find? found
      exact inner _ member below rfl path key ⟨part, here, null⟩

theorem DistinctKeys.part {entries part : Entries} (keys : entries.DistinctKeys)
    {path : List Scalar} (here : entries.part? path = some part) : part.DistinctKeys := by
  induction path generalizing entries with
  | nil =>
      cases here
      exact keys
  | cons key path ih =>
      obtain ⟨inner, found, here⟩ := exists_of_part?_cons here
      exact ih (keys.inner found) here

end Entries

section Parts

variable {base override : Entries}

theorem part?_mergeEntries_of_both (keys : override.DistinctKeys) {path : List Scalar}
    {under entries : Entries} (below : base.part? path = some under)
    (above : override.part? path = some entries) :
    (mergeEntries base override).part? path = some (mergeEntries under entries) := by
  induction path generalizing base override with
  | nil =>
      cases below
      cases above
      rfl
  | cons key path ih =>
      obtain ⟨innerBase, foundBase, below⟩ := Entries.exists_of_part?_cons below
      obtain ⟨inner, found, above⟩ := Entries.exists_of_part?_cons above
      have merged := find?_mergeEntries_of_some keys.distinct base found
      rw [foundBase, overlay] at merged
      rw [Entries.part?_cons_of_mapping merged]
      exact ih (keys.inner found) below above

theorem part?_mergeEntries_of_upper (keys : override.DistinctKeys) {path : List Scalar}
    {entries : Entries} (below : base.part? path = none)
    (above : override.part? path = some entries) :
    (mergeEntries base override).part? path = some entries := by
  induction path generalizing base override with
  | nil => contradiction
  | cons key path ih =>
      obtain ⟨inner, found, above⟩ := Entries.exists_of_part?_cons above
      have merged := find?_mergeEntries_of_some keys.distinct base found
      by_cases meets : ∃ part, base.find? key = some (.mapping part)
      · obtain ⟨part, foundBase⟩ := meets
        rw [Entries.part?_cons_of_mapping foundBase] at below
        rw [foundBase, overlay] at merged
        rw [Entries.part?_cons_of_mapping merged]
        exact ih (keys.inner found) below above
      · rw [overlay_of_not_mapping (not_exists.1 meets) Data.noConfusion] at merged
        exact (Entries.part?_cons_of_mapping merged path).trans above

private theorem part?_of_part?_mergeEntries (keys : override.DistinctKeys) {path : List Scalar}
    {left : Entries} (unsaid : override.part? path = none)
    (stands : (mergeEntries base override).part? path = some left) :
    base.part? path = some left := by
  induction path generalizing base override with
  | nil => contradiction
  | cons key path ih =>
      obtain ⟨part, merged, stands⟩ := Entries.exists_of_part?_cons stands
      cases found : override.find? key with
      | none =>
          rw [find?_mergeEntries_of_none keys.distinct base found] at merged
          exact (Entries.part?_cons_of_mapping merged path).trans stands
      | some value =>
          rw [find?_mergeEntries_of_some keys.distinct base found] at merged
          obtain ⟨entries, rfl⟩ := overlay_eq_mapping merged
          rw [Entries.part?_cons_of_mapping found] at unsaid
          by_cases meets : ∃ under, base.find? key = some (.mapping under)
          · obtain ⟨under, foundBase⟩ := meets
            rw [foundBase, overlay] at merged
            cases merged
            rw [Entries.part?_cons_of_mapping foundBase]
            exact ih (keys.inner found) unsaid stands
          · -- the mapping was taken over, so it leads on as it did
            rw [overlay_of_not_mapping (not_exists.1 meets) Data.noConfusion] at merged
            cases merged
            exact absurd (unsaid.symm.trans stands) (by simp)

/-- A null that is left was taken over with its mapping, or it was there and nothing was laid
over it. -/
theorem nullAt_of_mergeEntries (keys : override.DistinctKeys) {path : List Scalar} {key : Scalar}
    (null : (mergeEntries base override).NullAt path key) :
    (base.part? path = none ∧ override.NullAt path key) ∨
      (base.NullAt path key ∧ ¬override.NullAt path key) := by
  obtain ⟨left, stands, null⟩ := null
  cases above : override.part? path with
  | none =>
      have below := part?_of_part?_mergeEntries keys above stands
      refine .inr ⟨⟨left, below, null⟩, ?_⟩
      rintro ⟨part, here, -⟩
      rw [above] at here
      contradiction
  | some entries =>
      cases below : base.part? path with
      | none =>
          rw [part?_mergeEntries_of_upper keys below above] at stands
          cases stands
          exact .inl ⟨rfl, left, above, null⟩
      | some under =>
          rw [part?_mergeEntries_of_both keys below above] at stands
          cases stands
          cases found : Entries.find? key entries with
          | some value =>
              rw [find?_mergeEntries_of_some (keys.part above).distinct under found] at null
              exact absurd null (overlay_ne_null _ value)
          | none =>
              rw [find?_mergeEntries_of_none (keys.part above).distinct under found] at null
              refine .inr ⟨⟨under, below, null⟩, ?_⟩
              rintro ⟨part, here, here'⟩
              cases above.symm.trans here
              exact absurd (found.symm.trans here') (by simp)

theorem nullAt_mergeEntries_of_upper (keys : override.DistinctKeys) {path : List Scalar}
    {key : Scalar} (below : base.part? path = none) (null : override.NullAt path key) :
    (mergeEntries base override).NullAt path key := by
  obtain ⟨part, here, null⟩ := null
  exact ⟨part, part?_mergeEntries_of_upper keys below here, null⟩

/-- The nulls that are left are those taken over with a mapping that met none. -/
theorem nullAt_mergeEntries_iff (keys : override.DistinctKeys) (free : base.NullFree)
    (path : List Scalar) (key : Scalar) :
    (mergeEntries base override).NullAt path key ↔
      base.part? path = none ∧ override.NullAt path key := by
  constructor
  · intro null
    rcases nullAt_of_mergeEntries keys null with taken | ⟨below, -⟩
    · exact taken
    · exact absurd below (free path key)
  · rintro ⟨below, null⟩
    exact nullAt_mergeEntries_of_upper keys below null

private theorem exists_part?_mergeEntries (keys : override.DistinctKeys) {path : List Scalar}
    {part : Entries} (here : override.part? path = some part) :
    ∃ left, (mergeEntries base override).part? path = some left := by
  cases below : base.part? path with
  | none => exact ⟨part, part?_mergeEntries_of_upper keys below here⟩
  | some under => exact ⟨_, part?_mergeEntries_of_both keys below here⟩

/-- The second time each mapping of the upper one meets what it left the first time. -/
theorem nullFree_mergeEntries_twice (keys : override.DistinctKeys) (free : base.NullFree) :
    (mergeEntries (mergeEntries base override) override).NullFree := by
  intro path key null
  rcases nullAt_of_mergeEntries keys null with ⟨below, part, here, -⟩ | ⟨first, kept⟩
  · obtain ⟨left, stands⟩ := exists_part?_mergeEntries keys here
    exact absurd (below.symm.trans stands) (by simp)
  · exact kept ((nullAt_mergeEntries_iff keys free path key).1 first).2

end Parts

theorem mergeEntries_eq_self {base override : Entries}
    (left : ∀ entry ∈ override, overlay (base.find? entry.1) entry.2 = base.find? entry.1) :
    mergeEntries base override = base := by
  induction override with
  | nil => rw [mergeEntries]
  | cons entry rest ih =>
      obtain ⟨key, value⟩ := entry
      have here := left (key, value) List.mem_cons_self
      have same : mergeValue base key value = base := by
        cases value with
        | scalar s =>
            cases s with
            | null => exact Entries.without_of_find? here.symm
            | _ => exact Entries.put_of_find? here.symm
        | sequence items => exact Entries.put_of_find? here.symm
        | mapping entries =>
            rw [mergeValue]
            split
            · rename_i under found
              rw [found, overlay] at here
              apply Entries.put_of_find?
              rw [found, ← here]
            · rename_i other
              rw [overlay_of_not_mapping other Data.noConfusion] at here
              exact absurd here.symm (other entries)
      rw [mergeEntries, mergeEntry, same]
      exact ih fun other member => left other (List.mem_cons_of_mem _ member)

/-- Whether what stands under each key of the upper mapping was left when its value was laid over
something. -/
def Entries.Covers (override entries : Entries) : Prop :=
  ∀ key value, override.find? key = some value →
    ∃ below, entries.find? key = overlay below value

theorem Entries.Distinct.covers_mergeEntries {override : Entries} (distinct : override.Distinct)
    (base : Entries) : override.Covers (Data.mergeEntries base override) :=
  fun _ _ found => ⟨_, find?_mergeEntries_of_some distinct base found⟩

theorem Entries.NullFree.covers_self {entries : Entries} (free : entries.NullFree) :
    entries.Covers entries := by
  intro key value found
  have notNull : value ≠ .null := fun null => free.find?_ne_null key (null ▸ found)
  have alone : overlay none value = .some value := overlay_of_not_mapping (by simp) notNull
  exact ⟨none, found.trans alone.symm⟩

theorem Entries.Covers.mergeEntries_eq {override : Entries} (keys : override.DistinctKeys)
    {entries : Entries} (covers : override.Covers entries) (free : entries.NullFree) :
    mergeEntries entries override = entries := by
  induction keys generalizing entries with
  | @intro override distinct inner ih =>
      apply mergeEntries_eq_self
      intro entry member
      obtain ⟨key, value⟩ := entry
      obtain ⟨below, found⟩ := covers key value (distinct.find?_of_mem member)
      cases value with
      | scalar s => cases s <;> exact found.symm
      | sequence items => exact found.symm
      | mapping part =>
          by_cases meets : ∃ under, below = some (.mapping under)
          · obtain ⟨under, rfl⟩ := meets
            rw [overlay] at found
            have part := (inner _ member part rfl).distinct.covers_mergeEntries under
            rw [found, overlay, ih _ member _ rfl part (free.inner found)]
          · rw [overlay_of_not_mapping (not_exists.1 meets) Data.noConfusion] at found
            have part := free.inner found
            rw [found, overlay, ih _ member _ rfl part.covers_self part]

theorem mergeEntries_twice_iff {base override : Entries} (keys : override.DistinctKeys)
    (free : base.NullFree) :
    mergeEntries (mergeEntries base override) override = mergeEntries base override ↔
      (mergeEntries base override).NullFree := by
  constructor
  · intro same
    rw [← same]
    exact nullFree_mergeEntries_twice keys free
  · exact (keys.distinct.covers_mergeEntries base).mergeEntries_eq keys

/-- When a mapping is laid over one without nulls, its nulls are taken over where the mapping they
stand in meets none, and only there. When it is laid over the result again none is left, so the
result stays as it is just if it had none. -/
theorem merge_nulls {base override : Entries} (keys : override.DistinctKeys)
    (free : base.NullFree) :
    (∀ path key, (merge base override).NullAt path key ↔
      base.part? path = none ∧ override.NullAt path key) ∧
    (merge (merge base override) override).NullFree ∧
    (merge (merge base override) override = merge base override ↔
      (merge base override).NullFree) :=
  ⟨nullAt_mergeEntries_iff keys free, nullFree_mergeEntries_twice keys free,
    mergeEntries_twice_iff keys free⟩

theorem distinctKeys_nulled (key : Scalar) : Entries.DistinctKeys [(key, .null)] :=
  .intro (List.pairwise_singleton _ _) (by simp [null])

theorem merge_nulls_meeting :
    let base : Entries :=
      [(.text ['f'], .mapping [(.text ['x'], .text ['v'])]), (.text ['g'], .text ['w'])]
    let override : Entries :=
      [(.text ['f'], .mapping [(.text ['x'], .null)]),
        (.text ['g'], .mapping [(.text ['y'], .null)])]
    override.DistinctKeys ∧ base.NullFree ∧
      ¬(merge base override).NullAt [.text ['f']] (.text ['x']) ∧
      (merge base override).NullAt [.text ['g']] (.text ['y']) ∧
      merge (merge base override) override ≠ merge base override := by
  intro base override
  have keys : override.DistinctKeys :=
    .intro (List.pairwise_pair.2 rfl) (by simp [override, distinctKeys_nulled])
  have free : base.NullFree := by
    apply Entries.NullFree.of_mem
    · simp [base, text, null]
    · intro entry member part same
      rcases List.mem_cons.1 member with rfl | member
      · cases same
        exact .of_mem (by simp [text, null]) (by simp [text])
      · rw [List.mem_singleton.1 member] at same
        contradiction
  obtain ⟨nulls, -, twice⟩ := merge_nulls keys free
  have taken : (merge base override).NullAt [.text ['g']] (.text ['y']) :=
    (nulls _ _).2 ⟨rfl, _, rfl, rfl⟩
  have stands : base.part? [.text ['f']] = some [(.text ['x'], .text ['v'])] := rfl
  refine ⟨keys, free, fun null => ?_, taken, fun same => twice.1 same _ _ taken⟩
  rw [((nulls _ _).1 null).1] at stands
  contradiction

/-- A null in a mapping that meets none. -/
theorem merge_nulls_takenOver :
    let override : Entries := [(.text ['a'], .mapping [(.text ['b'], .null)])]
    override.DistinctKeys ∧ Entries.NullFree [] ∧
      (merge [] override).NullAt [.text ['a']] (.text ['b']) ∧
      merge (merge [] override) override ≠ merge [] override := by
  intro override
  have keys : override.DistinctKeys :=
    .intro (List.pairwise_singleton _ _) (by simp [override, distinctKeys_nulled])
  have free : Entries.NullFree [] := .of_mem nofun nofun
  have taken : (merge [] override).NullAt [.text ['a']] (.text ['b']) := ⟨_, rfl, rfl⟩
  refine ⟨keys, free, taken, fun same => ?_⟩
  exact (mergeEntries_twice_iff keys free).1 same _ _ taken

end PkgRecipe.Data
