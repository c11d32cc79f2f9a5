import Mathlib.Data.List.Induction
import PkgRecipe.Proofs.Data.Merge

namespace PkgRecipe.Data

/-- What keys are given in turn: a value, or nothing, which takes the key away. -/
abbrev Edits := List (Scalar × Option Data)

namespace Edits

/-- The value that a key was given last, unless it was taken away since. -/
def last? (key : Scalar) (edits : Edits) : Option Data :=
  (edits.filter (·.1.sameKey key)).getLast?.bind Prod.snd

def Keep (key : Scalar) (edits : Edits) : Prop :=
  ∀ edit ∈ edits, edit.1.sameKey key = true → edit.2.isSome = true

/-- A key without a value was given one, and it was not taken away since. -/
structure Introduce (edits : Edits) (key : Scalar) (before after : Edits) : Prop where
  split : ∃ value, edits = before ++ (key, some value) :: after
  new : last? key before = none
  kept : Keep key after

/-- A key had a value, and it was not taken away since. -/
structure Retain (key : Scalar) (before after : Edits) : Prop where
  present : (last? key before).isSome = true
  kept : Keep key after

/-- Of the keys that have a value, this is the one that came in last. -/
def LastIntroduced (edits : Edits) (key : Scalar) : Prop :=
  ∃ before after, edits.Introduce key before after ∧
    ∀ other : Scalar, other.sameKey key = false → (last? other edits).isSome = true →
      Retain other before after

variable {edits before after : Edits} {key other : Scalar}

theorem last?_concat (edits : Edits) (edit : Scalar × Option Data) (key : Scalar) :
    last? key (edits ++ [edit]) = if edit.1.sameKey key then edit.2 else last? key edits := by
  rw [last?, List.filter_append, List.filter_cons, List.filter_nil]
  split
  · rw [List.getLast?_concat]
    rfl
  · rw [List.append_nil]
    rfl

theorem last?_congr (same : key.sameKey other = true) (edits : Edits) :
    last? key edits = last? other edits := by
  have alike : (fun edit : Scalar × Option Data => edit.1.sameKey key) =
      fun edit => edit.1.sameKey other := by
    funext edit
    rw [Scalar.sameKey_comm, Scalar.sameKey_congr same, Scalar.sameKey_comm]
  rw [last?, alike, last?]

namespace Keep

theorem congr (keep : Keep key edits) (same : key.sameKey other = true) : Keep other edits := by
  intro edit member here
  refine keep edit member ?_
  rw [Scalar.sameKey_comm, Scalar.sameKey_congr same, Scalar.sameKey_comm]
  exact here

theorem mono (keep : Keep key after) (among : before ⊆ after) : Keep key before :=
  fun edit member => keep edit (among member)

theorem concat (keep : Keep key edits) {edit : Scalar × Option Data}
    (kept : edit.1.sameKey key = true → edit.2.isSome = true) : Keep key (edits ++ [edit]) := by
  intro edit' member
  rcases List.mem_append.1 member with earlier | here
  · exact keep edit' earlier
  · rw [List.mem_singleton.1 here]
    exact kept

theorem isSome_last? (keep : Keep key after) (present : (last? key before).isSome = true) :
    (last? key (before ++ after)).isSome = true := by
  induction after using List.reverseRecOn with
  | nil => rwa [List.append_nil]
  | append_singleton after edit ih =>
      rw [← List.append_assoc, last?_concat]
      split
      · rename_i same
        exact keep edit (by simp) same
      · exact ih (keep.mono (List.subset_append_left after [edit]))

end Keep

theorem Introduce.isSome_last? (introduce : edits.Introduce key before after) :
    (last? key edits).isSome = true := by
  obtain ⟨⟨value, rfl⟩, -, kept⟩ := introduce
  rw [List.append_cons]
  refine kept.isSome_last? ?_
  rw [last?_concat, if_pos key.sameKey_refl]
  rfl

theorem Introduce.concat (introduce : edits.Introduce key before after)
    {edit : Scalar × Option Data} (kept : edit.1.sameKey key = true → edit.2.isSome = true) :
    Introduce (edits ++ [edit]) key before (after ++ [edit]) := by
  obtain ⟨⟨value, rfl⟩, new, keep⟩ := introduce
  exact ⟨⟨value, by simp⟩, new, keep.concat kept⟩

theorem lastIntroduced_concat (absent : last? key edits = none) (value : Data) :
    LastIntroduced (edits ++ [(key, some value)]) key := by
  refine ⟨edits, [], ⟨⟨value, rfl⟩, absent, nofun⟩, fun other differs stands => ⟨?_, nofun⟩⟩
  rw [Scalar.sameKey_comm] at differs
  rw [last?_concat, differs] at stands
  exact stands

theorem LastIntroduced.concat (final : edits.LastIntroduced key) {here : Scalar}
    (present : (last? here edits).isSome = true) (value : Data) :
    LastIntroduced (edits ++ [(here, some value)]) key := by
  obtain ⟨before, after, introduce, others⟩ := final
  refine ⟨before, after ++ [(here, some value)], introduce.concat fun _ => rfl,
    fun other differs stands => ?_⟩
  have earlier : (last? other edits).isSome = true := by
    rw [last?_concat] at stands
    split at stands
    · rename_i same
      rwa [← last?_congr same]
    · exact stands
  obtain ⟨present, kept⟩ := others other differs earlier
  exact ⟨present, kept.concat fun _ => rfl⟩

/-- Of two keys, each cannot have been there when the other came in. -/
theorem Introduce.not_retain {before' after' : Edits}
    (introduce : edits.Introduce key before after) (introduce' : edits.Introduce other before' after')
    (differs : key.sameKey other = false) (retain : Retain other before after) :
    ¬Retain key before' after' := by
  intro retain'
  obtain ⟨⟨value, rfl⟩, new, -⟩ := introduce
  obtain ⟨⟨value', split⟩, new', -⟩ := introduce'
  -- the key that came in first was there when the other came in, which was there before it
  have absurd {first second : Scalar} {front mid : Edits} {value : Data}
      (differs : second.sameKey first = false) (retain : Retain first front mid)
      (new : last? first (front ++ (second, some value) :: mid) = none) : False := by
    have keep : Keep first ((second, some value) :: mid) :=
      List.forall_mem_cons.2 ⟨fun _ => rfl, retain.kept⟩
    have stands := keep.isSome_last? retain.present
    rw [new] at stands
    contradiction
  rcases List.append_eq_append_iff.1 split with ⟨mid, rfl, rest⟩ | ⟨mid, rfl, rest⟩
  · cases mid with
    | nil =>
        obtain rfl := (Prod.mk.inj (List.cons.inj rest).1).1
        rw [Scalar.sameKey_refl] at differs
        contradiction
    | cons edit mid =>
        obtain ⟨rfl, rfl⟩ := List.cons.inj rest
        refine absurd differs ⟨retain.present, ?_⟩ new'
        exact retain.kept.mono (List.subset_append_left _ _)
  · cases mid with
    | nil =>
        obtain rfl := (Prod.mk.inj (List.cons.inj rest).1).1
        rw [Scalar.sameKey_refl] at differs
        contradiction
    | cons edit mid =>
        obtain ⟨rfl, rfl⟩ := List.cons.inj rest
        rw [Scalar.sameKey_comm] at differs
        refine absurd differs ⟨retain'.present, ?_⟩ new
        exact retain'.kept.mono (List.subset_append_left _ _)

theorem LastIntroduced.sameKey (final : edits.LastIntroduced key)
    (final' : edits.LastIntroduced other) : key.sameKey other = true := by
  obtain ⟨before, after, introduce, others⟩ := final
  obtain ⟨before', after', introduce', others'⟩ := final'
  by_contra apart
  have differs := Bool.eq_false_iff.2 apart
  refine introduce.not_retain introduce' differs (others other ?_ introduce'.isSome_last?)
    (others' key differs introduce.isSome_last?)
  rw [Scalar.sameKey_comm]
  exact differs

theorem eq_of_scalars {rows : List (Scalar × Option Scalar)}
    (same : edits.map (Prod.map id (Option.map scalar?)) =
      rows.map (Prod.map id (Option.map some))) :
    edits = rows.map (Prod.map id (Option.map Data.scalar)) := by
  induction edits generalizing rows with
  | nil => rw [List.map_eq_nil_iff.1 same.symm, List.map_nil]
  | cons edit edits ih =>
      obtain ⟨row, rows, rfl, here, later⟩ := List.map_eq_cons_iff.1 same.symm
      obtain ⟨key, value⟩ := Prod.mk.inj here
      rw [List.map_cons, ih later.symm]
      congr 1
      obtain ⟨here, _ | given⟩ := row
      · exact Prod.ext key.symm (Option.map_eq_none_iff.1 value.symm)
      · obtain ⟨data, found, scalar⟩ := Option.map_eq_some_iff.1 value.symm
        exact Prod.ext key.symm (found.trans (congrArg some (scalar?_eq_some_iff.1 scalar)))

end Edits

namespace Entries

private theorem map_fst_put (key : Scalar) (value : Data) (entries : Entries) :
    (entries.put key value).map Prod.fst =
      if (entries.find? key).isSome then entries.map Prod.fst
      else entries.map Prod.fst ++ [key] := by
  induction entries with
  | nil => rfl
  | cons entry rest ih =>
      obtain ⟨other, old⟩ := entry
      rw [put, find?]
      split
      · rfl
      · rw [List.map_cons, ih, List.map_cons]
        split
        · rfl
        · rfl

private theorem map_fst_without (key : Scalar) (entries : Entries) :
    (entries.without key).map Prod.fst = (entries.map Prod.fst).filter (!·.sameKey key) := by
  rw [List.filter_map]
  rfl

private theorem isSome_find?_of_mem {key : Scalar} {entries : Entries} (member : key ∈ entries.map Prod.fst) :
    (entries.find? key).isSome = true := by
  induction entries with
  | nil => contradiction
  | cons entry rest ih =>
      rw [find?]
      split
      · rfl
      · rename_i differs
        rcases List.mem_cons.1 member with rfl | later
        · exact absurd (Scalar.sameKey_refl _) differs
        · exact ih later

end Entries

/-- The entries that edits leave. A mapping may have been laid over another one. -/
inductive Edited : Edits → Entries → Prop where
  | nil : Edited [] []
  | give {edits : Edits} {entries : Entries} (edited : Edited edits entries) (key : Scalar)
      {value left : Data} (alike : scalar? left = scalar? value) :
      Edited (edits ++ [(key, some value)]) (entries.put key left)
  | take {edits : Edits} {entries : Entries} (edited : Edited edits entries) (key : Scalar) :
      Edited (edits ++ [(key, none)]) (entries.without key)

/-- An entry that is laid over others. A null takes its key away. -/
def Entries.laid (entry : Scalar × Data) : Scalar × Option Data :=
  (entry.1, if entry.2.isNull then none else some entry.2)

def Entries.taken (entry : Scalar × Data) : Scalar × Option Data :=
  (entry.1, some entry.2)

namespace Edited

open Edits (Introduce Retain)

variable {edits : Edits} {entries : Entries} {key : Scalar}

theorem scalar?_find? (edited : Edited edits entries) (key : Scalar) :
    (entries.find? key).map scalar? = (Edits.last? key edits).map scalar? := by
  induction edited with
  | nil => rfl
  | give edited here alike ih =>
      rw [Entries.find?_put, Edits.last?_concat]
      split
      · exact congrArg some alike
      · exact ih
  | take edited here ih =>
      rw [Entries.find?_without, Edits.last?_concat]
      split
      · rfl
      · exact ih

theorem isSome_find? (edited : Edited edits entries) (key : Scalar) :
    (entries.find? key).isSome = (Edits.last? key edits).isSome := by
  rw [← Option.isSome_map (f := scalar?), edited.scalar?_find?, Option.isSome_map]

/-- When a key came in, those in front of it were there. -/
private theorem exists_introduce (edited : Edited edits entries) {front back : List Scalar}
    (order : entries.map Prod.fst = front ++ key :: back) :
    ∃ before after, edits.Introduce key before after ∧
      ∀ other ∈ front, Retain other before after := by
  induction edited generalizing front back with
  | nil => simp at order
  | @give edits entries edited here value left alike ih =>
      have later {back : List Scalar} (order : entries.map Prod.fst = front ++ key :: back) :
          ∃ before after, Introduce (edits ++ [(here, some value)]) key before after ∧
            ∀ other ∈ front, Retain other before after := by
        obtain ⟨before, after, introduce, others⟩ := ih order
        refine ⟨before, after ++ [(here, some value)], introduce.concat fun _ => rfl, ?_⟩
        exact fun other member =>
          ⟨(others other member).present, (others other member).kept.concat fun _ => rfl⟩
      rw [Entries.map_fst_put] at order
      cases present : (entries.find? here).isSome with
      | true =>
          rw [present, if_pos rfl] at order
          exact later order
      | false =>
          rw [present, if_neg Bool.false_ne_true] at order
          rcases List.eq_nil_or_concat back with rfl | ⟨back, last, rfl⟩
          · -- the key comes in here, at the end
            obtain ⟨rfl, same⟩ := List.append_inj' order rfl
            obtain rfl := List.singleton_inj.1 same
            rw [edited.isSome_find?, Option.isSome_eq_false_iff, Option.isNone_iff_eq_none] at present
            refine ⟨edits, [], ⟨⟨value, rfl⟩, present, nofun⟩, fun other member => ⟨?_, nofun⟩⟩
            rw [← edited.isSome_find?]
            exact Entries.isSome_find?_of_mem member
          · rw [List.concat_eq_append, ← List.cons_append, ← List.append_assoc] at order
            exact later (List.append_inj' order rfl).1
  | @take edits entries edited here ih =>
      rw [Entries.map_fst_without] at order
      obtain ⟨front', rest, whole, rfl, cut⟩ := List.filter_eq_append_iff.1 order
      obtain ⟨passed, back', rfl, -, other, rfl⟩ := List.filter_eq_cons_iff.1 cut
      rw [← List.append_assoc] at whole
      obtain ⟨before, after, introduce, others⟩ := ih whole
      have apart {k : Scalar} (differs : (!k.sameKey here) = true) :
          here.sameKey k = true → (none : Option Data).isSome = true := by
        intro same
        rw [Scalar.sameKey_comm, same] at differs
        contradiction
      refine ⟨before, after ++ [(here, none)], introduce.concat (apart other), fun k member => ?_⟩
      obtain ⟨member, differs⟩ := List.mem_filter.1 member
      obtain ⟨present, kept⟩ := others k (List.mem_append_left _ member)
      exact ⟨present, kept.concat (apart differs)⟩

theorem exists_introduce_last {front : Entries} {left : Data}
    (edited : Edited edits (front ++ [(key, left)])) :
    ∃ before after, edits.Introduce key before after ∧
      ∀ entry ∈ front, Retain entry.1 before after := by
  have order : (front ++ [(key, left)]).map Prod.fst = front.map Prod.fst ++ key :: [] :=
    List.map_append
  obtain ⟨before, after, introduce, others⟩ := edited.exists_introduce order
  exact ⟨before, after, introduce, fun entry member => others _ (List.mem_map_of_mem member)⟩

private theorem lastIntroduced_of_getLast? (edited : Edited edits entries) {left : Data}
    (last : entries.getLast? = some (key, left)) : edits.LastIntroduced key := by
  obtain ⟨front, rfl⟩ := List.getLast?_eq_some_iff.1 last
  obtain ⟨before, after, introduce, others⟩ := edited.exists_introduce_last
  refine ⟨before, after, introduce, fun other differs stands => ?_⟩
  rw [← edited.isSome_find?, Option.isSome_iff_exists] at stands
  obtain ⟨value, found⟩ := stands
  obtain ⟨here, same, member⟩ := Entries.mem_of_find? found
  rcases List.mem_append.1 member with earlier | final
  · obtain ⟨present, kept⟩ := others _ earlier
    rw [Edits.last?_congr same] at present
    exact ⟨present, kept.congr same⟩
  · obtain rfl := (Prod.mk.inj (List.mem_singleton.1 final)).1
    rw [Scalar.sameKey_comm, same] at differs
    contradiction

private theorem getLast?_of_lastIntroduced (edited : Edited edits entries)
    (final : edits.LastIntroduced key) :
    ∃ here left, entries.getLast? = some (here, left) ∧ here.sameKey key = true := by
  obtain ⟨before, after, introduce, others⟩ := final
  have stands := introduce.isSome_last?
  rw [← edited.isSome_find?, Option.isSome_iff_exists] at stands
  obtain ⟨value, found⟩ := stands
  obtain ⟨key', same, member⟩ := Entries.mem_of_find? found
  rcases List.eq_nil_or_concat entries with rfl | ⟨front, ⟨here, left⟩, rfl⟩
  · contradiction
  rw [List.concat_eq_append] at edited member ⊢
  refine ⟨here, left, List.getLast?_concat, ?_⟩
  by_contra differs
  have differs := Bool.eq_false_iff.2 differs
  obtain ⟨before', after', introduce', others'⟩ := edited.exists_introduce_last
  have earlier : (key', value) ∈ front := by
    rcases List.mem_append.1 member with earlier | last
    · exact earlier
    · obtain rfl := (Prod.mk.inj (List.mem_singleton.1 last)).1
      rw [same] at differs
      contradiction
  obtain ⟨present, kept⟩ := others' _ earlier
  rw [Edits.last?_congr same] at present
  refine introduce.not_retain introduce' ?_ (others here differs introduce'.isSome_last?)
    ⟨present, kept.congr same⟩
  rw [Scalar.sameKey_comm]
  exact differs

theorem distinct (edited : Edited edits entries) : entries.Distinct := by
  induction edited with
  | nil => exact List.Pairwise.nil
  | give _ key _ ih => exact ih.put key _
  | take _ key ih => exact List.Pairwise.filter _ ih

/-- What is read from the last entry is read from what was given last to the key that came in
last. -/
theorem map_getLast?_eq_some_iff (edited : Edited edits entries) {β : Type} {read : Data → β}
    (congr : ∀ value other, scalar? value = scalar? other → read value = read other) {b : β} :
    (entries.getLast?.map fun entry => read entry.2) = some b ↔
      ∃ key given, edits.LastIntroduced key ∧ Edits.last? key edits = some given ∧
        read given = b := by
  have given_of_last {here : Scalar} {left : Data}
      (last : entries.getLast? = some (here, left)) :
      (Edits.last? here edits).map scalar? = some (scalar? left) := by
    rw [← edited.scalar?_find?, edited.distinct.find?_of_mem (List.mem_of_getLast? last)]
    rfl
  constructor
  · intro same
    obtain ⟨⟨here, left⟩, last, same⟩ := Option.map_eq_some_iff.1 same
    obtain ⟨given, found, alike⟩ := Option.map_eq_some_iff.1 (given_of_last last)
    exact ⟨here, given, edited.lastIntroduced_of_getLast? last, found,
      (congr _ _ alike).trans same⟩
  · rintro ⟨key, given, final, found, same⟩
    obtain ⟨here, left, last, alike⟩ := edited.getLast?_of_lastIntroduced final
    have value := given_of_last last
    rw [Edits.last?_congr alike, found] at value
    rw [last, Option.map_some, ← same, congr _ _ (Option.some.inj value)]

theorem getLast?_eq_none_iff (edited : Edited edits entries) :
    entries.getLast? = none ↔ ∀ key, Edits.last? key edits = none := by
  have absent (key : Scalar) : Edits.last? key edits = none ↔ entries.find? key = none := by
    rw [← Option.not_isSome_iff_eq_none, ← edited.isSome_find?, Option.not_isSome_iff_eq_none]
  simp only [absent, List.getLast?_eq_none_iff]
  constructor
  · rintro rfl key
    rfl
  · intro nothing
    refine List.eq_nil_iff_forall_not_mem.2 fun entry member => ?_
    have found := edited.distinct.find?_of_mem member
    rw [nothing entry.1] at found
    contradiction

theorem mergeValue (edited : Edited edits entries) (key : Scalar) (value : Data) :
    Edited (edits ++ [Entries.laid (key, value)]) (mergeValue entries key value) := by
  cases value with
  | scalar s =>
      cases s with
      | null => exact edited.take key
      | _ => exact edited.give key rfl
  | sequence items => exact edited.give key rfl
  | mapping part =>
      rw [Data.mergeValue]
      split
      · exact edited.give key rfl
      · exact edited.give key rfl

theorem mergeEntries (edited : Edited edits entries) (above : Entries) :
    Edited (edits ++ above.map Entries.laid) (mergeEntries entries above) := by
  induction above generalizing edits entries with
  | nil =>
      rw [List.map_nil, List.append_nil, Data.mergeEntries]
      exact edited
  | cons entry above ih =>
      obtain ⟨key, value⟩ := entry
      rw [List.map_cons, List.append_cons, Data.mergeEntries, mergeEntry]
      exact ih (edited.mergeValue key value)

theorem of_distinct {entries : Entries} (distinct : entries.Distinct) :
    Edited (entries.map Entries.taken) entries := by
  induction entries using List.reverseRecOn with
  | nil => exact .nil
  | append_singleton front entry ih =>
      obtain ⟨earlier, -, apart⟩ := List.pairwise_append.1 distinct
      have new : Entries.find? entry.1 front = none := by
        refine Option.eq_none_iff_forall_ne_some.2 fun value found => ?_
        obtain ⟨here, same, member⟩ := Entries.mem_of_find? found
        rw [apart _ member entry (List.mem_singleton_self entry)] at same
        contradiction
      have put : Entries.put entry.1 entry.2 front = front ++ [entry] := Entries.put_of_absent new
      rw [List.map_append, List.map_singleton, ← put]
      exact (ih earlier).give entry.1 rfl

end Edited

end PkgRecipe.Data
