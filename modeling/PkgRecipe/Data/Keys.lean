import PkgRecipe.Data.Tree

namespace PkgRecipe

namespace Scalar

theorem sameKey_refl (key : Scalar) : key.sameKey key = true :=
  beq_self_eq_true key.key

theorem sameKey_comm (key other : Scalar) : key.sameKey other = other.sameKey key :=
  Bool.beq_comm

theorem sameKey_congr {key other : Scalar} (same : key.sameKey other = true) (third : Scalar) :
    key.sameKey third = other.sameKey third := by
  unfold sameKey
  rw [beq_iff_eq.1 same]

theorem sameKey_text {key : Scalar} {t : List Char} :
    key.sameKey (.text t) = true ↔ key = .text t := by
  refine ⟨fun same => ?_, fun same => same ▸ sameKey_refl key⟩
  have keys : key.key = .scalar (.text t) := beq_iff_eq.1 same
  cases key with
  | text other =>
      cases keys
      rfl
  | float x =>
      simp only [Scalar.key] at keys
      split at keys
      · cases keys
      · cases keys
  | dateTime d =>
      simp only [Scalar.key] at keys
      split at keys
      · cases keys
      · cases keys
  | null => cases keys
  | bool b => cases keys
  | int n => cases keys
  | bytes b => cases keys
  | date d => cases keys
  | foreign v => cases keys

end Scalar

namespace Data.Entries

def Distinct (entries : Entries) : Prop :=
  entries.Pairwise fun entry other => entry.1.sameKey other.1 = false

theorem mem_put {key : Scalar} {value : Data} {entries : Entries} {entry : Scalar × Data}
    (member : entry ∈ entries.put key value) :
    entry ∈ entries ∨ entry.2 = value ∧ (entry.1 = key ∨ ∃ old, (entry.1, old) ∈ entries) := by
  induction entries with
  | nil =>
      obtain rfl := List.mem_singleton.1 member
      exact .inr ⟨rfl, .inl rfl⟩
  | cons first rest ih =>
      obtain ⟨other, old⟩ := first
      rw [put] at member
      split at member
      · rcases List.mem_cons.1 member with rfl | later
        · exact .inr ⟨rfl, .inr ⟨old, List.mem_cons_self⟩⟩
        · exact .inl (List.mem_cons_of_mem _ later)
      · rcases List.mem_cons.1 member with rfl | later
        · exact .inl List.mem_cons_self
        · rcases ih later with present | ⟨same, here | ⟨old', there⟩⟩
          · exact .inl (List.mem_cons_of_mem _ present)
          · exact .inr ⟨same, .inl here⟩
          · exact .inr ⟨same, .inr ⟨old', List.mem_cons_of_mem _ there⟩⟩

theorem Distinct.put {entries : Entries} (distinct : entries.Distinct) (key : Scalar)
    (value : Data) : (entries.put key value).Distinct := by
  induction entries with
  | nil => exact List.pairwise_singleton _ _
  | cons first rest ih =>
      obtain ⟨other, old⟩ := first
      obtain ⟨apart, later⟩ := List.pairwise_cons.1 distinct
      rw [Entries.put]
      split
      · exact List.pairwise_cons.2 ⟨apart, later⟩
      · rename_i differs
        refine List.pairwise_cons.2 ⟨fun entry member => ?_, ih later⟩
        rcases mem_put member with present | ⟨-, here | ⟨old', there⟩⟩
        · exact apart entry present
        · rw [here]
          exact Bool.eq_false_iff.2 differs
        · exact apart (entry.1, old') there

theorem mem_of_find? {key : Scalar} {entries : Entries} {value : Data}
    (found : entries.find? key = some value) :
    ∃ here : Scalar, here.sameKey key = true ∧ (here, value) ∈ entries := by
  induction entries with
  | nil => contradiction
  | cons entry rest ih =>
      rw [find?] at found
      split at found
      · rename_i same
        cases found
        exact ⟨entry.1, same, List.mem_cons_self⟩
      · obtain ⟨here, same, member⟩ := ih found
        exact ⟨here, same, List.mem_cons_of_mem _ member⟩

/-- No two keys of a mapping are the same, nor of any mapping in it. -/
inductive DistinctKeys : Entries → Prop
  | intro {entries : Entries} (distinct : entries.Distinct)
      (inner : ∀ entry ∈ entries, ∀ part, entry.2 = .mapping part → DistinctKeys part) :
      DistinctKeys entries

theorem DistinctKeys.nil : DistinctKeys [] :=
  .intro List.Pairwise.nil nofun

theorem DistinctKeys.distinct {entries : Entries} (keys : entries.DistinctKeys) :
    entries.Distinct := by
  cases keys with
  | intro distinct inner => exact distinct

theorem DistinctKeys.inner {entries part : Entries} (keys : entries.DistinctKeys) {key : Scalar}
    (found : entries.find? key = some (.mapping part)) : part.DistinctKeys := by
  cases keys with
  | intro distinct inner =>
      obtain ⟨present, -, member⟩ := mem_of_find? found
      exact inner _ member part rfl

theorem DistinctKeys.put {entries : Entries} (keys : entries.DistinctKeys) (key : Scalar)
    {value : Data} (inner : ∀ part : Entries, value = .mapping part → part.DistinctKeys) :
    (entries.put key value).DistinctKeys := by
  cases keys with
  | intro distinct parts =>
      refine .intro (distinct.put key value) fun entry member part same => ?_
      rcases mem_put member with present | ⟨here, -⟩
      · exact parts entry present part same
      · exact inner part (here.symm.trans same)

end Data.Entries

end PkgRecipe
