import PkgRecipe.Data.Keys

namespace PkgRecipe

namespace Data

namespace Entries

def among (p : Scalar → Bool) (entries : Entries) : Entries :=
  entries.filter fun entry => p entry.1

theorem find?_put (key : Scalar) (value : Data) (entries : Entries) (other : Scalar) :
    (entries.put key value).find? other =
      if key.sameKey other then some value else entries.find? other := by
  induction entries with
  | nil => rfl
  | cons entry rest ih =>
      obtain ⟨present, old⟩ := entry
      rw [put]
      split
      · rename_i same
        rw [find?, find?, Scalar.sameKey_congr same]
        split
        · rfl
        · rfl
      · rename_i differs
        rw [find?, find?, ih]
        split
        · rename_i here
          rw [if_neg]
          intro same
          rw [Scalar.sameKey_congr here, Scalar.sameKey_comm, same] at differs
          exact differs rfl
        · rfl

theorem find?_without (key : Scalar) (entries : Entries) (other : Scalar) :
    (entries.without key).find? other =
      if key.sameKey other then none else entries.find? other := by
  induction entries with
  | nil =>
      rw [without, List.filter_nil, find?, ite_self]
  | cons entry rest ih =>
      obtain ⟨present, old⟩ := entry
      rw [without] at ih ⊢
      rw [List.filter_cons]
      cases same : present.sameKey key with
      | true =>
          rw [if_neg (by simp), ih, find?, Scalar.sameKey_congr same]
          split
          · rfl
          · rfl
      | false =>
          rw [if_pos (by simp), find?, find?, ih]
          split
          · rename_i here
            rw [if_neg]
            intro same'
            rw [Scalar.sameKey_congr here, Scalar.sameKey_comm, same'] at same
            contradiction
          · rfl

theorem find?_congr {key other : Scalar} (same : key.sameKey other = true) (entries : Entries) :
    entries.find? key = entries.find? other := by
  induction entries with
  | nil => rfl
  | cons entry rest ih =>
      rw [find?, find?, ih, Scalar.sameKey_comm, Scalar.sameKey_congr same, Scalar.sameKey_comm]

/-- The values that entries give under a key, in turn. -/
def given (key : Scalar) (entries : Entries) : List Data :=
  (entries.among (·.sameKey key)).map Prod.snd

theorem given_cons (entry : Scalar × Data) (rest : Entries) (key : Scalar) :
    given key (entry :: rest) =
      if entry.1.sameKey key then entry.2 :: rest.given key else rest.given key := by
  rw [given, among, List.filter_cons]
  split
  · rfl
  · rfl

private theorem mem_given {entry : Scalar × Data} {entries : Entries} (member : entry ∈ entries) :
    entry.2 ∈ entries.given entry.1 :=
  List.mem_map_of_mem (List.mem_filter.2 ⟨member, entry.1.sameKey_refl⟩)

private theorem head?_given (key : Scalar) (entries : Entries) :
    (entries.given key).head? = entries.find? key := by
  induction entries with
  | nil => rfl
  | cons entry rest ih =>
      rw [given_cons, find?]
      split
      · rfl
      · exact ih

theorem Distinct.given {entries : Entries} (distinct : entries.Distinct) (key : Scalar) :
    entries.given key = (entries.find? key).toList := by
  induction entries with
  | nil => rfl
  | cons entry rest ih =>
      obtain ⟨apart, later⟩ := List.pairwise_cons.1 distinct
      rw [given_cons, find?]
      split
      · rename_i same
        have nothing : Entries.given key rest = [] := by
          refine List.map_eq_nil_iff.2 (List.filter_eq_nil_iff.2 fun other member => ?_)
          show ¬other.1.sameKey key = true
          rw [Scalar.sameKey_comm, ← Scalar.sameKey_congr same, apart other member]
          exact Bool.false_ne_true
        rw [nothing]
        rfl
      · exact ih later

theorem Distinct.find?_of_mem {entries : Entries} (distinct : entries.Distinct)
    {entry : Scalar × Data} (member : entry ∈ entries) :
    entries.find? entry.1 = some entry.2 := by
  have given := mem_given member
  rw [distinct.given] at given
  exact Option.mem_toList.1 given

theorem put_of_find? {entries : Entries} {key : Scalar} {value : Data}
    (found : entries.find? key = some value) : entries.put key value = entries := by
  induction entries with
  | nil => contradiction
  | cons entry rest ih =>
      obtain ⟨other, old⟩ := entry
      rw [find?] at found
      rw [put]
      split at found
      · rename_i same
        cases found
        rw [if_pos same]
      · rename_i differs
        rw [if_neg differs, ih found]

theorem put_of_absent {entries : Entries} {key : Scalar} {value : Data}
    (absent : entries.find? key = none) : entries.put key value = entries ++ [(key, value)] := by
  induction entries with
  | nil => rfl
  | cons entry rest ih =>
      obtain ⟨other, old⟩ := entry
      rw [find?] at absent
      rw [put]
      split at absent
      · contradiction
      · rename_i differs
        rw [if_neg differs, ih absent, List.cons_append]

theorem without_of_find? {entries : Entries} {key : Scalar}
    (absent : entries.find? key = none) : entries.without key = entries := by
  have nothing : entries.given key = [] := by
    apply List.head?_eq_none_iff.1
    exact (head?_given key entries).trans absent
  apply List.filter_eq_self.2
  intro entry member
  have differs := List.filter_eq_nil_iff.1 (List.map_eq_nil_iff.1 nothing) entry member
  simpa using differs

end Entries

theorem Entries.Distinct.among {entries : Entries} (distinct : entries.Distinct)
    (p : Scalar → Bool) : (entries.among p).Distinct :=
  List.Pairwise.filter _ distinct

/-- Whether what is the same as a key is of the same kind. -/
def IsKind (p : Scalar → Bool) : Prop :=
  ∀ key other : Scalar, key.sameKey other = true → p key = p other

section Kind

variable {p : Scalar → Bool} (kind : IsKind p)

include kind

theorem among_put (key : Scalar) (value : Data) (entries : Entries) :
    (entries.put key value).among p =
      if p key then (entries.among p).put key value else entries.among p := by
  induction entries with
  | nil =>
      cases here : p key with
      | true => simp [Entries.put, Entries.among, here]
      | false => simp [Entries.put, Entries.among, here]
  | cons entry rest ih =>
      obtain ⟨other, old⟩ := entry
      unfold Entries.among at ih ⊢
      rw [Entries.put]
      split
      · rename_i same
        have alike := kind other key same
        rw [List.filter_cons, List.filter_cons, alike]
        cases p key with
        | true => simp [Entries.put, same]
        | false => rfl
      · rename_i differs
        rw [List.filter_cons, List.filter_cons, ih]
        cases p other with
        | false => rfl
        | true =>
            cases p key with
            | true => simp [Entries.put, differs]
            | false => rfl

theorem among_without (key : Scalar) (entries : Entries) :
    (entries.without key).among p =
      if p key then (entries.among p).without key else entries.among p := by
  unfold Entries.among Entries.without
  cases here : p key with
  | true => simp only [if_true, List.filter_filter, Bool.and_comm]
  | false =>
      simp only [Bool.false_eq_true, if_false, List.filter_filter]
      refine List.filter_congr fun entry _ => ?_
      cases same : entry.1.sameKey key with
      | true => rw [kind _ _ same, here, Bool.false_and]
      | false => rw [Bool.not_false, Bool.and_true]

theorem find?_among {key : Scalar} (here : p key = true) (entries : Entries) :
    (entries.among p).find? key = entries.find? key := by
  induction entries with
  | nil => rfl
  | cons entry rest ih =>
      unfold Entries.among at ih ⊢
      rw [List.filter_cons, Entries.find?]
      cases same : entry.1.sameKey key with
      | true =>
          rw [kind _ _ same, if_pos here, Entries.find?, same]
          rfl
      | false =>
          split
          · rw [Entries.find?, same, ih]
          · rw [ih]
            rfl

end Kind

theorem isKind_sameKey (key : Scalar) : IsKind (·.sameKey key) :=
  fun _ _ same => Scalar.sameKey_congr same key

def scalar? : Data → Option Scalar
  | .scalar s => some s
  | _ => none

theorem scalar?_eq_some_iff {data : Data} {s : Scalar} :
    scalar? data = some s ↔ data = .scalar s := by
  refine ⟨fun same => ?_, fun same => same ▸ rfl⟩
  cases data with
  | scalar s' => exact congrArg Data.scalar (Option.some.inj same)
  | _ => contradiction

def isNull : Data → Bool
  | .scalar .null => true
  | _ => false

def isMapping : Data → Bool
  | .mapping _ => true
  | _ => false

theorem not_isNull_iff {value : Data} : (!value.isNull) = true ↔ value ≠ .null := by
  cases value with
  | scalar s => cases s <;> simp [isNull, null]
  | sequence items => simp [isNull, null]
  | mapping entries => simp [isNull, null]

end Data

end PkgRecipe
