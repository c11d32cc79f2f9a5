import PkgRecipe.Table

namespace PkgRecipe

theorem lookup_of_perm {κ α : Type} [BEq κ] [LawfulBEq κ] {first second : List (κ × α)}
    (perm : first.Perm second) (nodup : (first.map Prod.fst).Nodup) (key : κ) :
    first.lookup key = second.lookup key := by
  induction perm with
  | nil => rfl
  | cons entry _ ih =>
      rw [List.lookup_cons, List.lookup_cons, ih (List.nodup_cons.1 nodup).2]
  | swap entry other table =>
      obtain ⟨name, value⟩ := entry
      obtain ⟨name', value'⟩ := other
      have differ : name' ≠ name := by
        simp only [List.map_cons, List.nodup_cons, List.mem_cons, not_or] at nodup
        exact nodup.1.1
      rw [List.lookup_cons, List.lookup_cons, List.lookup_cons, List.lookup_cons]
      cases same : key == name with
      | false => rfl
      | true =>
          have apart : (key == name') = false := by
            rw [beq_iff_eq.1 same, beq_eq_false_iff_ne]
            exact Ne.symm differ
          rw [apart]
  | trans perm _ ih ih' =>
      exact (ih nodup).trans (ih' ((perm.map Prod.fst).nodup_iff.1 nodup))

namespace Table

theorem lookup_eq_none_iff_notMem_keys {α : Type} {table : Table α} {name : List Char} :
    table.lookup name = none ↔ name ∉ table.keys := by
  rw [List.lookup_eq_none_iff, keys, List.mem_map]
  constructor
  · rintro apart ⟨entry, member, rfl⟩
    exact absurd (apart entry member) (by simp)
  · intro apart entry member
    simpa using fun same : name = entry.1 => apart ⟨entry, member, same.symm⟩

theorem mem_put {α : Type} {key : List Char} {value : α} {table : Table α}
    {entry : List Char × α} (member : entry ∈ table.put key value) :
    entry ∈ table ∨ entry = (key, value) := by
  induction table with
  | nil => exact .inr (List.mem_singleton.1 member)
  | cons first rest ih =>
      obtain ⟨other, old⟩ := first
      rw [put] at member
      split at member
      · rcases List.mem_cons.1 member with here | later
        · exact .inr here
        · exact .inl (List.mem_cons_of_mem _ later)
      · rcases List.mem_cons.1 member with rfl | later
        · exact .inl List.mem_cons_self
        · exact (ih later).imp (List.mem_cons_of_mem _) id

theorem lookup_ofEntries {α : Type} (rows : List (List Char × α)) (key : List Char) :
    (Table.ofEntries rows).lookup key = (rows.filter (·.1 = key)).getLast?.map Prod.snd := by
  suffices general : ∀ table : Table α,
      (rows.foldl (fun table row => Table.put row.1 row.2 table) table).lookup key =
        ((rows.filter (·.1 = key)).getLast?.map Prod.snd).or (table.lookup key) from
    (general []).trans Option.or_none
  induction rows with
  | nil => exact fun table => rfl
  | cons row rows ih =>
      intro table
      rw [List.foldl_cons, ih, List.filter_cons]
      by_cases same : row.1 = key
      · rw [if_pos (by simpa using same), ← same, Table.lookup_put, List.getLast?_cons]
        cases (rows.filter (·.1 = row.1)).getLast? with
        | none => rfl
        | some last => rfl
      · rw [if_neg (by simpa using same), Table.lookup_put_of_ne (Ne.symm same)]

end Table

end PkgRecipe
