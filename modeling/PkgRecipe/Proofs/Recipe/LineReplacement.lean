import PkgRecipe.Proofs.Recipe.Replacement

namespace PkgRecipe.Recipe

private theorem takeWhile_isWordChar_lineEnd (first rest : List Char) :
    (first ++ '\n' :: rest).takeWhile Text.isWordChar = first.takeWhile Text.isWordChar := by
  have stops : ¬Text.isWordChar '\n' = true := by decide
  rw [List.takeWhile_append, List.takeWhile_cons_of_neg stops, List.append_nil]
  split
  · rename_i whole
    exact ((List.takeWhile_prefix _).eq_of_length whole).symm
  · rfl

private theorem dropWhile_isWordChar_lineEnd (first rest : List Char) :
    (first ++ '\n' :: rest).dropWhile Text.isWordChar =
      first.dropWhile Text.isWordChar ++ '\n' :: rest := by
  have stops : ¬Text.isWordChar '\n' = true := by decide
  rw [List.dropWhile_append, List.dropWhile_cons_of_neg stops]
  split
  · rename_i wordless
    rw [List.isEmpty_iff.1 wordless, List.nil_append]
  · rfl

private theorem beginsWithWordChar_lineEnd (first rest : List Char) :
    beginsWithWordChar (first ++ '\n' :: rest) = beginsWithWordChar first := by
  cases first with
  | nil => exact (by decide : Text.isWordChar '\n' = false)
  | cons c first => rfl

private theorem referencedName?_lineEnd (first rest : List Char) :
    referencedName? (first ++ '\n' :: rest) =
      (referencedName? first).map fun (name, after) => (name, after ++ '\n' :: rest) := by
  cases first with
  | nil => rfl
  | cons c first =>
      rw [List.cons_append, referencedName?, referencedName?, takeWhile_isWordChar_lineEnd,
        dropWhile_isWordChar_lineEnd]
      split
      · rfl
      · rfl

theorem reference?_lineEnd (first rest : List Char) :
    reference? (first ++ '\n' :: rest) =
      (reference? first).map fun (r, after) => (r, after ++ '\n' :: rest) := by
  by_cases braced : first.head? = some '\x7b'
  · obtain ⟨name, rfl⟩ := List.head?_eq_some_iff.1 braced
    rw [List.cons_append, reference?, reference?, referencedName?_lineEnd]
    rcases referencedName? name with _ | ⟨read, _ | ⟨c, after⟩⟩
    · rfl
    · rfl
    · by_cases closes : c = '\x7d'
      · subst c
        rfl
      · simp [closes]
  · have unbraced : (first ++ '\n' :: rest).head? ≠ some '\x7b' := by
      cases first with
      | nil => exact (by decide : some '\n' ≠ some '\x7b')
      | cons c first => exact braced
    rw [reference?_of_head?_ne unbraced, reference?_of_head?_ne braced, referencedName?_lineEnd]
    cases referencedName? first with
    | none => rfl
    | some read => rfl

theorem replaceReferences_lineEnd (replacement : Reference → List Char) (first rest : List Char) :
    replaceReferences replacement (first ++ '\n' :: rest) =
      replaceReferences replacement first ++ '\n' :: replaceReferences replacement rest := by
  induction first using replaceReferences.induct with
  | case1 =>
      rw [replaceReferences.eq_1]
      exact replaceReferences_cons fun dollar => absurd dollar (by decide)
  | case2 text r after found ih =>
      have found' : reference? (text ++ '\n' :: rest) = some (r, after ++ '\n' :: rest) := by
        rw [reference?_lineEnd, found, Option.map_some]
      rw [List.cons_append, replaceReferences_of_reference? found',
        replaceReferences_of_reference? found, ih, List.append_assoc]
  | case3 text unread ih =>
      have unread' : reference? (text ++ '\n' :: rest) = .none := by
        rw [reference?_lineEnd, unread, Option.map_none]
      rw [List.cons_append, replaceReferences_cons fun _ => unread',
        replaceReferences_cons fun _ => unread, ih, List.cons_append]
  | case4 c text notDollar ih =>
      rw [List.cons_append, replaceReferences_cons fun dollar => absurd dollar notDollar,
        replaceReferences_cons fun dollar => absurd dollar notDollar, ih, List.cons_append]

private theorem isPrefixOf_lineEnd {word : List Char} (oneLine : '\n' ∉ word) (first rest : List Char) :
    word.isPrefixOf (first ++ '\n' :: rest) = word.isPrefixOf first := by
  induction word generalizing first with
  | nil => cases first <;> rfl
  | cons c word ih =>
      rw [List.mem_cons, not_or] at oneLine
      cases first with
      | nil =>
          have differs : (c == '\n') = false := by simpa using Ne.symm oneLine.1
          simp [List.isPrefixOf, differs]
      | cons d first =>
          rw [List.cons_append, List.isPrefixOf, List.isPrefixOf, ih oneLine.2]

theorem afterName?_lineEnd {name : List Char} (oneLine : '\n' ∉ name) (first rest : List Char) :
    afterName? name (first ++ '\n' :: rest) = (afterName? name first).map (· ++ '\n' :: rest) := by
  have braced : '\n' ∉ '\x7b' :: (name ++ ['\x7d']) := by
    simpa using oneLine
  unfold afterName?
  rw [isPrefixOf_lineEnd braced, isPrefixOf_lineEnd oneLine]
  split
  · rename_i found
    have within := (List.isPrefixOf_iff_prefix.1 found).length_le
    rw [List.length_cons, List.length_append, List.length_singleton] at within
    rw [List.drop_append_of_le_length (by omega), Option.map_some]
  · cases found : name.isPrefixOf first with
    | false => rfl
    | true =>
        have within := (List.isPrefixOf_iff_prefix.1 found).length_le
        rw [List.drop_append_of_le_length within, beginsWithWordChar_lineEnd]
        split
        · rfl
        · rfl

theorem replaceName_cons {name replacement text : List Char} {c : Char}
    (plain : c = '$' → afterName? name text = none) :
    replaceName name replacement (c :: text) = c :: replaceName name replacement text := by
  rw [replaceName]
  split
  · rename_i dollar
    split
    · rename_i found
      rw [plain dollar] at found
      contradiction
    · rfl
  · rfl

theorem replaceName_of_afterName? {name replacement text after : List Char}
    (found : afterName? name text = some after) :
    replaceName name replacement ('$' :: text) =
      replacement ++ replaceName name replacement after := by
  rw [replaceName, if_pos rfl]
  split
  · rename_i same
    rw [found] at same
    obtain rfl := Option.some.inj same
    rfl
  · rename_i failed
    rw [found] at failed
    contradiction

theorem replaceName_lineEnd {name : List Char} (oneLine : '\n' ∉ name)
    (replacement first rest : List Char) :
    replaceName name replacement (first ++ '\n' :: rest) =
      replaceName name replacement first ++ '\n' :: replaceName name replacement rest := by
  induction first using replaceName.induct name with
  | case1 =>
      rw [replaceName.eq_1]
      exact replaceName_cons fun dollar => absurd dollar (by decide)
  | case2 text after found ih =>
      have found' : afterName? name (text ++ '\n' :: rest) = some (after ++ '\n' :: rest) := by
        rw [afterName?_lineEnd oneLine, found, Option.map_some]
      rw [List.cons_append, replaceName_of_afterName? found', replaceName_of_afterName? found, ih,
        List.append_assoc]
  | case3 text unread ih =>
      have unread' : afterName? name (text ++ '\n' :: rest) = .none := by
        rw [afterName?_lineEnd oneLine, unread, Option.map_none]
      rw [List.cons_append, replaceName_cons fun _ => unread', replaceName_cons fun _ => unread, ih,
        List.cons_append]
  | case4 c text notDollar ih =>
      rw [List.cons_append, replaceName_cons fun dollar => absurd dollar notDollar,
        replaceName_cons fun dollar => absurd dollar notDollar, ih, List.cons_append]

theorem substitute_lineEnd {table : Table (List Char)} (oneLine : ∀ name ∈ table.keys, '\n' ∉ name)
    (first rest : List Char) :
    substitute table (first ++ '\n' :: rest) =
      substitute table first ++ '\n' :: substitute table rest := by
  unfold substitute
  rw [← replaceReferences_lineEnd]
  congr 1
  induction table generalizing first rest with
  | nil => rfl
  | cons entry table ih =>
      have here := oneLine entry.1 List.mem_cons_self
      have later : ∀ name ∈ Table.keys table, '\n' ∉ name :=
        fun name member => oneLine name (List.mem_cons_of_mem _ member)
      simp only [List.foldl_cons, replaceName_lineEnd here]
      exact ih later _ _

end PkgRecipe.Recipe
