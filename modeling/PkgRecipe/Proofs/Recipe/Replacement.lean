import Mathlib.Data.List.TakeWhile
import PkgRecipe.Proofs.Text.WordChar
import PkgRecipe.Recipe.Reference

namespace PkgRecipe.Recipe

/-! References as they stand in a text, and texts in which they are replaced from left to right. The
references that are read, and the texts that the replacement gives, are exactly these. -/

structure IsReferenceName (name : List Char) : Prop where
  starts : name.head?.any Shell.isNameStart = true
  word : ∀ c ∈ name, Text.isWordChar c = true

/-- A text, from which a dollar sign was taken, begins with a reference. Without braces the name is
as long as it can be. -/
inductive Refers : List Char → Reference → List Char → Prop where
  | braced {name : List Char} (named : IsReferenceName name) (after : List Char) :
      Refers ('\x7b' :: (name ++ '\x7d' :: after)) ⟨name, true⟩ after
  | bare {name after : List Char} (named : IsReferenceName name)
      (ended : beginsWithWordChar after = false) :
      Refers (name ++ after) ⟨name, false⟩ after

/-- A text in which each reference has become its value, and all else is as it was. -/
inductive Replaced (value : Reference → List Char) : List Char → List Char → Prop where
  | nil : Replaced value [] []
  | reference {text after out : List Char} {r : Reference} (refers : Refers text r after)
      (rest : Replaced value after out) : Replaced value ('$' :: text) (value r ++ out)
  | char {c : Char} {text out : List Char}
      (plain : c = '$' → ∀ r after, ¬Refers text r after) (rest : Replaced value text out) :
      Replaced value (c :: text) (c :: out)

theorem isWordChar_of_isNameStart {c : Char} (starts : Shell.isNameStart c = true) :
    Text.isWordChar c = true := by
  refine Text.isWordChar_of_isAsciiWord ?_
  rw [Shell.isNameStart, Bool.or_eq_true] at starts
  rcases starts with letter | line
  · simp [Text.isAsciiWord, Char.isAlphanum, letter]
  · simp [Text.isAsciiWord, line]

theorem IsReferenceName.ne_nil {name : List Char} (named : IsReferenceName name) : name ≠ [] := by
  rintro rfl
  exact absurd named.starts (by decide)

theorem referencedName?_eq_some_iff {text name after : List Char} :
    referencedName? text = some (name, after) ↔
      text = name ++ after ∧ IsReferenceName name ∧ beginsWithWordChar after = false := by
  constructor
  · intro found
    cases text with
    | nil => contradiction
    | cons c text =>
        rw [referencedName?] at found
        split at found
        · rename_i starts
          obtain ⟨rfl, rfl⟩ := Prod.mk.inj (Option.some.inj found)
          refine ⟨?_, ⟨starts, fun d member => ?_⟩, ?_⟩
          · rw [List.cons_append, List.takeWhile_append_dropWhile]
          · rcases List.mem_cons.1 member with rfl | later
            · exact isWordChar_of_isNameStart starts
            · exact List.mem_takeWhile_imp later
          · have ended := List.head?_dropWhile_not Text.isWordChar text
            cases rest : text.dropWhile Text.isWordChar with
            | nil => rfl
            | cons d rest =>
                rw [rest] at ended
                exact ended
        · contradiction
  · rintro ⟨rfl, named, ended⟩
    cases name with
    | nil => exact absurd rfl named.ne_nil
    | cons c name =>
        have word : ∀ d ∈ name, Text.isWordChar d = true :=
          fun d member => named.word d (List.mem_cons_of_mem c member)
        have starts : Shell.isNameStart c = true := named.starts
        rw [List.cons_append, referencedName?, if_pos starts, List.takeWhile_append_of_pos word,
          List.dropWhile_append_of_pos word]
        cases after with
        | nil => rw [List.takeWhile_nil, List.dropWhile_nil, List.append_nil]
        | cons d after =>
            have stops : ¬Text.isWordChar d = true := by
              rw [Bool.not_eq_true]
              exact ended
            rw [List.takeWhile_cons_of_neg stops, List.dropWhile_cons_of_neg stops,
              List.append_nil]

theorem reference?_of_head?_ne {text : List Char} (unbraced : text.head? ≠ some '\x7b') :
    reference? text = (referencedName? text).map fun (name, after) => (⟨name, false⟩, after) := by
  unfold reference?
  split
  · exact absurd rfl unbraced
  · rfl

theorem reference?_eq_some_iff {text after : List Char} {r : Reference} :
    reference? text = some (r, after) ↔ Refers text r after := by
  constructor
  · intro found
    unfold reference? at found
    split at found
    · split at found
      · rename_i read
        obtain ⟨rfl, rfl⟩ := Prod.mk.inj (Option.some.inj found)
        obtain ⟨rfl, named, -⟩ := referencedName?_eq_some_iff.1 read
        exact .braced named _
      · contradiction
    · obtain ⟨⟨name, rest⟩, read, same⟩ := Option.map_eq_some_iff.1 found
      obtain ⟨rfl, rfl⟩ := Prod.mk.inj same
      obtain ⟨rfl, named, ended⟩ := referencedName?_eq_some_iff.1 read
      exact .bare named ended
  · intro refers
    cases refers with
    | braced named =>
        rename_i name
        have closes : Text.isWordChar '\x7d' = false := by decide
        have read : referencedName? (name ++ '\x7d' :: after) = some (name, '\x7d' :: after) :=
          referencedName?_eq_some_iff.2 ⟨rfl, named, closes⟩
        simp only [reference?, read]
    | bare named ended =>
        rename_i name
        have unbraced : (name ++ after).head? ≠ some '\x7b' := by
          intro opened
          obtain ⟨c, name, rfl⟩ := List.exists_cons_of_ne_nil named.ne_nil
          obtain rfl := Option.some.inj opened
          have starts : Shell.isNameStart '\x7b' = true := named.starts
          contradiction
        rw [reference?_of_head?_ne unbraced,
          referencedName?_eq_some_iff.2 ⟨rfl, named, ended⟩, Option.map_some]

theorem reference?_eq_none_iff {text : List Char} :
    reference? text = none ↔ ∀ r after, ¬Refers text r after := by
  rw [Option.eq_none_iff_forall_ne_some]
  constructor
  · intro unread r after refers
    exact unread _ (reference?_eq_some_iff.2 refers)
  · rintro unread ⟨r, after⟩ found
    exact unread r after (reference?_eq_some_iff.1 found)

theorem Refers.name {text after : List Char} {r : Reference} (refers : Refers text r after) :
    IsReferenceName r.name := by
  cases refers with
  | braced named => exact named
  | bare named ended => exact named

section Replacing

variable {replacement : Reference → List Char}

theorem replaceReferences_cons {c : Char} {text : List Char}
    (plain : c = '$' → reference? text = none) :
    replaceReferences replacement (c :: text) = c :: replaceReferences replacement text := by
  rw [replaceReferences]
  split
  · rename_i dollar
    split
    · rename_i found
      rw [plain dollar] at found
      contradiction
    · rfl
  · rfl

theorem replaceReferences_append_of_notMem {first : List Char} (dollarless : '$' ∉ first)
    (text : List Char) :
    replaceReferences replacement (first ++ text) =
      first ++ replaceReferences replacement text := by
  induction first with
  | nil => rfl
  | cons c first ih =>
      rw [List.mem_cons, not_or] at dollarless
      have plain : c = '$' → reference? (first ++ text) = Option.none :=
        fun dollar => absurd dollar.symm dollarless.1
      rw [List.cons_append, replaceReferences_cons plain, ih dollarless.2, List.cons_append]

theorem replaceReferences_of_notMem {text : List Char} (dollarless : '$' ∉ text) :
    replaceReferences replacement text = text := by
  rw [← List.append_nil text, replaceReferences_append_of_notMem dollarless, replaceReferences]

theorem replaceReferences_of_reference? {text after : List Char} {r : Reference}
    (found : reference? text = some (r, after)) :
    replaceReferences replacement ('$' :: text) =
      replacement r ++ replaceReferences replacement after := by
  rw [replaceReferences, if_pos rfl]
  split
  · rename_i other left same
    rw [found] at same
    obtain ⟨rfl, rfl⟩ := Prod.mk.inj (Option.some.inj same)
    rfl
  · rename_i failed
    rw [found] at failed
    contradiction

theorem replaced_iff {text out : List Char} :
    Replaced replacement text out ↔ out = replaceReferences replacement text := by
  constructor
  · intro replaced
    induction replaced with
    | nil => rw [replaceReferences]
    | reference refers _ ih =>
        rw [replaceReferences_of_reference? (reference?_eq_some_iff.2 refers), ih]
    | char plain _ ih =>
        rw [replaceReferences_cons fun dollar => reference?_eq_none_iff.2 (plain dollar), ih]
  · rintro rfl
    induction text using replaceReferences.induct with
    | case1 =>
        rw [replaceReferences]
        exact .nil
    | case2 text r after found ih =>
        rw [replaceReferences_of_reference? found]
        exact .reference (reference?_eq_some_iff.1 found) ih
    | case3 text unread ih =>
        rw [replaceReferences_cons fun _ => unread]
        exact .char (fun _ => reference?_eq_none_iff.1 unread) ih
    | case4 c text notDollar ih =>
        rw [replaceReferences_cons fun dollar => absurd dollar notDollar]
        exact .char (fun dollar => absurd dollar notDollar) ih

end Replacing

end PkgRecipe.Recipe
