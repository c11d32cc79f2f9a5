import PkgRecipe.Proofs.Recipe.Replacement
import PkgRecipe.Proofs.Ruby.Reading

namespace PkgRecipe.Recipe

/-! String literals whose references are replaced after they are written. References are found in
the literal exactly where the string has them, and nothing else in the literal is interpolated. -/

private theorem reference?_eq_none_of_unclosed {text name after : List Char}
    (named : referencedName? text = some (name, after)) (unclosed : after.head? ≠ some '\x7d') :
    reference? ('\x7b' :: text) = none := by
  rw [reference?]
  split
  · rename_i found
    rw [named] at found
    obtain ⟨-, rfl⟩ := Prod.mk.inj (Option.some.inj found)
    exact absurd rfl unclosed
  · rfl

section Written

open Ruby

variable {keepNewlines : Bool}

theorem dollar_notMem_stringChar {c : Char} (notDollar : c ≠ '$') (rest : List Char) :
    '$' ∉ stringChar keepNewlines c rest := by
  intro member
  exact notDollar (eq_of_mem_stringChar (by decide) member).1.symm

private theorem escapeLetter?_of_isWordChar {c : Char} (word : Text.isWordChar c = true) :
    escapeLetter? c = none := by
  unfold escapeLetter?
  repeat' split
  all_goals first
    | rfl
    | subst c
      contradiction

theorem stringChar_of_isPrintable {c : Char} (unescaped : escapeLetter? c = none)
    (notSign : c ≠ '#') (printable : Text.isPrintable c = true) (rest : List Char) :
    stringChar keepNewlines c rest = [c] := by
  unfold stringChar
  split
  · rfl
  · simp only [unescaped, notSign, false_and, if_false]

theorem stringChar_dollar (rest : List Char) : stringChar keepNewlines '$' rest = ['$'] :=
  stringChar_of_isPrintable (by decide) (by decide) (by decide) rest

theorem stringChar_of_isWordChar {c : Char} (word : Text.isWordChar c = true)
    (rest : List Char) : stringChar keepNewlines c rest = [c] := by
  have notSign : c ≠ '#' := by
    rintro rfl
    contradiction
  exact stringChar_of_isPrintable (escapeLetter?_of_isWordChar word) notSign
    (Text.isPrintable_of_isWordChar word) rest

private theorem stringBody_brace {c : Char} (brace : c = '\x7b' ∨ c = '\x7d') (text : List Char) :
    stringBody keepNewlines (c :: text) = c :: stringBody keepNewlines text := by
  rcases brace with rfl | rfl
  · rw [stringBody, stringChar_of_isPrintable (by decide) (by decide) (by decide),
      List.singleton_append]
  · rw [stringBody, stringChar_of_isPrintable (by decide) (by decide) (by decide),
      List.singleton_append]

private theorem stringChar_head (keepNewlines : Bool) {c : Char} (other : Text.isWordChar c = false)
    (rest : List Char) :
    ∃ d more, stringChar keepNewlines c rest = d :: more ∧ Text.isWordChar d = false := by
  rcases stringChar_cases keepNewlines c rest with ⟨-, same⟩ | ⟨more, same⟩
  · exact ⟨c, [], same, other⟩
  · exact ⟨'\\', more, same, by decide⟩

private theorem wordChars_stringBody (text tail : List Char) :
    (stringBody keepNewlines text ++ '"' :: tail).takeWhile Text.isWordChar =
        text.takeWhile Text.isWordChar ∧
      (stringBody keepNewlines text ++ '"' :: tail).dropWhile Text.isWordChar =
        stringBody keepNewlines (text.dropWhile Text.isWordChar) ++ '"' :: tail := by
  induction text with
  | nil => exact ⟨List.takeWhile_cons_of_neg (by decide), List.dropWhile_cons_of_neg (by decide)⟩
  | cons c text ih =>
      cases word : Text.isWordChar c with
      | true =>
          rw [stringBody, stringChar_of_isWordChar word, List.singleton_append, List.cons_append,
            List.takeWhile_cons_of_pos word, List.takeWhile_cons_of_pos word,
            List.dropWhile_cons_of_pos word, List.dropWhile_cons_of_pos word]
          exact ⟨congrArg (c :: ·) ih.1, ih.2⟩
      | false =>
          obtain ⟨d, more, written, first⟩ := stringChar_head keepNewlines word text
          rw [← Bool.not_eq_true] at word first
          rw [List.takeWhile_cons_of_neg word, List.dropWhile_cons_of_neg word, stringBody, written,
            List.cons_append, List.cons_append]
          exact ⟨List.takeWhile_cons_of_neg first, List.dropWhile_cons_of_neg first⟩

private theorem referencedName?_stringBody (keepNewlines : Bool) (text tail : List Char) :
    referencedName? (stringBody keepNewlines text ++ '"' :: tail) =
      (referencedName? text).map fun (name, after) =>
        (name, stringBody keepNewlines after ++ '"' :: tail) := by
  cases text with
  | nil => rfl
  | cons c text =>
      rw [stringBody]
      cases starts : Shell.isNameStart c with
      | true =>
          rw [stringChar_of_isWordChar (isWordChar_of_isNameStart starts), List.singleton_append,
            List.cons_append]
          simp only [referencedName?, starts, if_true, wordChars_stringBody, Option.map_some]
      | false =>
          have nameless : referencedName? (c :: text) = none := by
            rw [referencedName?, starts, if_neg Bool.false_ne_true]
          rw [nameless]
          rcases stringChar_cases keepNewlines c text with ⟨-, same⟩ | ⟨more, same⟩
          · rw [same, List.singleton_append, List.cons_append, referencedName?, starts,
              if_neg Bool.false_ne_true]
            rfl
          · rw [same]
            rfl

private theorem head?_stringBody {d : Char} (text tail : List Char) (plain : d ≠ '\\' ∧ d ≠ '"')
    (other : text.head? ≠ some d) :
    (stringBody keepNewlines text ++ '"' :: tail).head? ≠ some d := by
  cases text with
  | nil => simpa [stringBody] using Ne.symm plain.2
  | cons c text =>
      rw [stringBody]
      rcases stringChar_cases keepNewlines c text with ⟨-, same⟩ | ⟨more, same⟩
      · rw [same]
        exact other
      · rw [same]
        simpa using Ne.symm plain.1

theorem reference?_stringBody (text tail : List Char) :
    reference? (stringBody keepNewlines text ++ '"' :: tail) =
      (reference? text).map fun (r, after) => (r, stringBody keepNewlines after ++ '"' :: tail) := by
  by_cases braced : text.head? = some '\x7b'
  · obtain ⟨text, rfl⟩ := List.head?_eq_some_iff.1 braced
    rw [stringBody_brace (.inl rfl), List.cons_append]
    have written := referencedName?_stringBody keepNewlines text tail
    cases named : referencedName? text with
    | none =>
        rw [named, Option.map_none] at written
        simp only [reference?, named, written, Option.map_none]
    | some found =>
        obtain ⟨name, after⟩ := found
        rw [named, Option.map_some] at written
        by_cases closed : after.head? = some '\x7d'
        · obtain ⟨after, rfl⟩ := List.head?_eq_some_iff.1 closed
          simp only [stringBody_brace (.inr rfl), List.cons_append] at written
          simp only [reference?, named, written, Option.map_some]
        · rw [reference?_eq_none_of_unclosed named closed, Option.map_none]
          exact reference?_eq_none_of_unclosed written
            (head?_stringBody after tail (by decide) closed)
  · rw [reference?_of_head?_ne braced,
      reference?_of_head?_ne (head?_stringBody text tail (by decide) braced),
      referencedName?_stringBody, Option.map_map, Option.map_map]
    rfl

private theorem beginsInterpolation_replaceReferences {text : List Char} (tail : List Char)
    (apart : beginsInterpolation text = false) :
    beginsInterpolation
      (replaceReferences interpolation (stringBody keepNewlines text ++ '"' :: tail)) = false := by
  cases text with
  | nil =>
      rw [stringBody, List.nil_append, replaceReferences_cons fun dollar => by contradiction]
      rfl
  | cons c text =>
      have first := (beginsInterpolation_cons_eq_false c text).1 apart
      rw [stringBody, List.append_assoc,
        replaceReferences_append_of_notMem (dollar_notMem_stringChar first.2.1 text)]
      rcases stringChar_cases keepNewlines c text with ⟨-, same⟩ | ⟨more, same⟩
      · rw [same]
        exact (beginsInterpolation_cons_eq_false c _).2 first
      · rw [same]
        rfl

/-- A character that begins no reference is written and passes the replacement. -/
theorem replaceReferences_stringBody_cons {c : Char} {rest : List Char} (tail : List Char)
    (plain : c = '$' → reference? rest = none) :
    replaceReferences interpolation (stringBody keepNewlines (c :: rest) ++ '"' :: tail) =
      stringChar keepNewlines c rest ++
        replaceReferences interpolation (stringBody keepNewlines rest ++ '"' :: tail) := by
  rw [stringBody, List.append_assoc]
  by_cases dollar : c = '$'
  · subst c
    rw [stringChar_dollar, List.singleton_append, List.singleton_append]
    refine replaceReferences_cons fun _ => ?_
    rw [reference?_stringBody, plain rfl, Option.map_none]
  · exact replaceReferences_append_of_notMem (dollar_notMem_stringChar dollar rest) _

/-- Whether the body of a literal is read, and its value is a string in which references are
replaced by the values of their variables. -/
def BodyMeans (body v : List Char) : Prop :=
  ∃ parts, body? body = some (parts, []) ∧
    ∀ environment : List Char → List Char,
      parts.flatMap (Part.value environment) = replaceReferences (fun r => environment r.name) v

theorem BodyMeans.nil : BodyMeans ['"'] [] := by
  refine ⟨[], body?_quote [], fun environment => ?_⟩
  rw [replaceReferences, List.flatMap_nil]

theorem BodyMeans.char {body v : List Char} (meaning : BodyMeans body v) {c : Char}
    (plain : c = '$' → reference? v = none)
    (apart : beginsInterpolation v = false → beginsInterpolation body = false) :
    BodyMeans (stringChar keepNewlines c v ++ body) (c :: v) := by
  obtain ⟨parts, read, value⟩ := meaning
  refine ⟨.char c :: parts, ?_, fun environment => ?_⟩
  · rw [body?_stringChar apart, read, Option.map_some]
  · rw [List.flatMap_cons, value, replaceReferences_cons plain]
    rfl

theorem BodyMeans.reference {body v text : List Char} (meaning : BodyMeans body v) {r : Reference}
    (found : reference? text = some (r, v)) : BodyMeans (interpolation r ++ body) ('$' :: text) := by
  obtain ⟨parts, read, value⟩ := meaning
  have named := (reference?_eq_some_iff.1 found).name
  refine ⟨.interpolated r.name :: parts, ?_, fun environment => ?_⟩
  · have written : interpolation r ++ body =
        '#' :: '\x7b' :: '@' :: '_' :: (r.name ++ '\x7d' :: body) := by
      simp [interpolation]
    rw [written, body?_interpolated named.ne_nil named.word, read, Option.map_some]
  · rw [List.flatMap_cons, value, replaceReferences_of_reference? found]
    rfl

theorem bodyMeans_replaceReferences (keepNewlines : Bool) (v : List Char) :
    BodyMeans (replaceReferences interpolation (stringBody keepNewlines v ++ ['"'])) v := by
  -- the replacement goes through the string and through what is written for it side by side
  induction v using replaceReferences.induct with
  | case1 =>
      rw [stringBody, List.nil_append, replaceReferences_cons fun dollar => by contradiction,
        replaceReferences]
      exact .nil
  | case2 text r after found ih =>
      have written : reference? (stringBody keepNewlines text ++ ['"']) =
          some (r, stringBody keepNewlines after ++ ['"']) := by
        rw [reference?_stringBody, found, Option.map_some]
      rw [stringBody, stringChar_dollar, List.singleton_append, List.cons_append,
        replaceReferences_of_reference? written]
      exact ih.reference found
  | case3 text unreferenced ih =>
      rw [replaceReferences_stringBody_cons [] fun _ => unreferenced]
      exact ih.char (fun _ => unreferenced) (beginsInterpolation_replaceReferences [])
  | case4 c text notDollar ih =>
      have plain : c = '$' → reference? text = none := fun dollar => absurd dollar notDollar
      rw [replaceReferences_stringBody_cons [] plain]
      exact ih.char plain (beginsInterpolation_replaceReferences [])

end Written

/-- A string literal in which references were replaced is read as Ruby reads it: all of it, with no
interpolation other than of the variables that the string refers to, and its value is the string
with the values of these variables. -/
theorem string?_substitute_stringLiteral (keepNewlines : Bool) (v : List Char) :
    ∃ parts, Ruby.string? (substitute [] (Ruby.stringLiteral keepNewlines v)) = some (parts, []) ∧
      ∀ environment : List Char → List Char,
        Replaced (fun r => environment r.name) v
          (parts.flatMap (Ruby.Part.value environment)) := by
  obtain ⟨parts, read, value⟩ := bodyMeans_replaceReferences keepNewlines v
  refine ⟨parts, ?_, fun environment => replaced_iff.2 (value environment)⟩
  rw [substitute, List.foldl_nil, Ruby.stringLiteral,
    replaceReferences_cons fun dollar => by contradiction]
  exact read

end PkgRecipe.Recipe
