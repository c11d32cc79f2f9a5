import PkgRecipe.Proofs.Ruby.Reading

namespace PkgRecipe.Ruby

/-! Arrays of string literals as Ruby reads them, and the literals that are written for strings and
for arrays: each is read to its end, and as what it was written for. -/

private theorem length_of_body? {text after : List Char} {ps : List Part}
    (read : body? text = some (ps, after)) : after.length < text.length := by
  induction text using body?.induct generalizing ps with
  | case1 text quote =>
      rw [body?, if_pos quote] at read
      obtain ⟨-, rfl⟩ := Prod.mk.inj (Option.some.inj read)
      obtain ⟨rest, rfl⟩ := List.head?_eq_some_iff.1 quote
      exact Nat.lt_succ_self _
  | case2 text notQuote p next found ih =>
      rw [body?_of_part? notQuote found] at read
      obtain ⟨⟨later, left⟩, within, same⟩ := Option.map_eq_some_iff.1 read
      obtain ⟨-, rfl⟩ := Prod.mk.inj same
      exact Nat.lt_trans (ih within) (length_of_part? found)
  | case3 text notQuote failed =>
      rw [body?, if_neg notQuote] at read
      split at read
      · rename_i found
        rw [failed] at found
        contradiction
      · contradiction

private theorem length_of_string? {text after : List Char} {ps : List Part}
    (read : string? text = some (ps, after)) : after.length < text.length := by
  unfold string? at read
  split at read
  · exact Nat.lt_succ_of_lt (length_of_body? read)
  · contradiction

def withoutBlanks (text : List Char) : List Char :=
  text.dropWhile fun c => c = ' ' || c = '\t' || c = '\n'

private theorem length_withoutBlanks_le (text : List Char) : (withoutBlanks text).length ≤ text.length :=
  (List.dropWhile_suffix _).length_le

/-- The elements of an array that has some, up to the bracket that ends it, and what follows the
bracket. Behind a comma there is another element. -/
def elements? (text : List Char) : Option (List (List Part) × List Char) :=
  match _read : string? (withoutBlanks text) with
  | none => none
  | some (first, after) =>
      match _behind : withoutBlanks after with
      | ']' :: rest => some ([first], rest)
      | ',' :: later => (elements? later).map fun (others, rest) => (first :: others, rest)
      | _ => none
termination_by text.length
decreasing_by
  have inside := length_withoutBlanks_le text
  have shorter := length_of_string? _read
  have behind := length_withoutBlanks_le after
  rw [_behind, List.length_cons] at behind
  omega

def array? : List Char → Option (List (List Part) × List Char)
  | '[' :: text =>
      if (withoutBlanks text).head? = some ']' then some ([], (withoutBlanks text).tail)
      else elements? text
  | _ => none

private theorem elements?_of_string? {text after : List Char} {first : List Part}
    (read : string? (withoutBlanks text) = some (first, after)) :
    elements? text =
      match withoutBlanks after with
      | ']' :: rest => some ([first], rest)
      | ',' :: later => (elements? later).map fun (others, rest) => (first :: others, rest)
      | _ => none := by
  rw [elements?]
  split
  · rename_i failed
    rw [read] at failed
    contradiction
  · rename_i found
    rw [read] at found
    obtain ⟨rfl, rfl⟩ := Prod.mk.inj (Option.some.inj found)
    split <;> simp_all

private theorem elements?_space (text : List Char) : elements? (' ' :: text) = elements? text := by
  rw [elements?, elements?]
  rfl

/-- Behind a number sign that is written as it is, nothing is written that would make an
interpolation of it. -/
private theorem beginsInterpolation_stringBody (keepNewlines : Bool) {v : List Char} (rest : List Char)
    (apart : beginsInterpolation v = false) :
    beginsInterpolation (stringBody keepNewlines v ++ '"' :: rest) = false := by
  cases v with
  | nil => rfl
  | cons c v =>
      have first := (beginsInterpolation_cons_eq_false c v).1 apart
      rw [stringBody, List.append_assoc]
      rcases stringChar_cases keepNewlines c v with ⟨-, same⟩ | ⟨more, same⟩
      · rw [same]
        exact (beginsInterpolation_cons_eq_false c _).2 first
      · rw [same]
        rfl

theorem body?_stringBody (keepNewlines : Bool) (v rest : List Char) :
    body? (stringBody keepNewlines v ++ '"' :: rest) = some (v.map .char, rest) := by
  induction v with
  | nil => exact body?_quote rest
  | cons c v ih =>
      rw [stringBody, List.append_assoc,
        body?_stringChar (beginsInterpolation_stringBody keepNewlines rest), ih]
      rfl

theorem string?_stringLiteral (keepNewlines : Bool) (v rest : List Char) :
    string? (stringLiteral keepNewlines v ++ rest) = some (v.map .char, rest) := by
  rw [stringLiteral, List.cons_append, List.append_assoc, string?]
  exact body?_stringBody keepNewlines v rest

theorem elements?_string_append (v text : List Char) :
    elements? (string v ++ text) =
      match withoutBlanks text with
      | ']' :: rest => some ([v.map .char], rest)
      | ',' :: later => (elements? later).map fun (others, rest) => (v.map .char :: others, rest)
      | _ => none := by
  have read : string? (withoutBlanks (string v ++ text)) = some (v.map .char, text) :=
    string?_stringLiteral false v text
  exact elements?_of_string? read

private theorem elements?_intercalate (v : List Char) (values : List (List Char)) (rest : List Char) :
    elements? (", ".toList.intercalate ((v :: values).map string) ++ ']' :: rest) =
      some ((v :: values).map (List.map .char), rest) := by
  induction values generalizing v with
  | nil =>
      rw [List.map_singleton, List.intercalate_singleton, elements?_string_append]
      rfl
  | cons next values ih =>
      have comma (text : List Char) : withoutBlanks (", ".toList ++ text) = ',' :: ' ' :: text :=
        rfl
      rw [List.map_cons, List.map_cons, List.intercalate_cons_cons, ← List.map_cons,
        List.append_assoc, List.append_assoc, elements?_string_append, comma]
      simp only [elements?_space, ih]
      rfl

theorem array?_array (values : List (List Char)) (rest : List Char) :
    array? (array values ++ rest) = some (values.map (List.map .char), rest) := by
  rw [array, List.cons_append, List.append_assoc, List.singleton_append, array?]
  cases values with
  | nil => rfl
  | cons v values =>
      have opened : (withoutBlanks
          (", ".toList.intercalate ((v :: values).map string) ++ ']' :: rest)).head? = some '"' := by
        cases values with
        | nil =>
            rw [List.map_singleton, List.intercalate_singleton]
            rfl
        | cons next values =>
            rw [List.map_cons, List.map_cons, List.intercalate_cons_cons]
            rfl
      rw [opened, if_neg (by decide), elements?_intercalate]

private theorem lineEnd_notMem_stringBody (v : List Char) : '\n' ∉ stringBody false v := by
  induction v with
  | nil => exact List.not_mem_nil
  | cons c v ih =>
      rw [stringBody, List.mem_append, not_or]
      refine ⟨fun member => ?_, ih⟩
      obtain ⟨rfl, kept⟩ := eq_of_mem_stringChar (by decide) member
      simp [stringChar, escapeLetter?] at kept

/-- What is written for a string or for an array of strings is read back as just that, whatever
stands behind it: nothing in it is an interpolation, and no literal ends before it was ended. Line
ends that are not kept do not occur in a literal. -/
theorem literals_read_back (rest : List Char) :
    (∀ keepNewlines v,
      string? (stringLiteral keepNewlines v ++ rest) = some (v.map .char, rest)) ∧
    (∀ values, array? (array values ++ rest) = some (values.map (List.map .char), rest)) ∧
    ∀ v, '\n' ∉ stringLiteral false v := by
  refine ⟨?_, ?_, ?_⟩
  · intro keepNewlines v
    exact string?_stringLiteral keepNewlines v rest
  · intro values
    exact array?_array values rest
  · intro v
    simp [stringLiteral, lineEnd_notMem_stringBody]

end PkgRecipe.Ruby
