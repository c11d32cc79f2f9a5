import PkgRecipe.Proofs.Shell.Reading
import PkgRecipe.Shell.ArrayText

namespace PkgRecipe.Shell

/-- In a text that is unbroken by `stop` each backslash escapes a character, and each `stop` is one
of those characters. -/
inductive Unbroken (stop : Char) : List Char → Prop where
  | nil : Unbroken stop []
  | plain {c : Char} {rest : List Char} (notStop : c ≠ stop) (notSlash : c ≠ '\\')
      (later : Unbroken stop rest) : Unbroken stop (c :: rest)
  | escaped {rest : List Char} (c : Char) (later : Unbroken stop rest) :
      Unbroken stop ('\\' :: c :: rest)

namespace Unbroken

variable {stop : Char}

theorem append {first second : List Char} (left : Unbroken stop first)
    (right : Unbroken stop second) : Unbroken stop (first ++ second) := by
  induction left with
  | nil => exact right
  | plain notStop notSlash _ ih => exact .plain notStop notSlash ih
  | escaped c _ ih => exact .escaped c ih

theorem of_forall_ne {text : List Char} (plain : ∀ c ∈ text, c ≠ stop ∧ c ≠ '\\') :
    Unbroken stop text := by
  induction text with
  | nil => exact .nil
  | cons c rest ih =>
      obtain ⟨notStop, notSlash⟩ := plain c (by simp)
      exact .plain notStop notSlash (ih fun d member => plain d (List.mem_cons_of_mem _ member))

theorem flatMap {spell : Char → List Char} (each : ∀ c, Unbroken stop (spell c))
    (text : List Char) : Unbroken stop (text.flatMap spell) := by
  induction text with
  | nil => exact .nil
  | cons c rest ih => exact (each c).append ih

end Unbroken

namespace ArrayText

theorem cutUnescaped?_cons {stop c : Char} (notSlash : c ≠ '\\') (rest : List Char) :
    cutUnescaped? stop (c :: rest) =
      if c = stop then some ([], rest)
      else (cutUnescaped? stop rest).map fun (body, left) => (c :: body, left) := by
  rw [cutUnescaped?]
  exact notSlash

theorem cutUnescaped?_of_unbroken {stop : Char} {body : List Char} (notSlash : stop ≠ '\\')
    (unbroken : Unbroken stop body) (left : List Char) :
    cutUnescaped? stop (body ++ stop :: left) = some (body, left) := by
  induction unbroken with
  | nil => rw [List.nil_append, cutUnescaped?_cons notSlash, if_pos rfl]
  | plain notStop plain _ ih =>
      rw [List.cons_append, cutUnescaped?_cons plain, if_neg notStop, ih]
      rfl
  | escaped c _ ih =>
      rw [List.cons_append, List.cons_append, cutUnescaped?, ih]
      rfl

end ArrayText

namespace Reading

variable {depth : Nat} {value : List Char}

theorem push_ansiQuote (body : List Char) {c : Char} (notQuote : c ≠ '\'') (notSlash : c ≠ '\\') :
    push ⟨⟨.ansiQuote, depth⟩, value, some body⟩ c =
      ⟨⟨.ansiQuote, depth⟩, value, some (c :: body)⟩ := by
  simp [push, Quoting.step, notQuote, notSlash, Mode.inAnsiQuote]

private theorem push_push_ansiQuote (body : List Char) (c : Char) :
    push (push ⟨⟨.ansiQuote, depth⟩, value, some body⟩ '\\') c =
      ⟨⟨.ansiQuote, depth⟩, value, some (c :: '\\' :: body)⟩ :=
  rfl

private theorem foldl_push_ansiQuote {text : List Char} (unbroken : Unbroken '\'' text)
    (body : List Char) :
    text.foldl push ⟨⟨.ansiQuote, depth⟩, value, some body⟩ =
      ⟨⟨.ansiQuote, depth⟩, value, some (text.reverse ++ body)⟩ := by
  induction unbroken generalizing body with
  | nil => rfl
  | plain notQuote notSlash _ ih =>
      rw [List.foldl_cons, push_ansiQuote body notQuote notSlash, ih]
      simp
  | escaped c _ ih =>
      rw [List.foldl_cons, List.foldl_cons, push_push_ansiQuote, ih]
      simp

theorem push_doubleQuote {c : Char} (notQuote : c ≠ '"') (notSlash : c ≠ '\\') :
    push ⟨⟨.doubleQuote, depth⟩, value, none⟩ c = ⟨⟨.doubleQuote, depth⟩, c :: value, none⟩ := by
  simp [push, Quoting.step, notQuote, notSlash, unquotedChar]

theorem push_push_doubleQuote (c : Char) :
    push (push ⟨⟨.doubleQuote, depth⟩, value, none⟩ '\\') c =
      ⟨⟨.doubleQuote, depth⟩,
        (unquotedChar .doubleQuoteEscape .literal c).reverse ++ value, none⟩ :=
  rfl

end Reading

def doubleQuotedValue : List Char → List Char
  | [] => []
  | c :: rest =>
      if c = '\\' then
        match rest with
        | [] => []
        | escaped :: later =>
            unquotedChar .doubleQuoteEscape .literal escaped ++ doubleQuotedValue later
      else c :: doubleQuotedValue rest

theorem doubleQuotedValue_cons {c : Char} (notSlash : c ≠ '\\') (rest : List Char) :
    doubleQuotedValue (c :: rest) = c :: doubleQuotedValue rest := by
  rw [doubleQuotedValue.eq_def]
  simp [notSlash]

theorem doubleQuotedValue_escaped (c : Char) (rest : List Char) :
    doubleQuotedValue ('\\' :: c :: rest) =
      unquotedChar .doubleQuoteEscape .literal c ++ doubleQuotedValue rest := by
  rw [doubleQuotedValue, if_pos rfl]

theorem Reading.foldl_push_doubleQuote {depth : Nat} {body : List Char}
    (unbroken : Unbroken '"' body) (value : List Char) :
    body.foldl push ⟨⟨.doubleQuote, depth⟩, value, none⟩ =
      ⟨⟨.doubleQuote, depth⟩, (doubleQuotedValue body).reverse ++ value, none⟩ := by
  induction unbroken generalizing value with
  | nil => rfl
  | plain notQuote notSlash _ ih =>
      rw [List.foldl_cons, push_doubleQuote notQuote notSlash, ih,
        doubleQuotedValue_cons notSlash]
      simp
  | escaped c _ ih =>
      rw [List.foldl_cons, List.foldl_cons, push_push_doubleQuote, ih,
        doubleQuotedValue_escaped]
      simp

theorem unquote_doubleQuoted {body : List Char} (unbroken : Unbroken '"' body) :
    unquote ('"' :: (body ++ ['"'])) = doubleQuotedValue body := by
  have opened : Reading.push (.start .initial) '"' = ⟨⟨.doubleQuote, 0⟩, [], none⟩ := rfl
  have closed (value : List Char) :
      Reading.push ⟨⟨.doubleQuote, 0⟩, value, none⟩ '"' = ⟨⟨.normal, 0⟩, value, none⟩ := rfl
  rw [unquote_eq, valueFrom, List.foldl_cons, opened, List.foldl_append,
    Reading.foldl_push_doubleQuote unbroken, List.foldl_cons, closed]
  simp [Reading.finish]

theorem unquote_ansiQuoted {body : List Char} (unbroken : Unbroken '\'' body) :
    unquote ('$' :: '\'' :: (body ++ ['\''])) = AnsiText.decode body := by
  have opened : Reading.push (Reading.push (.start .initial) '$') '\'' =
      ⟨⟨.ansiQuote, 0⟩, [], some []⟩ := rfl
  have closed (body : List Char) :
      Reading.push ⟨⟨.ansiQuote, 0⟩, [], some body⟩ '\'' =
        ⟨⟨.normal, 0⟩, (AnsiText.decode body.reverse).reverse ++ [], none⟩ := rfl
  rw [unquote_eq, valueFrom, List.foldl_cons, List.foldl_cons, opened, List.foldl_append,
    Reading.foldl_push_ansiQuote unbroken, List.foldl_cons, closed]
  simp [Reading.finish]

namespace ArrayText

variable {index body : List Char}

theorem element?_doubleQuoted (bracketed : Unbroken ']' index) (unbroken : Unbroken '"' body)
    (left : List Char) :
    element? (index ++ ']' :: '=' :: '"' :: (body ++ '"' :: left)) =
      some (unescaped body, left) := by
  rw [element?, cutUnescaped?_of_unbroken (by decide) bracketed]
  simp only [cutUnescaped?_of_unbroken (show '"' ≠ '\\' by decide) unbroken, Option.map_some]

theorem element?_ansiQuoted (bracketed : Unbroken ']' index) (unbroken : Unbroken '\'' body)
    (left : List Char) :
    element? (index ++ ']' :: '=' :: '$' :: '\'' :: (body ++ '\'' :: left)) =
      some (AnsiText.decode body, left) := by
  rw [element?, cutUnescaped?_of_unbroken (by decide) bracketed]
  simp only [cutUnescaped?_of_unbroken (show '\'' ≠ '\\' by decide) unbroken, Option.map_some]

@[simp] theorem elements_nil : elements [] = [] := by
  rw [elements]

theorem elements_cons {c : Char} (notBracket : c ≠ '[') (rest : List Char) :
    elements (c :: rest) = elements rest := by
  rw [elements, if_neg notBracket]

theorem elements_bracket {rest value left : List Char}
    (found : element? rest = some (value, left)) :
    elements ('[' :: rest) = value :: elements left := by
  rw [elements, if_pos rfl]
  split
  · rename_i value' left' found'
    rw [found] at found'
    obtain ⟨rfl, rfl⟩ := Prod.mk.inj (Option.some.inj found')
    rfl
  · rename_i failed
    rw [found] at failed
    contradiction

theorem elements_bracket_of_none {rest : List Char} (unread : element? rest = none) :
    elements ('[' :: rest) = elements rest := by
  rw [elements, if_pos rfl]
  split
  · rename_i found
    rw [unread] at found
    contradiction
  · rfl

theorem elements_append_of_notMem {front : List Char} (absent : '[' ∉ front) (rest : List Char) :
    elements (front ++ rest) = elements rest := by
  induction front with
  | nil => rfl
  | cons c front ih =>
      rw [List.mem_cons, not_or] at absent
      rw [List.cons_append, elements_cons (Ne.symm absent.1), ih absent.2]

theorem elements_of_notMem {text : List Char} (absent : '[' ∉ text) : elements text = [] := by
  rw [← List.append_nil text, elements_append_of_notMem absent, elements_nil]

/-- What is read from entries that stand between blanks, if each of them is read whatever stands
behind it. -/
private theorem elements_intercalate {α : Type} {text value : α → List Char} {entries : List α}
    (each : ∀ e ∈ entries, ∀ left, elements (text e ++ left) = value e :: elements left)
    (closing : List Char) :
    elements (List.intercalate [' '] (entries.map text) ++ closing) =
      entries.map value ++ elements closing := by
  induction entries with
  | nil => rfl
  | cons e rest ih =>
      have first := each e List.mem_cons_self
      have later := ih fun other member => each other (List.mem_cons_of_mem e member)
      cases rest with
      | nil =>
          rw [List.map_singleton, List.intercalate_singleton, first]
          rfl
      | cons next rest =>
          rw [List.map_cons, List.map_cons, List.intercalate_cons_cons, ← List.map_cons,
            List.append_assoc, List.append_assoc, first, List.singleton_append,
            elements_cons (by decide), later]
          rfl

/-- The text of an array, whose entries stand between blanks and behind a parenthesis. The shell may
print a blank in front of the closing one. -/
def ofEntries (entries : List (List Char)) (closing : List Char) : List Char :=
  '(' :: (List.intercalate [' '] entries ++ closing)

theorem elements_ofEntries {α : Type} {text value : α → List Char} {entries : List α}
    {closing : List Char} (closed : '[' ∉ closing)
    (each : ∀ e ∈ entries, ∀ left, elements (text e ++ left) = value e :: elements left) :
    elements (ofEntries (entries.map text) closing) = entries.map value := by
  rw [ofEntries, elements_cons (by decide), elements_intercalate each, elements_of_notMem closed,
    List.append_nil]

theorem isParenthesised_ofEntries (entries : List (List Char)) :
    isParenthesised (ofEntries entries [')']) = true := by
  rw [isParenthesised, ofEntries, Text.trim_cons_concat (by decide) (by decide),
    ← List.cons_append, List.getLast?_concat]
  rfl

theorem unescaped_cons {c : Char} (notSlash : c ≠ '\\') (rest : List Char) :
    unescaped (c :: rest) = c :: unescaped rest := by
  rw [unescaped]
  exact fun _ _ slash _ => notSlash slash

theorem unescaped_escaped {c : Char} (marked : c = '\\' ∨ c = '"' ∨ c = '$' ∨ c = '\x60')
    (rest : List Char) : unescaped ('\\' :: c :: rest) = c :: unescaped rest := by
  rw [unescaped, if_pos marked]

end ArrayText

end PkgRecipe.Shell
