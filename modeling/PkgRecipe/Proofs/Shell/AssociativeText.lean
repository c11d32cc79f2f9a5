import PkgRecipe.Proofs.Shell.Printing
import PkgRecipe.Text.WordChar

namespace PkgRecipe.Shell

/-! Associative arrays as the shell prints them. A key is read up to its first closing bracket, also
within quotes. The value of a key that holds closing brackets is found behind an opening bracket
that follows the last of them, or not at all. -/

def doubleQuoted (text : List Char) : List Char :=
  '"' :: (text.flatMap doubleQuotedChar ++ ['"'])

theorem prints_doubleQuoted (text : List Char) : Prints text (doubleQuoted text) :=
  .doubleQuoted

theorem unbroken_flatMap_doubleQuotedChar {stop : Char} {text : List Char} (absent : stop ∉ text) :
    Unbroken stop (text.flatMap doubleQuotedChar) := by
  induction text with
  | nil => exact .nil
  | cons c rest ih =>
      rw [List.mem_cons, not_or] at absent
      have first : Unbroken stop (doubleQuotedChar c) :=
        unbroken_doubleQuotedChar_of fun stops => absurd stops.symm absent.1
      exact first.append (ih absent.2)

theorem bracket_notMem_doubleQuotedChar {c : Char} (other : c ≠ '[') :
    '[' ∉ doubleQuotedChar c := by
  unfold doubleQuotedChar
  split
  · simp [Ne.symm other]
  · simp [Ne.symm other]

/-- Behind each closing bracket of the key there is an opening one. -/
def Reopens (key : List Char) : Prop :=
  ∀ front back, key = front ++ ']' :: back → '[' ∈ back

theorem reopens_of_notMem {key : List Char} (absent : ']' ∉ key) : Reopens key := by
  rintro front back rfl
  simp at absent

theorem reopens_cons_iff {c : Char} {key : List Char} :
    Reopens (c :: key) ↔ (c = ']' → '[' ∈ key) ∧ Reopens key := by
  constructor
  · intro reopens
    constructor
    · rintro rfl
      exact reopens [] key rfl
    · rintro front back rfl
      exact reopens (c :: front) back rfl
  · rintro ⟨first, reopens⟩ front back same
    rcases List.cons_eq_append_iff.1 same with ⟨rfl, same⟩ | ⟨front, rfl, rfl⟩
    · obtain ⟨rfl, rfl⟩ := List.cons.inj same
      exact first rfl
    · exact reopens front back rfl

/-- What stands behind an opening bracket of a key that is printed in quotes: the rest of the key,
the value and whatever follows. -/
def behindBracket (key value left : List Char) : List Char :=
  key.flatMap doubleQuotedChar ++ '"' :: ']' :: '=' :: (doubleQuoted value ++ left)

section Behind

variable {key value left : List Char}

theorem behindBracket_cons (c : Char) (key value left : List Char) :
    behindBracket (c :: key) value left = doubleQuotedChar c ++ behindBracket key value left := by
  simp [behindBracket]

theorem behindBracket_eq_cons {c : Char} {rest : List Char}
    (same : behindBracket key value left = c :: rest) :
    key = [] ∧ c = '"' ∨ c = '\\' ∨
      ∃ later, key = c :: later ∧ isMarkedInDoubleQuotes c = false ∧
        behindBracket later value left = rest := by
  cases key with
  | nil => exact .inl ⟨rfl, (List.cons.inj same).1.symm⟩
  | cons d later =>
      rw [behindBracket_cons, doubleQuotedChar] at same
      split at same
      · exact .inr (.inl (List.cons.inj same).1.symm)
      · rename_i unmarked
        obtain ⟨rfl, behind⟩ := List.cons.inj same
        exact .inr (.inr ⟨later, rfl, Bool.eq_false_iff.2 unmarked, behind⟩)

/-- The quotes and dollar signs of a printed key stand behind backslashes, so that only the quote
that ends the key can be taken for the beginning of a value. -/
theorem eq_of_behindBracket_eq {mark : Char} {rest : List Char} (opens : mark = '"' ∨ mark = '$')
    (same : behindBracket key value left = '=' :: mark :: rest) : key = ['='] := by
  have marked : isMarkedInDoubleQuotes mark = true := by rcases opens with rfl | rfl <;> rfl
  have notSlash : mark ≠ '\\' := by rcases opens with rfl | rfl <;> decide
  rcases behindBracket_eq_cons same with ⟨-, quote⟩ | slash | ⟨later, rfl, -, behind⟩
  · contradiction
  · contradiction
  · rcases behindBracket_eq_cons behind with ⟨rfl, -⟩ | slash | ⟨-, -, unmarked, -⟩
    · rfl
    · exact absurd slash notSlash
    · rw [marked] at unmarked
      contradiction

end Behind

namespace ArrayText

variable {front key value left : List Char}

theorem cutUnescaped?_behindBracket (unbroken : Unbroken ']' front) {inner : List Char}
    (first : ']' ∉ inner) (back : List Char) :
    cutUnescaped? ']' (front ++ behindBracket (inner ++ ']' :: back) value left) =
      some (front ++ inner.flatMap doubleQuotedChar, behindBracket back value left) := by
  have cut := cutUnescaped?_of_unbroken (by decide)
    (unbroken.append (unbroken_flatMap_doubleQuotedChar first)) (behindBracket back value left)
  rw [← cut]
  simp [behindBracket, doubleQuotedChar, isMarkedInDoubleQuotes]

/-! What is read from an opening bracket on. If the bracket is the one in front of the key, `front`
holds the quote that begins the key. -/

private theorem elements_bracket_of_notMem (unbroken : Unbroken ']' front) (closing : ']' ∉ key) :
    elements ('[' :: (front ++ behindBracket key value left)) = value :: elements left := by
  have index : Unbroken ']' (front ++ (key.flatMap doubleQuotedChar ++ ['"'])) :=
    unbroken.append ((unbroken_flatMap_doubleQuotedChar closing).append
      (.plain (by decide) (by decide) .nil))
  have read := (prints_doubleQuoted value).element?_eq index left
  apply elements_bracket
  simpa [behindBracket] using read

/-- Behind the first closing bracket no value begins. The search goes on in the key. -/
theorem elements_bracket_of_ne (unbroken : Unbroken ']' front) (plain : '[' ∉ front)
    {inner back : List Char} (first : ']' ∉ inner) (other : back ≠ ['=']) :
    elements ('[' :: (front ++ behindBracket (inner ++ ']' :: back) value left)) =
      elements (behindBracket (inner ++ ']' :: back) value left) := by
  have unread : element? (front ++ behindBracket (inner ++ ']' :: back) value left) = none := by
    rw [element?, cutUnescaped?_behindBracket unbroken first]
    split
    · rename_i same
      have begins := (Prod.mk.inj (Option.some.inj same)).2
      exact absurd (eq_of_behindBracket_eq (.inl rfl) begins) other
    · rename_i same
      have begins := (Prod.mk.inj (Option.some.inj same)).2
      exact absurd (eq_of_behindBracket_eq (.inr rfl) begins) other
    · rfl
  rw [elements_bracket_of_none unread, elements_append_of_notMem plain]

/-- The quote that ends the key is taken for the one that begins a value, and the quote that begins
the value for the one that ends it. -/
theorem elements_bracket_of_eq (unbroken : Unbroken ']' front) {inner : List Char}
    (first : ']' ∉ inner) :
    elements ('[' :: (front ++ behindBracket (inner ++ [']', '=']) value left)) =
      [']', '='] :: elements (doubleQuoted value ++ left) := by
  have body : Unbroken '"' [']', '='] :=
    .plain (by decide) (by decide) (.plain (by decide) (by decide) .nil)
  have cut := cutUnescaped?_of_unbroken (by decide) body
    (value.flatMap doubleQuotedChar ++ '"' :: left)
  have begins : behindBracket ['='] value left =
      '=' :: '"' :: ([']', '='] ++ '"' :: (value.flatMap doubleQuotedChar ++ '"' :: left)) := by
    simp [behindBracket, doubleQuoted, doubleQuotedChar, isMarkedInDoubleQuotes]
  have found : element? (front ++ behindBracket (inner ++ [']', '=']) value left) =
      some ([']', '='], value.flatMap doubleQuotedChar ++ '"' :: left) := by
    rw [element?, cutUnescaped?_behindBracket unbroken first, begins]
    simp only [cut, Option.map_some]
    rfl
  have quote : elements (doubleQuoted value ++ left) =
      elements (value.flatMap doubleQuotedChar ++ '"' :: left) := by
    rw [doubleQuoted, List.cons_append, elements_cons (by decide), List.append_assoc]
    rfl
  rw [elements_bracket found, quote]

theorem elements_bracket_of_reopens (unbroken : Unbroken ']' front) (plain : '[' ∉ front)
    (reopens : Reopens key)
    (later : '[' ∈ key → elements (behindBracket key value left) = value :: elements left) :
    elements ('[' :: (front ++ behindBracket key value left)) = value :: elements left := by
  by_cases closing : ']' ∈ key
  · obtain ⟨inner, back, rfl, first⟩ := List.eq_append_cons_of_mem closing
    have opening : '[' ∈ back := reopens inner back rfl
    have other : back ≠ ['='] := by
      rintro rfl
      contradiction
    rw [elements_bracket_of_ne unbroken plain first other]
    exact later (by simp [opening])
  · exact elements_bracket_of_notMem unbroken closing

theorem elements_behindBracket_of_reopens (reopens : Reopens key) (opening : '[' ∈ key) :
    elements (behindBracket key value left) = value :: elements left := by
  induction key with
  | nil => contradiction
  | cons c key ih =>
      obtain ⟨-, later⟩ := reopens_cons_iff.1 reopens
      rw [behindBracket_cons]
      by_cases bracket : c = '['
      · subst c
        exact elements_bracket_of_reopens .nil List.not_mem_nil later (ih later)
      · rw [elements_append_of_notMem (bracket_notMem_doubleQuotedChar bracket)]
        exact ih later (List.mem_of_ne_of_mem (Ne.symm bracket) opening)

/-- The value is not read from the text as an element: the search goes on in the value as it is
printed. What may be read in its place is the end of its key. -/
def Misses (text value left : List Char) : Prop :=
  ∃ invented, (invented = [] ∨ invented = [[']', '=']]) ∧
    elements text = invented ++ elements (doubleQuoted value ++ left)

theorem misses_bracket (unbroken : Unbroken ']' front) (plain : '[' ∉ front)
    (unopened : ¬ Reopens key) (later : Misses (behindBracket key value left) value left) :
    Misses ('[' :: (front ++ behindBracket key value left)) value left := by
  by_cases closing : ']' ∈ key
  · obtain ⟨inner, back, rfl, first⟩ := List.eq_append_cons_of_mem closing
    by_cases ends : back = ['=']
    · subst back
      exact ⟨[[']', '=']], .inr rfl, elements_bracket_of_eq unbroken first⟩
    · rw [Misses, elements_bracket_of_ne unbroken plain first ends]
      exact later
  · exact absurd (reopens_of_notMem closing) unopened

theorem misses_behindBracket (hidden : ¬ Reopens key ∨ '[' ∉ key) :
    Misses (behindBracket key value left) value left := by
  induction key with
  | nil =>
      have plain : '[' ∉ ['"', ']', '='] := by decide
      exact ⟨[], .inl rfl, elements_append_of_notMem plain _⟩
  | cons c key ih =>
      rw [behindBracket_cons]
      by_cases bracket : c = '['
      · subst c
        have later : ¬ Reopens key := by
          rcases hidden with unopened | absent
          · exact fun reopens => unopened (reopens_cons_iff.2 ⟨nofun, reopens⟩)
          · simp at absent
        exact misses_bracket .nil List.not_mem_nil later (ih (.inl later))
      · rw [Misses, elements_append_of_notMem (bracket_notMem_doubleQuotedChar bracket)]
        apply ih
        rcases hidden with unopened | absent
        · -- if the rest reopens, the hidden bracket is the first character
          by_cases reopens : Reopens key
          · right
            intro opening
            exact unopened (reopens_cons_iff.2 ⟨fun _ => opening, reopens⟩)
          · exact .inl reopens
        · exact .inr fun opening => absent (List.mem_cons_of_mem c opening)

end ArrayText

/-- The ways in which the shell prints a key: as it is, or in double quotes. -/
inductive PrintsKey (key : List Char) : List Char → Prop where
  | bare (word : ∀ c ∈ key, Text.isWordChar c = true) : PrintsKey key key
  | quoted : PrintsKey key (doubleQuoted key)

private theorem unbroken_of_isWordChar {key : List Char} (word : ∀ c ∈ key, Text.isWordChar c = true) :
    Unbroken ']' key := by
  apply Unbroken.of_forall_ne
  intro c member
  constructor
  · rintro rfl
    exact absurd (word _ member) (by decide)
  · rintro rfl
    exact absurd (word _ member) (by decide)

structure PrintedPair where
  key : List Char
  value : List Char
  keyText : List Char
  prints : PrintsKey key keyText

namespace PrintedPair

def text (p : PrintedPair) : List Char :=
  '[' :: (p.keyText ++ ']' :: '=' :: doubleQuoted p.value)

theorem text_append_of_quoted (key value left : List Char) :
    text ⟨key, value, doubleQuoted key, .quoted⟩ ++ left =
      '[' :: (['"'] ++ behindBracket key value left) := by
  simp [text, behindBracket, doubleQuoted]

theorem elements_append_of_reopens {p : PrintedPair} (reopens : Reopens p.key)
    (left : List Char) :
    ArrayText.elements (p.text ++ left) = p.value :: ArrayText.elements left := by
  obtain ⟨key, value, keyText, prints⟩ := p
  cases prints with
  | bare word =>
      have found := (prints_doubleQuoted value).element?_eq (unbroken_of_isWordChar word) left
      rw [text, List.cons_append, List.append_assoc]
      exact ArrayText.elements_bracket found
  | quoted =>
      have quote : Unbroken ']' ['"'] := .plain (by decide) (by decide) .nil
      rw [text_append_of_quoted]
      exact ArrayText.elements_bracket_of_reopens quote (by decide) reopens
        (ArrayText.elements_behindBracket_of_reopens reopens)

private theorem misses_of_not_reopens {p : PrintedPair} (unopened : ¬ Reopens p.key) (left : List Char) :
    ArrayText.Misses (p.text ++ left) p.value left := by
  obtain ⟨key, value, keyText, prints⟩ := p
  cases prints with
  | bare word =>
      have absent : ']' ∉ key := fun closing => absurd (word _ closing) (by decide)
      exact absurd (reopens_of_notMem absent) unopened
  | quoted =>
      have quote : Unbroken ']' ['"'] := .plain (by decide) (by decide) .nil
      rw [text_append_of_quoted]
      exact ArrayText.misses_bracket quote (by decide) unopened
        (ArrayText.misses_behindBracket (.inl unopened))

/-- The values of an associative array are read in order, each exactly once, if behind each closing
bracket of a key there is an opening one. A pair whose key has a closing bracket behind all its
opening ones is passed over. -/
theorem elements_associative {closing : List Char} (closed : '[' ∉ closing) :
    (∀ ps : List PrintedPair, (∀ p ∈ ps, Reopens p.key) →
      ArrayText.elements (ArrayText.ofEntries (ps.map text) closing) = ps.map value) ∧
    ∀ (p : PrintedPair) (left : List Char),
      (Reopens p.key → ArrayText.elements (p.text ++ left) = p.value :: ArrayText.elements left) ∧
      (¬ Reopens p.key → ArrayText.Misses (p.text ++ left) p.value left) := by
  refine ⟨fun ps reopen => ?_, fun p left => ?_⟩
  · exact ArrayText.elements_ofEntries closed fun p member =>
      elements_append_of_reopens (reopen p member)
  · exact ⟨fun reopens => elements_append_of_reopens reopens left,
      fun unopened => misses_of_not_reopens unopened left⟩

theorem elements_associative_brackets :
    let first : PrintedPair := ⟨['a', '_', '1'], ['[', 'x', ']', '=', '"'], ['a', '_', '1'],
      .bare (List.all_eq_true.1 rfl)⟩
    let second : PrintedPair := ⟨"x]\"[ $y".toList, ['v', ' ', '\\'], _, .quoted⟩
    let hidden : PrintedPair := ⟨['k', ']'], ['w'], _, .quoted⟩
    '[' ∉ [' ', ')'] ∧ (∀ p ∈ [first, second], Reopens p.key) ∧ ¬ Reopens hidden.key ∧
      ArrayText.elements
        "([a_1]=\"[x]=\\\"\" [\"x]\\\"[ \\$y\"]=\"v \\\\\" )".toList =
          ["[x]=\"".toList, "v \\".toList] ∧
      ArrayText.Misses "[\"k]\"]=\"w\")".toList ['w'] [')'] := by
  intro first second hidden
  have closed : '[' ∉ [' ', ')'] := by decide
  have opened : Reopens second.key := by
    simp [second, reopens_cons_iff, reopens_of_notMem]
  have reopen : ∀ p ∈ [first, second], Reopens p.key := by
    simp [opened, first, reopens_of_notMem]
  have unopened : ¬ Reopens hidden.key := by
    simp [hidden, reopens_cons_iff]
  obtain ⟨whole, each⟩ := elements_associative closed
  exact ⟨closed, reopen, unopened, whole [first, second] reopen, (each hidden [')']).2 unopened⟩

/-- A closing bracket in a key hides the value, and in front of a final equals sign the end of the
key is read in place of it. -/
theorem elements_associative_hidden :
    let lost : PrintedPair := ⟨['x', ']'], ['v'], _, .quoted⟩
    let replaced : PrintedPair := ⟨['x', ']', '='], ['v'], _, .quoted⟩
    let array (p : PrintedPair) := ArrayText.ofEntries [p.text] [')']
    array lost = "([\"x]\"]=\"v\")".toList ∧ ArrayText.elements (array lost) = [] ∧
      array replaced = "([\"x]=\"]=\"v\")".toList ∧
      ArrayText.elements (array replaced) = [[']', '=']] ∧
      [lost].map value = [['v']] ∧ [replaced].map value = [['v']] := by
  intro lost replaced array
  have quote : Unbroken ']' ['"'] := .plain (by decide) (by decide) .nil
  have first : ']' ∉ ['x'] := by decide
  have ends : [] ≠ ['='] := by decide
  -- no opening bracket stands behind the one in front of the key
  have key : ArrayText.elements (behindBracket ['x', ']'] ['v'] [')']) = [] :=
    ArrayText.elements_of_notMem (by decide)
  have value : ArrayText.elements (doubleQuoted ['v'] ++ [')']) = [] :=
    ArrayText.elements_of_notMem (by decide)
  have search (p : PrintedPair) :
      ArrayText.elements (array p) = ArrayText.elements (p.text ++ [')']) := by
    show ArrayText.elements (ArrayText.ofEntries [p.text] [')']) = _
    rw [ArrayText.ofEntries, ArrayText.elements_cons (by decide), List.intercalate_singleton]
  refine ⟨rfl, ?_, rfl, ?_, rfl, rfl⟩
  · rw [search, text_append_of_quoted]
    exact (ArrayText.elements_bracket_of_ne quote (by decide) first ends).trans key
  · rw [search, text_append_of_quoted]
    refine (ArrayText.elements_bracket_of_eq quote first).trans ?_
    rw [value]

end PrintedPair

/-- The text of an entry that is read from it: behind an index without brackets, or behind a key of
an associative array that reopens. -/
inductive PrintsEntry (value : List Char) : List Char → Prop where
  | indexed {index printed : List Char} (bracketed : Unbroken ']' index)
      (prints : Prints value printed) : PrintsEntry value ('[' :: (index ++ ']' :: '=' :: printed))
  | keyed {key keyText : List Char} (printsKey : PrintsKey key keyText) (reopens : Reopens key) :
      PrintsEntry value ('[' :: (keyText ++ ']' :: '=' :: doubleQuoted value))

structure PrintedEntry where
  value : List Char
  text : List Char
  prints : PrintsEntry value text

namespace PrintedEntry

theorem elements_append (e : PrintedEntry) (left : List Char) :
    ArrayText.elements (e.text ++ left) = e.value :: ArrayText.elements left := by
  obtain ⟨value, text, prints⟩ := e
  cases prints with
  | indexed bracketed prints =>
      have found := prints.element?_eq bracketed left
      apply ArrayText.elements_bracket
      simpa using found
  | @keyed key keyText printsKey reopens =>
      let p : PrintedPair := ⟨key, value, keyText, printsKey⟩
      exact p.elements_append_of_reopens reopens left

theorem elements_ofEntries {closing : List Char} (closed : '[' ∉ closing)
    (es : List PrintedEntry) :
    ArrayText.elements (ArrayText.ofEntries (es.map text) closing) = es.map value :=
  ArrayText.elements_ofEntries closed fun e _ => e.elements_append

end PrintedEntry

end PkgRecipe.Shell
