import Mathlib.Data.List.Forall2
import PkgRecipe.Proofs.Text.Utf8
import PkgRecipe.Shell.AnsiText

namespace PkgRecipe.Shell.AnsiText

def StandsFor (spelling : List Char) (stood : List UInt8) : Prop :=
  ∀ rest, bytes (spelling ++ rest) = stood ++ bytes rest

@[simp] theorem bytes_nil : bytes [] = [] := by
  rw [bytes]

theorem bytes_cons {c : Char} (notSlash : c ≠ '\\') (rest : List Char) :
    bytes (c :: rest) = String.utf8EncodeChar c ++ bytes rest := by
  rw [bytes.eq_def]
  simp [notSlash, Text.Utf8.encode]

private theorem bytes_escape (letter : Char) (rest : List Char) :
    bytes ('\\' :: letter :: rest) =
      (escapeBytes letter rest).1 ++ bytes (rest.drop (escapeBytes letter rest).2) := by
  rw [bytes, if_pos rfl]

theorem standsFor_nil : StandsFor [] [] :=
  fun _ => rfl

theorem StandsFor.append {first second : List Char} {stood₁ stood₂ : List UInt8}
    (left : StandsFor first stood₁) (right : StandsFor second stood₂) :
    StandsFor (first ++ second) (stood₁ ++ stood₂) := by
  intro rest
  rw [List.append_assoc, left, right, List.append_assoc]

private theorem standsFor_flatten {row : List UInt8} {escapes : List (List Char)}
    (each : List.Forall₂ (fun b escape => StandsFor escape [b]) row escapes) :
    StandsFor escapes.flatten row := by
  induction each with
  | nil => exact standsFor_nil
  | cons stands _ ih => exact stands.append ih

theorem standsFor_char {c : Char} (notSlash : c ≠ '\\') :
    StandsFor [c] (String.utf8EncodeChar c) :=
  bytes_cons notSlash

theorem standsFor_escape {letter : Char} {digits : List Char} {stood : List UInt8}
    (escapes : ∀ rest, escapeBytes letter (digits ++ rest) = (stood, digits.length)) :
    StandsFor ('\\' :: letter :: digits) stood := by
  intro rest
  rw [List.cons_append, List.cons_append, bytes_escape, escapes]
  simp

theorem standsFor_named {letter c : Char} (named : named? letter = some c) :
    StandsFor ['\\', letter] (String.utf8EncodeChar c) := by
  apply standsFor_escape
  intro rest
  have escaped : escapeBytes letter rest = (Text.Utf8.encode [c], 0) := by
    unfold named? at named
    split at named
    all_goals first | contradiction | rw [← Option.some.inj named]; rfl
  rw [List.nil_append, escaped]
  simp [Text.Utf8.encode]

private theorem numericEscape?_of_isOctalDigit {letter : Char}
    (octal : Text.isOctalDigit letter = true) (rest : List Char) :
    numericEscape? letter rest = none := by
  unfold numericEscape?
  split
  all_goals first | rfl | exact absurd octal (by decide)

def octalDigit (n : Nat) : Char :=
  Nat.digitChar (n % 8)

def octalEscape (b : UInt8) : List Char :=
  ['\\', octalDigit (b.toNat / 64), octalDigit (b.toNat / 8), octalDigit b.toNat]

private theorem octalDigit_cases (n : Nat) :
    Text.isOctalDigit (octalDigit n) = true ∧ Text.letterValue (octalDigit n) = n % 8 := by
  have small : n % 8 < 8 := Nat.mod_lt n (by decide)
  have checked : ∀ m < 8, Text.isOctalDigit (Nat.digitChar m) = true ∧
      Text.letterValue (Nat.digitChar m) = m := by decide
  exact checked (n % 8) small

theorem isOctalDigit_octalDigit (n : Nat) : Text.isOctalDigit (octalDigit n) = true :=
  (octalDigit_cases n).1

private theorem letterValue_octalDigit (n : Nat) : Text.letterValue (octalDigit n) = n % 8 :=
  (octalDigit_cases n).2

theorem digitRun_append {isDigit : Char → Bool} {limit : Nat} {digits : List Char}
    (length : digits.length = limit) (each : ∀ d ∈ digits, isDigit d = true) (rest : List Char) :
    digitRun isDigit limit (digits ++ rest) = digits := by
  rw [digitRun, List.take_left' length, ← List.append_nil digits,
    List.takeWhile_append_of_pos each, List.takeWhile_nil]

private theorem standsFor_octalEscape (b : UInt8) : StandsFor (octalEscape b) [b] := by
  apply standsFor_escape
  intro rest
  have octal : ∀ d ∈ [octalDigit (b.toNat / 8), octalDigit b.toNat],
      Text.isOctalDigit d = true := by
    simp [isOctalDigit_octalDigit]
  have run : digitRun Text.isOctalDigit 2 (_ ++ rest) = _ := digitRun_append rfl octal rest
  have value : Text.valueInBase 8
      [octalDigit (b.toNat / 64), octalDigit (b.toNat / 8), octalDigit b.toNat] = b.toNat := by
    have bound := b.toNat_lt
    simp only [Text.valueInBase, List.foldl_cons, List.foldl_nil, letterValue_octalDigit]
    omega
  unfold escapeBytes
  rw [numericEscape?_of_isOctalDigit (isOctalDigit_octalDigit _)]
  simp only [isOctalDigit_octalDigit, if_true, run, value]
  simp

theorem standsFor_numericEscape {letter : Char} {digits : List Char} {stood : List UInt8}
    (numeric : ∀ rest, numericEscape? letter (digits ++ rest) = some (stood, digits.length)) :
    StandsFor ('\\' :: letter :: digits) stood := by
  apply standsFor_escape
  intro rest
  simp only [escapeBytes, numeric]

private theorem codePointBytes_toNat (written : List Char) (c : Char) :
    codePointBytes written c.toNat = String.utf8EncodeChar c := by
  have valid : c.toNat.isValidChar := c.valid
  simp [codePointBytes, valid, Text.Utf8.encode]

structure IsHexNumeral (width n : Nat) (digits : List Char) : Prop where
  length : digits.length = width
  digit : ∀ d ∈ digits, Text.isHexDigit d = true
  value : Text.valueInBase 16 digits = n

namespace IsHexNumeral

variable {width n : Nat} {digits : List Char}

theorem digitRun_eq (numeral : IsHexNumeral width n digits) (rest : List Char) :
    digitRun Text.isHexDigit width (digits ++ rest) = digits :=
  digitRun_append numeral.length numeral.digit rest

theorem exists_cons (numeral : IsHexNumeral (width + 1) n digits) :
    ∃ first others, digits = first :: others :=
  List.exists_cons_of_length_eq_add_one numeral.length

private theorem standsFor_byte {b : UInt8} (numeral : IsHexNumeral 2 b.toNat digits) :
    StandsFor ('\\' :: 'x' :: digits) [b] := by
  apply standsFor_numericEscape
  intro rest
  have run := numeral.digitRun_eq rest
  have value := numeral.value
  obtain ⟨first, others, rfl⟩ := numeral.exists_cons
  simp only [numericEscape?, run, value, Option.map_some, UInt8.ofNat_toNat]

private theorem standsFor_codePoint {letter c : Char}
    (form : letter = 'u' ∧ width = 4 ∨ letter = 'U' ∧ width = 8)
    (numeral : IsHexNumeral width c.toNat digits) :
    StandsFor ('\\' :: letter :: digits) (String.utf8EncodeChar c) := by
  apply standsFor_numericEscape
  intro rest
  have run := numeral.digitRun_eq rest
  have value := numeral.value
  rcases form with ⟨rfl, rfl⟩ | ⟨rfl, rfl⟩
  · obtain ⟨first, others, rfl⟩ := numeral.exists_cons
    simp only [numericEscape?, run, value, codePointBytes_toNat, Option.map_some]
  · obtain ⟨first, others, rfl⟩ := numeral.exists_cons
    simp only [numericEscape?, run, value, codePointBytes_toNat, Option.map_some]

end IsHexNumeral

inductive ByteEscape (b : UInt8) : List Char → Prop where
  | octal : ByteEscape b (octalEscape b)
  | hex {digits : List Char} (numeral : IsHexNumeral 2 b.toNat digits) :
      ByteEscape b ('\\' :: 'x' :: digits)

theorem ByteEscape.standsFor {b : UInt8} {escape : List Char} (written : ByteEscape b escape) :
    StandsFor escape [b] := by
  cases written with
  | octal => exact standsFor_octalEscape b
  | hex numeral => exact numeral.standsFor_byte

/-- The spellings that stand for a character: itself, an escape by name, escapes of all the bytes
that encode it, or an escape of its code point with as many digits as there can be. -/
inductive Denotes (c : Char) : List Char → Prop where
  | itself (notSlash : c ≠ '\\') : Denotes c [c]
  | named {letter : Char} (named : named? letter = some c) : Denotes c ['\\', letter]
  | bytes {escapes : List (List Char)}
      (each : List.Forall₂ ByteEscape (String.utf8EncodeChar c) escapes) :
      Denotes c escapes.flatten
  | short {digits : List Char} (numeral : IsHexNumeral 4 c.toNat digits) :
      Denotes c ('\\' :: 'u' :: digits)
  | long {digits : List Char} (numeral : IsHexNumeral 8 c.toNat digits) :
      Denotes c ('\\' :: 'U' :: digits)

theorem Denotes.standsFor {c : Char} {spelling : List Char} (denotes : Denotes c spelling) :
    StandsFor spelling (String.utf8EncodeChar c) := by
  cases denotes with
  | itself notSlash => exact standsFor_char notSlash
  | named named => exact standsFor_named named
  | bytes each => exact standsFor_flatten (each.imp fun _ _ written => written.standsFor)
  | short numeral => exact numeral.standsFor_codePoint (.inl ⟨rfl, rfl⟩)
  | long numeral => exact numeral.standsFor_codePoint (.inr ⟨rfl, rfl⟩)

def isWrittenByName (c : Char) : Bool :=
  ['\\', '\'', '\x1b', '\x07', '\x08', '\x0b', '\x0c', '\n', '\r', '\t'].contains c

/-- The spellings of a character that the shell prints between `$'` and `'`. -/
inductive Spells (c : Char) : List Char → Prop where
  | named {letter : Char} (byName : isWrittenByName c = true) (named : named? letter = some c) :
      Spells c ['\\', letter]
  | kept (plain : isWrittenByName c = false) : Spells c [c]
  | octal (plain : isWrittenByName c = false) :
      Spells c ((String.utf8EncodeChar c).flatMap octalEscape)

inductive SpellsText : (text body : List Char) → Prop where
  | nil : SpellsText [] []
  | cons {c : Char} {spelling text body : List Char} (spells : Spells c spelling)
      (later : SpellsText text body) : SpellsText (c :: text) (spelling ++ body)

theorem Spells.denotes {c : Char} {spelling : List Char} (spells : Spells c spelling) :
    Denotes c spelling := by
  cases spells with
  | named _ named => exact .named named
  | kept plain =>
      apply Denotes.itself
      rintro rfl
      contradiction
  | octal =>
      rw [List.flatMap_def]
      apply Denotes.bytes
      rw [List.forall₂_map_right_iff, List.forall₂_same]
      intro b _
      exact .octal

theorem SpellsText.standsFor {text body : List Char} (spells : SpellsText text body) :
    StandsFor body (Text.Utf8.encode text) := by
  induction spells with
  | nil => exact standsFor_nil
  | cons spells _ ih => exact spells.denotes.standsFor.append ih

theorem decode_of_standsFor {text body : List Char}
    (stands : StandsFor body (Text.Utf8.encode text)) : decode body = text := by
  have whole := stands []
  rw [List.append_nil, bytes_nil, List.append_nil] at whole
  rw [decode, whole, Text.Utf8.decodeLossy_encode]

/-- A text is read back from any spellings of its characters, each chosen by itself: no spelling
takes in characters of the next one, and the bytes meet again to characters. -/
theorem decode_flatten {text : List Char} {spellings : List (List Char)}
    (each : List.Forall₂ Denotes text spellings) : decode spellings.flatten = text := by
  apply decode_of_standsFor
  induction each with
  | nil => exact standsFor_nil
  | cons denotes _ ih => exact denotes.standsFor.append ih

theorem decode_flatten_mixed :
    let text := ['é', '\\', '1', '\x1b', '€', 'b', '😀', 'f']
    let body := "\\xC3\\251\\\\1\\E\\u20aCb\\U0001f600f".toList
    (∃ spellings, List.Forall₂ Denotes text spellings ∧ spellings.flatten = body) ∧
      decode body = text := by
  intro text body
  let spellings := [
    ['\\', 'x', 'C', '3'] ++ ['\\', '2', '5', '1'], ['\\', '\\'], ['1'], ['\\', 'E'],
    ['\\', 'u', '2', '0', 'a', 'C'], ['b'], ['\\', 'U', '0', '0', '0', '1', 'f', '6', '0', '0'],
    ['f']]
  have bytes : List.Forall₂ ByteEscape (String.utf8EncodeChar 'é')
      [['\\', 'x', 'C', '3'], ['\\', '2', '5', '1']] :=
    .cons (.hex ⟨rfl, List.all_eq_true.1 rfl, rfl⟩) (.cons .octal .nil)
  have each : List.Forall₂ Denotes text spellings :=
    .cons (.bytes bytes) (.cons (.named rfl) (.cons (.itself (by decide)) (.cons (.named rfl)
      (.cons (.short ⟨rfl, List.all_eq_true.1 rfl, rfl⟩) (.cons (.itself (by decide))
        (.cons (.long ⟨rfl, List.all_eq_true.1 rfl, rfl⟩) (.cons (.itself (by decide)) .nil)))))))
  have joined : spellings.flatten = body := by decide
  exact ⟨⟨spellings, each, joined⟩, joined ▸ decode_flatten each⟩

end PkgRecipe.Shell.AnsiText
