import PkgRecipe.Proofs.Text.Hexadecimal
import PkgRecipe.Ruby.Literal
import PkgRecipe.Text.WordChar

namespace PkgRecipe.Ruby

/-! String literals as Ruby reads them: characters, escapes and interpolations of the instance
variables whose names begin with a low line. The parts that are written for the characters of a
string are read back as these. -/

inductive Part where
  | char (c : Char)
  /-- An interpolated instance variable; `@_` stands before the name. -/
  | interpolated (name : List Char)
deriving DecidableEq

def Part.value (environment : List Char → List Char) : Part → List Char
  | char c => [c]
  | interpolated name => environment name

def escapedChar? (letter : Char) : Option Char :=
  if letter = '"' then some '"'
  else if letter = '\\' then some '\\'
  else if letter = 'n' then some '\n'
  else if letter = 't' then some '\t'
  else if letter = 'r' then some '\r'
  else if letter = 'f' then some '\x0c'
  else if letter = 'v' then some '\x0b'
  else if letter = 'b' then some '\x08'
  else if letter = 'a' then some '\x07'
  else if letter = 'e' then some '\x1b'
  else if letter = '#' then some '#'
  else none

def charOfDigits? (digits : List Char) : Option Char :=
  let code := Text.valueInBase 16 digits
  if digits ≠ [] ∧ code.isValidChar then some (Char.ofNat code) else none

/-- The character at the start of a text behind a backslash and the letter `u`, and what follows
it: exactly four digits, or digits in braces. -/
def codePoint? : List Char → Option (Part × List Char)
  | '\x7b' :: rest =>
      match rest.dropWhile Text.isHexDigit with
      | '\x7d' :: after =>
          (charOfDigits? (rest.takeWhile Text.isHexDigit)).map fun c => (.char c, after)
      | _ => none
  | text =>
      if (text.take 4).length = 4 ∧ (text.take 4).all Text.isHexDigit then
        (charOfDigits? (text.take 4)).map fun c => (.char c, text.drop 4)
      else none

def escape? : List Char → Option (Part × List Char)
  | [] => none
  | letter :: rest =>
      if letter = 'u' then codePoint? rest
      else (escapedChar? letter).map fun c => (.char c, rest)

/-- The variable at the start of a text behind a number sign and the opening brace. -/
def embedded? : List Char → Option (Part × List Char)
  | '@' :: '_' :: rest =>
      match rest.dropWhile Text.isWordChar with
      | '\x7d' :: after =>
          if rest.takeWhile Text.isWordChar = [] then none
          else some (.interpolated (rest.takeWhile Text.isWordChar), after)
      | _ => none
  | _ => none

/-- What a number sign before a text stands for, and what follows that. A global variable or an
instance variable without braces is refused, as is any other expression in braces. -/
def numberSign? : List Char → Option (Part × List Char)
  | '\x7b' :: inside => embedded? inside
  | '$' :: _ | '@' :: _ => none
  | text => some (.char '#', text)

def part? : List Char → Option (Part × List Char)
  | [] => none
  | c :: rest =>
      if c = '\\' then escape? rest
      else if c = '#' then numberSign? rest
      else some (.char c, rest)

private theorem suffix_of_codePoint? {text after : List Char} {p : Part}
    (read : codePoint? text = some (p, after)) : after <:+ text := by
  unfold codePoint? at read
  split at read
  · rename_i rest
    split at read
    · rename_i left dropped
      obtain ⟨c, -, same⟩ := Option.map_eq_some_iff.1 read
      obtain ⟨-, rfl⟩ := Prod.mk.inj same
      have inside : '\x7d' :: left <:+ rest := dropped ▸ List.dropWhile_suffix _
      exact ((List.suffix_cons _ _).trans inside).trans (List.suffix_cons _ _)
    · contradiction
  · split at read
    · obtain ⟨c, -, same⟩ := Option.map_eq_some_iff.1 read
      obtain ⟨-, rfl⟩ := Prod.mk.inj same
      exact List.drop_suffix _ _
    · contradiction

private theorem suffix_of_escape? {text after : List Char} {p : Part}
    (read : escape? text = some (p, after)) : after <:+ text := by
  cases text with
  | nil => contradiction
  | cons letter rest =>
      rw [escape?] at read
      split at read
      · exact (suffix_of_codePoint? read).trans (List.suffix_cons _ _)
      · obtain ⟨c, -, same⟩ := Option.map_eq_some_iff.1 read
        obtain ⟨-, rfl⟩ := Prod.mk.inj same
        exact List.suffix_cons _ _

private theorem suffix_of_embedded? {text after : List Char} {p : Part}
    (read : embedded? text = some (p, after)) : after <:+ text := by
  unfold embedded? at read
  split at read
  · rename_i rest
    split at read
    · rename_i left dropped
      split at read
      · contradiction
      · obtain ⟨-, rfl⟩ := Prod.mk.inj (Option.some.inj read)
        have inside : '\x7d' :: left <:+ rest := dropped ▸ List.dropWhile_suffix _
        exact (((List.suffix_cons _ _).trans inside).trans (List.suffix_cons _ _)).trans
          (List.suffix_cons _ _)
    · contradiction
  · contradiction

private theorem suffix_of_numberSign? {text after : List Char} {p : Part}
    (read : numberSign? text = some (p, after)) : after <:+ text := by
  unfold numberSign? at read
  split at read
  · exact (suffix_of_embedded? read).trans (List.suffix_cons _ _)
  · contradiction
  · contradiction
  · obtain ⟨-, rfl⟩ := Prod.mk.inj (Option.some.inj read)
    exact List.suffix_rfl

theorem length_of_part? {text after : List Char} {p : Part} (read : part? text = some (p, after)) :
    after.length < text.length := by
  cases text with
  | nil => contradiction
  | cons c rest =>
      have inside : after <:+ rest := by
        rw [part?] at read
        split at read
        · exact suffix_of_escape? read
        · split at read
          · exact suffix_of_numberSign? read
          · obtain ⟨-, rfl⟩ := Prod.mk.inj (Option.some.inj read)
            exact List.suffix_rfl
      exact Nat.lt_succ_of_le inside.length_le

def body? (text : List Char) : Option (List Part × List Char) :=
  if text.head? = some '"' then some ([], text.tail)
  else
    match _read : part? text with
    | some (p, after) => (body? after).map fun (ps, left) => (p :: ps, left)
    | none => none
termination_by text.length
decreasing_by exact length_of_part? _read

def string? : List Char → Option (List Part × List Char)
  | '"' :: rest => body? rest
  | _ => none

theorem body?_quote (rest : List Char) : body? ('"' :: rest) = some ([], rest) := by
  rw [body?]
  rfl

theorem body?_of_part? {text after : List Char} {p : Part} (notQuote : text.head? ≠ some '"')
    (read : part? text = some (p, after)) :
    body? text = (body? after).map fun (ps, left) => (p :: ps, left) := by
  rw [body?, if_neg notQuote]
  split
  · rename_i other left found
    rw [read] at found
    obtain ⟨rfl, rfl⟩ := Prod.mk.inj (Option.some.inj found)
    rfl
  · rename_i failed
    rw [read] at failed
    contradiction

/-! The parts that are written for characters. -/

theorem escapedChar?_of_escapeLetter? {c letter : Char} (written : escapeLetter? c = some letter) :
    letter ≠ 'u' ∧ escapedChar? letter = some c := by
  unfold escapeLetter? at written
  repeat' split at written
  all_goals first
    | contradiction
    | obtain rfl := Option.some.inj written
      subst c
      decide

theorem ne_of_escapeLetter?_eq_none {c : Char} (plain : escapeLetter? c = none) :
    c ≠ '"' ∧ c ≠ '\\' := by
  constructor <;> rintro rfl <;> contradiction

theorem charOfDigits?_upperHex (width : Nat) (c : Char) :
    charOfDigits? (Text.upperHex width c.toNat) = some c := by
  have valid : c.toNat.isValidChar := c.valid
  simp only [charOfDigits?, Text.valueInBase_upperHex, Text.upperHex_ne_nil, ne_eq,
    not_false_eq_true, valid, and_self, if_true, Char.ofNat_toNat]

private theorem codePoint?_braced (c : Char) (text : List Char) :
    codePoint? ('\x7b' :: (Text.upperHex 0 c.toNat ++ '\x7d' :: text)) = some (.char c, text) := by
  have digits : ∀ d ∈ Text.upperHex 0 c.toNat, Text.isHexDigit d = true :=
    fun _ => Text.isHexDigit_of_mem_upperHex
  have notDigit : ¬Text.isHexDigit '\x7d' = true := by decide
  rw [codePoint?, List.dropWhile_append_of_pos digits, List.takeWhile_append_of_pos digits,
    List.dropWhile_cons_of_neg notDigit, List.takeWhile_cons_of_neg notDigit, List.append_nil]
  simp only [charOfDigits?_upperHex, Option.map_some]

private theorem codePoint?_four {c : Char} (small : c.toNat ≤ 0xFFFF) (text : List Char) :
    codePoint? (Text.upperHex 4 c.toNat ++ text) = some (.char c, text) := by
  have length : (Text.upperHex 4 c.toNat).length = 4 := Text.length_upperHex (by decide) (by omega)
  have digits : (Text.upperHex 4 c.toNat).all Text.isHexDigit = true :=
    List.all_eq_true.2 fun _ => Text.isHexDigit_of_mem_upperHex
  have first : (Text.upperHex 4 c.toNat ++ text).take 4 = Text.upperHex 4 c.toNat := by
    exact List.take_left' length
  have rest : (Text.upperHex 4 c.toNat ++ text).drop 4 = text := by
    exact List.drop_left' length
  unfold codePoint?
  split
  · rename_i inside opened
    have member : '\x7b' ∈ Text.upperHex 4 c.toNat := by
      rw [← first, opened]
      simp
    exact absurd (Text.isHexDigit_of_mem_upperHex member) (by decide)
  · rw [first, rest, if_pos ⟨length, digits⟩, charOfDigits?_upperHex, Option.map_some]

private theorem part?_codePointEscape (c : Char) (text : List Char) :
    part? (codePointEscape c.toNat ++ text) = some (.char c, text) := by
  rw [codePointEscape]
  split
  · rename_i small
    exact codePoint?_four small text
  · rw [List.append_assoc]
    exact codePoint?_braced c text

private theorem part?_numberSign {text : List Char} (apart : beginsInterpolation text = false) :
    part? ('#' :: text) = some (.char '#', text) := by
  rw [part?, if_neg (by decide), if_pos rfl]
  unfold numberSign?
  split
  · contradiction
  · contradiction
  · contradiction
  · rfl

/-- What is written for a character is read back as it, unless it is a number sign and what is
written behind it begins an interpolation. -/
private theorem part?_stringChar {keepNewlines : Bool} {c : Char} {rest text : List Char}
    (apart : beginsInterpolation rest = false → beginsInterpolation text = false) :
    part? (stringChar keepNewlines c rest ++ text) = some (.char c, text) := by
  unfold stringChar
  split
  · rename_i kept
    rw [kept.1]
    rfl
  · split
    · rename_i letter written
      obtain ⟨notCode, named⟩ := escapedChar?_of_escapeLetter? written
      simp [part?, escape?, notCode, named]
    · rename_i plain
      obtain ⟨-, notSlash⟩ := ne_of_escapeLetter?_eq_none plain
      split
      · rename_i sign
        rw [sign.1]
        rfl
      · rename_i unescaped
        split
        · by_cases sign : c = '#'
          · subst c
            exact part?_numberSign (apart (by simpa using unescaped))
          · simp [part?, notSlash, sign]
        · exact part?_codePointEscape c text

theorem stringChar_cases (keepNewlines : Bool) (c : Char) (rest : List Char) :
    c ≠ '"' ∧ stringChar keepNewlines c rest = [c] ∨
      ∃ more, stringChar keepNewlines c rest = '\\' :: more := by
  unfold stringChar
  split
  · rename_i kept
    exact Or.inl ⟨by rw [kept.1]; decide, rfl⟩
  · split
    · exact Or.inr ⟨_, rfl⟩
    · rename_i plain
      split
      · exact Or.inr ⟨_, rfl⟩
      · split
        · exact Or.inl ⟨(ne_of_escapeLetter?_eq_none plain).1, rfl⟩
        · rw [codePointEscape]
          split
          · exact Or.inr ⟨_, rfl⟩
          · exact Or.inr ⟨_, rfl⟩

def isEscapeChar (c : Char) : Bool :=
  c = '\\' || c = 'u' || c = '\x7b' || c = '\x7d' || Text.isHexDigit c || (escapedChar? c).isSome

theorem eq_of_mem_stringChar {keepNewlines : Bool} {c d : Char} {rest : List Char}
    (unescaped : isEscapeChar d = false) (member : d ∈ stringChar keepNewlines c rest) :
    d = c ∧ stringChar keepNewlines c rest = [c] := by
  simp only [isEscapeChar, Bool.or_eq_false_iff, decide_eq_false_iff_not,
    Option.isSome_eq_false_iff, Option.isNone_iff_eq_none] at unescaped
  obtain ⟨⟨⟨⟨⟨notSlash, notCode⟩, notOpening⟩, notClosing⟩, notDigit⟩, notLetter⟩ := unescaped
  have notInHex (width n : Nat) : d ∉ Text.upperHex width n := by
    intro digit
    rw [Text.isHexDigit_of_mem_upperHex digit] at notDigit
    contradiction
  unfold stringChar at member ⊢
  split at member
  · rename_i kept
    rw [if_pos kept]
    exact ⟨List.mem_singleton.1 member, rfl⟩
  · rename_i notKept
    rw [if_neg notKept]
    split at member
    · rename_i letter written
      have named := (escapedChar?_of_escapeLetter? written).2
      have other : d ≠ letter := by
        rintro rfl
        rw [notLetter] at named
        contradiction
      simp [notSlash, other] at member
    · split at member
      · have notSign : d ≠ '#' := by
          rintro rfl
          contradiction
        simp [notSlash, notSign] at member
      · rename_i unsigned
        rw [if_neg unsigned]
        split at member
        · rename_i printable
          rw [if_pos printable]
          exact ⟨List.mem_singleton.1 member, rfl⟩
        · rw [codePointEscape] at member
          split at member
          · simp [notSlash, notCode, notInHex] at member
          · simp [notSlash, notCode, notOpening, notClosing, notInHex] at member

theorem beginsInterpolation_cons_eq_false (c : Char) (text : List Char) :
    beginsInterpolation (c :: text) = false ↔ c ≠ '\x7b' ∧ c ≠ '$' ∧ c ≠ '@' := by
  constructor
  · intro apart
    refine ⟨?_, ?_, ?_⟩ <;> rintro rfl <;> contradiction
  · intro others
    unfold beginsInterpolation
    split
    · rename_i same
      exact absurd (List.cons.inj same).1 others.1
    · rename_i same
      exact absurd (List.cons.inj same).1 others.2.1
    · rename_i same
      exact absurd (List.cons.inj same).1 others.2.2
    · rfl

theorem body?_stringChar {keepNewlines : Bool} {c : Char} {rest text : List Char}
    (apart : beginsInterpolation rest = false → beginsInterpolation text = false) :
    body? (stringChar keepNewlines c rest ++ text) =
      (body? text).map fun (ps, left) => (.char c :: ps, left) := by
  refine body?_of_part? ?_ (part?_stringChar apart)
  rcases stringChar_cases keepNewlines c rest with ⟨notQuote, same⟩ | ⟨more, same⟩
  · rw [same]
    simpa using notQuote
  · rw [same]
    simp

private theorem part?_interpolated {name : List Char} (nonempty : name ≠ [])
    (word : ∀ c ∈ name, Text.isWordChar c = true) (text : List Char) :
    part? ('#' :: '\x7b' :: '@' :: '_' :: (name ++ '\x7d' :: text)) =
      .some (.interpolated name, text) := by
  have notWord : ¬Text.isWordChar '\x7d' = true := by decide
  rw [part?, if_neg (by decide), if_pos rfl, numberSign?, embedded?,
    List.dropWhile_append_of_pos word, List.takeWhile_append_of_pos word,
    List.dropWhile_cons_of_neg notWord, List.takeWhile_cons_of_neg notWord, List.append_nil]
  simp only [nonempty, if_false]

theorem body?_interpolated {name : List Char} (nonempty : name ≠ [])
    (word : ∀ c ∈ name, Text.isWordChar c = true) (text : List Char) :
    body? ('#' :: '\x7b' :: '@' :: '_' :: (name ++ '\x7d' :: text)) =
      (body? text).map fun (ps, left) => (.interpolated name :: ps, left) :=
  body?_of_part? (by simp) (part?_interpolated nonempty word text)

end PkgRecipe.Ruby
