import Mathlib.Data.List.TakeWhile
import PkgRecipe.Ruby.Literal

namespace PkgRecipe

namespace Text

theorem toNat_of_isDigit {c : Char} (digit : c.isDigit = true) : 48 ≤ c.toNat ∧ c.toNat < 58 := by
  have range : '0'.toNat ≤ c.toNat ∧ c.toNat ≤ '9'.toNat := Char.isDigit_iff_toNat.1 digit
  exact ⟨range.1, Nat.lt_succ_of_le range.2⟩

theorem digitValue?_of_isDigit {c : Char} (digit : c.isDigit = true) :
    digitValue? c = some (c.toNat - '0'.toNat) := by
  have first : (zeroDigits.find? fun first => first ≤ c.toNat && c.toNat < first + 10) = some 48 :=
    List.find?_cons_of_pos (by simpa using toNat_of_isDigit digit)
  rw [digitValue?, first]
  rfl

private theorem isDecimalDigit_of_isDigit {c : Char} (digit : c.isDigit = true) :
    isDecimalDigit c = true := by
  rw [isDecimalDigit, digitValue?_of_isDigit digit]
  rfl

private theorem isBlank_eq_false_of_isDigit {c : Char} (digit : c.isDigit = true) : isBlank c = false := by
  have range := toNat_of_isDigit digit
  have checked : ∀ n < 58, 48 ≤ n → inRanges blankRanges n = false := by decide
  exact checked c.toNat range.2 range.1

private theorem decimalValue_eq_ofDigitChars {digits : List Char}
    (digit : ∀ c ∈ digits, c.isDigit = true) :
    decimalValue digits = Nat.ofDigitChars 10 digits 0 := by
  -- the digits may stand behind others, whose value is `n`
  have behind (n : Nat) : digits.foldl (fun n c => n * 10 + (digitValue? c).getD 0) n =
      Nat.ofDigitChars 10 digits n := by
    induction digits generalizing n with
    | nil => rfl
    | cons c digits ih =>
        have value := digitValue?_of_isDigit (digit c List.mem_cons_self)
        rw [List.foldl_cons, value, ih fun d member => digit d (List.mem_cons_of_mem c member),
          Nat.ofDigitChars_cons, Nat.mul_comm]
        rfl
  exact behind 0

theorem isDigit_of_mem_decimal {n : Nat} {c : Char} (member : c ∈ decimal n) : c.isDigit = true :=
  Nat.isDigit_of_mem_toDigits (by decide) (by decide) member

private theorem decimalValue_decimal (n : Nat) : decimalValue (decimal n) = n := by
  rw [decimalValue_eq_ofDigitChars fun _ => isDigit_of_mem_decimal, decimal,
    Nat.ofDigitChars_toDigits (by decide) (by decide)]

theorem decimal_ne_nil (n : Nat) : decimal n ≠ [] :=
  Nat.toDigits_ne_nil

end Text

namespace Ruby

def leadingNumber (text : List Char) : Except Nat Nat :=
  let digits := text.takeWhile Text.isDecimalDigit
  if digits.length ≤ Number.digitLimit then .ok (Text.decimalValue digits) else .error digits.length

private theorem leadingNumber_decimal (n : Nat) :
    leadingNumber (Text.decimal n) =
      if (Text.decimal n).length ≤ Number.digitLimit then .ok n
      else .error (Text.decimal n).length := by
  have digits : (Text.decimal n).takeWhile Text.isDecimalDigit = Text.decimal n :=
    List.takeWhile_eq_self_iff.2 fun _ member =>
      Text.isDecimalDigit_of_isDigit (Text.isDigit_of_mem_decimal member)
  simp only [leadingNumber, digits, Text.decimalValue_decimal]

theorem integer_eq (text : List Char) :
    integer text =
      match Text.trimStart text with
      | '-' :: rest => (leadingNumber rest).map fun n => -n
      | '+' :: rest => (leadingNumber rest).map fun n => n
      | rest => (leadingNumber rest).map fun n => n :=
  rfl

theorem integer_cons {c : Char} (notBlank : Text.isBlank c = false) (notMinus : c ≠ '-')
    (notPlus : c ≠ '+') (rest : List Char) :
    integer (c :: rest) = (leadingNumber (c :: rest)).map Int.ofNat := by
  rw [integer_eq, Text.trimStart_cons notBlank]
  split
  · rename_i same
    exact absurd (List.cons.inj same).1 notMinus
  · rename_i same
    exact absurd (List.cons.inj same).1 notPlus
  · cases leadingNumber (c :: rest) <;> rfl

private theorem integer_minus (rest : List Char) :
    integer ('-' :: rest) = (leadingNumber rest).map fun n => -Int.ofNat n := by
  have kept : Text.trimStart ('-' :: rest) = '-' :: rest := Text.trimStart_cons (by decide) rest
  simp only [integer_eq, kept]
  cases leadingNumber rest <;> rfl

theorem integer_decimal (n : Nat) :
    integer (Text.decimal n) = (leadingNumber (Text.decimal n)).map Int.ofNat := by
  obtain ⟨c, rest, same⟩ := List.exists_cons_of_ne_nil (Text.decimal_ne_nil n)
  have digit : c.isDigit = true := by
    apply Text.isDigit_of_mem_decimal (n := n)
    rw [same]
    exact List.mem_cons_self
  have notSign {sign : Char} (other : sign.isDigit = false) : c ≠ sign := by
    rintro rfl
    rw [digit] at other
    contradiction
  rw [same, integer_cons (Text.isBlank_eq_false_of_isDigit digit) (notSign rfl) (notSign rfl)]

/-- The numeral of an integer is read back, unless it has more digits than the limit. -/
theorem integer_signedDecimal (n : Int) :
    integer (Text.signedDecimal n) =
      if (Text.decimal n.natAbs).length ≤ Number.digitLimit then .ok n
      else .error (Text.decimal n.natAbs).length := by
  cases n with
  | ofNat n =>
      have magnitude : (Int.ofNat n).natAbs = n := rfl
      rw [Text.signedDecimal, magnitude, integer_decimal, leadingNumber_decimal]
      split <;> rfl
  | negSucc n =>
      rw [Text.signedDecimal, Int.natAbs_negSucc, integer_minus, leadingNumber_decimal]
      split <;> rfl

theorem integer_paren (rest : List Char) : integer ('(' :: rest) = .ok 0 := by
  have digitless : ('(' :: rest).takeWhile Text.isDecimalDigit = [] :=
    List.takeWhile_cons_of_neg (by decide)
  rw [integer_cons (by decide) (by decide) (by decide), leadingNumber, digitless]
  rfl

end Ruby

end PkgRecipe
