import PkgRecipe.Number.Limit
import PkgRecipe.Settings.Problem
import PkgRecipe.Text.Blank
import PkgRecipe.Text.Search

namespace PkgRecipe.Settings.IntegerText

/-- White space without the information separators. -/
def isSpace (c : Char) : Bool :=
  Text.isBlank c && !('\x1c' ≤ c && c ≤ '\x1f')

def trimSpaces (text : List Char) : List Char :=
  ((text.dropWhile isSpace).reverse.dropWhile isSpace).reverse

/-- Drops a plus sign, which no minus sign may follow. -/
def withoutPlus? : List Char → Option (List Char)
  | '+' :: '-' :: _ => none
  | '+' :: rest => some rest
  | text => some text

def isLead (c : Char) : Bool :=
  ('1' ≤ c && c ≤ '9') || c = '-'

/-- A text without the zeros and low lines it begins with. The last of them, `last`, stays where
nothing or a point follows; anything else must begin a number. -/
def fromLead? (last : Char) : List Char → Option (List Char)
  | [] => some [last]
  | c :: rest =>
      if c = '0' ∨ c = '_' then fromLead? c rest
      else if isLead c then some (c :: rest)
      else if c = '.' then some (last :: c :: rest)
      else none

def withoutZeros? : List Char → Option (List Char)
  | [] => none
  | c :: rest =>
      if c = '0' then fromLead? c rest
      else if isLead c then some (c :: rest)
      else none

/-- A text without a point and zeros at its end. There must be a zero behind the point. -/
def withoutFraction (text : List Char) : List Char :=
  match Text.cutAt? ['.'] text with
  | some (whole, fraction) => if fraction ≠ [] && fraction.all (· = '0') then whole else text
  | none => text

/-- A text without its low lines, if each of them stands alone between other characters. -/
def ungrouped (text : List Char) : List Char :=
  let groups := Text.splitAtChar '_' text
  if groups.any (· = []) then text else groups.flatten

/-- The integer that a numeral is: an optional minus sign and digits, the first of which is a zero
only if it stands alone. More characters than `Number.digitLimit` are too many. -/
def numeral (text : List Char) : Except Defect Int :=
  let (negative, unsigned) :=
    match text with
    | '-' :: rest => (true, rest)
    | _ => (false, text)
  let digits := unsigned.takeWhile Char.isDigit
  let value : Int := Text.valueInBase 10 digits
  let signLength := if negative then 1 else 0
  if digits = [] || (digits.head? = some '0' && 1 < digits.length) then .error .unreadableInteger
  else if Number.digitLimit < signLength + digits.length then .error .oversizedInteger
  else if unsigned.length ≠ digits.length then .error .unreadableInteger
  else .ok (if negative then -value else value)

def value (text : List Char) : Except Defect Int :=
  match (withoutPlus? (trimSpaces text)).bind withoutZeros? with
  | some trimmed => numeral (ungrouped (withoutFraction trimmed))
  | none => .error .unreadableInteger

end PkgRecipe.Settings.IntegerText
