import PkgRecipe.Number.Limit
import PkgRecipe.Yaml.Timestamp

namespace PkgRecipe.Yaml

inductive ScalarFault where
  /-- An integer has too many decimal digits. -/
  | oversized (digits : Nat)
  /-- A numeral in a base has no digits. -/
  | digitsMissing (base : Nat)
  /-- A place of a numeral in base sixty is worth more than any number with a fraction. -/
  | placeTooGreat
  | calendar (fault : CalendarFault)
deriving DecidableEq, Repr

def nullTexts : List (List Char) :=
  ["", "~", "null", "Null", "NULL"].map String.toList

def trueTexts : List (List Char) :=
  ["yes", "Yes", "YES", "true", "True", "TRUE", "on", "On", "ON"].map String.toList

def falseTexts : List (List Char) :=
  ["no", "No", "NO", "false", "False", "FALSE", "off", "Off", "OFF"].map String.toList

def withoutLowLines (text : List Char) : List Char :=
  text.filter (· ≠ '_')

structure Digits where
  base : Nat
  digits : List Char

def digits? (text : List Char) : Option Digits :=
  match text with
  | '0' :: 'b' :: rest =>
      if rest ≠ [] && rest.all (fun c => c = '0' || c = '1' || c = '_') then
        some ⟨2, withoutLowLines rest⟩
      else none
  | '0' :: 'x' :: rest =>
      if rest ≠ [] && rest.all (fun c => Text.isHexDigit c || c = '_') then
        some ⟨16, withoutLowLines rest⟩
      else none
  | ['0'] => some ⟨10, ['0']⟩
  | '0' :: rest =>
      if rest.all (fun c => Text.isOctalDigit c || c = '_') then some ⟨8, withoutLowLines rest⟩
      else none
  | c :: rest =>
      if c.isDigit && rest.all (fun d => d.isDigit || d = '_') then
        some ⟨10, c :: withoutLowLines rest⟩
      else none
  | [] => none

/-- Whether a text is a number of minutes or seconds: one digit, or two below sixty. -/
def isSixtieth : List Char → Bool
  | [c] => c.isDigit
  | [c, d] => '0' ≤ c && c ≤ '5' && d.isDigit
  | _ => false

def colonParts : List Char → List (List Char)
  | [] => [[]]
  | c :: rest =>
      match colonParts rest with
      | [] => [[c]]
      | part :: parts => if c = ':' then [] :: part :: parts else (c :: part) :: parts

def decimal? (digits : List Char) : Except ScalarFault Nat :=
  if Number.digitLimit < digits.length then .error (.oversized digits.length)
  else .ok (Text.valueInBase 10 digits)

def Digits.value : Digits → Except ScalarFault Nat
  | ⟨8, digits⟩ => .ok (Text.valueInBase 8 digits)
  | ⟨10, digits⟩ => decimal? digits
  | ⟨base, digits⟩ =>
      if digits = [] then .error (.digitsMissing base) else .ok (Text.valueInBase base digits)

/-- The integer that parts separated by colons stand for, in base sixty. -/
def sixtieths (parts : List (List Char)) : Except ScalarFault Nat :=
  parts.foldlM (fun n part => return n * 60 + (← decimal? (withoutLowLines part))) 0

/-- Whether a part is the first of a numeral in base sixty: it begins with a digit from one on. -/
def leadsSixtieths : List Char → Bool
  | [] => false
  | c :: rest => '1' ≤ c && c ≤ '9' && rest.all fun d => d.isDigit || d = '_'

def integer? (text : List Char) : Option (Except ScalarFault Int) :=
  let (negative, unsigned) := Text.splitSign text
  let signed (n : Nat) : Int := if negative then -n else n
  match digits? unsigned with
  | some digits => some (digits.value.map signed)
  | none =>
      match colonParts unsigned with
      | first :: second :: rest =>
          if leadsSixtieths first && (second :: rest).all isSixtieth then
            some ((sixtieths (first :: second :: rest)).map signed)
          else none
      | _ => none

def exponent? : List Char → Option Int
  | [] => some 0
  | letter :: sign :: digits =>
      if (letter = 'e' || letter = 'E') && digits ≠ [] && digits.all Char.isDigit then
        if sign = '-' then some (-(Text.valueInBase 10 digits))
        else if sign = '+' then some (Text.valueInBase 10 digits)
        else none
      else none
  | _ => none

def decimalFloat (whole fraction : List Char) (exponent : Int) : Float :=
  let mantissa := Text.valueInBase 10 (withoutLowLines (whole ++ fraction))
  let scale := exponent - (withoutLowLines fraction).length
  Float.ofScientific mantissa (scale < 0) scale.natAbs

/-- What parts of a numeral in base sixty add to a sum; the last part comes first, and `place` is
what it is multiplied by. -/
def addSixtieths (place : Nat) (sum : Float) : List Float → Except ScalarFault Float
  | [] => .ok sum
  | part :: rest =>
      let factor := Float.ofScientific place false 0
      if factor.isInf then .error .placeTooGreat
      else addSixtieths (place * 60) (sum + part * factor) rest

/-- The number that parts separated by colons and a fraction of the last part make, in base
sixty. -/
def sixtiethsFloat (parts : List (List Char)) (fraction : List Char) : Except ScalarFault Float :=
  match parts.reverse with
  | [] => .ok 0.0
  | last :: before =>
      addSixtieths 1 0.0 (decimalFloat last fraction 0 :: before.map (decimalFloat · [] 0))

def float? (text : List Char) : Option (Except ScalarFault Float) :=
  let (negative, unsigned) := Text.splitSign text
  let signed (x : Float) : Float := if negative then -x else x
  let isPart (c : Char) : Bool := c.isDigit || c = '_'
  let whole := unsigned.takeWhile (fun c => isPart c || c = ':')
  let infinity := [".inf".toList, ".Inf".toList, ".INF".toList]
  let notNumber := [".nan".toList, ".NaN".toList, ".NAN".toList]
  if infinity.contains unsigned then some (.ok (signed (1.0 / 0.0)))
  else if notNumber.contains text then some (.ok (0.0 / 0.0))
  else
    match unsigned.drop whole.length with
    | '.' :: behind =>
        let fraction := behind.takeWhile isPart
        let exponent := exponent? (behind.drop fraction.length)
        match colonParts whole with
        | [digits] =>
            let leads := digits.head?.any Char.isDigit
            let bare := digits = [] && text.head? = some '.' && fraction.head?.any Char.isDigit
            if leads || bare then
              exponent.map fun e => .ok (signed (decimalFloat digits fraction e))
            else none
        | first :: rest =>
            if first.head?.any Char.isDigit && rest.all isSixtieth &&
                behind.length = fraction.length then
              some ((sixtiethsFloat (first :: rest) fraction).map signed)
            else none
        | [] => none
    | _ => none

def plainValue (text : List Char) : Except ScalarFault Scalar :=
  if nullTexts.contains text then .ok .null
  else if trueTexts.contains text then .ok (.bool true)
  else if falseTexts.contains text then .ok (.bool false)
  else
    match float? text, integer? text, Timestamp.scalar? text with
    | some x, _, _ => x.map .float
    | none, some n, _ => n.map .int
    | none, none, some scalar => scalar.mapError .calendar
    | none, none, none => .ok (.text text)

end PkgRecipe.Yaml
