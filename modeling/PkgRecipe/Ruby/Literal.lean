import PkgRecipe.Number.Limit
import PkgRecipe.Text.Blank
import PkgRecipe.Text.Printable

namespace PkgRecipe.Ruby

def escapeLetter? (c : Char) : Option Char :=
  if c = '"' then some '"'
  else if c = '\\' then some '\\'
  else if c = '\n' then some 'n'
  else if c = '\t' then some 't'
  else if c = '\r' then some 'r'
  else if c = '\x0c' then some 'f'
  else if c = '\x0b' then some 'v'
  else if c = '\x08' then some 'b'
  else if c = '\x07' then some 'a'
  else if c = '\x1b' then some 'e'
  else none

def beginsInterpolation : List Char → Bool
  | '{' :: _ | '$' :: _ | '@' :: _ => true
  | _ => false

/-- The escape of a code point: four digits if they suffice, otherwise digits in braces. -/
def codePointEscape (code : Nat) : List Char :=
  if code ≤ 0xFFFF then '\\' :: 'u' :: Text.upperHex 4 code
  else "\\u\x7b".toList ++ Text.upperHex 0 code ++ ['}']

/-- A character of a string literal that is followed by `rest` in the string. -/
def stringChar (keepNewlines : Bool) (c : Char) (rest : List Char) : List Char :=
  if c = '\n' ∧ keepNewlines then [c]
  else
    match escapeLetter? c with
    | some letter => ['\\', letter]
    | none =>
        if c = '#' ∧ beginsInterpolation rest then ['\\', '#']
        else if Text.isPrintable c then [c]
        else codePointEscape c.toNat

def stringBody (keepNewlines : Bool) : List Char → List Char
  | [] => []
  | c :: rest => stringChar keepNewlines c rest ++ stringBody keepNewlines rest

/-- A string literal. Line ends are escaped unless they are kept. -/
def stringLiteral (keepNewlines : Bool) (value : List Char) : List Char :=
  '"' :: (stringBody keepNewlines value ++ ['"'])

def string (value : List Char) : List Char :=
  stringLiteral false value

def array (values : List (List Char)) : List Char :=
  '[' :: (", ".toList.intercalate (values.map string) ++ [']'])

/-- The integer at the start of a text, behind blanks; zero if there is none. A numeral with more
digits than the limit is refused with their number. -/
def integer (text : List Char) : Except Nat Int :=
  let unsigned (rest : List Char) : Except Nat Nat :=
    let digits := rest.takeWhile Text.isDecimalDigit
    if digits.length ≤ Number.digitLimit then .ok (Text.decimalValue digits) else .error digits.length
  match Text.trimStart text with
  | '-' :: rest => (unsigned rest).map fun n => -n
  | '+' :: rest => (unsigned rest).map fun n => n
  | rest => (unsigned rest).map fun n => n

end PkgRecipe.Ruby
