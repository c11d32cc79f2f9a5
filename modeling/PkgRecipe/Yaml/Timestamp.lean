import PkgRecipe.Data.Tree
import PkgRecipe.Text.Numeral
import PkgRecipe.Yaml.Cursor

namespace PkgRecipe.Yaml.Timestamp

/-- The number at the start of a text, of at most `most` and at least `least` digits. -/
def digits? (least most : Nat) (text : List Char) : Option (Nat × List Char) :=
  let digits := (text.take most).takeWhile Char.isDigit
  if digits.length < least then none
  else some (Text.valueInBase 10 digits, text.drop digits.length)

def past? (c : Char) : List Char → Option (List Char)
  | [] => none
  | d :: rest => if d = c then some rest else none

def date? (least : Nat) (text : List Char) : Option (Date × List Char) := do
  let (year, text) ← digits? 4 4 text
  let (month, text) ← digits? least 2 (← past? '-' text)
  let (day, text) ← digits? least 2 (← past? '-' text)
  return (⟨year, month, day⟩, text)

/-- Goes past what stands between a date and a time: a letter or blanks. -/
def pastGap? : List Char → Option (List Char)
  | [] => none
  | c :: rest =>
      if c = 'T' ∨ c = 't' then some rest
      else if isSpaceOrTab c then some (rest.dropWhile isSpaceOrTab)
      else none

/-- The microseconds that digits behind a decimal point stand for. Those from the seventh on do not
count. -/
def microseconds (digits : List Char) : Nat :=
  Text.valueInBase 10 ((digits.take 6).rightpad 6 '0')

def fraction : List Char → Nat × List Char
  | '.' :: rest => (microseconds (rest.takeWhile Char.isDigit), rest.dropWhile Char.isDigit)
  | text => (0, text)

/-- The offset from universal time that a text is behind blanks, in minutes; it may be missing. -/
def offset? (text : List Char) : Option (Option Int) :=
  if text = [] then some none
  else
    match text.dropWhile isSpaceOrTab with
    | ['Z'] => some (some 0)
    | sign :: rest => do
        guard (sign = '+' ∨ sign = '-')
        let (hours, rest) ← digits? 1 2 rest
        let (minutes, rest) ← if rest = [] then some (0, []) else digits? 2 2 (← past? ':' rest)
        guard (rest = [])
        let ahead : Int := hours * 60 + minutes
        return some (if sign = '-' then -ahead else ahead)
    | [] => none

def dateTime? (text : List Char) : Option DateTime := do
  let (date, text) ← date? 1 text
  let (hour, text) ← digits? 1 2 (← pastGap? text)
  let (minute, text) ← digits? 2 2 (← past? ':' text)
  let (second, text) ← digits? 2 2 (← past? ':' text)
  let (microsecond, text) := fraction text
  return ⟨date, hour, minute, second, microsecond, ← offset? text⟩

def scalar? (text : List Char) : Option (Except CalendarFault Scalar) :=
  match date? 2 text, dateTime? text with
  | some (date, []), _ => some (date.fault?.elim (.ok (.date date)) .error)
  | _, some time => some (time.fault?.elim (.ok (.dateTime time)) .error)
  | _, none => none

end PkgRecipe.Yaml.Timestamp
