import PkgRecipe.Data.Tree
import PkgRecipe.Number.Limit
import PkgRecipe.Number.Shortest
import PkgRecipe.Text.Quoted

namespace PkgRecipe.Data

/-- A decimal with a point. The point is `point` digits behind the first one. -/
def pointText (digits : List Char) (point : Int) : List Char :=
  if point ≤ 0 then "0.".toList ++ List.replicate (-point).toNat '0' ++ digits
  else if digits.length ≤ point then
    digits ++ List.replicate (point.toNat - digits.length) '0' ++ ".0".toList
  else digits.take point.toNat ++ '.' :: digits.drop point.toNat

def exponentText (digits : List Char) (exponent : Int) : List Char :=
  let fraction := if digits.length ≤ 1 then [] else '.' :: digits.drop 1
  let sign := if exponent < 0 then '-' else '+'
  digits.take 1 ++ fraction ++
    'e' :: sign :: (Text.decimal exponent.natAbs).leftpad 2 '0'

/-- The text of a finite number. It has no exponent when its first digit is at most four places
behind the point and at most sixteen places before it. -/
def finiteText (b : Binary) : List Char :=
  let decimal := Decimal.shortest b
  let digits := Text.decimal decimal.digits
  let point := digits.length + decimal.power
  let unsigned :=
    if decimal.digits = 0 then "0.0".toList
    else if -4 < point ∧ point ≤ 16 then pointText digits point
    else exponentText digits (point - 1)
  if b.negative then '-' :: unsigned else unsigned

def floatText (x : Float) : List Char :=
  match Binary.ofFloat? x with
  | some b => finiteText b
  | none =>
      if x.isNaN then "nan".toList
      else if x < 0 then "-inf".toList
      else "inf".toList

def dateText (d : Date) : List Char :=
  "datetime.date(".toList ++
    ", ".toList.intercalate [Text.decimal d.year, Text.decimal d.month, Text.decimal d.day] ++ [')']

def durationText (minutes : Int) : List Char :=
  let days := minutes.fdiv DateTime.minutesPerDay
  let seconds := minutes.fmod DateTime.minutesPerDay * 60
  let parts :=
    (if days = 0 then [] else ["days=".toList ++ Text.signedDecimal days]) ++
      if seconds = 0 then [] else ["seconds=".toList ++ Text.signedDecimal seconds]
  "datetime.timedelta(".toList ++
    (if parts = [] then ['0'] else ", ".toList.intercalate parts) ++ [')']

def offsetText (minutes : Int) : List Char :=
  if minutes = 0 then "datetime.timezone.utc".toList
  else "datetime.timezone(".toList ++ durationText minutes ++ [')']

/-- A date and a time; seconds and microseconds at the end are left out when they are zero. -/
def dateTimeText (t : DateTime) : List Char :=
  let seconds :=
    if t.microsecond ≠ 0 then [t.second, t.microsecond]
    else if t.second ≠ 0 then [t.second]
    else []
  let numbers := [t.date.year, t.date.month, t.date.day, t.hour, t.minute] ++ seconds
  let offset := t.offset.elim [] fun minutes => ", tzinfo=".toList ++ offsetText minutes
  "datetime.datetime(".toList ++ ", ".toList.intercalate (numbers.map Text.decimal) ++ offset ++ [')']

def scalarText : Scalar → List Char
  | .null => "None".toList
  | .bool true => "True".toList
  | .bool false => "False".toList
  | .int n => Text.signedDecimal n
  | .float x => floatText x
  | .text t => Text.quoted t
  | .bytes b => Text.quotedBytes b
  | .date d => dateText d
  | .dateTime t => dateTimeText t
  | .foreign v => v.rendering

mutual
/-- Data as a message shows it: texts in quotation marks, sequences in brackets, mappings in
braces. -/
def rendering : Data → List Char
  | .scalar s => scalarText s
  | .sequence items => '[' :: (itemsRendering items ++ [']'])
  | .mapping entries => '\x7b' :: (entriesRendering entries ++ ['\x7d'])

def itemsRendering : List Data → List Char
  | [] => []
  | [item] => item.rendering
  | item :: rest => item.rendering ++ ", ".toList ++ itemsRendering rest

def entriesRendering : List (Scalar × Data) → List Char
  | [] => []
  | [entry] => entryRendering entry
  | entry :: rest => entryRendering entry ++ ", ".toList ++ entriesRendering rest

def entryRendering : Scalar × Data → List Char
  | (key, value) => scalarText key ++ ": ".toList ++ value.rendering
end

def isWritableScalar : Scalar → Bool
  | .int n => Number.isWritable n
  | _ => true

mutual
def isWritable : Data → Bool
  | .scalar s => isWritableScalar s
  | .sequence items => areWritable items
  | .mapping entries => entriesWritable entries

def areWritable : List Data → Bool
  | [] => true
  | item :: rest => item.isWritable && areWritable rest

def entriesWritable : List (Scalar × Data) → Bool
  | [] => true
  | entry :: rest => entryWritable entry && entriesWritable rest

def entryWritable : Scalar × Data → Bool
  | (key, value) => isWritableScalar key && value.isWritable
end

def plainText : Data → List Char
  | .scalar (.text t) => t
  | data => data.rendering

def kindName : Data → List Char
  | .scalar .null => "NoneType".toList
  | .scalar (.bool _) => "bool".toList
  | .scalar (.int _) => "int".toList
  | .scalar (.float _) => "float".toList
  | .scalar (.text _) => "str".toList
  | .scalar (.bytes _) => "bytes".toList
  | .scalar (.date _) => "datetime.date".toList
  | .scalar (.dateTime _) => "datetime.datetime".toList
  | .scalar (.foreign v) => v.kind
  | .sequence _ => "list".toList
  | .mapping _ => "dict".toList

end PkgRecipe.Data
