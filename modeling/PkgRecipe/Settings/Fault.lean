import PkgRecipe.Failure
import PkgRecipe.Settings.Problem
import PkgRecipe.Yaml.Reader

namespace PkgRecipe.Settings

inductive Fault where
  | unreadable (fault : Yaml.Fault)
  | undecodable (fault : Text.Utf8.Fault)
  /-- A file or a directory cannot be looked at. -/
  | unreachable (failure : Failure)
  /-- A file holds something other than a mapping. -/
  | noMapping (path : List Char)
  /-- Data that has no entries is to be laid over the defaults. -/
  | withoutEntries (data : Data)
  /-- Data other than a mapping is read as settings. -/
  | noSections (data : Data)
  /-- The name of a section is no text. -/
  | sectionNotText
  /-- The name of a life cycle function is no text. -/
  | functionNotText (name : Scalar)
  /-- The name of a well-known variable is no text. -/
  | variableNotText (name : Scalar)
  | invalid (problems : List Problem)
deriving Repr

namespace Fault

def calendarMessage : CalendarFault → List Char
  | .yearRange year => "year ".toList ++ Text.decimal year ++ " is out of range".toList
  | .monthRange => "month must be in 1..12".toList
  | .dayRange => "day is out of range for month".toList
  | .hourRange => "hour must be in 0..23".toList
  | .minuteRange => "minute must be in 0..59".toList
  | .secondRange => "second must be in 0..59".toList
  | .offsetRange minutes =>
      "offset must be a timedelta strictly between -timedelta(hours=24) and ".toList ++
        "timedelta(hours=24), not ".toList ++ Data.durationText minutes ++ ['.']

def scalarMessage : Yaml.ScalarFault → List Char
  | .oversized digits => Failure.oversizedMessage digits
  | .digitsMissing base =>
      "invalid literal for int() with base ".toList ++ Text.decimal base ++ ": ''".toList
  | .placeTooGreat => "int too large to convert to float".toList
  | .calendar fault => calendarMessage fault

def yamlMessage : Yaml.Fault → List Char
  | .malformed => "malformed YAML".toList
  | .scalar fault => scalarMessage fault
  | .reported message => message

def lackMessage (data : Data) (lack : String) : List Char :=
  '\'' :: (data.kindName ++ "' object has no attribute ".toList ++ Text.quoted lack.toList)

/-- A name that is no text is asked for what texts have, or bytes for what they have for bytes. -/
def nameMessage (name : Scalar) (lack : String) : List Char :=
  match name with
  | .bytes _ => "a bytes-like object is required, not 'str'".toList
  | name => lackMessage (.scalar name) lack

def message : Fault → List Char
  | unreadable fault => yamlMessage fault
  | undecodable fault => Failure.undecodableMessage fault
  | unreachable failure => failure.message
  | noMapping path => path ++ ": expected a mapping at the top level".toList
  | withoutEntries data => lackMessage data "items"
  | noSections data => "argument after ** must be a mapping, not ".toList ++ data.kindName
  | sectionNotText => "keywords must be strings".toList
  | functionNotText name => nameMessage name "removesuffix"
  | variableNotText name => nameMessage name "lstrip"
  | invalid [_] => "1 validation error for Config".toList
  | invalid problems =>
      Text.decimal problems.length ++ " validation errors for Config".toList

end Fault

end PkgRecipe.Settings
