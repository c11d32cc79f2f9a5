import PkgRecipe.Table
import PkgRecipe.Text.Blank
import PkgRecipe.Text.Casing

namespace PkgRecipe.Status

/-- Colors of the foreground and the background, and attributes of the text, by the names that
terminals know. -/
structure Style where
  foreground : Option (List Char) := none
  background : Option (List Char) := none
  attributes : List (List Char) := []
deriving DecidableEq, Repr

def baseColors : List (List Char) :=
  ["black", "red", "green", "yellow", "blue", "magenta", "cyan", "white"].map String.toList

def grayWords : List (List Char) :=
  ["gray", "grey"].map String.toList

def attributeNames : Table (List Char) :=
  [("bold", "bold"), ("italic", "italic"), ("underline", "underline"), ("blink", "blink"),
    ("reverse", "reverse"), ("inverse", "reverse"), ("hidden", "hidden"),
    ("strikethrough", "strike")].map fun entry => (entry.1.toList, entry.2.toList)

def plainColor? (word : List Char) : Option (List Char) :=
  if baseColors.contains word then some ("ansi".toList ++ word)
  else if grayWords.contains word then some "ansibrightblack".toList
  else none

/-- The color that the first words name: a number after a hash sign, a word, or a word after
`bright`. -/
def color? : List (List Char) → Option (List Char)
  | [] => none
  | ('#' :: number) :: _ => some ('#' :: number)
  | first :: second :: _ =>
      if first = "bright".toList ∧ baseColors.contains second then
        some ("ansibright".toList ++ second)
      else plainColor? first
  | [first] => plainColor? first

namespace Style

/-- The style that a description names. Words behind the first `on` describe the background; of the
others, those that name no attribute describe the foreground. -/
def ofText (description : List Char) : Style :=
  let words := Text.blankWords (Text.lower description)
  let isOn (word : List Char) : Bool := word = "on".toList
  let front := words.takeWhile (!isOn ·)
  let isAttribute (word : List Char) : Bool := attributeNames.keys.contains word
  { foreground := color? (front.filter (!isAttribute ·))
    background := color? ((words.dropWhile (!isOn ·)).drop 1)
    attributes := front.filterMap (attributeNames.lookup ·) }

def text (s : Style) : List Char :=
  [' '].intercalate (s.attributes ++ s.foreground.toList ++
    (s.background.map ("bg:".toList ++ ·)).toList)

end Style

end PkgRecipe.Status
