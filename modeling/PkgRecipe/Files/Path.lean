import PkgRecipe.Text.Search
import PkgRecipe.Text.Utf8

namespace PkgRecipe.Files

/-! Paths. A path has the form in which it is shown: without empty parts and single dots. Double dots
stay, since what they mean depends on the directories on the way. -/

structure Path where
  /-- The slashes at the start: none, one, or two. -/
  slashes : Nat := 0
  parts : List (List Char)
deriving DecidableEq, Repr

namespace Path

/-- Three and more slashes at the start count as one. -/
def leadingSlashes (text : List Char) : Nat :=
  let count := (text.takeWhile (· = '/')).length
  if count ≤ 2 then count else 1

def ofText (text : List Char) : Path where
  slashes := leadingSlashes text
  parts := (Text.splitAtChar '/' text).filter fun part => part ≠ [] && part ≠ ['.']

/-- The path as it is shown; the directory that paths start from is a dot. -/
def text (p : Path) : List Char :=
  if p.slashes = 0 && p.parts = [] then ['.']
  else List.replicate p.slashes '/' ++ ['/'].intercalate p.parts

def child (p : Path) (name : List Char) : Path :=
  { p with parts := p.parts ++ [name] }

def isUsable (p : Path) : Bool :=
  p.parts.all fun part => !part.contains '\x00'

def isTooLong (p : Path) : Bool :=
  4095 < (Text.Utf8.encode p.text).length

def isLongName (name : List Char) : Bool :=
  255 < (Text.Utf8.encode name).length

end Path

/-- The ending of a file name from its last dot on. A dot at either end of the name begins no
ending. -/
def ending (name : List Char) : List Char :=
  let behind := (name.reverse.takeWhile (· ≠ '.')).reverse
  if behind = [] || name.length ≤ behind.length + 1 then [] else '.' :: behind

end PkgRecipe.Files
