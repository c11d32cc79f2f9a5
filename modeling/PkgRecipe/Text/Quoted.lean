import PkgRecipe.Text.Numeral
import PkgRecipe.Text.Printable

namespace PkgRecipe.Text

/-- The quotation mark for a text: single, unless the text holds single marks and no double one. -/
def quotationMark (text : List Char) : Char :=
  if text.contains '\'' && !text.contains '"' then '"' else '\''

/-- A character inside quotation marks. Marks, backslashes and line and tab characters are escaped
by name, other characters that are not printable by number. -/
def quotedChar (mark c : Char) : List Char :=
  if c = mark ∨ c = '\\' then ['\\', c]
  else if c = '\n' then ['\\', 'n']
  else if c = '\r' then ['\\', 'r']
  else if c = '\t' then ['\\', 't']
  else if isPrintable c then [c]
  else if c.toNat < 0x100 then '\\' :: 'x' :: hex 2 c.toNat
  else if c.toNat < 0x10000 then '\\' :: 'u' :: hex 4 c.toNat
  else '\\' :: 'U' :: hex 8 c.toNat

def quoted (text : List Char) : List Char :=
  let mark := quotationMark text
  mark :: (text.flatMap (quotedChar mark) ++ [mark])

def quotedByte (mark : Char) (b : UInt8) : List Char :=
  if b.toNat < 0x7F then quotedChar mark (Char.ofNat b.toNat) else '\\' :: 'x' :: hex 2 b.toNat

def quotedBytes (bytes : List UInt8) : List Char :=
  let mark := quotationMark (bytes.map fun b => Char.ofNat b.toNat)
  'b' :: mark :: (bytes.flatMap (quotedByte mark) ++ [mark])

end PkgRecipe.Text
