namespace PkgRecipe.Yaml

def isBreak (c : Char) : Bool :=
  c = '\n' || c = '\r' || c = '\u0085' || c = '\u2028' || c = '\u2029'

def isSpaceOrTab (c : Char) : Bool :=
  c = ' ' || c = '\t'

def isGap (c : Char) : Bool :=
  isSpaceOrTab c || isBreak c

def endsOr (p : Char → Bool) : List Char → Bool
  | [] => true
  | c :: _ => p c

def atGap (text : List Char) : Bool :=
  endsOr isGap text

/-- Whether a line begins with three hyphens, or three full stops, that stand alone. -/
def atDocumentMark : List Char → Bool
  | '-' :: '-' :: '-' :: rest => atGap rest
  | '.' :: '.' :: '.' :: rest => atGap rest
  | _ => false

structure Cursor where
  rest : List Char
  line : Nat := 0
  column : Nat := 0
  index : Nat := 0
deriving Repr

namespace Cursor

/-- Goes past one character. A carriage return before a line feed ends no line. -/
def advance (c : Cursor) : Cursor :=
  match c.rest with
  | [] => c
  | ch :: rest =>
      let endsLine := isBreak ch && !(ch = '\r' && rest.head? = some '\n')
      if endsLine then ⟨rest, c.line + 1, 0, c.index + 1⟩
      else ⟨rest, c.line, if ch = '\uFEFF' then c.column else c.column + 1, c.index + 1⟩

def advanceBy : Nat → Cursor → Cursor
  | 0, c => c
  | n + 1, c => advanceBy n c.advance

def skipWhile (p : Char → Bool) (c : Cursor) : Cursor :=
  c.advanceBy (c.rest.takeWhile p).length

/-- Goes past a line break. Most breaks stand for a line feed. -/
def lineBreak? (c : Cursor) : Option (Char × Cursor) :=
  match c.rest with
  | '\r' :: '\n' :: _ => some ('\n', c.advanceBy 2)
  | ch :: _ =>
      if ch = '\n' ∨ ch = '\r' ∨ ch = '\u0085' then some ('\n', c.advance)
      else if ch = '\u2028' ∨ ch = '\u2029' then some (ch, c.advance)
      else none
  | [] => none

/-- Goes to the next token, past spaces, comments and line breaks; whether there was a break. -/
def toNextToken : Nat → Cursor → Bool → Cursor × Bool
  | 0, c, broke => (c, broke)
  | fuel + 1, c, broke =>
      let spaces := c.skipWhile (· = ' ')
      let comment :=
        if spaces.rest.head? = some '#' then spaces.skipWhile (!isBreak ·) else spaces
      match comment.lineBreak? with
      | some (_, next) => toNextToken fuel next true
      | none => (comment, broke)

end Cursor

end PkgRecipe.Yaml
