import PkgRecipe.Shell.AnsiText
import PkgRecipe.Shell.Quoting

namespace PkgRecipe.Shell

/-! Words of shell text. A text is cut into pieces at its separators; the value of a piece is what
is left of it when the quoting is undone. -/

def unquotedChar (mode : Mode) (role : Role) (c : Char) : List Char :=
  match role with
  | .quote | .escape => []
  | _ =>
      match mode with
      -- A backslash and a line end continue the line.
      | .escape => if c = '\n' then [] else [c]
      | .doubleQuoteEscape =>
          if c = '\n' then []
          else if c = '$' ∨ c = '\x60' ∨ c = '"' ∨ c = '\\' then [c]
          else ['\\', c]
      | _ => [c]

structure Reading where
  quoting : Quoting
  /-- The value so far, the last character first. -/
  value : List Char
  /-- The body of the ANSI-C quote that is open, the last character first. -/
  body : Option (List Char)
deriving DecidableEq, Repr

namespace Reading

def start (q : Quoting) : Reading :=
  ⟨q, [], if q.mode.inAnsiQuote then some [] else none⟩

/-- Reads one character. The dollar sign that opens an ANSI-C quote is taken back. -/
def push (r : Reading) (c : Char) : Reading :=
  let (after, role) := r.quoting.step c
  if r.quoting.mode = .dollar ∧ after.mode.inAnsiQuote then
    ⟨after, r.value.tail, some []⟩
  else
    match r.body with
    | some body =>
        if after.mode.inAnsiQuote then ⟨after, r.value, some (c :: body)⟩
        else ⟨after, (AnsiText.decode body.reverse).reverse ++ r.value, none⟩
    | none => ⟨after, (unquotedChar r.quoting.mode role c).reverse ++ r.value, none⟩

def finish (r : Reading) : List Char :=
  match r.body with
  | some body => r.value.reverse ++ AnsiText.decode body.reverse
  | none => r.value.reverse

end Reading

def valueFrom (q : Quoting) (text : List Char) : List Char :=
  (text.foldl Reading.push (Reading.start q)).finish

/-- A part of a text between separators, and the quoting it begins in. -/
structure Piece where
  quoting : Quoting
  raw : List Char
deriving DecidableEq, Repr

def Piece.value (p : Piece) : List Char :=
  valueFrom p.quoting p.raw

def consPiece (q : Quoting) (c : Char) : List Piece → List Piece
  | [] => [⟨q, [c]⟩]
  | first :: rest => ⟨q, c :: first.raw⟩ :: rest

/-- The pieces of a text. With `some n` only the first `n` separators cut. -/
def pieces (cuts : Option Nat) (q : Quoting) : List Char → List Piece
  | [] => [⟨q, []⟩]
  | c :: rest =>
      match q.step c, cuts with
      | (after, .separator), none => ⟨q, []⟩ :: pieces none after rest
      | (after, .separator), some (n + 1) => ⟨q, []⟩ :: pieces (some n) after rest
      | (after, _), _ => consPiece q c (pieces cuts after rest)

/-- A word of a text, from `start` to before `stop`. -/
structure Token where
  raw : List Char
  value : List Char
  start : Nat
  stop : Nat
  index : Nat
deriving DecidableEq, Repr

def tokensOf (index start : Nat) : List Piece → List Token
  | [] => []
  | p :: rest =>
      let stop := start + p.raw.length
      ⟨p.raw, p.value, start, stop, index⟩ :: tokensOf (index + 1) (stop + 1) rest

/-- How many separators cut when at most `limit` tokens are wanted; a limit below one is none. -/
def cutsFor (limit : Int) : Option Nat :=
  if 0 < limit then some (limit.toNat - 1) else none

/-- The tokens of a text read from a quoting on, at most `limit`; the last holds the rest. -/
def tokensFrom (q : Quoting) (limit : Int) (text : List Char) : List Token :=
  if text = [] then [] else tokensOf 0 0 (pieces (cutsFor limit) q text)

def tokenize (text : List Char) : List Token :=
  tokensFrom .initial (-1) text

def unquote (text : List Char) : List Char :=
  match tokensFrom .initial 1 text with
  | [] => []
  | token :: _ => token.value

end PkgRecipe.Shell
