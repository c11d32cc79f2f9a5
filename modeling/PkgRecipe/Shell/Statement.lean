import PkgRecipe.Shell.Token
import PkgRecipe.Text.Blank

namespace PkgRecipe.Shell

/-! Statements: physical lines joined until no quote, escape or parenthesis is open. -/

structure Statement where
  text : List Char
  /-- The line that the statement begins on, counted from one. -/
  lineNumber : Nat := 1
  /-- Whether the statement was closed before the input ended. -/
  complete : Bool := true
deriving DecidableEq, Repr

namespace Statement

def tokens (s : Statement) : List Token :=
  tokenize s.text

def head (s : Statement) : List Char :=
  match s.tokens with
  | [] => []
  | token :: _ => token.raw.takeWhile (· ≠ '\n')

def arguments (s : Statement) : List Token :=
  s.tokens.tail

end Statement

/-- The lines of a statement that is still open, the number of the first of them and the quoting
at the end of the last. -/
structure OpenStatement where
  text : List Char
  lineNumber : Nat
  quoting : Quoting
deriving DecidableEq, Repr

def OpenStatement.extend (pending : Option OpenStatement) (number : Nat)
    (line : List Char) : OpenStatement :=
  match pending with
  | none => ⟨line, number, Quoting.initial.scan line⟩
  | some p => ⟨p.text ++ '\n' :: line, p.lineNumber, p.quoting.scan ('\n' :: line)⟩

def statementsAfter (pending : Option OpenStatement) (number : Nat) :
    List (List Char) → List Statement
  | [] =>
      match pending with
      | none => []
      | some p => [⟨p.text, p.lineNumber, false⟩]
  | line :: rest =>
      let current := OpenStatement.extend pending number (Text.trim line)
      if current.quoting.isOpen then statementsAfter (some current) (number + 1) rest
      else ⟨current.text, current.lineNumber, true⟩ :: statementsAfter none (number + 1) rest

/-- The statements of physical lines. Only the last can be incomplete. -/
def statements (lines : List (List Char)) : List Statement :=
  statementsAfter none 1 lines

end PkgRecipe.Shell
