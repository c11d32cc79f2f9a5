namespace PkgRecipe.Shell

/-! Where a character of shell text stands: which quoting is in force and how many unquoted
parentheses are open. `Quoting.step` reads one character, `Quoting.scan` reads a text. -/

inductive Mode where
  | normal
  /-- An unquoted dollar sign was just read; a single quote now opens an ANSI-C quote. -/
  | dollar
  | singleQuote
  | doubleQuote
  | ansiQuote
  | escape
  | doubleQuoteEscape
  | ansiEscape
deriving DecidableEq, Repr

/-- What a character does: stand for itself, delimit a quote, escape its successor, or end a word. -/
inductive Role where
  | literal
  | quote
  | escape
  | separator
deriving DecidableEq, Repr

structure Quoting where
  mode : Mode := .normal
  /-- The number of unquoted opening parentheses not yet closed. -/
  depth : Nat := 0
deriving DecidableEq, Repr

namespace Mode

/-- Whether the shell expands a dollar sign or a backquote that it reads in this mode. -/
def expands : Mode → Bool
  | normal | dollar | doubleQuote => true
  | _ => false

def inDoubleQuote : Mode → Bool
  | doubleQuote | doubleQuoteEscape => true
  | _ => false

def inAnsiQuote : Mode → Bool
  | ansiQuote | ansiEscape => true
  | _ => false

/-- Whether the next character is taken literally because a backslash precedes it. -/
def escapePending : Mode → Bool
  | escape | doubleQuoteEscape | ansiEscape => true
  | _ => false

/-- Whether a text may end in this mode without asking for another line. -/
def closed : Mode → Bool
  | normal | dollar => true
  | _ => false

end Mode

namespace Quoting

def initial : Quoting := {}

def inBracket (q : Quoting) : Bool :=
  0 < q.depth

/-- Whether text that ends here continues on the next line. -/
def isOpen (q : Quoting) : Bool :=
  !q.mode.closed || q.inBracket

/-- Reads a character outside all quotes; `depth` counts the open parentheses before it. -/
def stepPlain (depth : Nat) (c : Char) : Quoting × Role :=
  if c = '"' then (⟨.doubleQuote, depth⟩, .quote)
  else if c = '\'' then (⟨.singleQuote, depth⟩, .quote)
  else if c = '\\' then (⟨.escape, depth⟩, .escape)
  else if c = '$' then (⟨.dollar, depth⟩, .literal)
  else if c = ' ' ∧ depth = 0 then (⟨.normal, depth⟩, .separator)
  else if c = '(' then (⟨.normal, depth + 1⟩, .literal)
  else if c = ')' then (⟨.normal, depth - 1⟩, .literal)
  else (⟨.normal, depth⟩, .literal)

def step (q : Quoting) (c : Char) : Quoting × Role :=
  match q.mode with
  | .escape => ({ q with mode := .normal }, .literal)
  | .doubleQuoteEscape => ({ q with mode := .doubleQuote }, .literal)
  | .ansiEscape => ({ q with mode := .ansiQuote }, .literal)
  | .singleQuote =>
      if c = '\'' then ({ q with mode := .normal }, .quote) else (q, .literal)
  | .ansiQuote =>
      if c = '\'' then ({ q with mode := .normal }, .quote)
      else if c = '\\' then ({ q with mode := .ansiEscape }, .literal)
      else (q, .literal)
  | .doubleQuote =>
      if c = '"' then ({ q with mode := .normal }, .quote)
      else if c = '\\' then ({ q with mode := .doubleQuoteEscape }, .escape)
      else (q, .literal)
  | .dollar =>
      if c = '\'' then ({ q with mode := .ansiQuote }, .quote) else stepPlain q.depth c
  | .normal => stepPlain q.depth c

def next (q : Quoting) (c : Char) : Quoting :=
  (q.step c).1

def scan (q : Quoting) (text : List Char) : Quoting :=
  text.foldl next q

@[simp] theorem scan_nil (q : Quoting) : q.scan [] = q :=
  rfl

@[simp] theorem scan_cons (q : Quoting) (c : Char) (text : List Char) :
    q.scan (c :: text) = (q.next c).scan text :=
  rfl

@[simp] theorem scan_append (q : Quoting) (first second : List Char) :
    q.scan (first ++ second) = (q.scan first).scan second :=
  List.foldl_append

def trace (q : Quoting) : List Char → List (Quoting × Role)
  | [] => []
  | c :: rest => q.step c :: trace (q.next c) rest

end Quoting

end PkgRecipe.Shell
