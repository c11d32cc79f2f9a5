import PkgRecipe.CommandLine.Switch
import PkgRecipe.Text.DecimalDigit
import PkgRecipe.Text.Search

namespace PkgRecipe.CommandLine

/-- How what is behind the letter of a short switch is read. In early releases an equals sign is
passed over right behind the first letter and is text behind the others, and all letters have to be
switches; in late ones it sets a value, and letters that are no switches are set aside. -/
inductive Release where
  | early
  | late
deriving DecidableEq, Repr

inductive Attached where
  | nothing
  /-- Text behind an equals sign. -/
  | value (text : List Char)
  /-- Text behind the letter of a short switch. -/
  | letters (text : List Char)
deriving DecidableEq, Repr

inductive Word where
  | operand (text : List Char)
  /-- Two hyphens: all words behind them are operands. -/
  | separator
  | switch (switch : Switch) (attached : Attached)
  /-- What looks like a switch and is none. -/
  | unknown (text : List Char)
deriving DecidableEq, Repr

structure Ambiguity where
  text : List Char
  candidates : List (List Char)
deriving DecidableEq, Repr

namespace Word

def isDecimalDigit (c : Char) : Bool :=
  (Text.digitValue? c).isSome

/-- Whether a text is a negative number: a hyphen and digits, which may have a point before the
last of them. A line feed at its end is let pass. -/
def isNegativeNumber (text : List Char) : Bool :=
  let line := if text.getLast? = some '\n' then text.dropLast else text
  match line with
  | '-' :: number =>
      match number.dropWhile isDecimalDigit with
      | [] => number ≠ []
      | '.' :: fraction => fraction ≠ [] && fraction.all isDecimalDigit
      | _ => false
  | _ => false

/-- A long switch with what is behind an equals sign. A switch may be cut short where no other
begins in the same way. -/
def longSwitch? (text : List Char) : Except Ambiguity (Option Word) :=
  let (name, attached) :=
    match Text.cutAt? ['='] text with
    | some (name, value) => (name, Attached.value value)
    | none => (text, .nothing)
  match Switch.ofSpelling? name with
  | some s => .ok (some (.switch s attached))
  | none =>
      match Switch.spelled.filter (name.isPrefixOf ·.1) with
      | [] => .ok none
      | [(_, s)] => .ok (some (.switch s attached))
      | candidates => .error ⟨text, candidates.map (·.1)⟩

def attachedToLetter (release : Release) : List Char → Attached
  | [] => .nothing
  | '=' :: text =>
      match release with
      | .early => .letters text
      | .late => .value text
  | text => .letters text

def shortSwitch? (release : Release) (text : List Char) : Option Word :=
  (Switch.ofSpelling? (text.take 2)).map fun s =>
    .switch s (attachedToLetter release (text.drop 2))

/-- A text that begins with a hyphen, has more, and spells no switch. It is an operand if it is a
negative number or holds a space. -/
def unmatched (text : List Char) : Word :=
  if isNegativeNumber text || text.contains ' ' then .operand text else .unknown text

def ofText (release : Release) (text : List Char) : Except Ambiguity Word :=
  match text with
  | ['-', '-'] => .ok .separator
  | '-' :: '-' :: _ => return (← longSwitch? text).getD (unmatched text)
  | '-' :: _ :: _ => .ok ((shortSwitch? release text).getD (unmatched text))
  | _ => .ok (.operand text)

def ofArguments (release : Release) : List (List Char) → Except Ambiguity (List Word)
  | [] => .ok []
  | text :: rest => do
      match ← ofText release text with
      | .separator => return .separator :: rest.map .operand
      | word => return word :: (← ofArguments release rest)

end Word

end PkgRecipe.CommandLine
