import PkgRecipe.Text.Numeral
import PkgRecipe.Yaml.Cursor

namespace PkgRecipe.Yaml

/-! Scalars in the text of a document: plain, quoted, and as blocks. Each reader goes past a scalar
and gives its value; a scalar that is malformed has none. -/

/-- Line breaks folded: a single line feed is a space, and of several the first goes. -/
def folded (first : Char) (others : List Char) : List Char :=
  if first ≠ '\n' then first :: others
  else if others = [] then [' ']
  else others

/-! Plain scalars -/

def isFlowIndicator (c : Char) : Bool :=
  c = ',' || c = '[' || c = ']' || c = '\x7b' || c = '\x7d'

/-- The characters of a plain scalar at the start of a text, up to a blank or an indicator. -/
def plainRun (inFlow : Bool) : List Char → List Char
  | [] => []
  | c :: rest =>
      let ends := isGap c ||
        (c = ':' && endsOr (fun d => isGap d || (inFlow && isFlowIndicator d)) rest) ||
        (inFlow && (c = '?' || isFlowIndicator c))
      if ends then [] else c :: plainRun inFlow rest

def plainBreaks : Nat → Cursor → List Char → Option (List Char) × Cursor
  | 0, c, _ => (none, c)
  | fuel + 1, c, breaks =>
      if atDocumentMark c.rest then (none, c)
      else
        let next := c.skipWhile (· = ' ')
        match next.lineBreak? with
        | some (b, after) => plainBreaks fuel after (breaks ++ [b])
        | none => (some breaks, next)

/-- Goes past the blanks in a plain scalar: what they stand for, and whether a line ended. -/
def plainBlanks (c : Cursor) : List Char × Bool × Cursor :=
  let spaces := c.rest.takeWhile (· = ' ')
  let next := c.advanceBy spaces.length
  match next.lineBreak? with
  | none => (spaces, false, next)
  | some (first, after) =>
      match plainBreaks (after.rest.length + 1) after [] with
      | (none, last) => ([], true, last)
      | (some others, last) => (folded first others, true, last)

/-- Reads the rest of a plain scalar after `value` and the blanks `blanks`. The scalar ends at a
line that is indented less than `indent`. -/
def plainRest (inFlow : Bool) (indent : Nat) :
    Nat → Cursor → List Char → List Char → Bool → List Char × Bool × Cursor
  | 0, c, value, _, broke => (value, broke, c)
  | fuel + 1, c, value, blanks, broke =>
      let run := if c.rest.head? = some '#' then [] else plainRun inFlow c.rest
      if run = [] then (value, broke, c)
      else
        let read := value ++ blanks ++ run
        let (next, crossed, after) := plainBlanks (c.advanceBy run.length)
        if next = [] || after.rest.head? = some '#' || (!inFlow && after.column < indent) then
          (read, crossed, after)
        else plainRest inFlow indent fuel after read next crossed

def plainScalar (inFlow : Bool) (indent : Nat) (c : Cursor) : List Char × Bool × Cursor :=
  plainRest inFlow indent (c.rest.length + 1) c [] [] false

/-! Quoted scalars -/

def escapedChar? : Char → Option Char
  | '0' => some '\x00'
  | 'a' => some '\x07'
  | 'b' => some '\x08'
  | 't' => some '\t'
  | '\t' => some '\t'
  | 'n' => some '\n'
  | 'v' => some '\x0b'
  | 'f' => some '\x0c'
  | 'r' => some '\r'
  | 'e' => some '\x1b'
  | ' ' => some ' '
  | '"' => some '"'
  | '\\' => some '\\'
  | '/' => some '/'
  | 'N' => some '\u0085'
  | '_' => some '\u00a0'
  | 'L' => some '\u2028'
  | 'P' => some '\u2029'
  | _ => none

def escapeWidth? : Char → Option Nat
  | 'x' => some 2
  | 'u' => some 4
  | 'U' => some 8
  | _ => none

def quotedBreaks? : Nat → Cursor → List Char → Option (List Char × Cursor)
  | 0, _, _ => none
  | fuel + 1, c, breaks =>
      if atDocumentMark c.rest then none
      else
        let next := c.skipWhile isSpaceOrTab
        match next.lineBreak? with
        | some (b, after) => quotedBreaks? fuel after (breaks ++ [b])
        | none => some (breaks, next)

def quotedBlanks? (c : Cursor) : Option (List Char × Cursor) :=
  let spaces := c.rest.takeWhile isSpaceOrTab
  let next := c.advanceBy spaces.length
  match next.rest, next.lineBreak? with
  | [], _ => none
  | _, none => some (spaces, next)
  | _, some (first, after) => do
      let (others, last) ← quotedBreaks? (after.rest.length + 1) after []
      return (folded first others, last)

/-- Reads what a backslash in a double quoted scalar begins; the cursor is behind the backslash. -/
def escape? (c : Cursor) : Option (List Char × Cursor) := do
  let letter ← c.rest.head?
  match escapedChar? letter, escapeWidth? letter, c.lineBreak? with
  | some value, _, _ => return ([value], c.advance)
  | none, some width, _ =>
      let digits := c.advance.rest.take width
      guard (digits.length = width ∧ digits.all Text.isHexDigit)
      let code := Text.valueInBase 16 digits
      guard code.isValidChar
      return ([Char.ofNat code], c.advanceBy (width + 1))
  | none, none, some (_, after) => quotedBreaks? (after.rest.length + 1) after []
  | none, none, none => none

def quotedRest? (double : Bool) : Nat → Cursor → List Char → Option (List Char × Cursor)
  | 0, _, _ => none
  | fuel + 1, c, value =>
      let run := c.rest.takeWhile fun ch => !(isGap ch || ch = '\'' || ch = '"' || ch = '\\')
      let next := c.advanceBy run.length
      let read := value ++ run
      match next.rest with
      | [] => none
      | ch :: after =>
          if isGap ch then do
            let (blanks, last) ← quotedBlanks? next
            quotedRest? double fuel last (read ++ blanks)
          else if double then
            if ch = '"' then some (read, next.advance)
            else if ch = '\\' then do
              let (escaped, last) ← escape? next.advance
              quotedRest? double fuel last (read ++ escaped)
            else quotedRest? double fuel next.advance (read ++ [ch])
          else if ch = '\'' then
            if after.head? = some '\'' then quotedRest? double fuel (next.advanceBy 2) (read ++ [ch])
            else some (read, next.advance)
          else quotedRest? double fuel next.advance (read ++ [ch])

def quotedScalar? (double : Bool) (c : Cursor) : Option (List Char × Cursor) :=
  quotedRest? double (c.rest.length + 1) c.advance []

/-! Block scalars -/

inductive Chomping where
  | clip
  | strip
  | keep
deriving DecidableEq, Repr

def chomping? : Char → Option Chomping
  | '+' => some .keep
  | '-' => some .strip
  | _ => none

/-- Reads the indicators behind the mark of a block scalar, in either order: what becomes of the
last line breaks, and the indentation. -/
def blockIndicators? (c : Cursor) : Option (Chomping × Option Nat × Cursor) :=
  let increment? (c : Cursor) : Option (Option Nat × Cursor) :=
    match c.rest with
    | d :: _ =>
        if d = '0' then none
        else if d.isDigit then some (some (Text.letterValue d), c.advance)
        else some (none, c)
    | [] => some (none, c)
  match c.rest.head?.bind chomping? with
  | some chomping => do
      let (increment, last) ← increment? c.advance
      return (chomping, increment, last)
  | none => do
      let (increment, next) ← increment? c
      match increment, next.rest.head?.bind chomping? with
      | some _, some chomping => return (chomping, increment, next.advance)
      | _, _ => return (.clip, increment, next)

def blockHeaderEnd? (c : Cursor) : Option Cursor :=
  if endsOr (fun ch => ch = ' ' || isBreak ch) c.rest then
    let next := c.skipWhile (· = ' ')
    let last := if next.rest.head? = some '#' then next.skipWhile (!isBreak ·) else next
    match last.rest, last.lineBreak? with
    | [], _ => some last
    | _, some (_, after) => some after
    | _, none => none
  else none

/-- Goes past the empty lines before a block: their breaks and the widest indentation seen. -/
def blockIndentation : Nat → Cursor → List Char → Nat → List Char × Nat × Cursor
  | 0, c, breaks, widest => (breaks, widest, c)
  | fuel + 1, c, breaks, widest =>
      if c.rest.head? = some ' ' then
        let next := c.advance
        blockIndentation fuel next breaks (max widest next.column)
      else
        match c.lineBreak? with
        | some (b, next) => blockIndentation fuel next (breaks ++ [b]) widest
        | none => (breaks, widest, c)

def indentTo (indent : Nat) (c : Cursor) : Cursor :=
  c.advanceBy (min (indent - c.column) (c.rest.takeWhile (· = ' ')).length)

def blockBreaks (indent : Nat) : Nat → Cursor → List Char → List Char × Cursor
  | 0, c, breaks => (breaks, c)
  | fuel + 1, c, breaks =>
      let next := indentTo indent c
      match next.lineBreak? with
      | some (b, after) => blockBreaks indent fuel after (breaks ++ [b])
      | none => (breaks, next)

def blockLines (fold : Bool) (chomping : Chomping) (indent : Nat) :
    Nat → Cursor → List Char → List Char → List Char × Cursor
  | 0, c, value, _ => (value, c)
  | fuel + 1, c, value, breaks =>
      let startsText := !endsOr isSpaceOrTab c.rest
      let run := c.rest.takeWhile (!isBreak ·)
      let read := value ++ breaks ++ run
      let ended := c.advanceBy run.length
      let (lineEnd, next) :=
        match ended.lineBreak? with
        | some (b, after) => ([b], after)
        | none => ([], ended)
      let (others, last) := blockBreaks indent (next.rest.length + 1) next []
      if last.column = indent ∧ last.rest ≠ [] then
        let joined :=
          if fold && lineEnd = ['\n'] && startsText && !endsOr isSpaceOrTab last.rest then
            if others = [] then [' '] else []
          else lineEnd
        blockLines fold chomping indent fuel last (read ++ joined) others
      else
        let kept :=
          match chomping with
          | .strip => []
          | .clip => lineEnd
          | .keep => lineEnd ++ others
        (read ++ kept, last)

/-- Reads a block scalar from its mark on; `indent` is the indentation of the lines around it. -/
def blockScalar? (fold : Bool) (indent : Nat) (c : Cursor) : Option (List Char × Cursor) := do
  let (chomping, increment, next) ← blockIndicators? c.advance
  let start ← blockHeaderEnd? next
  let fuel := start.rest.length + 1
  let (breaks, column, first) :=
    match increment with
    | some n =>
        let column := indent + n - 1
        let (breaks, first) := blockBreaks column fuel start []
        (breaks, column, first)
    | none =>
        let (breaks, widest, first) := blockIndentation fuel start [] 0
        (breaks, max indent widest, first)
  if first.column = column ∧ first.rest ≠ [] then
    return blockLines fold chomping column fuel first [] breaks
  else
    return (if chomping = .keep then breaks else [], first)

end PkgRecipe.Yaml
