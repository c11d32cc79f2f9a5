import PkgRecipe.Yaml.ScalarText

namespace PkgRecipe.Yaml

/-! The tokens of a YAML document. The indentation of block collections is told by tokens, and a
key that is followed by its colon is told by a token put in front of it afterwards. Anchors, tags
and directives are refused. -/

inductive Token where
  | documentStart
  | documentEnd
  | blockSequenceStart
  | blockMappingStart
  | blockEnd
  | blockEntry
  | flowSequenceStart
  | flowSequenceEnd
  | flowMappingStart
  | flowMappingEnd
  | flowEntry
  | key
  | value
  | scalar (text : List Char) (plain : Bool)
deriving DecidableEq, Repr

structure SimpleKey where
  /-- How many tokens come before the key. -/
  token : Nat
  /-- Whether only a key may stand there. -/
  required : Bool
  line : Nat
  column : Nat
  index : Nat
deriving Repr

structure Lexer where
  cursor : Cursor
  tokens : Array Token := #[]
  flowLevel : Nat := 0
  /-- The column of the innermost block collection, if there is one. -/
  indent : Option Nat := none
  /-- The columns of the block collections around it, the innermost first. -/
  outer : List (Option Nat) := []
  keyAllowed : Bool := true
  /-- Where a key may have begun in each open flow collection. -/
  keys : List (Nat × SimpleKey) := []

namespace Lexer

def emit (l : Lexer) (t : Token) : Lexer :=
  { l with tokens := l.tokens.push t }

def insert (l : Lexer) (place : Nat) (t : Token) : Lexer :=
  { l with tokens := (l.tokens.toList.insertIdx place t).toArray }

def inFlow (l : Lexer) : Bool :=
  0 < l.flowLevel

def indicator (width : Nat) (t : Token) (l : Lexer) : Lexer :=
  { l with cursor := l.cursor.advanceBy width }.emit t

/-- The first column at which text belongs to the innermost block collection. -/
def contentColumn (l : Lexer) : Nat :=
  match l.indent with
  | none => 0
  | some column => column + 1

def isDeeper (l : Lexer) (column : Nat) : Bool :=
  l.contentColumn ≤ column

/-- Ends the block collections that lie to the right of a column; without one, all of them. -/
def unwind (column : Option Nat) : List (Option Nat) → Lexer → Lexer
  | outer, l =>
      match l.indent with
      | none => l
      | some indent =>
          if (column.elim true (· < indent)) then
            match outer with
            | [] => ({ l with indent := none, outer := [] }).emit .blockEnd
            | next :: rest =>
                unwind column rest (({ l with indent := next, outer := rest }).emit .blockEnd)
          else l

def unwindTo (l : Lexer) (column : Option Nat) : Lexer :=
  if l.inFlow then l else unwind column l.outer l

def push (l : Lexer) (column : Nat) : Lexer :=
  { l with indent := some column, outer := l.indent :: l.outer }

def beginBlock (l : Lexer) (t : Token) : Lexer :=
  if l.isDeeper l.cursor.column then (l.push l.cursor.column).emit t else l

/-- Forgets the place where a key may have begun at this level; a key that must stand there is
missed. -/
def dropKey? (l : Lexer) : Option Lexer :=
  match l.keys.lookup l.flowLevel with
  | none => some l
  | some k =>
      if k.required then none else some { l with keys := l.keys.filter (·.1 ≠ l.flowLevel) }

def keyReach : Nat :=
  1024

/-- Forgets the keys that ended with their line, or are too long. -/
def dropStaleKeys? (l : Lexer) : Option Lexer :=
  let isStale (k : SimpleKey) : Bool :=
    k.line ≠ l.cursor.line || l.cursor.index - k.index > keyReach
  if l.keys.any fun entry => isStale entry.2 && entry.2.required then none
  else some { l with keys := l.keys.filter fun entry => !isStale entry.2 }

def noteKey? (l : Lexer) : Option Lexer :=
  if l.keyAllowed then do
    let dropped ← l.dropKey?
    let here : SimpleKey :=
      { token := l.tokens.size
        required := !l.inFlow && l.indent == some l.cursor.column
        line := l.cursor.line
        column := l.cursor.column
        index := l.cursor.index }
    return { dropped with keys := (l.flowLevel, here) :: dropped.keys }
  else some l

def beginFlow? (l : Lexer) (t : Token) : Option Lexer := do
  let noted ← l.noteKey?
  return ({ noted with flowLevel := noted.flowLevel + 1, keyAllowed := true }).indicator 1 t

def endFlow? (l : Lexer) (t : Token) : Option Lexer := do
  guard l.inFlow
  let dropped ← l.dropKey?
  return ({ dropped with flowLevel := dropped.flowLevel - 1, keyAllowed := false }).indicator 1 t

def flowEntry? (l : Lexer) : Option Lexer := do
  let dropped ← { l with keyAllowed := true }.dropKey?
  return dropped.indicator 1 .flowEntry

def blockEntry? (l : Lexer) : Option Lexer := do
  guard (l.inFlow || l.keyAllowed)
  let opened := if l.inFlow then l else l.beginBlock .blockSequenceStart
  let dropped ← { opened with keyAllowed := true }.dropKey?
  return dropped.indicator 1 .blockEntry

def explicitKey? (l : Lexer) : Option Lexer := do
  guard (l.inFlow || l.keyAllowed)
  let opened := if l.inFlow then l else l.beginBlock .blockMappingStart
  let dropped ← { opened with keyAllowed := !l.inFlow }.dropKey?
  return dropped.indicator 1 .key

/-- A colon: the value of the key noted at this level, or of an explicit or empty key. -/
def value? (l : Lexer) : Option Lexer := do
  match l.keys.lookup l.flowLevel with
  | some k =>
      let keyed := { l with keys := l.keys.filter (·.1 ≠ l.flowLevel) }.insert k.token .key
      let opened :=
        if !l.inFlow && l.isDeeper k.column then
          (keyed.push k.column).insert k.token .blockMappingStart
        else keyed
      return { opened with keyAllowed := false }.indicator 1 .value
  | none =>
      guard (l.inFlow || l.keyAllowed)
      let opened := if l.inFlow then l else l.beginBlock .blockMappingStart
      let dropped ← { opened with keyAllowed := !l.inFlow }.dropKey?
      return dropped.indicator 1 .value

def documentMark? (l : Lexer) (t : Token) : Option Lexer := do
  let dropped ← (l.unwindTo none).dropKey?
  return { dropped with keyAllowed := false }.indicator 3 t

def quoted? (l : Lexer) (double : Bool) : Option Lexer := do
  let noted ← l.noteKey?
  let (text, next) ← quotedScalar? double l.cursor
  return { noted with keyAllowed := false, cursor := next }.emit (.scalar text false)

def block? (l : Lexer) (fold : Bool) : Option Lexer := do
  let dropped ← { l with keyAllowed := true }.dropKey?
  let (text, next) ← blockScalar? fold (max l.contentColumn 1) l.cursor
  return { dropped with cursor := next }.emit (.scalar text false)

def plain? (l : Lexer) : Option Lexer := do
  let noted ← l.noteKey?
  let (text, crossed, next) := plainScalar l.inFlow l.contentColumn l.cursor
  return { noted with keyAllowed := crossed, cursor := next }.emit (.scalar text true)

def beginsPlain (inFlow : Bool) (c : Char) (rest : List Char) : Bool :=
  let indicators := "-?:,[]\x7b\x7d#&*!|>'\"%@\x60".toList
  (!isGap c && !indicators.contains c) ||
    (!atGap rest && (c = '-' || (!inFlow && (c = '?' || c = ':'))))

def token? (l : Lexer) (c : Char) (rest : List Char) : Option Lexer :=
  let atMark := l.cursor.column = 0 && atDocumentMark l.cursor.rest
  if l.cursor.column = 0 ∧ c = '%' then none
  else if atMark then l.documentMark? (if c = '-' then .documentStart else .documentEnd)
  else if c = '[' then l.beginFlow? .flowSequenceStart
  else if c = '\x7b' then l.beginFlow? .flowMappingStart
  else if c = ']' then l.endFlow? .flowSequenceEnd
  else if c = '\x7d' then l.endFlow? .flowMappingEnd
  else if c = ',' then l.flowEntry?
  else if c = '-' ∧ atGap rest then l.blockEntry?
  else if c = '?' ∧ (l.inFlow ∨ atGap rest) then l.explicitKey?
  else if c = ':' ∧ (l.inFlow ∨ atGap rest) then l.value?
  else if c = '|' ∧ !l.inFlow then l.block? false
  else if c = '>' ∧ !l.inFlow then l.block? true
  else if c = '\'' then l.quoted? false
  else if c = '"' then l.quoted? true
  else if beginsPlain l.inFlow c rest then l.plain?
  else none

def finish? (l : Lexer) : Option Lexer :=
  (l.unwindTo none).dropKey?

def run? : Nat → Lexer → Option Lexer
  | 0, _ => none
  | fuel + 1, l => do
      let fresh ← l.dropStaleKeys?
      let (next, broke) :=
        fresh.cursor.toNextToken (fresh.cursor.rest.length + 1) false
      let placed :=
        { fresh with cursor := next, keyAllowed := fresh.keyAllowed || (broke && !fresh.inFlow) }
      let ready ← placed.dropStaleKeys?
      let unwound := ready.unwindTo (some ready.cursor.column)
      match unwound.cursor.rest with
      | [] => unwound.finish?
      | c :: rest => run? fuel (← unwound.token? c rest)

end Lexer

def isAllowed (c : Char) : Bool :=
  let n := c.toNat
  n = 0x09 || n = 0x0A || n = 0x0D || (0x20 ≤ n && n ≤ 0x7E) || n = 0x85 ||
    (0xA0 ≤ n && n ≤ 0xD7FF) || (0xE000 ≤ n && n ≤ 0xFFFD) || 0x10000 ≤ n

def tokens? (text : List Char) : Option (List Token) := do
  guard (text.all isAllowed)
  let start := if text.head? = some '\uFEFF' then text.tail else text
  let l ← Lexer.run? (text.length + 2) { cursor := { rest := start } }
  return l.tokens.toList

end PkgRecipe.Yaml
