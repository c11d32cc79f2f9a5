import PkgRecipe.Text.Utf8

namespace PkgRecipe.Files

def blockSize : Nat :=
  8192

def blocks (size : Nat) (bytes : List UInt8) : List (List UInt8) :=
  if _h : bytes = [] ∨ size = 0 then []
  else bytes.take size :: blocks size (bytes.drop size)
termination_by bytes.length
decreasing_by
  have : 0 < bytes.length := List.length_pos_iff.2 fun empty => _h (.inl empty)
  simp only [List.length_drop]
  omega

/-- The text of the blocks that follow a beginning, up to the first block with an invalid part, and
what is wrong there. The place of the part is counted from the start of that block. -/
def decodeBlocks (pending : Option Text.Utf8.Partial) :
    List (List UInt8) → List Char × Option Text.Utf8.Fault
  | [] =>
      match pending with
      | none => ([], none)
      | some p => ([], some ⟨0, p.bytes.reverse, .endOfData⟩)
  | block :: rest =>
      let (parts, left) := Text.Utf8.readBytes pending block
      match Text.Utf8.validPrefix 0 parts with
      | (_, some fault) => ([], some fault)
      | (text, none) =>
          let (later, fault) := decodeBlocks left rest
          (text ++ later, fault)

/-- The lines of a text; `line` is the one begun, last character first. A line ends with a line
feed, a carriage return or both. -/
def linesFrom (line : List Char) : List Char → List (List Char)
  | [] => if line = [] then [] else [line.reverse]
  | '\r' :: '\n' :: rest => line.reverse :: linesFrom [] rest
  | c :: rest =>
      if c = '\n' ∨ c = '\r' then line.reverse :: linesFrom [] rest
      else linesFrom (c :: line) rest

def lines (text : List Char) : List (List Char) :=
  linesFrom [] text

/-- A text up to the end of its last line that surely is complete. A carriage return at the end
may be half of a line end. -/
def completeLines (text : List Char) : List Char :=
  let settled := if text.getLast? = some '\r' then text.dropLast else text
  (settled.reverse.dropWhile fun c => c ≠ '\n' ∧ c ≠ '\r').reverse

def readLines (bytes : List UInt8) : List (List Char) × Option Text.Utf8.Fault :=
  match decodeBlocks none (blocks blockSize bytes) with
  | (text, none) => (lines text, none)
  | (text, some fault) => (lines (completeLines text), some fault)

def readText (bytes : List UInt8) : Except Text.Utf8.Fault (List Char) :=
  match decodeBlocks none (blocks blockSize bytes) with
  | (text, none) => .ok (normalizeLineEnds text)
  | (_, some fault) => .error fault
where
  normalizeLineEnds : List Char → List Char
    | [] => []
    | '\r' :: '\n' :: rest => '\n' :: normalizeLineEnds rest
    | c :: rest => (if c = '\r' then '\n' else c) :: normalizeLineEnds rest

end PkgRecipe.Files
