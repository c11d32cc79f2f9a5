import PkgRecipe.Text.CodeRange

namespace PkgRecipe.Text

/-- Closed ranges of blank code points, ascending and apart (Unicode 14). -/
def blankRanges : List (Nat × Nat) :=
  [
    (0x9, 0xd), (0x1c, 0x20), (0x85, 0x85), (0xa0, 0xa0), (0x1680, 0x1680), (0x2000, 0x200a),
    (0x2028, 0x2029), (0x202f, 0x202f), (0x205f, 0x205f), (0x3000, 0x3000)
  ]

def isBlank (c : Char) : Bool :=
  inRanges blankRanges c.toNat

def trimStart (text : List Char) : List Char :=
  text.dropWhile isBlank

def trimEnd (text : List Char) : List Char :=
  (text.reverse.dropWhile isBlank).reverse

def trim (text : List Char) : List Char :=
  trimEnd (trimStart text)

theorem trimStart_cons {c : Char} (notBlank : isBlank c = false) (rest : List Char) :
    trimStart (c :: rest) = c :: rest := by
  simp [trimStart, notBlank]

theorem trimEnd_concat {c : Char} (notBlank : isBlank c = false) (text : List Char) :
    trimEnd (text ++ [c]) = text ++ [c] := by
  simp [trimEnd, notBlank]

theorem trim_cons_concat {first last : Char} (notBlank : isBlank first = false)
    (notBlank' : isBlank last = false) (text : List Char) :
    trim (first :: (text ++ [last])) = first :: (text ++ [last]) := by
  rw [trim, trimStart_cons notBlank, ← List.cons_append, trimEnd_concat notBlank']

/-- The runs of characters between blanks; `run` holds the current one in reverse. -/
def blankWordsFrom (run : List Char) : List Char → List (List Char)
  | [] => if run = [] then [] else [run.reverse]
  | c :: rest =>
      if isBlank c then
        if run = [] then blankWordsFrom [] rest
        else run.reverse :: blankWordsFrom [] rest
      else blankWordsFrom (c :: run) rest

def blankWords (text : List Char) : List (List Char) :=
  blankWordsFrom [] text

end PkgRecipe.Text
