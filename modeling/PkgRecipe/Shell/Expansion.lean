import PkgRecipe.Shell.Quoting

namespace PkgRecipe.Shell

/-- Whether a dollar sign before `rest` opens a quote. -/
def opensQuote (mode : Mode) : List Char → Bool
  | '\'' :: _ | '"' :: _ => mode ≠ .doubleQuote
  | _ => false

/-- Whether the shell expands the character `c` that is read in a mode and followed by `rest`. -/
def isExpansion (mode : Mode) (c : Char) (rest : List Char) : Bool :=
  mode.expands && (c = '\x60' || (c = '$' && !opensQuote mode rest))

def withoutExpansionsFrom (q : Quoting) : List Char → List Char
  | [] => []
  | c :: rest =>
      let escaped := c :: withoutExpansionsFrom (q.next c) rest
      if isExpansion q.mode c rest then '\\' :: escaped else escaped

/-- A text with a backslash before every character that the shell would expand. -/
def withoutExpansions (text : List Char) : List Char :=
  withoutExpansionsFrom .initial text

end PkgRecipe.Shell
