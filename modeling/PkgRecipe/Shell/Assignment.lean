import PkgRecipe.Shell.Classifier
import PkgRecipe.Shell.Expansion

namespace PkgRecipe.Shell

/-- The word in which an assignment names its variable: after a declaring command the first word
that is neither empty nor an option, otherwise the first word. -/
def Statement.assignedWord (s : Statement) : List Char :=
  match s.tokens.map Token.raw with
  | [] => []
  | first :: rest =>
      if declarationKeywords.contains first then
        (rest.find? fun word => word ≠ [] && word.head? ≠ some '-').getD []
      else first

def Statement.assignedName? (s : Statement) : Option (List Char) :=
  (leadingName? s.assignedWord).map (·.1)

def Statement.globalText (s : Statement) : List Char :=
  if s.head = "local".toList then "declare".toList ++ s.text.drop "local".length else s.text

/-- The script that evaluates an assignment, expanding nothing, and prints the variable. -/
def Statement.script (s : Statement) (name : List Char) : List Char :=
  withoutExpansions s.globalText ++ "\ndeclare -p ".toList ++ name

end PkgRecipe.Shell
