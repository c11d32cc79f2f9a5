import PkgRecipe.Shell.Name
import PkgRecipe.Shell.Statement

namespace PkgRecipe.Shell

inductive Kind where
  | comment
  | assignment
  | chdir
  | fileOperation
  | functionHeader
  | functionEnd
  | command
deriving DecidableEq, Repr

def declarationKeywords : List (List Char) :=
  ["local".toList, "declare".toList, "export".toList]

/-- Whether a word begins as an assignment does: a name, perhaps an index in square brackets,
perhaps a plus sign, and an equals sign. -/
def beginsAssignment (word : List Char) : Bool :=
  match leadingName? word with
  | none => false
  | some (_, rest) =>
      let afterIndex :=
        match rest with
        | '[' :: index => (index.dropWhile (· ≠ ']')).tail
        | _ => rest
      match afterIndex with
      | '=' :: _ => true
      | '+' :: '=' :: _ => true
      | _ => false

/-- The name in a function header: a name, which may hold hyphens, and an empty pair of
parentheses, perhaps with the opening brace. -/
def headerName? (word : List Char) : Option (List Char) :=
  match word with
  | [] => none
  | c :: rest =>
      if isNameStart c then
        let isPart (d : Char) : Bool := isNameChar d || d == '-'
        match rest.dropWhile isPart with
        | ['(', ')'] | ['(', ')', '{'] => some (c :: rest.takeWhile isPart)
        | _ => none
      else none

/-- The names that a recipe gives a meaning: life cycle functions and file commands. -/
structure Classifier where
  functions : List (List Char)
  fileOperations : List (List Char)

namespace Classifier

def functionName? (c : Classifier) (s : Statement) : Option (List Char) :=
  (headerName? s.head).filter (c.functions.contains ·)

def kind (c : Classifier) (s : Statement) : Kind :=
  let head := s.head
  if head = [] ∨ head.head? = some '#' then .comment
  else if declarationKeywords.contains head ∨ beginsAssignment head then .assignment
  else if head = "cd".toList then .chdir
  else if c.fileOperations.contains head then .fileOperation
  else if (c.functionName? s).isSome then .functionHeader
  else if head = ['}'] then .functionEnd
  else .command

end Classifier

end PkgRecipe.Shell
