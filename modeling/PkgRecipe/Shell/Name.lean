namespace PkgRecipe.Shell

def isNameStart (c : Char) : Bool :=
  c.isAlpha || c == '_'

def isNameChar (c : Char) : Bool :=
  c.isAlphanum || c == '_'

def leadingName? : List Char → Option (List Char × List Char)
  | [] => none
  | c :: rest =>
      if isNameStart c then some (c :: rest.takeWhile isNameChar, rest.dropWhile isNameChar)
      else none

def isName (text : List Char) : Bool :=
  match leadingName? text with
  | some (_, []) => true
  | _ => false

end PkgRecipe.Shell
