import PkgRecipe.Outside
import PkgRecipe.Text.Blank
import PkgRecipe.Text.Numeral

namespace PkgRecipe.Recipe

/-! The formatting of a finished recipe by another program. A formatter that is missing or fails is
only logged, since the recipe is valid without it. -/

def formatterComplaint (status : Int) (complaint : List Char) : List Char :=
  let message := Text.trim complaint
  "Formatter exited with status ".toList ++ Text.signedDecimal status ++
    if message = [] then [] else ": ".toList ++ message

/-- Has a command format the file at a path; whether it did. A command without words is not
started. -/
def formatFile (command : List (List Char)) (path : List Char) : Run Bool := do
  match command with
  | [] => return false
  | program :: _ =>
      match ← Run.start (command ++ [path]) with
      | .ended status _ complaint =>
          if status = 0 then return true
          Run.log .warning (formatterComplaint status complaint)
          return false
      | .missing =>
          Run.log .warning ("Formatter not found: ".toList ++ program)
          return false
      | .denied reason => throw (.denied reason)
      | .interrupted => throw .interrupted
      | .undecodable fault => throw (.undecodable fault)

end PkgRecipe.Recipe
