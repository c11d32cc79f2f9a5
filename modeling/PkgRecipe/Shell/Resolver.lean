import PkgRecipe.Outside
import PkgRecipe.Shell.Assignment
import PkgRecipe.Shell.Declaration

namespace PkgRecipe.Shell

/-- Turns an assignment into the declaration of its variable. -/
abbrev Resolver := Statement → Run Declaration

/-- What a shell prints for a script, which follows the words of the shell command. -/
def runScript (command : List (List Char)) (script : List Char) : Run (List Char) := do
  match ← Run.start (command ++ [script]) with
  | .ended status output complaint =>
      if status = 0 then return output
      else throw (.shellFailed status (Text.trim complaint))
  | .missing =>
      match command with
      | [] => throw .shellUnnamed
      | program :: _ => throw (.shellMissing program)
  | .denied reason => throw (.denied reason)
  | .interrupted => throw .interrupted
  | .undecodable fault => throw (.undecodable fault)

def resolveWith (command : List (List Char)) : Resolver := fun s => do
  let some name := s.assignedName? | throw (.nameMissing s.text)
  Run.log .debug ("Resolving ".toList ++ name ++ " (line ".toList ++
    Text.decimal s.lineNumber ++ [')'])
  match Declaration.ofOutput (← runScript command (s.script name)) with
  | .ok declaration => return declaration
  | .error output => throw (.notDeclaration output)

end PkgRecipe.Shell
