import PkgRecipe.Shell.CommandWords
import PkgRecipe.Text.Quoted
import PkgRecipe.Text.Utf8

namespace PkgRecipe

inductive Failure where
  /-- The shell cannot be found. -/
  | shellMissing (program : List Char)
  /-- The shell cannot be found and its command has no words. -/
  | shellUnnamed
  | shellFailed (status : Int) (complaint : List Char)
  /-- An assignment names no variable. -/
  | nameMissing (statement : List Char)
  /-- What the shell printed is no declaration. -/
  | notDeclaration (output : List Char)
  | downloadFailed (location reason : List Char)
  /-- A checksum is to be derived and no source was recorded. -/
  | sourceMissing
  /-- The input ends inside a statement. -/
  | unterminated (statement : List Char) (lineNumber : Nat)
  /-- An integer has too many digits. -/
  | oversized (digits : Nat)
  /-- More or fewer bytes are asked for at a time than a stream can be asked for. -/
  | sizeOutOfRange (size : Int)
  /-- A process cannot be started, for another reason than that its program is missing. -/
  | denied (reason : List Char)
  | interrupted
  /-- Something outside fails in a way that nothing is made of. -/
  | unexpected (reason : List Char)
  | undecodable (fault : Text.Utf8.Fault)
  | badCommand (fault : Shell.CommandFault)
  | noSuchFile (path : List Char)
  | accessDenied (path : List Char)
  | isDirectory (path : List Char)
  | notDirectory (path : List Char)
  /-- A path or a name in it is longer than a file system takes. -/
  | nameTooLong (path : List Char)
  /-- A null character stands in a path or in an argument of a process. -/
  | nullCharacter
deriving DecidableEq, Repr

namespace Failure

def undecodableMessage (fault : Text.Utf8.Fault) : List Char :=
  let place :=
    match fault.bytes with
    | [b] =>
        "byte 0x".toList ++ Text.hex 2 b.toNat ++ " in position ".toList ++
          Text.decimal fault.position
    | bytes =>
        "bytes in position ".toList ++ Text.decimal fault.position ++
          '-' :: Text.decimal (fault.position + bytes.length - 1)
  let defect :=
    match fault.defect with
    | .startByte => "invalid start byte"
    | .continuationByte => "invalid continuation byte"
    | .endOfData => "unexpected end of data"
  "'utf-8' codec can't decode ".toList ++ place ++ ": ".toList ++ defect.toList

def oversizedMessage (digits : Nat) : List Char :=
  ("Exceeds the limit (4300 digits) for integer string conversion: value has ".toList ++
    Text.decimal digits ++
    " digits; use sys.set_int_max_str_digits() to increase the limit".toList)

def message : Failure → List Char
  | shellMissing program => "Shell not found: ".toList ++ program
  | shellUnnamed => "list index out of range".toList
  | shellFailed status complaint =>
      "Shell exited with status ".toList ++ Text.signedDecimal status ++ ": ".toList ++
        if complaint = [] then "no output".toList else complaint
  | nameMissing statement => "No variable name in statement: ".toList ++ Text.quoted statement
  | notDeclaration output => "Unexpected declare output: ".toList ++ Text.quoted output
  | downloadFailed location reason =>
      "Failed to fetch ".toList ++ location ++ ": ".toList ++ reason
  | sourceMissing => "Cannot derive a checksum: no source URL recorded".toList
  | unterminated statement lineNumber =>
      "Unterminated statement starting at line ".toList ++ Text.decimal lineNumber ++
        ": ".toList ++ Text.quoted statement
  | oversized digits => oversizedMessage digits
  | sizeOutOfRange _ => "the size does not fit into 64 bits".toList
  | denied reason => reason
  | interrupted => []
  | unexpected reason => reason
  | undecodable fault => undecodableMessage fault
  | badCommand fault => fault.message
  | noSuchFile path => "[Errno 2] No such file or directory: ".toList ++ Text.quoted path
  | accessDenied path => "[Errno 13] Permission denied: ".toList ++ Text.quoted path
  | isDirectory path => "[Errno 21] Is a directory: ".toList ++ Text.quoted path
  | notDirectory path => "[Errno 20] Not a directory: ".toList ++ Text.quoted path
  | nameTooLong path => "[Errno 36] File name too long: ".toList ++ Text.quoted path
  | nullCharacter => "embedded null byte".toList

/-- Whether a failure is one that the program foresees: it ends the run with a message. -/
def isForeseen : Failure → Bool
  | shellUnnamed | oversized _ | sizeOutOfRange _ | interrupted | unexpected _ | undecodable _
  | badCommand _ | nullCharacter => false
  | _ => true

end Failure

end PkgRecipe
