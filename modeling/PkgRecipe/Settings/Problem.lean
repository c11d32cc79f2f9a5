import PkgRecipe.Data.Rendering

namespace PkgRecipe.Settings

inductive Defect where
  | notText
  /-- Bytes that are no text. -/
  | undecodableText
  | notTruthValue
  /-- A text or a whole number that stands for no truth value. -/
  | unreadableTruthValue
  | notInteger
  /-- A text that is no decimal integer. -/
  | unreadableInteger
  /-- A text with too many digits, or a whole number that is too great. -/
  | oversizedInteger
  | fractional
  | notFinite
  | notPositive
  | notMapping
  | notSection
  | invalidMethod (function : List Char) (method : Data)
  /-- A method that holds an integer which cannot be written. -/
  | unwritableMethod
deriving Repr

/-- What is said about a method, which no recipe can have. -/
def Defect.complaint? : Defect → Option (List Char)
  | .invalidMethod function method =>
      some ("Invalid recipe method name for ".toList ++ function ++ ": ".toList ++ method.rendering)
  | .unwritableMethod =>
      some ("Exceeds the limit (4300 digits) for integer string conversion; ".toList ++
        "use sys.set_int_max_str_digits() to increase the limit".toList)
  | _ => none

/-- A defect of the value at a place: the section and the keys that lead to it. -/
structure Problem where
  place : List (List Char)
  defect : Defect
deriving Repr

inductive Checked (α : Type) where
  | valid (value : α)
  | invalid (problems : List Problem)
deriving Repr

namespace Checked

variable {α β : Type}

def fail (defect : Defect) : Checked α :=
  .invalid [⟨[], defect⟩]

/-- The problems of both parts stand in the way of the whole. -/
def apply : Checked (α → β) → Checked α → Checked β
  | .valid f, .valid a => .valid (f a)
  | .valid _, .invalid problems => .invalid problems
  | .invalid problems, .valid _ => .invalid problems
  | .invalid problems, .invalid more => .invalid (problems ++ more)

instance : Applicative Checked where
  pure := .valid
  seq f a := apply f (a ())

def andThen (checked : Checked α) (read : α → Checked β) : Checked β :=
  match checked with
  | .valid a => read a
  | .invalid problems => .invalid problems

def inside (name : List Char) : Checked α → Checked α
  | .valid a => .valid a
  | .invalid problems => .invalid (problems.map fun p => { p with place := name :: p.place })

def all : List (Checked α) → Checked (List α)
  | [] => .valid []
  | first :: rest => List.cons <$> first <*> all rest

end Checked

end PkgRecipe.Settings
