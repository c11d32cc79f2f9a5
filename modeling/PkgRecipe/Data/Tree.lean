import PkgRecipe.Data.Calendar
import PkgRecipe.Number.Binary

namespace PkgRecipe

/-- A value that nothing is made of: what its kind is called, how it is written, and whether it has
no parts. -/
structure ForeignValue where
  kind : List Char
  rendering : List Char
  isVoid : Bool
deriving DecidableEq, Repr

inductive Scalar where
  | null
  | bool (b : Bool)
  | int (n : Int)
  | float (x : Float)
  | text (t : List Char)
  | bytes (b : List UInt8)
  | date (d : Date)
  | dateTime (t : DateTime)
  | foreign (v : ForeignValue)
deriving DecidableEq, Repr

inductive Key where
  | scalar (s : Scalar)
  /-- A point of universal time. -/
  | instant (microseconds : Int)
deriving DecidableEq, Repr

/-- A truth value is zero or one, a whole number is the same in whatever way it is written, and a
time is the same on all clocks whose offset from universal time is known. -/
def Scalar.key : Scalar → Key
  | .bool b => .scalar (.int (if b then 1 else 0))
  | .float x =>
      match (Binary.ofFloat? x).bind (·.integer?) with
      | some n => .scalar (.int n)
      | none => .scalar (.float x)
  | .dateTime t =>
      match t.offset with
      | some offset => .instant (t.instant offset)
      | none => .scalar (.dateTime t)
  | s => .scalar s

def Scalar.sameKey (s t : Scalar) : Bool :=
  s.key == t.key

inductive Data where
  | scalar (s : Scalar)
  | sequence (items : List Data)
  | mapping (entries : List (Scalar × Data))
deriving Repr

namespace Data

abbrev Entries := List (Scalar × Data)

def null : Data :=
  .scalar .null

instance : Inhabited Data := ⟨null⟩

def text (t : List Char) : Data :=
  .scalar (.text t)

namespace Entries

def find? (key : Scalar) : Entries → Option Data
  | [] => none
  | (other, value) :: rest => if other.sameKey key then some value else find? key rest

def put (key : Scalar) (value : Data) : Entries → Entries
  | [] => [(key, value)]
  | (other, old) :: rest =>
      if other.sameKey key then (other, value) :: rest else (other, old) :: put key value rest

def without (key : Scalar) (entries : Entries) : Entries :=
  entries.filter fun entry => !entry.1.sameKey key

end Entries

end Data

end PkgRecipe
