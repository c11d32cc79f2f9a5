import Mathlib.Data.PFun
import PkgRecipe.Recipe.Checksum

namespace PkgRecipe.Recipe

inductive ReadFault where
  | failed (reason : List Char)
  /-- The response breaks the rules of the protocol. -/
  | broken (reason : List Char)
  | interrupted
  /-- The response cannot be asked for so many bytes. -/
  | sizeOutOfRange
deriving DecidableEq, Repr

def ReadFault.failure (size : Int) (location : List Char) : ReadFault → Failure
  | failed reason => .downloadFailed location reason
  | broken reason => .unexpected reason
  | interrupted => .interrupted
  | sizeOutOfRange => .sizeOutOfRange size

/-- How the bodies of responses are read. A state is what is left of a response. -/
structure Response (σ : Type) where
  /-- A response of whose body nothing is read yet. -/
  opened : Body → σ
  /-- The bytes that come when so many are asked for, and what is left behind them. -/
  read : Int → σ → Except ReadFault (List UInt8 × σ)

namespace Response

variable {σ : Type}

def round (r : Response σ) (size : Int) :
    Sha256.Hasher × σ → Except ReadFault Sha256.Hasher ⊕ Sha256.Hasher × σ
  | (x, state) =>
    match r.read size state with
    | .error fault => .inl (.error fault)
    | .ok ([], _) => .inl (.ok x)
    | .ok (b :: part, rest) => .inr (x.update (b :: part), rest)

/-- Takes in what a response gives, until a read gives nothing. There is no hash if that never
happens. -/
def hashFrom (r : Response σ) (size : Int) (x : Sha256.Hasher) (state : σ) :
    Part (Except ReadFault Sha256.Hasher) :=
  (PFun.lift (r.round size)).fix (x, state)

def digest (r : Response σ) (size : Int) (location : List Char) (body : Body) :
    Part (Except Failure (List Char)) :=
  (r.hashFrom size .empty (r.opened body)).map fun
    | .ok x => .ok x.hexDigest
    | .error fault => .error (fault.failure size location)

def fetchDigest (r : Response σ) (size : Int) (location : List Char) (o : Outside) :
    Part (Except Failure (List Char) × Outside) :=
  let request : Run DownloadReply := do
    Run.log .info ("Fetching ".toList ++ location)
    Run.download location
  match request o with
  | (.ok (.body body), after) => (r.digest size location body).map (·, after)
  | (.ok (.failed reason), after) => .some (.error (.downloadFailed location reason), after)
  | (.ok (.broken reason), after) => .some (.error (.unexpected reason), after)
  | (.ok .interrupted, after) => .some (.error .interrupted, after)
  | (.error failure, after) => .some (.error failure, after)

/-- A body in memory gives as many bytes as it is asked for, and all of them for a number below
zero. -/
def memory : Response Body where
  opened := id
  read size left :=
    if left.takes size then
      if size < 0 then .ok (left.bytes, { left with bytes := [] })
      else .ok (left.bytes.take size.toNat, { left with bytes := left.bytes.drop size.toNat })
    else .error .sizeOutOfRange

end Response

end PkgRecipe.Recipe
