namespace PkgRecipe

/-- A finite number: a sign, and a mantissa times a power of two. -/
structure Binary where
  negative : Bool
  mantissa : Nat
  power : Int
deriving DecidableEq, Repr

namespace Binary

/-- The parts of a double; an infinity and what is not a number have none. -/
def ofFloat? (x : Float) : Option Binary :=
  let bits : Nat := x.toBits.toNat
  let negative := decide (Nat.pow 2 63 ≤ bits)
  let exponent : Nat := bits / Nat.pow 2 52 % Nat.pow 2 11
  let fraction : Nat := bits % Nat.pow 2 52
  if exponent = 2047 then none
  else if exponent = 0 then some ⟨negative, fraction, -1074⟩
  else some ⟨negative, Nat.pow 2 52 + fraction, (exponent : Int) - 1075⟩

/-- Whether the next number toward zero is only half as far away as the next one away from it. -/
def isNarrowBelow (b : Binary) : Bool :=
  b.mantissa = Nat.pow 2 52 && -1074 < b.power

def integer? (b : Binary) : Option Int :=
  let sign : Int := if b.negative then -1 else 1
  let divisor := Nat.pow 2 (-b.power).toNat
  if b.mantissa % divisor = 0 then
    some (sign * (b.mantissa / divisor * Nat.pow 2 b.power.toNat : Nat))
  else none

end Binary

end PkgRecipe
