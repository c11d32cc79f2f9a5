import PkgRecipe.Number.Binary

namespace PkgRecipe

structure Decimal where
  digits : Nat
  power : Int
deriving DecidableEq, Repr

namespace Decimal

def compareScaled (d : Decimal) (factor : Nat) (power : Int) : Ordering :=
  compare (d.digits * Nat.pow 10 d.power.toNat * Nat.pow 2 (-power).toNat)
    (factor * Nat.pow 2 power.toNat * Nat.pow 10 (-d.power).toNat)

/-- Whether a decimal lies among the numbers that are rounded to a binary one. The ends of that
range belong to it when the mantissa is even. -/
def readsBack (d : Decimal) (b : Binary) : Bool :=
  let low := 4 * b.mantissa - if b.isNarrowBelow then 1 else 2
  let high := 4 * b.mantissa + 2
  let closed := b.mantissa % 2 = 0
  let aboveLow := d.compareScaled low (b.power - 2)
  let belowHigh := d.compareScaled high (b.power - 2)
  (aboveLow = .gt || (closed && aboveLow = .eq)) &&
    (belowHigh = .lt || (closed && belowHigh = .eq))

/-- The greatest multiple of a power of ten that does not exceed the magnitude of a number. -/
def floorAt (b : Binary) (power : Int) : Decimal :=
  let numerator := b.mantissa * Nat.pow 2 b.power.toNat * Nat.pow 10 (-power).toNat
  let denominator := Nat.pow 2 (-b.power).toNat * Nat.pow 10 power.toNat
  ⟨numerator / denominator, power⟩

/-- The multiple of a power of ten nearest to a number, among the two beside it that read back. The
even one is taken from the middle. -/
def nearestAt? (b : Binary) (power : Int) : Option Decimal :=
  let below := floorAt b power
  let above : Decimal := { below with digits := below.digits + 1 }
  match below.readsBack b, above.readsBack b with
  | false, false => none
  | true, false => some below
  | false, true => some above
  | true, true =>
      let middle : Decimal := { below with digits := 2 * below.digits + 1 }
      match middle.compareScaled (2 * b.mantissa) b.power with
      | .lt => some above
      | .gt => some below
      | .eq => some (if below.digits % 2 = 0 then below else above)

def leadingPower (b : Binary) : Nat → Int → Int
  | 0, power => power
  | fuel + 1, power =>
      if (floorAt b power).digits = 0 then power else leadingPower b fuel (power + 1)

def normalize : Nat → Decimal → Decimal
  | 0, d => d
  | fuel + 1, d =>
      if d.digits ≠ 0 ∧ d.digits % 10 = 0 then normalize fuel ⟨d.digits / 10, d.power + 1⟩ else d

/-- The decimal of fewest digits that reads back as a number; of several, the nearest. -/
def shortest (b : Binary) : Decimal :=
  if b.mantissa = 0 then ⟨0, 0⟩
  else
    let leading := leadingPower b 700 (-330)
    let found := (List.range 17).findSome? fun n => nearestAt? b (leading - (n + 1 : Nat))
    normalize 20 (found.getD ⟨b.mantissa, b.power⟩)

end Decimal

end PkgRecipe
