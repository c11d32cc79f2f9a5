import PkgRecipe.Text.Numeral

namespace PkgRecipe.Number

/-- The number of decimal digits beyond which no integer is read or written. -/
def digitLimit : Nat :=
  4300

def isWritable (n : Int) : Bool :=
  n.natAbs < Nat.pow 10 digitLimit

end PkgRecipe.Number
