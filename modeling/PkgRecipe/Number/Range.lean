namespace PkgRecipe.Number

/-- How many of them are below zero. -/
def halfRange : Int :=
  9223372036854775808

def fits (n : Int) : Bool :=
  -halfRange ≤ n && n < halfRange

/-- Whether an integer fits into 64 bits and is not the least that does. -/
def fitsInside (n : Int) : Bool :=
  -halfRange < n && n < halfRange

end PkgRecipe.Number
