namespace PkgRecipe.Text

def inRanges : List (Nat × Nat) → Nat → Bool
  | [], _ => false
  | (first, last) :: rest, n =>
      if n < first then false else n ≤ last || inRanges rest n

end PkgRecipe.Text
