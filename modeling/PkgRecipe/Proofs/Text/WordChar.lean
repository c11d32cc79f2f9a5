import PkgRecipe.Text.Printable
import PkgRecipe.Text.WordChar

namespace PkgRecipe.Text

/-- Whether each range of the first list lies in a range of the second; both lists ascend. -/
def coveredBy : (ranges cover : List (Nat × Nat)) → Bool
  | ranges, [] => ranges.isEmpty
  | ranges, (first, last) :: cover =>
      match ranges.dropWhile fun r => first ≤ r.1 && r.2 ≤ last with
      | [] => true
      | r :: later => first ≤ r.1 && last < r.1 && coveredBy (r :: later) cover

private theorem inRanges_dropWhile {ranges : List (Nat × Nat)} (first last : Nat) {n : Nat}
    (inside : inRanges ranges n = true) :
    first ≤ n ∧ n ≤ last ∨
      inRanges (ranges.dropWhile fun r => first ≤ r.1 && r.2 ≤ last) n = true := by
  induction ranges with
  | nil => contradiction
  | cons r rest ih =>
      rw [List.dropWhile_cons]
      split
      · rename_i within
        simp only [Bool.and_eq_true, decide_eq_true_eq] at within
        simp only [inRanges] at inside
        split at inside
        · contradiction
        · simp only [Bool.or_eq_true, decide_eq_true_eq] at inside
          rcases inside with here | later
          · left
            omega
          · exact ih later
      · exact Or.inr inside

private theorem inRanges_of_coveredBy {ranges cover : List (Nat × Nat)}
    (covered : coveredBy ranges cover = true) {n : Nat} (inside : inRanges ranges n = true) :
    inRanges cover n = true := by
  induction cover generalizing ranges with
  | nil =>
      rw [coveredBy, List.isEmpty_iff] at covered
      rw [covered] at inside
      contradiction
  | cons p cover ih =>
      obtain ⟨first, last⟩ := p
      rw [coveredBy] at covered
      simp only [inRanges]
      rcases inRanges_dropWhile first last inside with within | beyond
      · rw [if_neg (by omega)]
        simp [within.2]
      · split at covered
        · rename_i exhausted
          rw [exhausted] at beyond
          contradiction
        · rename_i r later next
          rw [next] at beyond
          simp only [Bool.and_eq_true, decide_eq_true_eq] at covered
          have reached : r.1 ≤ n := by
            simp only [inRanges] at beyond
            split at beyond
            · contradiction
            · omega
          rw [if_neg (by omega), ih covered.2 beyond, Bool.or_true]

private theorem inRanges_first {first last n : Nat} (lower : first ≤ n) (upper : n ≤ last)
    (rest : List (Nat × Nat)) : inRanges ((first, last) :: rest) n = true := by
  rw [inRanges, if_neg (by omega), decide_eq_true upper, Bool.true_or]

theorem toNat_of_isAsciiWord {c : Char} (word : isAsciiWord c = true) :
    48 ≤ c.toNat ∧ c.toNat ≤ 122 := by
  delta isAsciiWord Char.isAlphanum Char.isAlpha Char.isUpper Char.isLower Char.isDigit at word
  simp only [Bool.or_eq_true, Bool.and_eq_true, decide_eq_true_eq, beq_iff_eq, ge_iff_le,
    UInt32.le_iff_toNat_le] at word
  rcases word with ((upper | lower) | digit) | rfl
  · simp at upper
    omega
  · simp at lower
    omega
  · simp at digit
    omega
  · decide

theorem isWordChar_of_isAsciiWord {c : Char} (word : isAsciiWord c = true) :
    isWordChar c = true := by
  have range := toNat_of_isAsciiWord word
  rw [isWordChar, if_pos (by omega), word]

theorem isPrintable_of_isWordChar {c : Char} (word : isWordChar c = true) :
    isPrintable c = true := by
  rw [isWordChar] at word
  split at word
  · have range := toNat_of_isAsciiWord word
    exact inRanges_first (by omega) (by omega) _
  · have covered : coveredBy wordRanges printableRanges = true := by decide +kernel
    exact inRanges_of_coveredBy covered word

end PkgRecipe.Text
