import Mathlib.Algebra.Group.Nat.Defs
import PkgRecipe.Text.Numeral

namespace PkgRecipe.Text

theorem toUpper_digitChar {d : Nat} (small : d < 16) :
    isHexDigit (Nat.digitChar d).toUpper = true ∧ letterValue (Nat.digitChar d).toUpper = d := by
  have checked : ∀ d < 16, isHexDigit (Nat.digitChar d).toUpper = true ∧
      letterValue (Nat.digitChar d).toUpper = d := by decide
  exact checked d small

theorem upperHex_eq (width n : Nat) :
    upperHex width n = List.replicate (width - (Nat.toDigits 16 n).length) '0' ++
      (Nat.toDigits 16 n).map Char.toUpper := by
  rw [upperHex, hex, List.leftpad, List.map_append, List.map_replicate]
  rfl

private theorem isHexDigit_of_mem_toDigits {n : Nat} {c : Char}
    (member : c ∈ (Nat.toDigits 16 n).map Char.toUpper) : isHexDigit c = true := by
  induction n using Nat.strongRecOn with
  | ind n ih =>
      rw [Nat.toDigits_eq_if (by decide)] at member
      split at member
      · rename_i small
        rw [List.map_singleton, List.mem_singleton] at member
        rw [member]
        exact (toUpper_digitChar small).1
      · rename_i large
        rw [List.map_append, List.map_singleton, List.mem_append, List.mem_singleton] at member
        rcases member with higher | rfl
        · exact ih (n / 16) (by omega) higher
        · exact (toUpper_digitChar (Nat.mod_lt n (by decide))).1

theorem isHexDigit_of_mem_upperHex {width n : Nat} {c : Char} (member : c ∈ upperHex width n) :
    isHexDigit c = true := by
  rw [upperHex_eq, List.mem_append] at member
  rcases member with zero | digit
  · rw [(List.mem_replicate.1 zero).2]
    rfl
  · exact isHexDigit_of_mem_toDigits digit

theorem valueInBase_concat (base : Nat) (digits : List Char) (c : Char) :
    valueInBase base (digits ++ [c]) = valueInBase base digits * base + letterValue c := by
  rw [valueInBase, List.foldl_append]
  rfl

theorem valueInBase_zeros_append (base zeros : Nat) (digits : List Char) :
    valueInBase base (List.replicate zeros '0' ++ digits) = valueInBase base digits := by
  induction zeros with
  | zero => rfl
  | succ zeros ih =>
      rw [List.replicate_succ, List.cons_append]
      have zero : letterValue '0' = 0 := by decide
      rw [← ih]
      simp only [valueInBase, List.foldl_cons, zero, Nat.zero_mul, Nat.add_zero]

private theorem valueInBase_toDigits (n : Nat) :
    valueInBase 16 ((Nat.toDigits 16 n).map Char.toUpper) = n := by
  induction n using Nat.strongRecOn with
  | ind n ih =>
      rw [Nat.toDigits_eq_if (by decide)]
      split
      · rename_i small
        rw [List.map_singleton, ← List.nil_append [_], valueInBase_concat,
          (toUpper_digitChar small).2]
        simp [valueInBase]
      · rename_i large
        rw [List.map_append, List.map_singleton, valueInBase_concat, ih (n / 16) (by omega),
          (toUpper_digitChar (Nat.mod_lt n (by decide))).2]
        omega

theorem valueInBase_upperHex (width n : Nat) : valueInBase 16 (upperHex width n) = n := by
  rw [upperHex_eq, valueInBase_zeros_append, valueInBase_toDigits]

theorem length_upperHex {width n : Nat} (positive : 0 < width) (small : n < 16 ^ width) :
    (upperHex width n).length = width := by
  have bound := (Nat.length_toDigits_le_iff (b := 16) (by decide) positive).2 small
  rw [upperHex_eq, List.length_append, List.length_replicate, List.length_map]
  omega

theorem upperHex_ne_nil (width n : Nat) : upperHex width n ≠ [] := by
  rw [upperHex_eq]
  simp [Nat.toDigits_ne_nil]

end PkgRecipe.Text
