import PkgRecipe.Text.Blank

namespace PkgRecipe.Text

theorem not_isBlank_head?_trimStart (text : List Char) :
    ∀ c ∈ (trimStart text).head?, isBlank c = false := by
  intro c first
  have stops := List.head?_dropWhile_not isBlank text
  rw [trimStart] at first
  rw [first] at stops
  exact stops

theorem trimStart_eq_self_iff {text : List Char} :
    trimStart text = text ↔ ∀ c ∈ text.head?, isBlank c = false := by
  constructor
  · intro same
    rw [← same]
    exact not_isBlank_head?_trimStart text
  · intro first
    cases text with
    | nil => rfl
    | cons c rest => exact trimStart_cons (first c rfl) rest

theorem trimEnd_eq_reverse (text : List Char) : trimEnd text = (trimStart text.reverse).reverse :=
  rfl

theorem trimEnd_eq_self_iff {text : List Char} :
    trimEnd text = text ↔ ∀ c ∈ text.getLast?, isBlank c = false := by
  rw [trimEnd_eq_reverse, List.reverse_eq_iff, trimStart_eq_self_iff, List.head?_reverse]

theorem trimEnd_prefix_self (text : List Char) : trimEnd text <+: text := by
  rw [trimEnd_eq_reverse, ← List.reverse_suffix, List.reverse_reverse]
  exact List.dropWhile_suffix isBlank

theorem trim_eq_self_iff {text : List Char} :
    trim text = text ↔
      (∀ c ∈ text.head?, isBlank c = false) ∧ ∀ c ∈ text.getLast?, isBlank c = false := by
  rw [← trimStart_eq_self_iff, ← trimEnd_eq_self_iff]
  constructor
  · intro same
    have whole : trimStart text = text := by
      apply (List.dropWhile_suffix isBlank).eq_of_length_le
      have bound := (trimEnd_prefix_self (trimStart text)).length_le
      rwa [← trim, same] at bound
    rw [trim, whole] at same
    exact ⟨whole, same⟩
  · rintro ⟨start, last⟩
    rw [trim, start, last]

theorem trim_trim (text : List Char) : trim (trim text) = trim text := by
  rw [trim_eq_self_iff]
  constructor
  · intro c first
    obtain ⟨rest, begun⟩ := List.head?_eq_some_iff.1 first
    apply not_isBlank_head?_trimStart text
    obtain ⟨blanks, whole⟩ := trimEnd_prefix_self (trimStart text)
    rw [← trim, begun] at whole
    rw [← whole]
    rfl
  · apply trimEnd_eq_self_iff.1
    rw [trim, trimEnd_eq_reverse, trimEnd_eq_reverse, List.reverse_reverse, List.reverse_inj]
    exact trimStart_eq_self_iff.2 (not_isBlank_head?_trimStart _)

theorem intercalate_append {first second : List (List Char)} (firstLines : first ≠ [])
    (secondLines : second ≠ []) :
    ['\n'].intercalate (first ++ second) =
      ['\n'].intercalate first ++ '\n' :: ['\n'].intercalate second := by
  induction first with
  | nil => contradiction
  | cons line first ih =>
      cases first with
      | nil => simp [List.intercalate_cons_of_ne_nil secondLines]
      | cons next last =>
          have later := ih (List.cons_ne_nil _ _)
          rw [List.cons_append, List.intercalate_cons_of_ne_nil (by simp), later,
            List.intercalate_cons_cons]
          simp only [List.append_assoc]

theorem splitOn_append_of_notMem {separator : Char} {first : List Char}
    (absent : separator ∉ first) (second : List Char) :
    (first ++ second).splitOn separator =
      (second.splitOn separator).modifyHead (first ++ ·) := by
  induction first with
  | nil =>
      obtain ⟨piece, more, split⟩ :=
        List.exists_cons_of_ne_nil (List.splitOn_ne_nil separator second)
      simp [split]
  | cons c rest ih =>
      have differs : (c == separator) = false := by
        simpa using fun same : c = separator => absent (by simp [same])
      rw [List.cons_append, List.splitOn_cons_eq_if_modifyHead, if_neg (by simp [differs]),
        ih fun member => absent (List.mem_cons_of_mem _ member), List.modifyHead_modifyHead]
      rfl

end PkgRecipe.Text
