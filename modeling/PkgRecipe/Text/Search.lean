namespace PkgRecipe.Text

def fromFirst? (part : List Char) : List Char → Option (List Char)
  | [] => if part = [] then some [] else none
  | c :: rest =>
      if part.isPrefixOf (c :: rest) then some (c :: rest) else fromFirst? part rest

theorem fromFirst?_self {part text : List Char} (found : part <+: text) :
    fromFirst? part text = some text := by
  cases text with
  | nil => rw [fromFirst?, if_pos (List.prefix_nil.1 found)]
  | cons c rest => rw [fromFirst?, if_pos (List.isPrefixOf_iff_prefix.2 found)]

theorem fromFirst?_append {part before after : List Char} (found : part <+: after)
    (notEarlier : ∀ first last, before = first ++ last → last ≠ [] → ¬ part <+: last ++ after) :
    fromFirst? part (before ++ after) = some after := by
  induction before with
  | nil => exact fromFirst?_self found
  | cons c before ih =>
      have absent : ¬ part.isPrefixOf (c :: (before ++ after)) = true := by
        intro present
        exact notEarlier [] (c :: before) rfl (by simp) (List.isPrefixOf_iff_prefix.1 present)
      rw [List.cons_append, fromFirst?, if_neg absent]
      apply ih
      intro first last split notEmpty
      exact notEarlier (c :: first) last (by rw [split]; rfl) notEmpty

/-- A text cut at the first place where `part` stands: what is before it and what is after it. -/
def cutAt? (part : List Char) : List Char → Option (List Char × List Char)
  | [] => if part = [] then some ([], []) else none
  | c :: rest =>
      if part.isPrefixOf (c :: rest) then some ([], (c :: rest).drop part.length)
      else (cutAt? part rest).map fun (before, after) => (c :: before, after)

theorem cutAt?_of_notMem {c : Char} {before : List Char} (absent : c ∉ before)
    (after : List Char) : cutAt? [c] (before ++ c :: after) = some (before, after) := by
  induction before with
  | nil => simp [cutAt?]
  | cons first before ih =>
      have differs : (c == first) = false := by
        simpa using fun same : c = first => absent (by simp [same])
      rw [List.cons_append, cutAt?, ih fun member => absent (List.mem_cons_of_mem _ member)]
      simp [List.isPrefixOf, differs]

def splitAtChar (separator : Char) : List Char → List (List Char)
  | [] => [[]]
  | c :: rest =>
      if c = separator then [] :: splitAtChar separator rest
      else
        match splitAtChar separator rest with
        | [] => [[c]]
        | piece :: pieces => (c :: piece) :: pieces

end PkgRecipe.Text
