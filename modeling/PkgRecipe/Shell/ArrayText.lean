import PkgRecipe.Shell.AnsiText
import PkgRecipe.Text.Blank

namespace PkgRecipe.Shell.ArrayText

/-! Array values as the shell prints them: `([index]="value" [index]=$'value')`. -/

def unescaped : List Char → List Char
  | '\\' :: c :: rest =>
      if c = '\\' ∨ c = '"' ∨ c = '$' ∨ c = '\x60' then c :: unescaped rest
      else '\\' :: unescaped (c :: rest)
  | c :: rest => c :: unescaped rest
  | [] => []

/-- A text cut at the first `stop` that no backslash escapes. -/
def cutUnescaped? (stop : Char) : List Char → Option (List Char × List Char)
  | [] => none
  | '\\' :: rest =>
      match rest with
      | [] => none
      | c :: after =>
          (cutUnescaped? stop after).map fun (body, left) => ('\\' :: c :: body, left)
  | c :: rest =>
      if c = stop then some ([], rest)
      else (cutUnescaped? stop rest).map fun (body, left) => (c :: body, left)

theorem length_of_cutUnescaped? {stop : Char} {text body left : List Char}
    (h : cutUnescaped? stop text = some (body, left)) : left.length < text.length := by
  fun_induction cutUnescaped? stop text generalizing body left with
  | case1 => simp at h
  | case2 => simp at h
  | case3 c after ih =>
      obtain ⟨⟨inner, rest⟩, found, same⟩ := Option.map_eq_some_iff.1 h
      obtain ⟨-, rfl⟩ := Prod.mk.inj same
      have := ih found
      simp only [List.length_cons]
      omega
  | case4 rest =>
      obtain ⟨-, rfl⟩ := Prod.mk.inj (Option.some.inj h)
      simp
  | case5 c rest _ _ ih =>
      obtain ⟨⟨inner, left'⟩, found, same⟩ := Option.map_eq_some_iff.1 h
      obtain ⟨-, rfl⟩ := Prod.mk.inj same
      have := ih found
      simp only [List.length_cons]
      omega

/-- The element at the start of a text from which its opening bracket was taken. -/
def element? (text : List Char) : Option (List Char × List Char) :=
  match cutUnescaped? ']' text with
  | some (_, '=' :: '"' :: rest) =>
      (cutUnescaped? '"' rest).map fun (body, left) => (unescaped body, left)
  | some (_, '=' :: '$' :: '\'' :: rest) =>
      (cutUnescaped? '\'' rest).map fun (body, left) => (AnsiText.decode body, left)
  | _ => none

theorem length_of_element? {text value left : List Char}
    (h : element? text = some (value, left)) : left.length < text.length := by
  unfold element? at h
  split at h
  · rename_i rest key
    obtain ⟨⟨body, left'⟩, found, same⟩ := Option.map_eq_some_iff.1 h
    obtain ⟨-, rfl⟩ := Prod.mk.inj same
    have outer := length_of_cutUnescaped? key
    have inner := length_of_cutUnescaped? found
    simp only [List.length_cons] at outer
    omega
  · rename_i rest key
    obtain ⟨⟨body, left'⟩, found, same⟩ := Option.map_eq_some_iff.1 h
    obtain ⟨-, rfl⟩ := Prod.mk.inj same
    have outer := length_of_cutUnescaped? key
    have inner := length_of_cutUnescaped? found
    simp only [List.length_cons] at outer
    omega
  · simp at h

/-- The values of the elements in a text, in order. A bracket that begins no element is passed
over, and the search goes on behind it. -/
def elements : List Char → List (List Char)
  | [] => []
  | c :: rest =>
      if c = '[' then
        match _found : element? rest with
        | some (value, left) => value :: elements left
        | none => elements rest
      else elements rest
termination_by text => text.length
decreasing_by
  · have := length_of_element? _found
    simp only [List.length_cons]
    omega
  all_goals simp

def isParenthesised (text : List Char) : Bool :=
  let trimmed := Text.trim text
  trimmed.head? == some '(' && trimmed.getLast? == some ')'

end PkgRecipe.Shell.ArrayText
