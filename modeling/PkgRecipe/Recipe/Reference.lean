import PkgRecipe.Shell.Name
import PkgRecipe.Table
import PkgRecipe.Text.WordChar

namespace PkgRecipe.Recipe

structure Reference where
  name : List Char
  /-- Whether the name stands in braces. -/
  braced : Bool
deriving DecidableEq, Repr

def Reference.text (r : Reference) : List Char :=
  if r.braced then '$' :: '\x7b' :: (r.name ++ ['\x7d']) else '$' :: r.name

/-- The longest name at the start of a text, and what follows it. Characters of any script may
follow the first. -/
def referencedName? : List Char → Option (List Char × List Char)
  | [] => none
  | c :: rest =>
      if Shell.isNameStart c then
        some (c :: rest.takeWhile Text.isWordChar, rest.dropWhile Text.isWordChar)
      else none

/-- The reference at the start of a text from which its dollar sign was taken. -/
def reference? (text : List Char) : Option (Reference × List Char) :=
  match text with
  | '\x7b' :: rest =>
      match referencedName? rest with
      | some (name, '\x7d' :: after) => some (⟨name, true⟩, after)
      | _ => none
  | _ => (referencedName? text).map fun (name, after) => (⟨name, false⟩, after)

theorem length_of_referencedName? {text name after : List Char}
    (h : referencedName? text = some (name, after)) : after.length < text.length := by
  cases text with
  | nil => simp [referencedName?] at h
  | cons c rest =>
      simp only [referencedName?] at h
      split at h
      · obtain ⟨-, rfl⟩ := Prod.mk.inj (Option.some.inj h)
        have := (List.dropWhile_sublist Text.isWordChar (l := rest)).length_le
        simp only [List.length_cons]
        omega
      · simp at h

theorem length_of_reference? {text : List Char} {r : Reference} {after : List Char}
    (h : reference? text = some (r, after)) : after.length < text.length := by
  unfold reference? at h
  split at h
  · split at h
    · rename_i found
      obtain ⟨-, rfl⟩ := Prod.mk.inj (Option.some.inj h)
      have := length_of_referencedName? found
      simp only [List.length_cons] at this ⊢
      omega
    · simp at h
  · obtain ⟨⟨name, rest⟩, found, same⟩ := Option.map_eq_some_iff.1 h
    obtain ⟨-, rfl⟩ := Prod.mk.inj same
    exact length_of_referencedName? found

def replaceReferences (replacement : Reference → List Char) : List Char → List Char
  | [] => []
  | c :: rest =>
      if c = '$' then
        match _found : reference? rest with
        | some (r, after) => replacement r ++ replaceReferences replacement after
        | none => c :: replaceReferences replacement rest
      else c :: replaceReferences replacement rest
termination_by text => text.length
decreasing_by
  · have := length_of_reference? _found
    simp only [List.length_cons]
    omega
  all_goals simp

def beginsWithWordChar : List Char → Bool
  | [] => false
  | c :: _ => Text.isWordChar c

/-- What follows a reference to `name` at the start of a text from which the dollar sign was taken.
Without braces no word character follows the name. -/
def afterName? (name text : List Char) : Option (List Char) :=
  if ('\x7b' :: (name ++ ['\x7d'])).isPrefixOf text then some (text.drop (name.length + 2))
  else if name.isPrefixOf text && !beginsWithWordChar (text.drop name.length) then
    some (text.drop name.length)
  else none

theorem length_of_afterName? {name text after : List Char}
    (h : afterName? name text = some after) : after.length ≤ text.length := by
  unfold afterName? at h
  split at h
  · obtain rfl := Option.some.inj h
    simp
  · split at h
    · obtain rfl := Option.some.inj h
      simp
    · simp at h

def replaceName (name replacement : List Char) : List Char → List Char
  | [] => []
  | c :: rest =>
      if c = '$' then
        match _found : afterName? name rest with
        | some after => replacement ++ replaceName name replacement after
        | none => c :: replaceName name replacement rest
      else c :: replaceName name replacement rest
termination_by text => text.length
decreasing_by
  · have := length_of_afterName? _found
    simp only [List.length_cons]
    omega
  all_goals simp

def interpolation (r : Reference) : List Char :=
  "#\x7b@_".toList ++ r.name ++ ['\x7d']

/-- A text in which the references to names of the table are replaced by their expressions, one
name after the other, and then all others by interpolations. -/
def substitute (table : Table (List Char)) (text : List Char) : List Char :=
  replaceReferences interpolation
    (table.foldl (fun current entry => replaceName entry.1 entry.2 current) text)

end PkgRecipe.Recipe
