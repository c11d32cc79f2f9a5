import PkgRecipe.Proofs.Recipe.TableSubstitution

namespace PkgRecipe.Recipe

def ReferenceFree (text : List Char) : Prop :=
  ∀ r : Reference, IsReferenceName r.name → ¬r.text <:+: text

/-- Where a reference is written a reference is read, if only one with a longer name. -/
private theorem exists_refers_of_text {r : Reference} (named : IsReferenceName r.name)
    (after : List Char) :
    ∃ rest other left, r.text ++ after = '$' :: rest ∧ Refers rest other left := by
  obtain ⟨name, braced⟩ := r
  cases braced with
  | true =>
      refine ⟨'\x7b' :: (name ++ '\x7d' :: after), ⟨name, true⟩, after, ?_, .braced named after⟩
      simp [Reference.text]
  | false =>
      obtain ⟨c, first⟩ := Option.isSome_iff_exists.1 (List.isSome_head?.2 named.ne_nil)
      have starts : Shell.isNameStart c = true := by simpa [first] using named.starts
      have first' : (name ++ after).head? = some c := by
        rw [List.head?_append, first, Option.some_or]
      obtain ⟨name', left, whole, named', ended⟩ := exists_name_of_isNameStart first' starts
      exact ⟨name ++ after, ⟨name', false⟩, left, rfl, whole ▸ .bare named' ended⟩

theorem referenceFree_iff {text : List Char} :
    ReferenceFree text ↔ ∀ rest, '$' :: rest <:+ text → reference? rest = none := by
  constructor
  · intro free rest found
    rw [reference?_eq_none_iff]
    intro r after refers
    refine free r refers.name (.trans ?_ found.isInfix)
    rw [refers.cons_eq_text_append]
    exact List.infix_append' [] r.text after
  · rintro unread r named ⟨before, after, rfl⟩
    obtain ⟨rest, other, left, written, refers⟩ := exists_refers_of_text named after
    rw [List.append_assoc, written] at unread
    have read := unread rest (List.suffix_append before _)
    exact reference?_eq_none_iff.1 read other left refers

theorem ReferenceFree.replaceReferences {text : List Char} (free : ReferenceFree text)
    (value : Reference → List Char) : replaceReferences value text = text := by
  rw [referenceFree_iff] at free
  induction text with
  | nil => rw [Recipe.replaceReferences]
  | cons c text ih =>
      have plain : c = '$' → reference? text = none := by
        rintro rfl
        exact free text List.suffix_rfl
      rw [replaceReferences_cons plain,
        ih fun rest found => free rest (found.trans (List.suffix_cons c text))]

theorem ReferenceFree.substitute {text : List Char} (free : ReferenceFree text)
    {table : Table (List Char)} (named : ∀ name ∈ table.keys, IsReferenceName name) :
    substitute table text = text := by
  have unchanged : replaceNames table text = text := by
    induction table with
    | nil => rfl
    | cons entry table ih =>
        have here := replaceName_eq (named entry.1 List.mem_cons_self) entry.2 text
        rw [free.replaceReferences] at here
        rw [replaceNames, List.foldl_cons, here]
        exact ih fun name member => named name (List.mem_cons_of_mem _ member)
  rw [substitute_eq_replaceNames, unchanged, free.replaceReferences]

def interpolationOf (name : List Char) : Option (List Char) :=
  some (interpolation ⟨name, false⟩)

private theorem apart_interpolationOf (text : List Char) : Apart interpolationOf text := by
  rintro before rest after r word - - valued -
  obtain rfl := Option.some.inj valued
  exact ⟨'#', rfl, by decide⟩

private theorem dollar_notMem_interpolation {r : Reference} (named : IsReferenceName r.name) :
    '$' ∉ interpolation r := by
  simpa [interpolation] using named.dollar_notMem

theorem suffix_of_suffix_append {c : Char} {first rest text : List Char} (absent : c ∉ first)
    (found : c :: rest <:+ first ++ text) : c :: rest <:+ text := by
  induction first with
  | nil => exact found
  | cons d first ih =>
      rw [List.mem_cons, not_or] at absent
      rw [List.cons_append, List.suffix_cons_iff] at found
      rcases found with here | later
      · exact absurd (List.cons.inj here).1 absent.1
      · exact ih absent.2 later

/-- When each reference has become an interpolation, none is left: what stands behind a dollar sign
that begins no reference goes on no further than to the next interpolation. -/
theorem referenceFree_replaceReferences_interpolation (text : List Char) :
    ReferenceFree (replaceReferences interpolation text) := by
  rw [referenceFree_iff]
  induction text using replaceReferences.induct with
  | case1 =>
      rw [replaceReferences]
      exact fun rest found => absurd (List.suffix_nil.1 found) (List.cons_ne_nil _ _)
  | case2 text r after found ih =>
      intro rest read
      have named := (reference?_eq_some_iff.1 found).name
      rw [replaceReferences_of_reference? found] at read
      exact ih rest (suffix_of_suffix_append (dollar_notMem_interpolation named) read)
  | case3 text unread ih =>
      intro rest read
      rw [replaceReferences_cons fun _ => unread, List.suffix_cons_iff] at read
      rcases read with here | later
      · obtain rfl := (List.cons.inj here).2
        exact reference?_eq_none_iff.2 (not_refers_replaceReferences
          (reference?_eq_none_iff.1 unread) (apart_interpolationOf _))
      · exact ih rest later
  | case4 c text notDollar ih =>
      intro rest read
      rw [replaceReferences_cons fun dollar => absurd dollar notDollar,
        List.suffix_cons_iff] at read
      rcases read with here | later
      · exact absurd (List.cons.inj here).1.symm notDollar
      · exact ih rest later

/-- No `$name` and no `${name}` is left in a text after a substitution, whatever the names and the
expressions of the table are, and a substitution for other names does not change the text again. -/
theorem substitute_referenceFree (table : Table (List Char)) (text : List Char) :
    ReferenceFree (substitute table text) ∧
      ∀ other : Table (List Char), (∀ name ∈ other.keys, IsReferenceName name) →
        substitute other (substitute table text) = substitute table text := by
  have free : ReferenceFree (substitute table text) :=
    referenceFree_replaceReferences_interpolation (replaceNames table text)
  exact ⟨free, fun other named => free.substitute named⟩

theorem substitute_referenceFree_parts :
    let table : Table (List Char) := [("v", "$"), ("w", "$\x7b")].map fun entry =>
      (entry.1.toList, entry.2.toList)
    let other : Table (List Char) := [("y", "1"), ("z", "2"), ("_v", "3")].map fun entry =>
      (entry.1.toList, entry.2.toList)
    let text := "$vx $\x7bv\x7dy$w$z\x7d $$\x7b$v\x7d$".toList
    let out := "#\x7b@_vx\x7d #\x7b@_y\x7d$\x7b#\x7b@_z\x7d\x7d $$\x7b$\x7d$".toList
    substitute table text = out ∧ ReferenceFree out ∧
      (∀ name ∈ other.keys, IsReferenceName name) ∧ substitute other out = out := by
  intro table other text out
  have evaluated : substitute table text = out := by decide +kernel
  have named : ∀ name ∈ other.keys, IsReferenceName name := by decide
  obtain ⟨free, stable⟩ := substitute_referenceFree table text
  rw [evaluated] at free stable
  exact ⟨evaluated, free, named, stable other named⟩

end PkgRecipe.Recipe
