import Mathlib.Data.List.Infix
import PkgRecipe.Proofs.Recipe.Replacement

namespace PkgRecipe.Recipe

/-! Texts as rows of characters and references, and the row of a text in which some references were
replaced: what is put in joins no reference, and makes none, unless it stands where a name may begin
or go on. -/

inductive Segment where
  | char (c : Char)
  | reference (r : Reference)
deriving DecidableEq

namespace Segment

def replaced (value : Reference → List Char) : Segment → List Char
  | char c => [c]
  | reference r => value r

def reference? : Segment → Option Reference
  | char _ => none
  | reference r => some r

end Segment

/-- The characters and references of a text, from left to right. -/
def segments : List Char → List Segment
  | [] => []
  | c :: rest =>
      if c = '$' then
        match _found : reference? rest with
        | some (r, after) => .reference r :: segments after
        | none => .char c :: segments rest
      else .char c :: segments rest
termination_by text => text.length
decreasing_by
  · have := length_of_reference? _found
    simp only [List.length_cons]
    omega
  all_goals simp

def references (text : List Char) : List Reference :=
  (segments text).filterMap Segment.reference?

theorem segments_cons {c : Char} {text : List Char} (plain : c = '$' → reference? text = none) :
    segments (c :: text) = .char c :: segments text := by
  rw [segments]
  split
  · rename_i dollar
    split
    · rename_i found
      rw [plain dollar] at found
      contradiction
    · rfl
  · rfl

theorem segments_of_reference? {text after : List Char} {r : Reference}
    (found : reference? text = some (r, after)) :
    segments ('$' :: text) = .reference r :: segments after := by
  rw [segments, if_pos rfl]
  split
  · rename_i same
    rw [found] at same
    obtain ⟨rfl, rfl⟩ := Prod.mk.inj (Option.some.inj same)
    rfl
  · rename_i failed
    rw [found] at failed
    contradiction

private theorem replaceReferences_eq_flatMap (value : Reference → List Char) (text : List Char) :
    replaceReferences value text = (segments text).flatMap (Segment.replaced value) := by
  induction text using segments.induct with
  | case1 =>
      rw [replaceReferences, segments]
      rfl
  | case2 text r after found ih =>
      rw [replaceReferences_of_reference? found, segments_of_reference? found, List.flatMap_cons, ih]
      rfl
  | case3 text unread ih =>
      rw [replaceReferences_cons fun _ => unread, segments_cons fun _ => unread, List.flatMap_cons, ih]
      rfl
  | case4 c text notDollar ih =>
      have plain : c = '$' → reference? text = none := fun dollar => absurd dollar notDollar
      rw [replaceReferences_cons plain, segments_cons plain, List.flatMap_cons, ih]
      rfl

def opensReference (c : Char) : Bool :=
  Shell.isNameStart c || c == '\x7b'

/-- Behind each dollar sign stands a character that belongs to no reference. -/
def Inert (text : List Char) : Prop :=
  ∀ rest, '$' :: rest <:+ text → ∃ c, rest.head? = some c ∧ opensReference c = false

instance (text : List Char) : Decidable (Inert text) :=
  decidable_of_iff
    (∀ last ∈ text.tails, last.head? = some '$' →
      last.tail.head?.map opensReference = some false)
    ⟨fun each rest found =>
        Option.map_eq_some_iff.1 (each ('$' :: rest) ((List.mem_tails _ _).2 found) rfl),
      fun inert last member dollar => by
        obtain ⟨rest, rfl⟩ := List.head?_eq_some_iff.1 dollar
        exact Option.map_eq_some_iff.2 (inert rest ((List.mem_tails _ _).1 member))⟩

theorem inert_of_notMem {text : List Char} (dollarless : '$' ∉ text) : Inert text :=
  fun _ found => absurd (found.subset List.mem_cons_self) dollarless

theorem reference?_of_head? {c : Char} {text : List Char} (first : text.head? = some c)
    (apart : opensReference c = false) : reference? text = none := by
  obtain ⟨rest, rfl⟩ := List.head?_eq_some_iff.1 first
  rw [opensReference, Bool.or_eq_false_iff, beq_eq_false_iff_ne] at apart
  have unbraced : (c :: rest).head? ≠ some '\x7b' := fun same => apart.2 (Option.some.inj same)
  rw [reference?_of_head?_ne unbraced, referencedName?, apart.1, if_neg Bool.false_ne_true,
    Option.map_none]

private theorem segments_append_of_inert {first : List Char} (inert : Inert first) (text : List Char) :
    segments (first ++ text) = first.map .char ++ segments text := by
  induction first with
  | nil => rfl
  | cons c first ih =>
      have plain : c = '$' → reference? (first ++ text) = none := by
        rintro rfl
        obtain ⟨d, next, apart⟩ := inert first List.suffix_rfl
        have next' : (first ++ text).head? = some d := by
          rw [List.head?_append, next, Option.some_or]
        exact reference?_of_head? next' apart
      rw [List.cons_append, segments_cons plain, List.map_cons, List.cons_append,
        ih fun rest found => inert rest (found.trans (List.suffix_cons c first))]

/-! What some references are replaced by, and where in a text a name may begin or go on. -/

/-- What stands for a reference if its name may have a value. -/
def Reference.resolved (value : List Char → Option (List Char)) (r : Reference) : List Char :=
  (value r.name).getD r.text

def Segment.resolved (value : List Char → Option (List Char)) : Segment → List Segment
  | char c => [char c]
  | reference r =>
      match value r.name with
      | some text => text.map char
      | none => [reference r]

def separates (c : Char) : Bool :=
  !Text.isWordChar c && c != '\x7b' && c != '\x7d'

/-- At the end of a text a name may begin or go on. The name of a reference that is replaced does
not go on. -/
inductive Awaits (free : List Char → Prop) : List Char → Prop where
  | dollar (before : List Char) : Awaits free (before ++ ['$'])
  | brace (before : List Char) : Awaits free (before ++ ['$', '\x7b'])
  | bare (before : List Char) {name : List Char} (named : IsReferenceName name)
      (unvalued : free name) : Awaits free (before ++ '$' :: name)
  | braced (before : List Char) {name : List Char} (named : IsReferenceName name) :
      Awaits free (before ++ '$' :: '\x7b' :: name)

/-- Where a reference with a value stands behind a text at whose end a name may begin or go on, the
value begins with a character that keeps them apart. -/
def Apart (value : List Char → Option (List Char)) (text : List Char) : Prop :=
  ∀ before rest after r word, text = before ++ '$' :: rest → Refers rest r after →
    value r.name = some word → Awaits (fun name => value name = none) before →
      ∃ c, word.head? = some c ∧ separates c = true

variable {value : List Char → Option (List Char)}

theorem separates_eq_false_of_isWordChar {c : Char} (word : Text.isWordChar c = true) :
    separates c = false := by
  rw [separates, word]
  rfl

theorem Awaits.append {free : List Char → Prop} {before : List Char} (awaits : Awaits free before)
    (first : List Char) : Awaits free (first ++ before) := by
  cases awaits with
  | dollar before =>
      rw [← List.append_assoc]
      exact .dollar _
  | brace before =>
      rw [← List.append_assoc]
      exact .brace _
  | bare before named unvalued =>
      rw [← List.append_assoc]
      exact .bare _ named unvalued
  | braced before named =>
      rw [← List.append_assoc]
      exact .braced _ named

theorem Awaits.imp {free free' : List Char → Prop} {before : List Char}
    (awaits : Awaits free before) (each : ∀ name, free name → free' name) : Awaits free' before := by
  cases awaits with
  | dollar before => exact .dollar before
  | brace before => exact .brace before
  | bare before named unvalued => exact .bare before named (each _ unvalued)
  | braced before named => exact .braced before named

theorem Apart.of_append (first : List Char) {text : List Char}
    (apart : Apart value (first ++ text)) : Apart value text := by
  rintro before rest after r word rfl refers valued awaits
  exact apart (first ++ before) rest after r word (List.append_assoc _ _ _).symm refers valued
    (awaits.append first)

/-- What a text behind a place where a name may begin or go on begins with stays, unless that keeps
them apart anyway. -/
theorem head?_replaceReferences (before : List Char) {text : List Char}
    (apart : Apart value (before ++ text))
    (awaits : Awaits (fun name => value name = none) before) {c : Char}
    (joins : separates c = false) :
    (replaceReferences (Reference.resolved value) text).head? = some c ↔ text.head? = some c := by
  have others {d : Char} (separate : separates d = true) : d ≠ c := by
    rintro rfl
    rw [joins] at separate
    contradiction
  have dollar : '$' ≠ c := others (by decide)
  cases text with
  | nil =>
      rw [replaceReferences]
  | cons d rest =>
      by_cases plain : d = '$' → reference? rest = none
      · rw [replaceReferences_cons plain]
        exact Iff.rfl
      · obtain ⟨rfl, found⟩ := Classical.not_imp.1 plain
        obtain ⟨⟨r, after⟩, found⟩ := Option.ne_none_iff_exists'.1 found
        rw [replaceReferences_of_reference? found, Reference.resolved]
        refine iff_of_false ?_ fun same => dollar (Option.some.inj same)
        cases valued : value r.name with
        | none =>
            have text : ∃ more, r.text = '$' :: more := by
              unfold Reference.text
              split <;> exact ⟨_, rfl⟩
            obtain ⟨more, text⟩ := text
            rw [Option.getD_none, text]
            exact fun same => dollar (Option.some.inj same)
        | some word =>
            obtain ⟨e, first, separate⟩ := apart before rest after r word rfl
              (reference?_eq_some_iff.1 found) valued awaits
            rw [Option.getD_some, List.head?_append, first, Option.some_or]
            exact fun same => others separate (Option.some.inj same)

theorem beginsWithWordChar_eq_true_iff {text : List Char} :
    beginsWithWordChar text = true ↔ ∃ c, text.head? = some c ∧ Text.isWordChar c = true := by
  cases text with
  | nil => simp [beginsWithWordChar]
  | cons c text => simp [beginsWithWordChar]

theorem beginsWithWordChar_replaceReferences (before : List Char) {text : List Char}
    (apart : Apart value (before ++ text))
    (awaits : Awaits (fun name => value name = none) before) :
    beginsWithWordChar (replaceReferences (Reference.resolved value) text) =
      beginsWithWordChar text := by
  rw [Bool.eq_iff_iff, beginsWithWordChar_eq_true_iff, beginsWithWordChar_eq_true_iff]
  refine exists_congr fun c => and_congr_left fun word => ?_
  exact head?_replaceReferences before apart awaits (separates_eq_false_of_isWordChar word)

theorem IsReferenceName.dollar_notMem {name : List Char} (named : IsReferenceName name) :
    '$' ∉ name :=
  fun member => absurd (named.word '$' member) (by decide)

theorem IsReferenceName.lineEnd_notMem {name : List Char} (named : IsReferenceName name) :
    '\n' ∉ name :=
  fun member => absurd (named.word '\n' member) (by decide)

theorem Refers.exists_written {text after : List Char} {r : Reference}
    (refers : Refers text r after) :
    ∃ written, '$' ∉ written ∧ text = written ++ after ∧ r.text = '$' :: written := by
  cases refers with
  | braced named =>
      exact ⟨_, by simpa using named.dollar_notMem, by simp, rfl⟩
  | bare named ended => exact ⟨_, named.dollar_notMem, rfl, rfl⟩

theorem Refers.cons_eq_text_append {text after : List Char} {r : Reference}
    (refers : Refers text r after) : '$' :: text = r.text ++ after := by
  obtain ⟨written, -, rfl, shape⟩ := refers.exists_written
  rw [shape, List.cons_append]

theorem Refers.replaceReferences {text after : List Char} {r : Reference}
    (refers : Refers text r after) (apart : Apart value ('$' :: text))
    (unvalued : value r.name = none) :
    Refers (replaceReferences (Reference.resolved value) text) r
      (replaceReferences (Reference.resolved value) after) := by
  cases refers with
  | braced named =>
      rename_i name
      have dollarless : '$' ∉ '\x7b' :: (name ++ ['\x7d']) := by
        simpa using named.dollar_notMem
      have split : '\x7b' :: (name ++ '\x7d' :: after) = '\x7b' :: (name ++ ['\x7d']) ++ after := by
        simp
      rw [split, replaceReferences_append_of_notMem dollarless]
      simpa using Refers.braced named _
  | bare named ended =>
      rename_i name
      rw [replaceReferences_append_of_notMem named.dollar_notMem]
      refine .bare named ?_
      rw [beginsWithWordChar_replaceReferences ('$' :: name) apart
        (.bare [] named unvalued)]
      exact ended

theorem exists_name_of_isNameStart {c : Char} {text : List Char} (first : text.head? = some c)
    (starts : Shell.isNameStart c = true) :
    ∃ name after, text = name ++ after ∧ IsReferenceName name ∧
      beginsWithWordChar after = false := by
  obtain ⟨rest, rfl⟩ := List.head?_eq_some_iff.1 first
  exact ⟨_, _, referencedName?_eq_some_iff.1 (if_pos starts)⟩

theorem not_refers_replaceReferences {text : List Char}
    (unreferring : ∀ r after, ¬Refers text r after) (apart : Apart value ('$' :: text))
    (r : Reference) (after : List Char) :
    ¬Refers (replaceReferences (Reference.resolved value) text) r after := by
  intro refers
  generalize read : replaceReferences (Reference.resolved value) text = out at refers
  cases refers with
  | bare named ended =>
      rename_i name
      -- the text itself begins with a name, and that is a reference
      obtain ⟨c, name, rfl⟩ := List.exists_cons_of_ne_nil named.ne_nil
      have starts : Shell.isNameStart c = true := named.starts
      have kept := head?_replaceReferences ['$'] apart (.dollar [])
        (separates_eq_false_of_isWordChar (isWordChar_of_isNameStart starts))
      rw [read] at kept
      obtain ⟨name', after', rfl, named', ended'⟩ :=
        exists_name_of_isNameStart (kept.1 rfl) starts
      exact unreferring _ _ (.bare named' ended')
  | braced named =>
      rename_i name
      have kept := head?_replaceReferences ['$'] apart (.dollar [])
        (by decide : separates '\x7b' = false)
      rw [read] at kept
      obtain ⟨rest, rfl⟩ := List.head?_eq_some_iff.1 (kept.1 rfl)
      rw [replaceReferences_cons fun dollar => by contradiction] at read
      have body := (List.cons.inj read).2
      obtain ⟨c, first⟩ := Option.isSome_iff_exists.1 (List.isSome_head?.2 named.ne_nil)
      have starts : Shell.isNameStart c = true := by
        simpa [first] using named.starts
      have kept' := head?_replaceReferences ['$', '\x7b'] apart (.brace [])
        (separates_eq_false_of_isWordChar (isWordChar_of_isNameStart starts))
      rw [body, List.head?_append, first] at kept'
      obtain ⟨name', after', rfl, named', ended'⟩ :=
        exists_name_of_isNameStart (kept'.1 rfl) starts
      -- both names are as long as they can be, so they are the same
      rw [replaceReferences_append_of_notMem named'.dollar_notMem] at body
      have behind : Awaits (fun name => value name = Option.none) ('$' :: '\x7b' :: name') :=
        .braced [] named'
      have ended := (beginsWithWordChar_replaceReferences
        ('$' :: '\x7b' :: name') apart behind).trans ended'
      have found := referencedName?_eq_some_iff.2 ⟨body.symm, named', ended⟩
      have found' : referencedName? (name ++ '\x7d' :: after) = some (name, '\x7d' :: after) :=
        referencedName?_eq_some_iff.2 ⟨rfl, named, (by decide : Text.isWordChar '\x7d' = false)⟩
      rw [found] at found'
      have closed := (Prod.mk.inj (Option.some.inj found')).2
      have kept'' := head?_replaceReferences ('$' :: '\x7b' :: name') apart behind
        (by decide : separates '\x7d' = false)
      rw [closed] at kept''
      obtain ⟨rest, rfl⟩ := List.head?_eq_some_iff.1 (kept''.1 rfl)
      exact unreferring _ _ (.braced named' rest)

theorem segments_replaceReferences
    (inert : ∀ name word, value name = some word → Inert word) {text : List Char}
    (apart : Apart value text) :
    segments (replaceReferences (Reference.resolved value) text) =
      (segments text).flatMap (Segment.resolved value) := by
  induction text using segments.induct with
  | case1 =>
      rw [replaceReferences, segments]
      rfl
  | case2 text r after found ih =>
      have refers := reference?_eq_some_iff.1 found
      have ih := ih (.of_append _ (refers.cons_eq_text_append ▸ apart))
      rw [replaceReferences_of_reference? found, segments_of_reference? found, List.flatMap_cons,
        ← ih, Reference.resolved, Segment.resolved]
      cases valued : value r.name with
      | none =>
          have still := refers.replaceReferences apart valued
          rw [Option.getD_none, ← still.cons_eq_text_append,
            segments_of_reference? (reference?_eq_some_iff.2 still)]
          rfl
      | some word =>
          exact segments_append_of_inert (inert r.name word valued) _
  | case3 text unread ih =>
      have ih := ih (.of_append ['$'] apart)
      have unread' := reference?_eq_none_iff.2
        (not_refers_replaceReferences (reference?_eq_none_iff.1 unread) apart)
      rw [replaceReferences_cons fun _ => unread, segments_cons fun _ => unread',
        segments_cons fun _ => unread, List.flatMap_cons, ih]
      rfl
  | case4 c text notDollar ih =>
      have ih := ih (.of_append [c] apart)
      rw [replaceReferences_cons fun dollar => absurd dollar notDollar,
        segments_cons fun dollar => absurd dollar notDollar,
        segments_cons fun dollar => absurd dollar notDollar, List.flatMap_cons, ih]
      rfl

/-- Two replacements one after the other are one, if no value that the first puts in is read again. -/
theorem replaceReferences_replaceReferences
    (inert : ∀ name word, value name = some word → Inert word) {text : List Char}
    (apart : Apart value text) (last : Reference → List Char) :
    replaceReferences last (replaceReferences (Reference.resolved value) text) =
      replaceReferences (fun r => (value r.name).getD (last r)) text := by
  rw [replaceReferences_eq_flatMap, segments_replaceReferences inert apart, List.flatMap_assoc,
    replaceReferences_eq_flatMap]
  congr 1
  funext segment
  cases segment with
  | char c => rfl
  | reference r =>
      simp only [Segment.resolved, Segment.replaced]
      cases value r.name with
      | none => simp [Segment.replaced]
      | some word => simp [List.flatMap_map, Segment.replaced]

theorem references_replaceReferences
    (inert : ∀ name word, value name = some word → Inert word) {text : List Char}
    (apart : Apart value text) :
    references (replaceReferences (Reference.resolved value) text) =
      (references text).filter fun r => (value r.name).isNone := by
  have plain (word : List Char) : (word.map Segment.char).filterMap Segment.reference? = [] := by
    rw [List.filterMap_eq_nil_iff]
    intro segment member
    obtain ⟨c, -, rfl⟩ := List.mem_map.1 member
    rfl
  rw [references, segments_replaceReferences inert apart, references, List.filterMap_flatMap,
    List.filterMap_eq_flatMap_toList, List.filter_flatMap]
  refine List.flatMap_congr fun segment _ => ?_
  cases segment with
  | char c => rfl
  | reference r =>
      simp only [Segment.resolved, Segment.reference?, Option.toList_some, List.filter_singleton]
      cases value r.name with
      | none => rfl
      | some word => exact plain word

end PkgRecipe.Recipe
