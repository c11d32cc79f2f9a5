import PkgRecipe.Proofs.Recipe.Segments
import PkgRecipe.Shell.Name

namespace PkgRecipe.Recipe

/-! A text as a shell reads it from left to right, with its special parameters, against a
substitution, which searches the text for references. The two agree unless a reference that is found
runs from one thing that the shell reads into the next: at a pair of dollar signs, or at a name that
the shell ends in front of a word character. -/

/-- Whether a character and a dollar sign in front of it are a special parameter. -/
def isSpecial (c : Char) : Bool :=
  "$@*#?!-0123456789".toList.contains c

/-- What a shell reads as one. -/
inductive Lexeme where
  | special (c : Char)
  | reference (r : Reference)
  | char (c : Char)
deriving DecidableEq

namespace Lexeme

def text : Lexeme → List Char
  | special c => ['$', c]
  | reference r => r.text
  | char c => [c]

def rendered : Lexeme → List Char
  | special c => ['$', c]
  | reference r => interpolation r
  | char c => [c]

end Lexeme

/-- The longest name at the start of a text, and what follows it. The characters that names go on
with are a parameter: those of the shell are ASCII, those of references may be of any script. -/
def longestName? (goesOn : Char → Bool) : List Char → Option (List Char × List Char)
  | [] => none
  | c :: rest =>
      if Shell.isNameStart c then some (c :: rest.takeWhile goesOn, rest.dropWhile goesOn)
      else none

/-- What a shell reads at a dollar sign, which was taken from the text, and what follows it. -/
def dollarLexeme? (goesOn : Char → Bool) : List Char → Option (Lexeme × List Char)
  | [] => none
  | '\x7b' :: rest =>
      match longestName? goesOn rest with
      | some (name, '\x7d' :: after) => some (.reference ⟨name, true⟩, after)
      | _ => none
  | c :: rest =>
      if isSpecial c then some (.special c, rest)
      else
        (longestName? goesOn (c :: rest)).map fun (name, after) => (.reference ⟨name, false⟩, after)

variable {goesOn : Char → Bool}

structure IsLongestName (goesOn : Char → Bool) (name after : List Char) : Prop where
  starts : name.head?.any Shell.isNameStart = true
  parts : ∀ c ∈ name.tail, goesOn c = true
  ended : ∀ c ∈ after.head?, goesOn c = false

private theorem longestName?_eq_some {text name after : List Char}
    (found : longestName? goesOn text = some (name, after)) :
    text = name ++ after ∧ IsLongestName goesOn name after := by
  cases text with
  | nil => contradiction
  | cons c text =>
      rw [longestName?] at found
      split at found
      · rename_i starts
        obtain ⟨rfl, rfl⟩ := Prod.mk.inj (Option.some.inj found)
        refine ⟨?_, starts, fun d member => List.mem_takeWhile_imp member, fun d first => ?_⟩
        · rw [List.cons_append, List.takeWhile_append_dropWhile]
        · have ended := List.head?_dropWhile_not goesOn text
          rw [Option.mem_def.1 first] at ended
          exact ended
      · contradiction

/-- A lexeme that a dollar sign begins, with the text behind the sign and what is left of it. -/
inductive Opens (goesOn : Char → Bool) : Lexeme → List Char → List Char → Prop where
  | special {c : Char} (special : isSpecial c = true) (after : List Char) :
      Opens goesOn (.special c) (c :: after) after
  | braced {name after : List Char} (named : IsLongestName goesOn name ('\x7d' :: after)) :
      Opens goesOn (.reference ⟨name, true⟩) ('\x7b' :: (name ++ '\x7d' :: after)) after
  | bare {name after : List Char} (named : IsLongestName goesOn name after) :
      Opens goesOn (.reference ⟨name, false⟩) (name ++ after) after

theorem opens_of_dollarLexeme? {text after : List Char} {l : Lexeme}
    (found : dollarLexeme? goesOn text = some (l, after)) : Opens goesOn l text after := by
  unfold dollarLexeme? at found
  split at found
  · contradiction
  · split at found
    · rename_i read
      obtain ⟨rfl, rfl⟩ := Prod.mk.inj (Option.some.inj found)
      obtain ⟨rfl, named⟩ := longestName?_eq_some read
      exact .braced named
    · contradiction
  · split at found
    · rename_i special
      obtain ⟨rfl, rfl⟩ := Prod.mk.inj (Option.some.inj found)
      exact .special special _
    · obtain ⟨⟨name, rest⟩, read, same⟩ := Option.map_eq_some_iff.1 found
      obtain ⟨rfl, rfl⟩ := Prod.mk.inj same
      obtain ⟨whole, named⟩ := longestName?_eq_some read
      rw [whole]
      exact .bare named

theorem Opens.cons_eq_text_append {l : Lexeme} {text after : List Char}
    (opens : Opens goesOn l text after) : '$' :: text = l.text ++ after := by
  cases opens with
  | special special after => rfl
  | braced named => simp [Lexeme.text, Reference.text]
  | bare named => rfl

theorem Opens.length {l : Lexeme} {text after : List Char} (opens : Opens goesOn l text after) :
    after.length ≤ text.length := by
  cases opens with
  | special special after => simp
  | braced named =>
      simp only [List.length_cons, List.length_append]
      omega
  | bare named => simp

def lexemes (goesOn : Char → Bool) : List Char → List Lexeme
  | [] => []
  | c :: rest =>
      if c = '$' then
        match _found : dollarLexeme? goesOn rest with
        | some (l, after) => l :: lexemes goesOn after
        | none => .char c :: lexemes goesOn rest
      else .char c :: lexemes goesOn rest
termination_by text => text.length
decreasing_by
  · have := (opens_of_dollarLexeme? _found).length
    simp only [List.length_cons]
    omega
  all_goals simp

theorem lexemes_cons {c : Char} {text : List Char}
    (plain : c = '$' → dollarLexeme? goesOn text = none) :
    lexemes goesOn (c :: text) = .char c :: lexemes goesOn text := by
  rw [lexemes]
  split
  · rename_i dollar
    split
    · rename_i found
      rw [plain dollar] at found
      contradiction
    · rfl
  · rfl

theorem lexemes_of_dollarLexeme? {text after : List Char} {l : Lexeme}
    (found : dollarLexeme? goesOn text = some (l, after)) :
    lexemes goesOn ('$' :: text) = l :: lexemes goesOn after := by
  rw [lexemes, if_pos rfl]
  split
  · rename_i same
    rw [found] at same
    obtain ⟨rfl, rfl⟩ := Prod.mk.inj (Option.some.inj same)
    rfl
  · rename_i failed
    rw [found] at failed
    contradiction

theorem lexemes_flatMap_text (text : List Char) :
    (lexemes goesOn text).flatMap Lexeme.text = text := by
  induction text using lexemes.induct goesOn with
  | case1 =>
      rw [lexemes]
      rfl
  | case2 text l after found ih =>
      rw [lexemes_of_dollarLexeme? found, List.flatMap_cons, ih,
        (opens_of_dollarLexeme? found).cons_eq_text_append]
  | case3 text unread ih =>
      rw [lexemes_cons fun _ => unread, List.flatMap_cons, ih]
      rfl
  | case4 c text notDollar ih =>
      rw [lexemes_cons fun dollar => absurd dollar notDollar, List.flatMap_cons, ih]
      rfl

/-- How a lexeme is read at the start of a text, and what is left behind it. -/
inductive ReadAt (goesOn : Char → Bool) : Lexeme → List Char → List Char → Prop where
  | opened {l : Lexeme} {text after : List Char} (opens : Opens goesOn l text after) :
      ReadAt goesOn l ('$' :: text) after
  | char {c : Char} {after : List Char} (plain : c = '$' → dollarLexeme? goesOn after = none) :
      ReadAt goesOn (.char c) (c :: after) after

theorem exists_readAt {text : List Char} {l : Lexeme} {behind : List Lexeme}
    (found : l :: behind <:+ lexemes goesOn text) :
    ∃ rest after, rest <:+ text ∧ ReadAt goesOn l rest after ∧
      behind.flatMap Lexeme.text = after := by
  induction text using lexemes.induct goesOn with
  | case1 =>
      rw [lexemes] at found
      exact absurd (List.suffix_nil.1 found) (List.cons_ne_nil _ _)
  | case2 text l' after read ih =>
      have opens := opens_of_dollarLexeme? read
      rw [lexemes_of_dollarLexeme? read, List.suffix_cons_iff] at found
      rcases found with here | later
      · obtain ⟨rfl, rfl⟩ := List.cons.inj here
        exact ⟨_, after, List.suffix_rfl, .opened opens, lexemes_flatMap_text after⟩
      · obtain ⟨rest, after', within, read⟩ := ih later
        refine ⟨rest, after', within.trans ?_, read⟩
        rw [opens.cons_eq_text_append]
        exact List.suffix_append _ _
  | case3 text unread ih =>
      rw [lexemes_cons fun _ => unread, List.suffix_cons_iff] at found
      rcases found with here | later
      · obtain ⟨rfl, rfl⟩ := List.cons.inj here
        exact ⟨_, text, List.suffix_rfl, .char fun _ => unread, lexemes_flatMap_text text⟩
      · obtain ⟨rest, after', within, read⟩ := ih later
        exact ⟨rest, after', within.trans (List.suffix_cons _ _), read⟩
  | case4 c text notDollar ih =>
      have plain : c = '$' → dollarLexeme? goesOn text = none := fun dollar =>
        absurd dollar notDollar
      rw [lexemes_cons plain, List.suffix_cons_iff] at found
      rcases found with here | later
      · obtain ⟨rfl, rfl⟩ := List.cons.inj here
        exact ⟨_, text, List.suffix_rfl, .char plain, lexemes_flatMap_text text⟩
      · obtain ⟨rest, after', within, read⟩ := ih later
        exact ⟨rest, after', within.trans (List.suffix_cons _ _), read⟩

private theorem opensReference_of_isSpecial {c : Char} (special : isSpecial c = true) :
    opensReference c = false := by
  have each : "$@*#?!-0123456789".toList.all (fun d => !opensReference d) = true := by decide
  simpa using List.all_eq_true.1 each c (List.contains_iff_mem.1 special)

theorem IsLongestName.isReferenceName (word : ∀ c, goesOn c = true → Text.isWordChar c = true)
    {name after : List Char} (named : IsLongestName goesOn name after) : IsReferenceName name := by
  refine ⟨named.starts, fun c member => ?_⟩
  cases name with
  | nil => contradiction
  | cons first rest =>
      rcases List.mem_cons.1 member with rfl | later
      · exact isWordChar_of_isNameStart named.starts
      · exact word c (named.parts c later)

private theorem refers_append_takeWhile {name : List Char} (named : IsReferenceName name)
    (behind : List Char) :
    Refers (name ++ behind) ⟨name ++ behind.takeWhile Text.isWordChar, false⟩
      (behind.dropWhile Text.isWordChar) := by
  obtain ⟨c, rest, rfl⟩ := List.exists_cons_of_ne_nil named.ne_nil
  have longer : IsReferenceName (c :: rest ++ behind.takeWhile Text.isWordChar) := by
    refine ⟨named.starts, fun d member => ?_⟩
    exact (List.mem_append.1 member).elim (named.word d) fun later => List.mem_takeWhile_imp later
  have ended : beginsWithWordChar (behind.dropWhile Text.isWordChar) = false := by
    rw [← Bool.not_eq_true, beginsWithWordChar_eq_true_iff]
    rintro ⟨d, first, word⟩
    have stops := List.head?_dropWhile_not Text.isWordChar behind
    rw [first] at stops
    exact Bool.false_ne_true (stops.symm.trans word)
  have split : c :: rest ++ behind = c :: rest ++ behind.takeWhile Text.isWordChar ++
      behind.dropWhile Text.isWordChar := by
    rw [List.append_assoc, List.takeWhile_append_dropWhile]
  rw [split]
  exact .bare longer ended

namespace Lexeme

/-- A special parameter has one of the special characters, and a reference has a name. -/
def IsSound : Lexeme → Prop
  | special c => isSpecial c = true
  | reference r => IsReferenceName r.name
  | char _ => True

/-- A search for references finds one that runs from a lexeme into the text behind it. -/
inductive Joins : Lexeme → List Char → Prop where
  | pair {r : Reference} {behind after : List Char} (refers : Refers behind r after) :
      Joins (special '$') behind
  | dollar {r : Reference} {behind after : List Char} (refers : Refers behind r after) :
      Joins (char '$') behind
  | name (name : List Char) {behind : List Char} (longer : beginsWithWordChar behind = true) :
      Joins (reference ⟨name, false⟩) behind

variable {l : Lexeme}

theorem replaceReferences_text_append (sound : l.IsSound) {behind : List Char}
    (alone : ¬l.Joins behind) :
    replaceReferences interpolation (l.text ++ behind) =
      l.rendered ++ replaceReferences interpolation behind := by
  cases l with
  | special c =>
      have unread : reference? (c :: behind) = none :=
        reference?_of_head? rfl (opensReference_of_isSpecial sound)
      have plain : c = '$' → reference? behind = Option.none := by
        rintro rfl
        exact reference?_eq_none_iff.2 fun _ _ refers => alone (.pair refers)
      exact (replaceReferences_cons fun _ => unread).trans
        (congrArg ('$' :: ·) (replaceReferences_cons plain))
  | reference r =>
      have refers : ∃ text, r.text ++ behind = '$' :: text ∧ Refers text r behind := by
        obtain ⟨name, braced⟩ := r
        cases braced with
        | true =>
            refine ⟨'\x7b' :: (name ++ '\x7d' :: behind), ?_, .braced sound behind⟩
            simp [Reference.text]
        | false =>
            refine ⟨name ++ behind, rfl, .bare sound ?_⟩
            rw [← Bool.not_eq_true]
            exact fun longer => alone (.name name longer)
      obtain ⟨text, whole, refers⟩ := refers
      rw [Lexeme.text, whole, replaceReferences_of_reference? (reference?_eq_some_iff.2 refers),
        rendered]
  | char c =>
      refine replaceReferences_cons ?_
      rintro rfl
      exact reference?_eq_none_iff.2 fun _ _ refers => alone (.dollar refers)

private theorem replaceReferences_text_append_ne (sound : l.IsSound) {behind : List Char}
    (joins : l.Joins behind) (out : List Char) :
    replaceReferences interpolation (l.text ++ behind) ≠ l.rendered ++ out := by
  cases joins with
  | pair refers =>
      have unread : reference? ('$' :: behind) = none := reference?_of_head? rfl (by decide)
      show replaceReferences interpolation ('$' :: '$' :: behind) ≠ _
      rw [replaceReferences_cons fun _ => unread,
        replaceReferences_of_reference? (reference?_eq_some_iff.2 refers)]
      exact fun same => absurd (List.cons.inj (List.cons.inj same).2).1 (by decide)
  | dollar refers =>
      show replaceReferences interpolation ('$' :: behind) ≠ _
      rw [replaceReferences_of_reference? (reference?_eq_some_iff.2 refers)]
      exact fun same => absurd (List.cons.inj same).1 (by decide)
  | name name longer =>
      -- the reference that is found has a longer name, so its interpolation ends later
      obtain ⟨c, first, word⟩ := beginsWithWordChar_eq_true_iff.1 longer
      obtain ⟨rest, rfl⟩ := List.head?_eq_some_iff.1 first
      have refers := refers_append_takeWhile sound (c :: rest)
      show replaceReferences interpolation ('$' :: (name ++ c :: rest)) ≠ _
      rw [replaceReferences_of_reference? (reference?_eq_some_iff.2 refers),
        List.takeWhile_cons_of_pos word]
      simp only [interpolation, rendered, List.append_assoc]
      intro same
      have behind := List.append_cancel_left (List.append_cancel_left same)
      have closes : c = '\x7d' := (List.cons.inj behind).1
      rw [closes] at word
      exact absurd word (by decide)

end Lexeme

/-- None of the lexemes is joined with the text that stands behind it. -/
def Unjoined (ls : List Lexeme) (tail : List Char) : Prop :=
  ∀ l behind, l :: behind <:+ ls → ¬l.Joins (behind.flatMap Lexeme.text ++ tail)

theorem unjoined_cons {l : Lexeme} {ls : List Lexeme} {tail : List Char} :
    Unjoined (l :: ls) tail ↔ ¬l.Joins (ls.flatMap Lexeme.text ++ tail) ∧ Unjoined ls tail := by
  constructor
  · intro unjoined
    exact ⟨unjoined l ls List.suffix_rfl, fun l' behind found =>
      unjoined l' behind (found.trans (List.suffix_cons l ls))⟩
  · rintro ⟨here, later⟩ l' behind found
    rcases List.suffix_cons_iff.1 found with same | found
    · obtain ⟨rfl, rfl⟩ := List.cons.inj same
      exact here
    · exact later l' behind found

theorem replaceReferences_append_of_unjoined {ls : List Lexeme}
    (sound : ∀ l ∈ ls, l.IsSound) {tail : List Char} (unjoined : Unjoined ls tail) :
    replaceReferences interpolation (ls.flatMap Lexeme.text ++ tail) =
      ls.flatMap Lexeme.rendered ++ replaceReferences interpolation tail := by
  induction ls with
  | nil => rfl
  | cons l ls ih =>
      obtain ⟨alone, unjoined⟩ := unjoined_cons.1 unjoined
      rw [List.flatMap_cons, List.append_assoc,
        Lexeme.replaceReferences_text_append (sound l List.mem_cons_self) alone,
        ih (fun l' member => sound l' (List.mem_cons_of_mem l member)) unjoined,
        List.flatMap_cons, List.append_assoc]

/-- A row of lexemes is rendered one by one exactly if none is joined with what stands behind it. -/
theorem replaceReferences_eq_rendered_iff {ls : List Lexeme} (sound : ∀ l ∈ ls, l.IsSound) :
    replaceReferences interpolation (ls.flatMap Lexeme.text) = ls.flatMap Lexeme.rendered ↔
      Unjoined ls [] := by
  constructor
  · intro same
    induction ls with
    | nil => exact fun l behind found => absurd (List.suffix_nil.1 found) (List.cons_ne_nil _ _)
    | cons l ls ih =>
        have here := sound l List.mem_cons_self
        rw [List.flatMap_cons, List.flatMap_cons] at same
        rw [unjoined_cons, List.append_nil]
        have alone : ¬l.Joins (ls.flatMap Lexeme.text) := fun joins =>
          Lexeme.replaceReferences_text_append_ne here joins _ same
        rw [Lexeme.replaceReferences_text_append here alone] at same
        exact ⟨alone, ih (fun l' member => sound l' (List.mem_cons_of_mem l member))
          (List.append_cancel_left same)⟩
  · intro unjoined
    have whole := replaceReferences_append_of_unjoined sound unjoined
    rwa [List.append_nil, replaceReferences, List.append_nil] at whole

section Reading

variable (word : ∀ c, goesOn c = true → Text.isWordChar c = true) {text : List Char}

include word

theorem isSound_of_mem_lexemes {l : Lexeme} (member : l ∈ lexemes goesOn text) : l.IsSound := by
  obtain ⟨before, behind, whole⟩ := List.append_of_mem member
  obtain ⟨rest, after, -, read, -⟩ := exists_readAt ⟨before, whole.symm⟩
  cases read with
  | opened opens =>
      cases opens with
      | special special => exact special
      | braced named => exact named.isReferenceName word
      | bare named => exact named.isReferenceName word
  | char plain => trivial

private theorem dollarLexeme?_ne_none_of_refers {after : List Char}
    (all : ∀ c ∈ text, Text.isWordChar c = true → goesOn c = true)
    {r : Reference} (refers : Refers text r after) : dollarLexeme? goesOn text ≠ none := by
  cases refers with
  | braced named =>
      rename_i name
      obtain ⟨c, name, rfl⟩ := List.exists_cons_of_ne_nil named.ne_nil
      have starts : Shell.isNameStart c = true := named.starts
      have parts : ∀ d ∈ name, goesOn d = true := fun d member =>
        all d (by simp [member]) (named.word d (List.mem_cons_of_mem c member))
      have closes : ¬goesOn '\x7d' = true := fun more => absurd (word _ more) (by decide)
      have read : longestName? goesOn (c :: (name ++ '\x7d' :: after)) =
          some (c :: name, '\x7d' :: after) := by
        rw [longestName?, if_pos starts, List.takeWhile_append_of_pos parts,
          List.dropWhile_append_of_pos parts, List.takeWhile_cons_of_neg closes,
          List.dropWhile_cons_of_neg closes, List.append_nil]
      simp [dollarLexeme?, read]
  | bare named ended =>
      rename_i name
      obtain ⟨c, name, rfl⟩ := List.exists_cons_of_ne_nil named.ne_nil
      have starts : Shell.isNameStart c = true := named.starts
      rw [List.cons_append]
      unfold dollarLexeme?
      split
      · contradiction
      · rename_i opened
        obtain rfl := (List.cons.inj opened).1
        contradiction
      · rename_i same
        obtain ⟨rfl, rfl⟩ := List.cons.inj same
        split
        · exact Option.some_ne_none _
        · rw [longestName?, if_pos starts]
          exact Option.some_ne_none _

/-- If names go on with all word characters of the text, a lexeme that is joined with what stands
behind it is a pair of dollar signs. -/
private theorem eq_special_of_joins (all : ∀ c ∈ text, Text.isWordChar c = true → goesOn c = true)
    {l : Lexeme} {behind : List Lexeme} (found : l :: behind <:+ lexemes goesOn text)
    (joins : l.Joins (behind.flatMap Lexeme.text)) : l = .special '$' := by
  obtain ⟨rest, after, within, read, rfl⟩ := exists_readAt found
  cases joins with
  | pair refers => rfl
  | dollar refers =>
      cases read with
      | opened opens => nomatch opens
      | char plain =>
          have all' : ∀ c ∈ behind.flatMap Lexeme.text, Text.isWordChar c = true →
              goesOn c = true :=
            fun c member => all c (within.subset (List.mem_cons_of_mem _ member))
          exact absurd (plain rfl) (dollarLexeme?_ne_none_of_refers word all' refers)
  | name name longer =>
      obtain ⟨c, first, isWord⟩ := beginsWithWordChar_eq_true_iff.1 longer
      cases read with
      | opened opens =>
          have member : c ∈ text := by
            refine within.subset ?_
            rw [opens.cons_eq_text_append]
            exact List.mem_append_right _ (List.mem_of_mem_head? first)
          cases opens with
          | bare named =>
              have stops := named.ended c first
              rw [all c member isWord] at stops
              contradiction

end Reading

/-- A substitution without a table leaves special parameters and plain text as they are and replaces
the references, all as a shell reads them, unless a lexeme is joined with what stands behind it. If
names go on with all word characters of the text, that is where a pair of dollar signs stands in
front of a reference: the first dollar sign stays then, and the reference is replaced. -/
theorem substitute_lexemes (word : ∀ c, goesOn c = true → Text.isWordChar c = true)
    (text : List Char) :
    let ls := lexemes goesOn text
    ls.flatMap Lexeme.text = text ∧
      (substitute [] text = ls.flatMap Lexeme.rendered ↔ Unjoined ls []) ∧
      ((∀ c ∈ text, Text.isWordChar c = true → goesOn c = true) →
        (substitute [] text = ls.flatMap Lexeme.rendered ↔ ∀ behind, .special '$' :: behind <:+ ls →
          reference? (behind.flatMap Lexeme.text) = none)) ∧
      ∀ before behind r after, ls = before ++ .special '$' :: behind →
        Unjoined before ('$' :: '$' :: behind.flatMap Lexeme.text) →
        reference? (behind.flatMap Lexeme.text) = some (r, after) →
        substitute [] text =
          before.flatMap Lexeme.rendered ++ '$' :: (interpolation r ++ substitute [] after) := by
  intro ls
  have whole : ls.flatMap Lexeme.text = text := lexemes_flatMap_text text
  have sound : ∀ l ∈ ls, l.IsSound := fun l => isSound_of_mem_lexemes word
  have rendered : substitute [] text = ls.flatMap Lexeme.rendered ↔ Unjoined ls [] := by
    rw [← replaceReferences_eq_rendered_iff sound, whole]
    rfl
  refine ⟨whole, rendered, fun all => rendered.trans ⟨?_, ?_⟩, ?_⟩
  · intro unjoined behind found
    rw [reference?_eq_none_iff]
    intro r after refers
    refine unjoined _ behind found ?_
    rw [List.append_nil]
    exact .pair refers
  · intro pairs l behind found joins
    rw [List.append_nil] at joins
    obtain rfl := eq_special_of_joins word all found joins
    cases joins with
    | pair refers => exact reference?_eq_none_iff.1 (pairs behind found) _ _ refers
  · intro before behind r after split unjoined found
    have sound' : ∀ l ∈ before, l.IsSound := fun l member =>
      sound l (split ▸ List.mem_append_left _ member)
    have unread : reference? ('$' :: behind.flatMap Lexeme.text) = Option.none :=
      reference?_of_head? rfl (by decide)
    have text' : text = before.flatMap Lexeme.text ++ '$' :: '$' :: behind.flatMap Lexeme.text := by
      rw [← whole, split, List.flatMap_append]
      rfl
    show replaceReferences interpolation text = _
    rw [text', replaceReferences_append_of_unjoined sound' unjoined,
      replaceReferences_cons fun _ => unread, replaceReferences_of_reference? found]
    rfl

theorem substitute_lexemes_shell :
    let text := "$1 \"$@\" $\x7b10\x7d $$ $?$$$a_1$#$\x7bb\x7d-$-2 $".toList
    let out := "$1 \"$@\" $\x7b10\x7d $$ $?$$#\x7b@_a_1\x7d$##\x7b@_b\x7d-$-2 $".toList
    let glued := "$!$$a$b".toList
    (∀ c, Shell.isNameChar c = true → Text.isWordChar c = true) ∧
      (∀ c ∈ text, Text.isWordChar c = true → Shell.isNameChar c = true) ∧
      (lexemes Shell.isNameChar text).flatMap Lexeme.rendered = out ∧ substitute [] text = out ∧
      Unjoined (lexemes Shell.isNameChar text) [] ∧
      (∀ behind, .special '$' :: behind <:+ lexemes Shell.isNameChar text →
        reference? (behind.flatMap Lexeme.text) = none) ∧
      lexemes Shell.isNameChar glued =
        [.special '!'] ++ .special '$' :: [.char 'a', .reference ⟨['b'], false⟩] ∧
      Unjoined [.special '!'] "$$a$b".toList ∧
      reference? "a$b".toList = some (⟨['a'], false⟩, "$b".toList) ∧
      substitute [] glued = "$!$#\x7b@_a\x7d#\x7b@_b\x7d".toList := by
  intro text out glued
  have word : ∀ c, Shell.isNameChar c = true → Text.isWordChar c = true :=
    fun c => Text.isWordChar_of_isAsciiWord
  have each : text.all (fun c => !Text.isWordChar c || Shell.isNameChar c) = true := by
    decide +kernel
  have all : ∀ c ∈ text, Text.isWordChar c = true → Shell.isNameChar c = true := by
    intro c member isWord
    simpa [isWord] using List.all_eq_true.1 each c member
  have rendered : (lexemes Shell.isNameChar text).flatMap Lexeme.rendered = out := by
    decide +kernel
  have same : substitute [] text = out := by decide +kernel
  obtain ⟨-, alone, pairs, -⟩ := substitute_lexemes word text
  have apart := (pairs all).1 (same.trans rendered.symm)
  have read : lexemes Shell.isNameChar glued =
      [.special '!'] ++ .special '$' :: [.char 'a', .reference ⟨['b'], false⟩] := by
    decide +kernel
  have unjoined : Unjoined [.special '!'] "$$a$b".toList := by
    rw [unjoined_cons]
    refine ⟨nofun, fun l behind found => ?_⟩
    exact absurd (List.suffix_nil.1 found) (List.cons_ne_nil _ _)
  have refers : reference? "a$b".toList = some (⟨['a'], false⟩, "$b".toList) := by decide +kernel
  obtain ⟨-, -, -, broken⟩ := substitute_lexemes word glued
  have result := broken _ _ _ _ read unjoined refers
  have rest : substitute [] "$b".toList = "#\x7b@_b\x7d".toList := by decide +kernel
  rw [rest] at result
  exact ⟨word, all, rendered, same, alone.1 (same.trans rendered.symm), apart, read, unjoined,
    refers, result⟩

/-- A pair of dollar signs in front of a name is not left alone. -/
theorem substitute_dollarPair :
    let text := "$$foo".toList
    lexemes Shell.isNameChar text = [.special '$', .char 'f', .char 'o', .char 'o'] ∧
      (lexemes Shell.isNameChar text).flatMap Lexeme.rendered = text ∧
      substitute [] text = "$#\x7b@_foo\x7d".toList ∧ substitute [] text ≠ text := by
  decide +kernel

end PkgRecipe.Recipe
