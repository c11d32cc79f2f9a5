import PkgRecipe.Proofs.Shell.Reading
import PkgRecipe.Shell.Expansion

namespace PkgRecipe.Shell

/-! What a text without expansions keeps of the text it was made from. Read side by side, the two
stand in the same quoting, except behind a dollar sign that got a backslash. -/

theorem opensQuote_iff {mode : Mode} {rest : List Char} :
    opensQuote mode rest = true ↔
      mode ≠ .doubleQuote ∧
        ∃ mark after, rest = mark :: after ∧ (mark = '\'' ∨ mark = '"') := by
  constructor
  · intro opens
    unfold opensQuote at opens
    split at opens
    · rename_i after
      exact ⟨by simpa using opens, '\'', after, rfl, Or.inl rfl⟩
    · rename_i after
      exact ⟨by simpa using opens, '"', after, rfl, Or.inr rfl⟩
    · contradiction
  · rintro ⟨outside, mark, after, rfl, rfl | rfl⟩ <;> simpa [opensQuote] using outside

theorem isExpansion_iff {mode : Mode} {c : Char} {rest : List Char} :
    isExpansion mode c rest = true ↔
      mode.expands = true ∧ (c = '\x60' ∨ c = '$' ∧ opensQuote mode rest = false) := by
  simp [isExpansion]

private theorem expands_of_escapePending {mode : Mode} (pending : mode.escapePending = true) :
    mode.expands = false := by
  cases mode <;> first | contradiction | rfl

namespace Quoting

theorem escapePending_next_backslash {q : Quoting} (expands : q.mode.expands = true) :
    (q.next '\\').mode.escapePending = true := by
  obtain ⟨mode, depth⟩ := q
  cases mode <;> first | contradiction | rfl

private theorem role_backslash {q : Quoting} (expands : q.mode.expands = true) :
    (q.step '\\').2 = .escape := by
  obtain ⟨mode, depth⟩ := q
  cases mode <;> first | contradiction | rfl

private theorem role_of_escapePending {q : Quoting} (pending : q.mode.escapePending = true) (c : Char) :
    (q.step c).2 = .literal := by
  obtain ⟨mode, depth⟩ := q
  cases mode <;> first | contradiction | rfl

private theorem role_of_isExpansion {q : Quoting} {c : Char} {rest : List Char}
    (expansion : isExpansion q.mode c rest = true) : (q.step c).2 = .literal := by
  obtain ⟨expands, written⟩ := isExpansion_iff.1 expansion
  obtain ⟨mode, depth⟩ := q
  cases mode <;> first | contradiction | rcases written with rfl | ⟨rfl, -⟩ <;> rfl

end Quoting

/-- `escaped` is the quoting of a text without expansions where the text it was made from has the
quoting `q` and goes on with `rest`. -/
inductive Tracks (rest : List Char) : (q escaped : Quoting) → Prop where
  | same (q : Quoting) : Tracks rest q q
  | escapedDollar (depth : Nat) (opensNone : opensQuote .dollar rest = false) :
      Tracks rest ⟨.dollar, depth⟩ ⟨.normal, depth⟩

namespace Tracks

variable {q escaped : Quoting} {c : Char} {rest : List Char}

theorem depth_eq (tracks : Tracks rest q escaped) : escaped.depth = q.depth := by
  cases tracks <;> rfl

theorem mode_eq (tracks : Tracks rest q escaped) :
    escaped.mode = q.mode ∨ q.mode = .dollar ∧ escaped.mode = .normal := by
  cases tracks with
  | same => exact Or.inl rfl
  | escapedDollar => exact Or.inr ⟨rfl, rfl⟩

theorem isOpen_eq (tracks : Tracks rest q escaped) : escaped.isOpen = q.isOpen := by
  cases tracks <;> rfl

theorem expands_eq (tracks : Tracks rest q escaped) : escaped.mode.expands = q.mode.expands := by
  cases tracks <;> rfl

theorem opensQuote_eq (tracks : Tracks rest q escaped) (text : List Char) :
    opensQuote escaped.mode text = opensQuote q.mode text := by
  cases tracks with
  | same => rfl
  | escapedDollar =>
      rw [Bool.eq_iff_iff, opensQuote_iff, opensQuote_iff]
      simp

/-- The two quotings read the next character alike: the one case in which they would not, a single
quote behind the dollar sign, is the case in which the dollar sign got no backslash. -/
theorem step_eq (tracks : Tracks (c :: rest) q escaped) : escaped.step c = q.step c := by
  cases tracks with
  | same => rfl
  | escapedDollar depth opensNone =>
      have notQuote : c ≠ '\'' := by
        rintro rfl
        simp [opensQuote] at opensNone
      simp [Quoting.step, notQuote]

theorem next_eq (tracks : Tracks (c :: rest) q escaped) : escaped.next c = q.next c :=
  congrArg Prod.fst tracks.step_eq

theorem next_of_isExpansion (tracks : Tracks (c :: rest) q escaped)
    (expansion : isExpansion q.mode c rest = true) :
    Tracks rest (q.next c) ((escaped.next '\\').next c) := by
  obtain ⟨expands, written⟩ := isExpansion_iff.1 expansion
  obtain ⟨mode, depth⟩ := q
  have slash : escaped.next '\\' = (⟨mode, depth⟩ : Quoting).next '\\' := by
    cases tracks with
    | same => rfl
    | escapedDollar => rfl
  rw [slash]
  cases mode with
  | normal =>
      rcases written with rfl | ⟨rfl, opensNone⟩
      · exact same _
      · exact escapedDollar depth opensNone
  | dollar =>
      rcases written with rfl | ⟨rfl, opensNone⟩
      · exact same _
      · exact escapedDollar depth opensNone
  | doubleQuote => rcases written with rfl | ⟨rfl, -⟩ <;> exact same _
  | singleQuote => contradiction
  | ansiQuote => contradiction
  | escape => contradiction
  | doubleQuoteEscape => contradiction
  | ansiEscape => contradiction

end Tracks

@[simp] theorem withoutExpansionsFrom_nil (q : Quoting) : withoutExpansionsFrom q [] = [] :=
  rfl

theorem withoutExpansionsFrom_cons_of_isExpansion {q : Quoting} {c : Char} {rest : List Char}
    (expansion : isExpansion q.mode c rest = true) :
    withoutExpansionsFrom q (c :: rest) =
      '\\' :: c :: withoutExpansionsFrom (q.next c) rest := by
  simp [withoutExpansionsFrom, expansion]

theorem withoutExpansionsFrom_cons_of_not_isExpansion {q : Quoting} {c : Char}
    {rest : List Char} (literal : isExpansion q.mode c rest = false) :
    withoutExpansionsFrom q (c :: rest) = c :: withoutExpansionsFrom (q.next c) rest := by
  simp [withoutExpansionsFrom, literal]

theorem withoutExpansionsFrom_eq_nil_iff {q : Quoting} {text : List Char} :
    withoutExpansionsFrom q text = [] ↔ text = [] := by
  cases text with
  | nil => simp
  | cons c rest =>
      cases expansion : isExpansion q.mode c rest with
      | false => simp [withoutExpansionsFrom_cons_of_not_isExpansion expansion]
      | true => simp [withoutExpansionsFrom_cons_of_isExpansion expansion]

theorem Tracks.scan {q escaped : Quoting} {text : List Char} (tracks : Tracks text q escaped) :
    Tracks [] (q.scan text) (escaped.scan (withoutExpansionsFrom q text)) := by
  induction text generalizing q escaped with
  | nil => exact tracks
  | cons c rest ih =>
      cases expansion : isExpansion q.mode c rest with
      | true =>
          rw [withoutExpansionsFrom_cons_of_isExpansion expansion]
          exact ih (tracks.next_of_isExpansion expansion)
      | false =>
          rw [withoutExpansionsFrom_cons_of_not_isExpansion expansion, Quoting.scan_cons,
            Quoting.scan_cons, tracks.next_eq]
          exact ih (.same _)

def ExpandsNothing (q : Quoting) : List Char → Prop
  | [] => True
  | c :: rest => isExpansion q.mode c rest = false ∧ ExpandsNothing (q.next c) rest

theorem ExpandsNothing.not_isExpansion {q : Quoting} {before after : List Char} {c : Char}
    (nothing : ExpandsNothing q (before ++ c :: after)) :
    isExpansion (q.scan before).mode c after = false := by
  induction before generalizing q with
  | nil => exact nothing.1
  | cons first before ih => exact ih nothing.2

theorem ExpandsNothing.withoutExpansionsFrom_eq {q : Quoting} {text : List Char}
    (nothing : ExpandsNothing q text) : withoutExpansionsFrom q text = text := by
  induction text generalizing q with
  | nil => rfl
  | cons c rest ih =>
      rw [withoutExpansionsFrom_cons_of_not_isExpansion nothing.1, ih nothing.2]

private theorem opensQuote_withoutExpansionsFrom {mode : Mode} {rest : List Char} (q : Quoting)
    (opens : opensQuote mode rest = true) :
    opensQuote mode (withoutExpansionsFrom q rest) = true := by
  obtain ⟨outside, mark, after, rfl, isMark⟩ := opensQuote_iff.1 opens
  have kept : isExpansion q.mode mark after = false := by
    rcases isMark with rfl | rfl <;> simp [isExpansion]
  rw [withoutExpansionsFrom_cons_of_not_isExpansion kept]
  exact opensQuote_iff.2 ⟨outside, mark, _, rfl, isMark⟩

private theorem Tracks.isExpansion_of_withoutExpansionsFrom {q escaped : Quoting} {c : Char}
    {rest : List Char} (tracks : Tracks (c :: rest) q escaped) (behind : Quoting)
    (expansion : isExpansion escaped.mode c (withoutExpansionsFrom behind rest) = true) :
    isExpansion q.mode c rest = true := by
  obtain ⟨expands, written⟩ := isExpansion_iff.1 expansion
  rw [tracks.expands_eq] at expands
  refine isExpansion_iff.2 ⟨expands, ?_⟩
  rcases written with backquote | ⟨dollar, opensNone⟩
  · exact Or.inl backquote
  · refine Or.inr ⟨dollar, ?_⟩
    rw [tracks.opensQuote_eq] at opensNone
    cases opens : opensQuote q.mode rest with
    | false => rfl
    | true =>
        rw [opensQuote_withoutExpansionsFrom behind opens] at opensNone
        contradiction

theorem expandsNothing_withoutExpansionsFrom {q escaped : Quoting} {text : List Char}
    (tracks : Tracks text q escaped) :
    ExpandsNothing escaped (withoutExpansionsFrom q text) := by
  induction text generalizing q escaped with
  | nil => trivial
  | cons c rest ih =>
      cases expansion : isExpansion q.mode c rest with
      | true =>
          rw [withoutExpansionsFrom_cons_of_isExpansion expansion]
          refine ⟨by simp [isExpansion], ?_, ih (tracks.next_of_isExpansion expansion)⟩
          have expands : escaped.mode.expands = true := by
            rw [tracks.expands_eq]
            exact (isExpansion_iff.1 expansion).1
          simp [isExpansion, expands_of_escapePending (Quoting.escapePending_next_backslash expands)]
      | false =>
          rw [withoutExpansionsFrom_cons_of_not_isExpansion expansion]
          refine ⟨?_, ?_⟩
          · cases still : isExpansion escaped.mode c (withoutExpansionsFrom (q.next c) rest) with
            | false => rfl
            | true =>
                rw [tracks.isExpansion_of_withoutExpansionsFrom _ still] at expansion
                contradiction
          · rw [tracks.next_eq]
            exact ih (.same _)

/-- `escaped` is `text` with backslashes put before some of its dollar signs and backquotes. -/
inductive Backslashed : (text escaped : List Char) → Prop where
  | nil : Backslashed [] []
  | kept {text escaped : List Char} (c : Char) :
      Backslashed text escaped → Backslashed (c :: text) (c :: escaped)
  | marked {text escaped : List Char} {c : Char} (marks : c = '$' ∨ c = '\x60') :
      Backslashed text escaped → Backslashed (c :: text) ('\\' :: c :: escaped)

theorem backslashed_withoutExpansionsFrom (q : Quoting) (text : List Char) :
    Backslashed text (withoutExpansionsFrom q text) := by
  induction text generalizing q with
  | nil => exact .nil
  | cons c rest ih =>
      cases expansion : isExpansion q.mode c rest with
      | true =>
          rw [withoutExpansionsFrom_cons_of_isExpansion expansion]
          refine .marked ?_ (ih _)
          rcases (isExpansion_iff.1 expansion).2 with backquote | ⟨dollar, -⟩
          · exact Or.inr backquote
          · exact Or.inl dollar
      | false =>
          rw [withoutExpansionsFrom_cons_of_not_isExpansion expansion]
          exact .kept c (ih _)

/-- Once the expansions of a text are removed, a dollar sign or a backquote that is read in an
expanding mode is a dollar sign that opens a quote. Only backslashes were added for it, and doing it
again adds none. -/
theorem withoutExpansions_neutral (text : List Char) :
    (∀ before c after, withoutExpansions text = before ++ c :: after →
      c = '$' ∨ c = '\x60' → (Quoting.initial.scan before).mode.expands = true →
        c = '$' ∧ (Quoting.initial.scan before).mode ≠ .doubleQuote ∧
          ∃ mark rest, after = mark :: rest ∧ (mark = '\'' ∨ mark = '"')) ∧
      Backslashed text (withoutExpansions text) ∧
      withoutExpansions (withoutExpansions text) = withoutExpansions text := by
  have nothing : ExpandsNothing .initial (withoutExpansions text) :=
    expandsNothing_withoutExpansionsFrom (.same _)
  refine ⟨?_, backslashed_withoutExpansionsFrom _ text, nothing.withoutExpansionsFrom_eq⟩
  intro before c after split isMarked expands
  rw [split] at nothing
  have literal := nothing.not_isExpansion
  rcases isMarked with rfl | rfl
  · cases opens : opensQuote (Quoting.initial.scan before).mode after with
    | true => exact ⟨rfl, opensQuote_iff.1 opens⟩
    | false =>
        rw [isExpansion_iff.2 ⟨expands, Or.inr ⟨rfl, opens⟩⟩] at literal
        contradiction
  · rw [isExpansion_iff.2 ⟨expands, Or.inl rfl⟩] at literal
    contradiction

namespace Reading

structure Tracks (rest : List Char) (r escaped : Reading) : Prop where
  quoting : Shell.Tracks rest r.quoting escaped.quoting
  value_eq : escaped.value = r.value
  body_eq : escaped.body = r.body
  coherent : r.Coherent

namespace Tracks

variable {r escaped : Reading} {c : Char} {rest : List Char}

theorem same (coherent : r.Coherent) : Tracks rest r r :=
  ⟨.same _, rfl, rfl, coherent⟩

theorem finish_eq (tracks : Tracks rest r escaped) : escaped.finish = r.finish := by
  simp only [finish, tracks.value_eq, tracks.body_eq]

theorem push_eq (tracks : Tracks (c :: rest) r escaped) : escaped.push c = r.push c := by
  obtain ⟨q, value, body⟩ := r
  obtain ⟨q', value', body'⟩ := escaped
  obtain ⟨quoting, rfl, rfl, -⟩ := tracks
  cases quoting with
  | same => rfl
  | escapedDollar depth opensNone =>
      have sameNext := (Shell.Tracks.escapedDollar depth opensNone).next_eq
      have sameStep := (Shell.Tracks.escapedDollar depth opensNone).step_eq
      have stays : ((⟨.dollar, depth⟩ : Quoting).next c).mode.inAnsiQuote = false := by
        rw [← sameNext]
        exact Quoting.inAnsiQuote_stepPlain depth c
      have sameValue (role : Role) : unquotedChar .normal role c = unquotedChar .dollar role c := by
        cases role <;> rfl
      simp only [Reading.push_eq, sameNext, sameStep, stays, sameValue, Bool.false_eq_true,
        and_false, if_false]

private theorem push_of_isExpansion (tracks : Tracks (c :: rest) r escaped)
    (expansion : isExpansion r.quoting.mode c rest = true) :
    Tracks rest (r.push c) ((escaped.push '\\').push c) := by
  obtain ⟨expands, written⟩ := isExpansion_iff.1 expansion
  have isMarked : c = '$' ∨ c = '\x60' := by
    rcases written with backquote | ⟨dollar, -⟩
    · exact Or.inr backquote
    · exact Or.inl dollar
  have outside : r.body = none := by
    apply tracks.coherent.body_eq_none
    cases mode : r.quoting.mode <;> rw [mode] at expands <;> first | contradiction | rfl
  have read : r.push c = ⟨r.quoting.next c, c :: r.value, none⟩ := by
    obtain ⟨⟨mode, depth⟩, value, body⟩ := r
    cases mode <;> first | contradiction | skip
    all_goals rcases isMarked with rfl | rfl <;> exact push_outside outside rfl
  have readEscaped : (escaped.push '\\').push c =
      ⟨(escaped.quoting.next '\\').next c, c :: r.value, none⟩ := by
    rw [← tracks.value_eq]
    have outside' : escaped.body = none := tracks.body_eq.trans outside
    rw [← tracks.quoting.expands_eq] at expands
    obtain ⟨⟨mode, depth⟩, value, body⟩ := escaped
    cases mode <;> first | contradiction | skip
    all_goals
      rcases isMarked with rfl | rfl <;> rw [push_outside outside' rfl] <;>
        exact push_outside rfl rfl
  rw [readEscaped, read]
  exact ⟨tracks.quoting.next_of_isExpansion expansion, rfl, rfl, read ▸ tracks.coherent.push c⟩

end Tracks

theorem values_withoutExpansionsFrom {r escaped : Reading} {text : List Char}
    (cuts : Option Nat) (tracks : Tracks text r escaped) :
    values cuts escaped (withoutExpansionsFrom r.quoting text) = values cuts r text := by
  induction text generalizing cuts r escaped with
  | nil => exact congrArg (fun value => [value]) tracks.finish_eq
  | cons c rest ih =>
      cases expansion : isExpansion r.quoting.mode c rest with
      | true =>
          have expands : escaped.quoting.mode.expands = true := by
            rw [tracks.quoting.expands_eq]
            exact (isExpansion_iff.1 expansion).1
          have pending := Quoting.escapePending_next_backslash expands
          rw [withoutExpansionsFrom_cons_of_isExpansion expansion,
            values_cons_of_ne (by simp [Quoting.role_backslash expands]),
            values_cons_of_ne (by simp [Quoting.role_of_escapePending pending]),
            values_cons_of_ne (c := c) (by simp [Quoting.role_of_isExpansion expansion]),
            ← ih cuts (tracks.push_of_isExpansion expansion), quoting_push]
      | false =>
          rw [withoutExpansionsFrom_cons_of_not_isExpansion expansion]
          simp only [values, tracks.quoting.step_eq, tracks.quoting.next_eq, tracks.push_eq,
            tracks.finish_eq]
          cases cutsBehind? cuts (r.quoting.step c).2 with
          | some left =>
              have kept := ih left (.same (coherent_start (r.quoting.next c)))
              rw [quoting_start] at kept
              simp only [kept]
          | none =>
              have kept := ih cuts (.same (tracks.coherent.push c))
              rw [quoting_push] at kept
              exact kept

end Reading

theorem map_value_tokensFrom_withoutExpansions (limit : Int) (text : List Char) :
    (tokensFrom .initial limit (withoutExpansions text)).map Token.value =
      (tokensFrom .initial limit text).map Token.value := by
  by_cases empty : text = []
  · subst text
    rfl
  · have tracks : Reading.Tracks text (.start .initial) (.start .initial) :=
      .same (Reading.coherent_start .initial)
    have kept := Reading.values_withoutExpansionsFrom (cutsFor limit) tracks
    rw [Reading.quoting_start] at kept
    have written : withoutExpansions text ≠ [] := by
      simpa [withoutExpansions, withoutExpansionsFrom_eq_nil_iff] using empty
    simp only [tokensFrom, empty, written, if_false, map_value_tokensOf, Reading.map_value_pieces]
    exact kept

/-- Removing the expansions of a text leaves the number and the values of its words as they were,
and it ends as open as it did: only the mode behind a dollar sign may have become the normal one. -/
theorem tokenize_withoutExpansions (text : List Char) :
    (tokenize (withoutExpansions text)).length = (tokenize text).length ∧
      (tokenize (withoutExpansions text)).map Token.value = (tokenize text).map Token.value ∧
      (tokenize (withoutExpansions text)).map Token.index = (tokenize text).map Token.index ∧
      unquote (withoutExpansions text) = unquote text ∧
      (Quoting.initial.scan (withoutExpansions text)).depth =
        (Quoting.initial.scan text).depth ∧
      (Quoting.initial.scan (withoutExpansions text)).isOpen =
        (Quoting.initial.scan text).isOpen ∧
      ((Quoting.initial.scan (withoutExpansions text)).mode =
          (Quoting.initial.scan text).mode ∨
        (Quoting.initial.scan text).mode = .dollar ∧
          (Quoting.initial.scan (withoutExpansions text)).mode = .normal) := by
  have tracks : Tracks [] (Quoting.initial.scan text)
      (Quoting.initial.scan (withoutExpansions text)) :=
    (Tracks.same Quoting.initial).scan
  have values := map_value_tokensFrom_withoutExpansions (-1) text
  have lengths : (tokenize (withoutExpansions text)).length = (tokenize text).length := by
    simpa [tokenize] using congrArg List.length values
  refine ⟨lengths, values, ?_, ?_, tracks.depth_eq, tracks.isOpen_eq, tracks.mode_eq⟩
  · rw [map_index_tokenize, map_index_tokenize, lengths]
  · rw [unquote_eq_headD, map_value_tokensFrom_withoutExpansions, ← unquote_eq_headD]

end PkgRecipe.Shell
