import Mathlib.Data.List.Basic
import PkgRecipe.Proofs.Shell.Enclosed

namespace PkgRecipe.Shell

inductive Enclosure where
  | double
  | ansi
deriving DecidableEq

namespace Enclosure

def mode : Enclosure → Mode
  | double => .doubleQuote
  | ansi => .ansiQuote

def escapeMode : Enclosure → Mode
  | double => .doubleQuoteEscape
  | ansi => .ansiEscape

def covers : Enclosure → Mode → Bool
  | double => Mode.inDoubleQuote
  | ansi => Mode.inAnsiQuote

def quote : Enclosure → Char
  | double => '"'
  | ansi => '\''

def text : Enclosure → List Char → List Char
  | double, body => '"' :: (body ++ ['"'])
  | ansi, body => '$' :: '\'' :: (body ++ ['\''])

def elementValue : Enclosure → List Char → List Char
  | double => ArrayText.unescaped
  | ansi => AnsiText.decode

variable {e : Enclosure} {depth : Nat}

theorem next_mode (e : Enclosure) (depth : Nat) (c : Char) :
    Quoting.next ⟨e.mode, depth⟩ c =
      if c = e.quote then ⟨.normal, depth⟩
      else if c = '\\' then ⟨e.escapeMode, depth⟩
      else ⟨e.mode, depth⟩ := by
  by_cases closes : c = e.quote
  · rw [if_pos closes, closes]
    cases e <;> rfl
  · rw [if_neg closes]
    by_cases slash : c = '\\'
    · rw [if_pos slash, slash]
      cases e <;> rfl
    · rw [if_neg slash]
      cases e with
      | double =>
          have other : c ≠ '"' := closes
          simp [mode, Quoting.next, Quoting.step, other, slash]
      | ansi =>
          have other : c ≠ '\'' := closes
          simp [mode, Quoting.next, Quoting.step, other, slash]

theorem next_slash (e : Enclosure) (depth : Nat) :
    Quoting.next ⟨e.mode, depth⟩ '\\' = ⟨e.escapeMode, depth⟩ := by
  cases e <;> rfl

theorem next_escapeMode (e : Enclosure) (depth : Nat) (c : Char) :
    Quoting.next ⟨e.escapeMode, depth⟩ c = ⟨e.mode, depth⟩ := by
  cases e <;> rfl

/-- The quoting stays between the quotes in all of a body, and no backslash is pending behind it. -/
structure Holds (e : Enclosure) (depth : Nat) (body : List Char) : Prop where
  within : ∀ front, front <+: body → e.covers (Quoting.scan ⟨e.mode, depth⟩ front).mode = true
  ends : (Quoting.scan ⟨e.mode, depth⟩ body).mode = e.mode

namespace Holds

theorem behind (front : List Char) {rest : List Char} (holds : e.Holds depth (front ++ rest))
    (same : Quoting.scan ⟨e.mode, depth⟩ front = ⟨e.mode, depth⟩) : e.Holds depth rest where
  within first isPrefix := by
    have inside := holds.within (front ++ first) ((List.prefix_append_right_inj front).2 isPrefix)
    rwa [Quoting.scan_append, same] at inside
  ends := by
    have ends := holds.ends
    rwa [Quoting.scan_append, same] at ends

theorem unbroken {body : List Char} (holds : e.Holds depth body) : Unbroken e.quote body := by
  match body with
  | [] => exact .nil
  | c :: rest =>
      by_cases slash : c = '\\'
      · subst c
        cases rest with
        | nil =>
            have ends := holds.ends
            cases e <;> contradiction
        | cons c rest =>
            have same : Quoting.scan ⟨e.mode, depth⟩ ['\\', c] = ⟨e.mode, depth⟩ := by
              rw [Quoting.scan_cons, Quoting.scan_cons, next_slash, next_escapeMode, Quoting.scan_nil]
            exact .escaped c (behind ['\\', c] holds same).unbroken
      · have notQuote : c ≠ e.quote := by
          rintro rfl
          have inside := holds.within [e.quote] ⟨rest, rfl⟩
          cases e <;> contradiction
        have same : Quoting.scan ⟨e.mode, depth⟩ [c] = ⟨e.mode, depth⟩ := by
          rw [Quoting.scan_cons, next_mode, if_neg notQuote, if_neg slash, Quoting.scan_nil]
        exact .plain notQuote slash (behind [c] holds same).unbroken
termination_by body.length

end Holds

private theorem holds_of_unbroken {body : List Char} (unbroken : Unbroken e.quote body) :
    e.Holds depth body := by
  have inside : e.covers e.mode = true := by cases e <;> rfl
  have pending : e.covers e.escapeMode = true := by cases e <;> rfl
  induction unbroken with
  | nil =>
      refine ⟨fun front isPrefix => ?_, rfl⟩
      rw [List.prefix_nil.1 isPrefix]
      exact inside
  | @plain c rest notQuote notSlash later ih =>
      have same : Quoting.next ⟨e.mode, depth⟩ c = ⟨e.mode, depth⟩ := by
        rw [next_mode, if_neg notQuote, if_neg notSlash]
      refine ⟨fun front isPrefix => ?_, ?_⟩
      · rcases List.prefix_cons_iff.1 isPrefix with rfl | ⟨front, rfl, short⟩
        · exact inside
        · rw [Quoting.scan_cons, same]
          exact ih.within front short
      · rw [Quoting.scan_cons, same]
        exact ih.ends
  | @escaped rest c later ih =>
      refine ⟨fun front isPrefix => ?_, ?_⟩
      · rcases List.prefix_cons_iff.1 isPrefix with rfl | ⟨front, rfl, short⟩
        · exact inside
        · rcases List.prefix_cons_iff.1 short with rfl | ⟨front, rfl, shorter⟩
          · rw [Quoting.scan_cons, next_slash]
            exact pending
          · rw [Quoting.scan_cons, Quoting.scan_cons, next_slash, next_escapeMode]
            exact ih.within front shorter
      · rw [Quoting.scan_cons, Quoting.scan_cons, next_slash, next_escapeMode]
        exact ih.ends

theorem holds_iff {body : List Char} : e.Holds depth body ↔ Unbroken e.quote body :=
  ⟨Holds.unbroken, holds_of_unbroken⟩

/-- A line end of the body stands behind a backslash that escapes it. -/
def EscapesLineEnd (e : Enclosure) (depth : Nat) (body : List Char) : Prop :=
  ∃ front rest, body = front ++ '\n' :: rest ∧
    (Quoting.scan ⟨e.mode, depth⟩ front).mode = e.escapeMode

theorem EscapesLineEnd.behind (front : List Char) {rest : List Char}
    (escapes : e.EscapesLineEnd depth rest)
    (same : Quoting.scan ⟨e.mode, depth⟩ front = ⟨e.mode, depth⟩) :
    e.EscapesLineEnd depth (front ++ rest) := by
  obtain ⟨before, after, rfl, pending⟩ := escapes
  refine ⟨front ++ before, after, by rw [List.append_assoc], ?_⟩
  rw [Quoting.scan_append, same, pending]

end Enclosure

/-- A backslash that escapes neither a marked character nor a line end is kept on both ways. -/
theorem ArrayText.unescaped_kept {c : Char}
    (unmarked : ¬ (c = '\\' ∨ c = '"' ∨ c = '$' ∨ c = '\x60')) (rest : List Char) :
    unescaped ('\\' :: c :: rest) = '\\' :: c :: unescaped rest := by
  rw [unescaped, if_neg unmarked, unescaped_cons fun slash => unmarked (.inl slash)]

private theorem unquotedChar_doubleQuoteEscape {c : Char} (notEnd : c ≠ '\n') :
    unquotedChar .doubleQuoteEscape .literal c =
      if c = '\\' ∨ c = '"' ∨ c = '$' ∨ c = '\x60' then [c] else ['\\', c] := by
  simp only [unquotedChar, if_neg notEnd]
  grind

private theorem doubleQuotedValue_eq_unescaped {depth : Nat} {body : List Char}
    (unbroken : Unbroken '"' body) (keeps : ¬ Enclosure.double.EscapesLineEnd depth body) :
    doubleQuotedValue body = ArrayText.unescaped body := by
  induction unbroken with
  | nil => rfl
  | @plain c rest notQuote notSlash _ ih =>
      have same : Quoting.scan ⟨.doubleQuote, depth⟩ [c] = ⟨.doubleQuote, depth⟩ := by
        rw [Quoting.scan_cons, Quoting.scan_nil]
        simp [Quoting.next, Quoting.step, notQuote, notSlash]
      rw [doubleQuotedValue_cons notSlash, ArrayText.unescaped_cons notSlash,
        ih fun escapes => keeps (escapes.behind [c] same)]
  | @escaped rest c _ ih =>
      have notEnd : c ≠ '\n' := by
        rintro rfl
        exact keeps ⟨['\\'], rest, rfl, rfl⟩
      have later := ih fun escapes => keeps (escapes.behind ['\\', c] rfl)
      rw [doubleQuotedValue_escaped, later, unquotedChar_doubleQuoteEscape notEnd]
      split
      · rename_i marked
        rw [ArrayText.unescaped_escaped marked, List.singleton_append]
      · rename_i unmarked
        rw [ArrayText.unescaped_kept unmarked]
        rfl

namespace Enclosure

variable {e : Enclosure} {depth : Nat} {body : List Char}

private theorem unquote_text (unbroken : Unbroken e.quote body)
    (keeps : e = .double → ¬ e.EscapesLineEnd depth body) :
    unquote (e.text body) = e.elementValue body := by
  cases e with
  | double =>
      rw [text, unquote_doubleQuoted unbroken]
      exact doubleQuotedValue_eq_unescaped unbroken (keeps rfl)
  | ansi => exact unquote_ansiQuoted unbroken

private theorem element?_text {index : List Char} (bracketed : Unbroken ']' index)
    (unbroken : Unbroken e.quote body) (left : List Char) :
    ArrayText.element? (index ++ ']' :: '=' :: (e.text body ++ left)) =
      some (e.elementValue body, left) := by
  cases e with
  | double => simpa [text, elementValue] using ArrayText.element?_doubleQuoted bracketed unbroken left
  | ansi => simpa [text, elementValue] using ArrayText.element?_ansiQuoted bracketed unbroken left

/-- A quoted word is read alike as a word and as the only element of an array: its body is any text
that stays between its quotes, in double quotes one that escapes no line end. -/
theorem elements_text (holds : e.Holds depth body)
    (keeps : e = .double → ¬ e.EscapesLineEnd depth body) :
    ArrayText.elements ("([0]=".toList ++ (e.text body ++ [')'])) = [unquote (e.text body)] ∧
      unquote (e.text body) = e.elementValue body := by
  have unbroken := holds_iff.1 holds
  have bracketed : Unbroken ']' ['0'] := .plain (by decide) (by decide) .nil
  have found := element?_text bracketed unbroken [')']
  have closed : ArrayText.elements [')'] = [] := ArrayText.elements_of_notMem (by decide)
  have word := unquote_text unbroken keeps
  refine ⟨?_, word⟩
  have opened : "([0]=".toList ++ (e.text body ++ [')']) =
      '(' :: '[' :: (['0'] ++ ']' :: '=' :: (e.text body ++ [')'])) := rfl
  rw [opened, ArrayText.elements_cons (by decide), ArrayText.elements_bracket found, closed, word]

theorem elements_text_escapes :
    let body := "\\\"\\\\\n\\q'".toList
    let bell := "\\'\\a\"".toList
    (double.Holds 0 body ∧ ¬ double.EscapesLineEnd 0 body ∧
      ArrayText.elements "([0]=\"\\\"\\\\\n\\q'\")".toList = ["\"\\\n\\q'".toList] ∧
      unquote "\"\\\"\\\\\n\\q'\"".toList = "\"\\\n\\q'".toList) ∧
    ansi.Holds 0 bell ∧
      ArrayText.elements "([0]=$'\\'\\a\"')".toList = ["'\x07\"".toList] ∧
      unquote "$'\\'\\a\"'".toList = "'\x07\"".toList := by
  intro body bell
  have first : double.Holds 0 body := holds_iff.2
    (.escaped '"' (.escaped '\\' (.plain (by decide) (by decide) (.escaped 'q'
      (.plain (by decide) (by decide) .nil)))))
  have keeps : ¬ double.EscapesLineEnd 0 body := by
    rintro ⟨front, rest, same, pending⟩
    -- the only line end of the body is the fifth of its characters
    have parted :
        ['\\', '"', '\\', '\\'] ++ '\n' :: ['\\', 'q', '\''] = front ++ '\n' :: rest := same
    obtain ⟨rfl, -, -⟩ := (List.append_cons_inj_of_notMem (by decide) (by decide)).1 parted
    contradiction
  have second : ansi.Holds 0 bell := holds_iff.2
    (.escaped '\'' (.escaped 'a' (.plain (by decide) (by decide) .nil)))
  have read := elements_text first fun _ => keeps
  have read' := elements_text second nofun
  have value : double.elementValue body = "\"\\\n\\q'".toList := by decide
  have value' : ansi.elementValue bell = "'\x07\"".toList := by decide +kernel
  rw [value] at read
  rw [value'] at read'
  exact ⟨⟨first, keeps, read.1.trans (congrArg (fun v => [v]) read.2), read.2⟩, second,
    read'.1.trans (congrArg (fun v => [v]) read'.2), read'.2⟩

end Enclosure

end PkgRecipe.Shell
