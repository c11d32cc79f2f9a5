import PkgRecipe.Proofs.Shell.AnsiSpelling
import PkgRecipe.Proofs.Shell.Enclosed

namespace PkgRecipe.Shell

def isMarkedInDoubleQuotes (c : Char) : Bool :=
  c = '\\' ∨ c = '"' ∨ c = '$' ∨ c = '\x60'

def doubleQuotedChar (c : Char) : List Char :=
  if isMarkedInDoubleQuotes c then ['\\', c] else [c]

/-- The two ways in which the shell prints a value: in double quotes, or between `$'` and `'`. -/
inductive Prints (text : List Char) : List Char → Prop where
  | doubleQuoted : Prints text ('"' :: (text.flatMap doubleQuotedChar ++ ['"']))
  | ansiQuoted {body : List Char} (spells : AnsiText.SpellsText text body) :
      Prints text ('$' :: '\'' :: (body ++ ['\'']))

theorem unbroken_doubleQuotedChar_of {stop c : Char}
    (escaped : c = stop → isMarkedInDoubleQuotes c = true) : Unbroken stop (doubleQuotedChar c) := by
  unfold doubleQuotedChar
  split
  · exact .escaped c .nil
  · rename_i plain
    refine .plain (fun stops => plain (escaped stops)) ?_ .nil
    rintro rfl
    exact plain rfl

theorem unbroken_doubleQuotedChar (c : Char) : Unbroken '"' (doubleQuotedChar c) :=
  unbroken_doubleQuotedChar_of (by rintro rfl; rfl)

private theorem doubleQuotedValue_flatMap (text : List Char) :
    doubleQuotedValue (text.flatMap doubleQuotedChar) = text := by
  induction text with
  | nil => rfl
  | cons c rest ih =>
      rw [List.flatMap_cons, doubleQuotedChar]
      split
      · rename_i marked
        simp only [isMarkedInDoubleQuotes, decide_eq_true_eq] at marked
        have kept : unquotedChar .doubleQuoteEscape .literal c = [c] := by
          rcases marked with rfl | rfl | rfl | rfl <;> rfl
        rw [List.cons_append, List.cons_append, doubleQuotedValue_escaped, kept, List.nil_append,
          ih]
        rfl
      · rename_i plain
        simp only [isMarkedInDoubleQuotes, decide_eq_true_eq, not_or] at plain
        rw [List.cons_append, doubleQuotedValue_cons plain.1, List.nil_append, ih]

theorem ArrayText.unescaped_flatMap (text : List Char) :
    unescaped (text.flatMap doubleQuotedChar) = text := by
  induction text with
  | nil => rfl
  | cons c rest ih =>
      rw [List.flatMap_cons, doubleQuotedChar]
      split
      · rename_i marked
        simp only [isMarkedInDoubleQuotes, decide_eq_true_eq] at marked
        rw [List.cons_append, List.cons_append, unescaped_escaped marked, List.nil_append, ih]
      · rename_i plain
        simp only [isMarkedInDoubleQuotes, decide_eq_true_eq, not_or] at plain
        rw [List.cons_append, unescaped_cons plain.1, List.nil_append, ih]

namespace AnsiText

private theorem unbroken_octalEscape (b : UInt8) : Unbroken '\'' (octalEscape b) := by
  have plain (n : Nat) : octalDigit n ≠ '\'' ∧ octalDigit n ≠ '\\' := by
    have octal := isOctalDigit_octalDigit n
    constructor <;> intro same <;> rw [same] at octal <;> exact absurd octal (by decide)
  exact .escaped _ (.plain (plain _).1 (plain _).2 (.plain (plain _).1 (plain _).2 .nil))

theorem Spells.unbroken {c : Char} {spelling : List Char} (spells : Spells c spelling) :
    Unbroken '\'' spelling := by
  cases spells with
  | @named letter => exact .escaped letter .nil
  | kept plain =>
      refine .plain ?_ ?_ .nil
      · rintro rfl
        contradiction
      · rintro rfl
        contradiction
  | octal =>
      induction String.utf8EncodeChar c with
      | nil => exact .nil
      | cons b row ih => exact (unbroken_octalEscape b).append ih

theorem SpellsText.unbroken {text body : List Char} (spells : SpellsText text body) :
    Unbroken '\'' body := by
  induction spells with
  | nil => exact .nil
  | cons spells _ ih => exact spells.unbroken.append ih

theorem SpellsText.decode_eq {text body : List Char} (spells : SpellsText text body) :
    decode body = text :=
  decode_of_standsFor spells.standsFor

end AnsiText

namespace Prints

variable {text printed : List Char}

theorem unquote_eq (prints : Prints text printed) : unquote printed = text := by
  cases prints with
  | doubleQuoted =>
      rw [unquote_doubleQuoted (.flatMap unbroken_doubleQuotedChar text),
        doubleQuotedValue_flatMap]
  | ansiQuoted spells => rw [unquote_ansiQuoted spells.unbroken, spells.decode_eq]

theorem element?_eq {index : List Char} (prints : Prints text printed)
    (bracketed : Unbroken ']' index) (left : List Char) :
    ArrayText.element? (index ++ ']' :: '=' :: (printed ++ left)) = some (text, left) := by
  cases prints with
  | doubleQuoted =>
      have read := ArrayText.element?_doubleQuoted bracketed
        (.flatMap unbroken_doubleQuotedChar text) left
      rw [ArrayText.unescaped_flatMap] at read
      simpa using read
  | ansiQuoted spells =>
      have read := ArrayText.element?_ansiQuoted bracketed spells.unbroken left
      rw [spells.decode_eq] at read
      simpa using read

theorem isParenthesised_eq (prints : Prints text printed) :
    ArrayText.isParenthesised printed = false := by
  cases prints with
  | doubleQuoted =>
      rw [ArrayText.isParenthesised, Text.trim_cons_concat (by decide) (by decide)]
      rfl
  | ansiQuoted =>
      rw [ArrayText.isParenthesised, ← List.cons_append,
        Text.trim_cons_concat (by decide) (by decide)]
      rfl

end Prints

end PkgRecipe.Shell
