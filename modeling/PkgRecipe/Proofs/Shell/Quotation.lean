import Mathlib.Data.List.Forall2
import PkgRecipe.Proofs.Shell.Printing

namespace PkgRecipe.Shell

def singleQuotedChar (c : Char) : List Char :=
  if c = '\'' then ['\'', '\\', '\'', '\''] else [c]

def ansiQuotedChar (c : Char) : List Char :=
  if c = '\\' ∨ c = '\'' then ['\\', c] else [c]

def escapedChar (c : Char) : List Char :=
  ['\\', c]

/-- The ways to quote a word. A line end cannot be kept by a backslash, nor can the empty word. -/
inductive Quotes (word : List Char) : List Char → Prop where
  | singleQuoted : Quotes word ('\'' :: (word.flatMap singleQuotedChar ++ ['\'']))
  | doubleQuoted : Quotes word ('"' :: (word.flatMap doubleQuotedChar ++ ['"']))
  | ansiQuoted : Quotes word ('$' :: '\'' :: (word.flatMap ansiQuotedChar ++ ['\'']))
  | escaped (nonempty : word ≠ []) (oneLine : '\n' ∉ word) : Quotes word (word.flatMap escapedChar)

theorem Quotes.ne_nil {word quoted : List Char} (quotes : Quotes word quoted) : quoted ≠ [] := by
  cases quotes with
  | singleQuoted => exact List.cons_ne_nil _ _
  | doubleQuoted => exact List.cons_ne_nil _ _
  | ansiQuoted => exact List.cons_ne_nil _ _
  | escaped nonempty =>
      obtain ⟨c, rest, rfl⟩ := List.exists_cons_of_ne_nil nonempty
      exact List.cons_ne_nil _ _

namespace Reading

/-- From `r` a text is read to `after` within one word. -/
inductive Reads : (r : Reading) → List Char → (after : Reading) → Prop where
  | nil (r : Reading) : Reads r [] r
  | cons {r after : Reading} {c : Char} {text : List Char}
      (within : (r.quoting.step c).2 ≠ .separator) (later : Reads (r.push c) text after) :
      Reads r (c :: text) after

namespace Reads

variable {r next after : Reading} {first second : List Char}

theorem single {c : Char} (within : (r.quoting.step c).2 ≠ .separator) :
    Reads r [c] (r.push c) :=
  .cons within (.nil _)

theorem append (left : Reads r first next) (right : Reads next second after) :
    Reads r (first ++ second) after := by
  induction left with
  | nil => exact right
  | cons within _ ih => exact .cons within (ih right)

/-- A text is read if each of its characters is read as it is spelled. `state` gives what has been
read behind the characters so far. -/
theorem flatMap (spell : Char → List Char) (state : List Char → Reading) {text : List Char}
    (each : ∀ c ∈ text, ∀ read, Reads (state read) (spell c) (state (read ++ [c])))
    (read : List Char) : Reads (state read) (text.flatMap spell) (state (read ++ text)) := by
  induction text generalizing read with
  | nil =>
      rw [List.append_nil]
      exact .nil _
  | cons c rest ih =>
      have here := each c List.mem_cons_self read
      have later := ih (fun d member => each d (List.mem_cons_of_mem c member)) (read ++ [c])
      rw [List.append_assoc] at later
      exact here.append later

theorem quoting_eq (reads : Reads r first after) : r.quoting.scan first = after.quoting := by
  induction reads with
  | nil => rfl
  | @cons r after c text _ _ ih => rw [Quoting.scan_cons, ← quoting_push, ih]

theorem values_append (reads : Reads r first after) (cuts : Option Nat) (rest : List Char) :
    values cuts r (first ++ rest) = values cuts after rest := by
  induction reads with
  | nil => rfl
  | cons within _ ih => rw [List.cons_append, values_cons_of_ne within, ih]

end Reads

/-! What is read of a quoted character, by the quoting it stands in. -/

variable {depth : Nat} {value body : List Char}

private theorem push_singleQuote {c : Char} (notQuote : c ≠ '\'') :
    push ⟨⟨.singleQuote, depth⟩, value, none⟩ c = ⟨⟨.singleQuote, depth⟩, c :: value, none⟩ := by
  simp [push, Quoting.step, notQuote, unquotedChar]

private theorem reads_singleQuotedChar (c : Char) :
    Reads ⟨⟨.singleQuote, depth⟩, value, none⟩ (singleQuotedChar c)
      ⟨⟨.singleQuote, depth⟩, c :: value, none⟩ := by
  unfold singleQuotedChar
  split
  · rename_i quote
    subst c
    exact .cons nofun (.cons nofun (.cons nofun (.single nofun)))
  · rename_i notQuote
    rw [← push_singleQuote notQuote]
    exact .single (by simp [Quoting.step, notQuote])

private theorem reads_doubleQuotedChar (c : Char) :
    Reads ⟨⟨.doubleQuote, depth⟩, value, none⟩ (doubleQuotedChar c)
      ⟨⟨.doubleQuote, depth⟩, c :: value, none⟩ := by
  unfold doubleQuotedChar
  split
  · rename_i marked
    have read : Reads ⟨⟨.doubleQuote, depth⟩, value, none⟩ ['\\', c] _ :=
      .cons nofun (.single nofun)
    rw [push_push_doubleQuote] at read
    simp only [isMarkedInDoubleQuotes, decide_eq_true_eq] at marked
    rcases marked with rfl | rfl | rfl | rfl <;> exact read
  · rename_i plain
    simp only [isMarkedInDoubleQuotes, decide_eq_true_eq, not_or] at plain
    rw [← push_doubleQuote plain.2.1 plain.1]
    exact .single (by simp [Quoting.step, plain.1, plain.2.1])

private theorem reads_ansiQuotedChar (c : Char) :
    Reads ⟨⟨.ansiQuote, depth⟩, value, some body⟩ (ansiQuotedChar c)
      ⟨⟨.ansiQuote, depth⟩, value, some ((ansiQuotedChar c).reverse ++ body)⟩ := by
  unfold ansiQuotedChar
  split
  · rw [List.reverse_cons, List.reverse_singleton, List.append_assoc]
    exact .cons nofun (.single nofun)
  · rename_i plain
    rw [not_or] at plain
    rw [List.reverse_singleton, List.singleton_append, ← push_ansiQuote body plain.2 plain.1]
    exact .single (by simp [Quoting.step, plain.1, plain.2])

private theorem reads_escapedChar {c : Char} (notEnd : c ≠ '\n') :
    Reads ⟨⟨.normal, depth⟩, value, none⟩ (escapedChar c)
      ⟨⟨.normal, depth⟩, c :: value, none⟩ := by
  have pushed : push ⟨⟨.escape, depth⟩, value, none⟩ c = ⟨⟨.normal, depth⟩, c :: value, none⟩ := by
    simp [push, Quoting.step, unquotedChar, notEnd, Mode.inAnsiQuote]
  rw [← pushed]
  exact .cons (by rintro ⟨⟩) (.single (by rintro ⟨⟩))

end Reading

namespace AnsiText

private theorem standsFor_ansiQuotedChar (c : Char) :
    StandsFor (ansiQuotedChar c) (String.utf8EncodeChar c) := by
  unfold ansiQuotedChar
  split
  · rename_i marked
    rcases marked with rfl | rfl <;> exact standsFor_named rfl
  · rename_i plain
    exact standsFor_char (not_or.1 plain).1

private theorem decode_flatMap_ansiQuotedChar (word : List Char) :
    decode (word.flatMap ansiQuotedChar) = word := by
  apply decode_of_standsFor
  induction word with
  | nil => exact standsFor_nil
  | cons c rest ih => exact (standsFor_ansiQuotedChar c).append ih

end AnsiText

def IsWord (value text : List Char) : Prop :=
  Reading.Reads (.start .initial) text ⟨.initial, value.reverse, none⟩

theorem Quotes.isWord {word quoted : List Char} (quotes : Quotes word quoted) :
    IsWord word quoted := by
  cases quotes with
  | singleQuoted =>
      have body := Reading.Reads.flatMap singleQuotedChar
        (fun read => ⟨⟨.singleQuote, 0⟩, read.reverse, none⟩)
        (fun c (_ : c ∈ word) read => by simpa using Reading.reads_singleQuotedChar c) []
      exact .cons (by rintro ⟨⟩) (body.append (.single (by rintro ⟨⟩)))
  | doubleQuoted =>
      have body := Reading.Reads.flatMap doubleQuotedChar
        (fun read => ⟨⟨.doubleQuote, 0⟩, read.reverse, none⟩)
        (fun c (_ : c ∈ word) read => by simpa using Reading.reads_doubleQuotedChar c) []
      exact .cons (by rintro ⟨⟩) (body.append (.single (by rintro ⟨⟩)))
  | ansiQuoted =>
      have body := Reading.Reads.flatMap ansiQuotedChar
        (fun read => ⟨⟨.ansiQuote, 0⟩, [], some (read.flatMap ansiQuotedChar).reverse⟩)
        (fun c (_ : c ∈ word) read => by simpa using Reading.reads_ansiQuotedChar c) []
      -- the body has no value before it is closed
      have closed : Reading.push
          ⟨⟨.ansiQuote, 0⟩, [], some (word.flatMap ansiQuotedChar).reverse⟩ '\'' =
            ⟨.initial, word.reverse, none⟩ := by
        rw [Reading.push_eq]
        simp [Quoting.next, Quoting.step, Mode.inAnsiQuote, Quoting.initial,
          AnsiText.decode_flatMap_ansiQuotedChar]
      rw [IsWord, ← closed]
      exact .cons (by rintro ⟨⟩) (.cons (by rintro ⟨⟩) (body.append (.single (by rintro ⟨⟩))))
  | escaped _ oneLine =>
      refine Reading.Reads.flatMap escapedChar
        (fun read => ⟨⟨.normal, 0⟩, read.reverse, none⟩) ?_ []
      intro c member read
      have notEnd : c ≠ '\n' := fun same => oneLine (same ▸ member)
      simpa using Reading.reads_escapedChar notEnd

private theorem values_space (value rest : List Char) :
    Reading.values none ⟨.initial, value, none⟩ (' ' :: rest) =
      value.reverse :: Reading.values none (.start .initial) rest :=
  rfl

private theorem values_intercalate {words texts : List (List Char)}
    (each : List.Forall₂ IsWord words texts) (nonempty : words ≠ []) :
    Reading.values none (.start .initial) (List.intercalate [' '] texts) = words ∧
      Quoting.initial.scan (List.intercalate [' '] texts) = .initial := by
  induction each with
  | nil => contradiction
  | @cons word text words texts isWord later ih =>
      have closed : Quoting.initial.scan text = .initial := isWord.quoting_eq
      cases later with
      | nil =>
          have read := isWord.values_append none []
          rw [List.append_nil] at read
          rw [List.intercalate_singleton, read]
          exact ⟨congrArg (fun value => [value]) (List.reverse_reverse word), closed⟩
      | cons next last =>
          obtain ⟨read, ends⟩ := ih (List.cons_ne_nil _ _)
          rw [List.intercalate_cons_cons, List.append_assoc, isWord.values_append,
            List.singleton_append, values_space, List.reverse_reverse, read,
            Quoting.scan_append, closed]
          exact ⟨rfl, ends⟩

private theorem map_value_tokenize {text : List Char} (nonempty : text ≠ []) :
    (tokenize text).map Token.value = Reading.values none (.start .initial) text := by
  rw [tokenize, tokensFrom, if_neg nonempty, map_value_tokensOf, Reading.map_value_pieces]
  rfl

/-- A row of quoted words is read as just these words, whatever they hold and however each of them
is quoted, and nothing is open behind it. -/
theorem tokenize_quoted {words quoted : List (List Char)} (nonempty : words ≠ [])
    (each : List.Forall₂ Quotes words quoted) :
    (tokenize (List.intercalate [' '] quoted)).length = words.length ∧
      (tokenize (List.intercalate [' '] quoted)).map Token.value = words ∧
      (Quoting.initial.scan (List.intercalate [' '] quoted)).mode = .normal ∧
      (Quoting.initial.scan (List.intercalate [' '] quoted)).depth = 0 := by
  obtain ⟨read, closed⟩ := values_intercalate (each.imp fun _ _ quotes => quotes.isWord) nonempty
  have written : List.intercalate [' '] quoted ≠ [] := by
    cases each with
    | nil => contradiction
    | cons quotes later =>
        cases later with
        | nil => simpa using quotes.ne_nil
        | cons => simp [List.intercalate_cons_cons, quotes.ne_nil]
  rw [← map_value_tokenize written] at read
  refine ⟨?_, read, ?_, ?_⟩
  · rw [← read, List.length_map]
  · rw [closed]
    rfl
  · rw [closed]
    rfl

theorem tokenize_quoted_four_ways :
    let words := ["it's".toList, "$(\"x\")".toList, "a\\'\n)".toList, "( $y".toList]
    let quoted := ["'it'\\''s'".toList, "\"\\$(\\\"x\\\")\"".toList, "$'a\\\\\\'\n)'".toList,
      "\\(\\ \\$\\y".toList]
    let text := "'it'\\''s' \"\\$(\\\"x\\\")\" $'a\\\\\\'\n)' \\(\\ \\$\\y".toList
    words ≠ [] ∧ List.Forall₂ Quotes words quoted ∧ List.intercalate [' '] quoted = text ∧
      (tokenize text).length = 4 ∧ (tokenize text).map Token.value = words ∧
      (Quoting.initial.scan text).mode = .normal ∧ (Quoting.initial.scan text).depth = 0 := by
  intro words quoted text
  have each : List.Forall₂ Quotes words quoted :=
    .cons .singleQuoted (.cons .doubleQuoted (.cons .ansiQuoted
      (.cons (.escaped (by decide) (by decide)) .nil)))
  have joined : List.intercalate [' '] quoted = text := by decide
  have nonempty : words ≠ [] := List.cons_ne_nil _ _
  have read := tokenize_quoted nonempty each
  rw [joined] at read
  exact ⟨nonempty, each, joined, read⟩

end PkgRecipe.Shell
