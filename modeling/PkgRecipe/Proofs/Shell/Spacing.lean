import PkgRecipe.Proofs.Shell.ClosedText
import PkgRecipe.Proofs.Shell.FirstLine
import PkgRecipe.Proofs.Shell.Limited
import PkgRecipe.Shell.Assignment

namespace PkgRecipe.Shell

theorem Quoting.separates_iff {q : Quoting} :
    (q.step ' ').2 = .separator ↔ q.isOpen = false := by
  obtain ⟨mode, depth⟩ := q
  by_cases outside : depth = 0
  · cases mode <;> simp [step, stepPlain, isOpen, Mode.closed, inBracket, outside]
  · cases mode <;> simp [step, stepPlain, isOpen, Mode.closed, inBracket, outside]

/-- A word that stands for itself wherever spaces are around it. -/
structure ClosedWord (word : List Char) : Prop where
  uncut : pieces none .initial word = [⟨.initial, word⟩]
  closes : (Quoting.initial.scan word).isOpen = false

theorem next_space_of_closed {q : Quoting} (closed : q.isOpen = false) : q.next ' ' = .initial :=
  (Quoting.outside_of_separator (Quoting.separates_iff.2 closed)).2

namespace ClosedWord

theorem pieces_append {word : List Char} (closed : ClosedWord word) (rest : List Char) :
    pieces none .initial (word ++ ' ' :: rest) = ⟨.initial, word⟩ :: pieces none .initial rest := by
  have separates := Quoting.separates_iff.2 closed.closes
  obtain ⟨front, last, raw, back, cut, -, behind, whole⟩ :=
    Shell.pieces_append .initial word (' ' :: rest)
  rw [pieces_cons, separates] at behind
  simp only [cutsBehind?, next_space_of_closed closed.closes] at behind
  obtain ⟨first, rfl⟩ := List.cons.inj behind
  obtain rfl := (Piece.mk.inj first).2
  have only : front ++ [last] = [] ++ [⟨.initial, word⟩] := cut.symm.trans closed.uncut
  obtain ⟨rfl, same⟩ := List.append_inj' only rfl
  obtain rfl := List.singleton_inj.1 same
  rw [whole, List.append_nil]
  rfl

theorem scan_append {word : List Char} (closed : ClosedWord word) (rest : List Char) :
    Quoting.initial.scan (word ++ ' ' :: rest) = Quoting.initial.scan rest := by
  rw [Quoting.scan_append, Quoting.scan_cons, next_space_of_closed closed.closes]

end ClosedWord

private theorem pieces_cases (q : Quoting) (text : List Char) :
    pieces none q text = [⟨q, text⟩] ∨
      ∃ raw rest, text = raw ++ ' ' :: rest ∧ pieces none q raw = [⟨q, raw⟩] ∧
        (q.scan raw).isOpen = false ∧
          pieces none q text = ⟨q, raw⟩ :: pieces none .initial rest := by
  induction text generalizing q with
  | nil => exact .inl rfl
  | cons c text ih =>
      rw [pieces_cons]
      by_cases separates : (q.step c).2 = .separator
      · obtain rfl := Quoting.eq_space_of_separator separates
        have closed := Quoting.separates_iff.1 separates
        right
        refine ⟨[], text, rfl, rfl, closed, ?_⟩
        simp only [separates, cutsBehind?, next_space_of_closed closed]
      · rw [cutsBehind?_of_ne separates]
        rcases ih (q.next c) with uncut | ⟨raw, rest, rfl, uncut, closes, cut⟩
        · left
          rw [uncut, consPiece]
        · right
          refine ⟨c :: raw, rest, rfl, ?_, closes, ?_⟩
          · rw [pieces_cons, cutsBehind?_of_ne separates, uncut, consPiece]
          · rw [cut, consPiece]

private theorem closedWord_of_mem_pieces {text : List Char}
    (closed : (Quoting.initial.scan text).isOpen = false) :
    ∀ p ∈ pieces none .initial text, p.quoting = .initial ∧ ClosedWord p.raw := by
  generalize cut : pieces none .initial text = ps
  induction ps generalizing text with
  | nil => exact nofun
  | cons first later ih =>
      rcases pieces_cases .initial text with uncut | ⟨raw, rest, rfl, uncut, closes, split⟩
      · obtain ⟨rfl, rfl⟩ := List.cons.inj (cut.symm.trans uncut)
        intro p member
        obtain rfl := List.mem_singleton.1 member
        exact ⟨rfl, uncut, closed⟩
      · have word : ClosedWord raw := ⟨uncut, closes⟩
        obtain ⟨rfl, rest'⟩ := List.cons.inj (cut.symm.trans split)
        rw [word.scan_append] at closed
        intro p member
        rcases List.mem_cons.1 member with rfl | isLater
        · exact ⟨rfl, word⟩
        · exact ih closed rest'.symm p isLater

section Joined

variable {words : List (List Char)}

private theorem pieces_intercalate (each : ∀ word ∈ words, ClosedWord word) (nonempty : words ≠ []) :
    pieces none .initial (List.intercalate [' '] words) =
      words.map fun word => ⟨.initial, word⟩ := by
  induction words with
  | nil => contradiction
  | cons word rest ih =>
      have first := each word List.mem_cons_self
      cases rest with
      | nil =>
          rw [List.intercalate_singleton]
          exact first.uncut
      | cons next rest =>
          have later :=
            ih (fun other member => each other (List.mem_cons_of_mem _ member)) (by simp)
          rw [List.intercalate_cons_cons, List.append_assoc, List.singleton_append,
            first.pieces_append, later]
          rfl

private theorem isOpen_scan_intercalate (each : ∀ word ∈ words, ClosedWord word) :
    (Quoting.initial.scan (List.intercalate [' '] words)).isOpen = false := by
  induction words with
  | nil => rfl
  | cons word rest ih =>
      have first := each word List.mem_cons_self
      cases rest with
      | nil =>
          rw [List.intercalate_singleton]
          exact first.closes
      | cons next rest =>
          rw [List.intercalate_cons_cons, List.append_assoc, List.singleton_append,
            first.scan_append]
          exact ih fun other member => each other (List.mem_cons_of_mem _ member)

private theorem map_raw_tokenize_intercalate (each : ∀ word ∈ words, ClosedWord word ∧ word ≠ []) :
    (tokenize (List.intercalate [' '] words)).map Token.raw = words := by
  by_cases wordless : words = []
  · subst words
    rfl
  · have nonempty : List.intercalate [' '] words ≠ [] := by
      obtain ⟨word, rest, rfl⟩ := List.exists_cons_of_ne_nil wordless
      have visible := (each word List.mem_cons_self).2
      cases rest with
      | nil => simpa using visible
      | cons next rest => simp [List.intercalate_cons_cons]
    rw [tokenize, tokensFrom_unlimited nonempty, map_raw_tokensOf,
      pieces_intercalate (fun word member => (each word member).1) wordless, List.map_map]
    exact List.map_id words

end Joined

private theorem exists_piece_of_mem_tokensOf {index start : Nat} {ps : List Piece} {t : Token}
    (member : t ∈ tokensOf index start ps) : ∃ p ∈ ps, t.raw = p.raw ∧ t.value = p.value := by
  induction ps generalizing index start with
  | nil => contradiction
  | cons p rest ih =>
      rcases List.mem_cons.1 member with rfl | later
      · exact ⟨p, List.mem_cons_self, rfl, rfl⟩
      · obtain ⟨other, found, same⟩ := ih later
        exact ⟨other, List.mem_cons_of_mem p found, same⟩

theorem closedWord_of_mem_tokenize {text : List Char}
    (closed : (Quoting.initial.scan text).isOpen = false) :
    ∀ t ∈ tokenize text, ClosedWord t.raw ∧ t.value = unquote t.raw := by
  intro t member
  by_cases empty : text = []
  · subst text
    contradiction
  · rw [tokenize, tokensFrom_unlimited empty] at member
    obtain ⟨p, isPiece, raw, value⟩ := exists_piece_of_mem_tokensOf member
    obtain ⟨begun, word⟩ := closedWord_of_mem_pieces closed p isPiece
    rw [raw, value, Piece.value, begun, unquote_eq]
    exact ⟨word, rfl⟩

private theorem getLast?_joinedLines_ne_space {group : List (List Char)} (lines : group ≠ []) :
    (joinedLines group).getLast? ≠ some ' ' := by
  have trimmed (line : List Char) : (Text.trim line).getLast? ≠ some ' ' := by
    intro last
    have notBlank := (Text.trim_eq_self_iff.1 (Text.trim_trim line)).2 ' ' last
    exact absurd notBlank (by decide)
  obtain ⟨front, line, rfl⟩ := (List.eq_nil_or_concat group).resolve_left lines
  cases front with
  | nil => simpa using trimmed line
  | cons first front =>
      rw [List.concat_eq_append, joinedLines_concat (List.cons_ne_nil _ _), List.getLast?_append,
        List.getLast?_cons]
      cases last : (Text.trim line).getLast? with
      | none => simp
      | some c => simpa [last] using trimmed line

namespace Statement

/-- The statement of the words that are not empty, with one space between them. -/
def compacted (s : Statement) : Statement :=
  .ofText (List.intercalate [' '] ((s.tokens.map Token.raw).filter (· ≠ [])))

variable {s : Statement}

theorem closedWord_of_mem (closed : (Quoting.initial.scan s.text).isOpen = false) {word : List Char}
    (member : word ∈ (s.tokens.map Token.raw).filter (· ≠ [])) : ClosedWord word ∧ word ≠ [] := by
  obtain ⟨isWord, visible⟩ := List.mem_filter.1 member
  obtain ⟨t, isToken, rfl⟩ := List.mem_map.1 isWord
  exact ⟨(closedWord_of_mem_tokenize closed t isToken).1, of_decide_eq_true visible⟩

private theorem map_raw_compacted (closed : (Quoting.initial.scan s.text).isOpen = false) :
    s.compacted.tokens.map Token.raw = (s.tokens.map Token.raw).filter (· ≠ []) :=
  map_raw_tokenize_intercalate fun _ => closedWord_of_mem closed

theorem isOpen_scan_compacted (closed : (Quoting.initial.scan s.text).isOpen = false) :
    (Quoting.initial.scan s.compacted.text).isOpen = false :=
  isOpen_scan_intercalate fun _ member => (closedWord_of_mem closed member).1

theorem text_compacted (visible : [] ∉ s.tokens.map Token.raw) : s.compacted.text = s.text := by
  have all : (s.tokens.map Token.raw).filter (· ≠ []) = s.tokens.map Token.raw := by
    apply List.filter_eq_self.2
    intro word member
    apply decide_eq_true
    rintro rfl
    exact visible member
  rw [compacted, ofText, all]
  exact intercalate_raw_tokensFrom .initial (-1) s.text

private theorem getLast?_text_ne_space {lines : List (List Char)} {s : Statement}
    (member : s ∈ statements lines) : s.text.getLast? ≠ some ' ' := by
  rw [statements_eq] at member
  obtain ⟨group, found, number, rfl⟩ := mem_numberedFrom member
  exact getLast?_joinedLines_ne_space ((greedyGroups_groupsAfter lines).nonempty group found)

theorem closed_of_complete {lines : List (List Char)} {s : Statement}
    (member : s ∈ statements lines) (complete : s.complete = true) :
    (Quoting.initial.scan s.text).isOpen = false := by
  rw [statements_eq] at member
  obtain ⟨group, -, number, rfl⟩ := mem_numberedFrom member
  simpa [ofGroup, leavesOpen] using complete

def operands (s : Statement) : List (List Char) :=
  (s.tokens.map Token.raw).tail.filter (· ≠ [])

section Compacted

variable {s : Statement} (closed : (Quoting.initial.scan s.text).isOpen = false)
  (headed : s.head ≠ [])

include closed headed

theorem exists_words_compacted : ∃ first later, s.tokens.map Token.raw = first :: later ∧
    s.compacted.tokens.map Token.raw = first :: later.filter (· ≠ []) := by
  obtain ⟨first, later, words⟩ := exists_map_raw headed
  have visible : first ≠ [] := by
    rintro rfl
    rw [(head_of_map_raw words).1] at headed
    contradiction
  refine ⟨first, later, words, ?_⟩
  rw [map_raw_compacted closed, words, List.filter_cons]
  simp [visible]

theorem head_compacted : s.compacted.head = s.head := by
  obtain ⟨first, later, words, words'⟩ := exists_words_compacted closed headed
  rw [(head_of_map_raw words).1, (head_of_map_raw words').1]

theorem operands_compacted : s.compacted.operands = s.operands := by
  obtain ⟨first, later, words, words'⟩ := exists_words_compacted closed headed
  rw [operands, operands, words, words', List.tail_cons, List.tail_cons, List.filter_filter]
  simp

theorem length_arguments_compacted : s.compacted.arguments.length = s.operands.length := by
  obtain ⟨first, later, words, words'⟩ := exists_words_compacted closed headed
  rw [arguments, operands, ← List.length_map Token.raw, List.map_tail, words, words']
  rfl

theorem assignedName?_compacted : s.compacted.assignedName? = s.assignedName? := by
  obtain ⟨first, later, words, words'⟩ := exists_words_compacted closed headed
  have passed : (later.filter (· ≠ [])).find? (fun word => word ≠ [] && word.head? ≠ some '-') =
      later.find? fun word => word ≠ [] && word.head? ≠ some '-' := by
    rw [List.find?_filter]
    congr 1
    funext word
    simp
  rw [assignedName?, assignedName?, assignedWord, assignedWord, words, words']
  dsimp only
  rw [passed]

end Compacted

/-- A complete statement does not end with a space, so that a single argument is not empty. -/
theorem length_arguments_ne_one {lines : List (List Char)} {s : Statement}
    (member : s ∈ statements lines) (other : s.operands.length ≠ 1) : s.arguments.length ≠ 1 := by
  intro single
  have joined := intercalate_raw_tokensFrom .initial (-1) s.text
  rw [arguments, ← List.length_map Token.raw, List.map_tail, List.length_eq_one_iff] at single
  obtain ⟨word, rest⟩ := single
  rw [operands, rest] at other
  obtain ⟨first, words⟩ : ∃ first, s.tokens.map Token.raw = [first, word] := by
    cases words : s.tokens.map Token.raw with
    | nil =>
        rw [words] at rest
        contradiction
    | cons first later =>
        rw [words] at rest
        exact ⟨first, congrArg (first :: ·) rest⟩
  obtain rfl : word = [] := by
    by_contra visible
    simp [visible] at other
  change List.intercalate [' '] (s.tokens.map Token.raw) = s.text at joined
  rw [words, List.intercalate_cons_cons, List.intercalate_singleton, List.append_nil] at joined
  apply getLast?_text_ne_space member
  rw [← joined, List.getLast?_concat]

end Statement

end PkgRecipe.Shell
