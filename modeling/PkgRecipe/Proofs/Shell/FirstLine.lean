import Mathlib.Data.List.TakeWhile
import PkgRecipe.Proofs.Shell.Grouping
import PkgRecipe.Proofs.Shell.Resumed
import PkgRecipe.Shell.Classifier

namespace PkgRecipe.Shell

def firstLine (text : List Char) : List Char :=
  text.takeWhile (· ≠ '\n')

private theorem firstLine_of_notMem {text : List Char} (oneLine : '\n' ∉ text) : firstLine text = text := by
  apply List.takeWhile_eq_self_iff.2
  intro c member
  apply decide_eq_true
  rintro rfl
  exact oneLine member

theorem firstLine_append (line rest : List Char) :
    firstLine (line ++ '\n' :: rest) = firstLine line := by
  induction line with
  | nil => rfl
  | cons c line ih =>
      by_cases ends : c = '\n'
      · subst c
        rfl
      · have keeps (behind : List Char) : firstLine (c :: behind) = c :: firstLine behind :=
          List.takeWhile_cons_of_pos (by simpa using ends)
        rw [List.cons_append, keeps, keeps, ih]

theorem eq_firstLine_or (text : List Char) :
    text = firstLine text ∨ ∃ rest, text = firstLine text ++ '\n' :: rest := by
  by_cases ends : '\n' ∈ text
  · obtain ⟨line, rest, rfl, oneLine⟩ := List.eq_append_cons_of_mem ends
    right
    refine ⟨rest, ?_⟩
    rw [firstLine_append, firstLine_of_notMem oneLine]
  · exact .inl (firstLine_of_notMem ends).symm

private theorem exists_pieces_lineEnd (q : Quoting) (rest : List Char) :
    ∃ raw later, pieces none q ('\n' :: rest) = ⟨q, '\n' :: raw⟩ :: later := by
  have joins : (q.step '\n').2 ≠ .separator := by
    intro separates
    exact absurd (Quoting.eq_space_of_separator separates) (by decide)
  obtain ⟨raw, later, cut⟩ := exists_pieces_eq_cons none (q.next '\n') rest
  rw [pieces_cons, cutsBehind?_of_ne joins, cut]
  exact ⟨raw, later, rfl⟩

namespace Statement

def ofText (text : List Char) : Statement :=
  { text }

theorem head_eq (s : Statement) :
    s.head = firstLine (((pieces none .initial s.text).map Piece.raw).headD []) := by
  by_cases empty : s.text = []
  · rw [head, tokens, tokenize, tokensFrom_eq_nil_iff.2 empty, empty]
    rfl
  · rw [head, tokens, tokenize, tokensFrom_unlimited empty]
    cases pieces none .initial s.text with
    | nil => rfl
    | cons p later => rfl

theorem head_of_map_raw {s : Statement} {raw : List Char} {later : List (List Char)}
    (words : s.tokens.map Token.raw = raw :: later) : s.head = firstLine raw ∧ raw <+: s.text := by
  cases read : s.tokens with
  | nil =>
      rw [read] at words
      contradiction
  | cons token others =>
      rw [read] at words
      obtain ⟨rfl, -⟩ := List.cons.inj words
      refine ⟨?_, raw_prefix_of_tokensFrom read⟩
      rw [head, read]
      rfl

theorem exists_map_raw {s : Statement} (headed : s.head ≠ []) :
    ∃ raw later, s.tokens.map Token.raw = raw :: later := by
  apply List.exists_cons_of_ne_nil
  intro wordless
  rw [List.map_eq_nil_iff] at wordless
  rw [head, wordless] at headed
  contradiction

/-- A line end belongs to the word in front of it, of which the head keeps only what stands before
the line end. -/
theorem head_ofText_append (line rest : List Char) :
    (ofText (line ++ '\n' :: rest)).head = (ofText line).head := by
  obtain ⟨front, last, raw, back, cut, -, behind, whole⟩ :=
    pieces_append .initial line ('\n' :: rest)
  obtain ⟨raw', later, begun⟩ := exists_pieces_lineEnd (Quoting.initial.scan line) rest
  rw [begun] at behind
  obtain ⟨first, rfl⟩ := List.cons.inj behind
  obtain rfl := (Piece.mk.inj first).2
  rw [head_eq, head_eq, ofText, ofText, cut, whole]
  cases front with
  | nil => exact firstLine_append last.raw raw'
  | cons p front => rfl

theorem head_firstLine (text : List Char) :
    (ofText (firstLine text)).head = (ofText text).head := by
  rcases eq_firstLine_or text with whole | ⟨rest, whole⟩
  · rw [← whole]
  · calc
      _ = (ofText (firstLine text ++ '\n' :: rest)).head := (head_ofText_append _ rest).symm
      _ = (ofText text).head := by rw [← whole]

private theorem exists_line_of_mem_numberedFrom {number : Nat} {groups : List (List (List Char))}
    (nonempty : ∀ group ∈ groups, group ≠ []) {s : Statement}
    (member : s ∈ numberedFrom number groups) :
    ∃ before line after, groups.flatten = before ++ line :: after ∧
      s.lineNumber = number + before.length ∧ s.head = (ofText (Text.trim line)).head := by
  induction groups generalizing number with
  | nil => contradiction
  | cons group rest ih =>
      obtain ⟨line, more, rfl⟩ := List.exists_cons_of_ne_nil (nonempty group List.mem_cons_self)
      rcases List.mem_cons.1 member with rfl | later
      · refine ⟨[], line, more ++ rest.flatten, rfl, rfl, ?_⟩
        cases more with
        | nil => exact congrArg (fun text => (ofText text).head) (joinedLines_singleton line)
        | cons next more =>
            have joined :=
              joinedLines_append (List.cons_ne_nil line []) (List.cons_ne_nil next more)
            rw [joinedLines_singleton] at joined
            calc
              _ = (ofText (Text.trim line ++ '\n' :: joinedLines (next :: more))).head :=
                congrArg (fun text => (ofText text).head) joined
              _ = (ofText (Text.trim line)).head := head_ofText_append _ _
      · have nonempty' : ∀ group ∈ rest, group ≠ [] := fun group isLater =>
          nonempty group (List.mem_cons_of_mem _ isLater)
        obtain ⟨before, first, after, cover, place, same⟩ := ih nonempty' later
        refine ⟨line :: more ++ before, first, after, ?_, ?_, same⟩
        · rw [List.flatten_cons, cover, List.append_assoc]
        · rw [place, List.length_append, Nat.add_assoc]

end Statement

namespace Classifier

variable (c : Classifier)

theorem functionName?_congr {s t : Statement} (same : s.head = t.head) :
    c.functionName? s = c.functionName? t := by
  rw [functionName?, functionName?, same]

theorem kind_congr {s t : Statement} (same : s.head = t.head) : c.kind s = c.kind t := by
  rw [kind, kind, same, c.functionName?_congr same]

/-- The kind of a text and the life cycle function that it opens are those of its first line. So a
statement is of the kind of the line that it begins on, whatever the lines behind it hold. -/
theorem kind_firstLine :
    (∀ text, c.kind (.ofText text) = c.kind (.ofText (firstLine text)) ∧
      c.functionName? (.ofText text) = c.functionName? (.ofText (firstLine text))) ∧
    ∀ lines, ∀ s ∈ statements lines, ∃ before line after,
      lines = before ++ line :: after ∧ s.lineNumber = before.length + 1 ∧
        c.kind s = c.kind (.ofText (Text.trim line)) ∧
        c.functionName? s = c.functionName? (.ofText (Text.trim line)) := by
  constructor
  · intro text
    have same := (Statement.head_firstLine text).symm
    exact ⟨c.kind_congr same, c.functionName?_congr same⟩
  · intro lines s member
    have greedy := greedyGroups_groupsAfter lines
    rw [statements_eq] at member
    obtain ⟨before, line, after, cover, place, same⟩ :=
      Statement.exists_line_of_mem_numberedFrom greedy.nonempty member
    refine ⟨before, line, after, ?_, ?_, c.kind_congr same, c.functionName?_congr same⟩
    · rw [← cover, greedy.covers]
    · rw [place, Nat.add_comm]

end Classifier

end PkgRecipe.Shell
