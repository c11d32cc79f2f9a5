import Mathlib.Data.List.Forall2
import PkgRecipe.Proofs.Shell.Declaring
import PkgRecipe.Proofs.Shell.Expansion
import PkgRecipe.Proofs.Shell.Grouping
import PkgRecipe.Proofs.Text.Lines

namespace PkgRecipe.Shell

/-! Texts of closed statements. Put one under the other they are read as just these statements, and
neither removing the expansions of such a text nor changing its first word opens it. -/

/-- A text whose lines are those of one statement. -/
structure ClosedText (text : List Char) : Prop where
  trimmed : ∀ line ∈ text.splitOn '\n', Text.trim line = line
  waits : ∀ before after, text = before ++ '\n' :: after →
    (Quoting.initial.scan before).isOpen = true
  closes : (Quoting.initial.scan text).isOpen = false

private theorem joinedLines_of_trimmed {lines : List (List Char)}
    (trimmed : ∀ line ∈ lines, Text.trim line = line) :
    joinedLines lines = List.intercalate ['\n'] lines := by
  rw [joinedLines, List.map_congr_left trimmed, List.map_id']

namespace ClosedText

variable {text : List Char}

theorem joinedLines_eq (closed : ClosedText text) : joinedLines (text.splitOn '\n') = text := by
  rw [joinedLines_of_trimmed closed.trimmed, List.intercalate_splitOn]

theorem leavesOpen_eq (closed : ClosedText text) : leavesOpen (text.splitOn '\n') = false := by
  rw [leavesOpen, closed.joinedLines_eq, closed.closes]

private theorem leavesOpen_of_prefix_of_ne (closed : ClosedText text) {part : List (List Char)}
    (isPart : part <+: text.splitOn '\n') (lines : part ≠ []) (proper : part ≠ text.splitOn '\n') :
    leavesOpen part = true := by
  obtain ⟨rest, split⟩ := isPart
  have more : rest ≠ [] := by
    rintro rfl
    rw [List.append_nil] at split
    exact proper split
  apply closed.waits _ (joinedLines rest)
  rw [← joinedLines_append lines more, split, closed.joinedLines_eq]

end ClosedText

theorem greedyGroups_closedTexts {texts : List (List Char)}
    (closed : ∀ text ∈ texts, ClosedText text) :
    GreedyGroups (texts.flatMap (·.splitOn '\n')) (texts.map (·.splitOn '\n')) where
  covers := rfl
  nonempty := by
    intro group member
    obtain ⟨text, -, rfl⟩ := List.mem_map.1 member
    exact List.splitOn_ne_nil _ _
  waits := by
    intro group member part isPart lines proper
    obtain ⟨text, isText, rfl⟩ := List.mem_map.1 member
    exact (closed text isText).leavesOpen_of_prefix_of_ne isPart lines proper
  closes := by
    intro group member
    obtain ⟨text, isText, rfl⟩ := List.mem_map.1 ((List.dropLast_sublist _).subset member)
    exact (closed text isText).leavesOpen_eq

theorem statements_closedTexts {texts : List (List Char)}
    (closed : ∀ text ∈ texts, ClosedText text) :
    statements (texts.flatMap (·.splitOn '\n')) = numberedFrom 1 (texts.map (·.splitOn '\n')) := by
  rw [statements_eq, (greedyGroups_closedTexts closed).unique (greedyGroups_groupsAfter _)]

/-- Two closed texts, one under the other, are two statements. -/
theorem statements_two_closedTexts {first second : List Char} (closed : ClosedText first)
    (closed' : ClosedText second) :
    ∃ number, statements ((first ++ '\n' :: second).splitOn '\n') =
      [⟨first, 1, true⟩, ⟨second, number, true⟩] := by
  have each : ∀ text ∈ [first, second], ClosedText text := by
    intro text member
    simp only [List.mem_cons, List.not_mem_nil, or_false] at member
    rcases member with rfl | rfl
    · exact closed
    · exact closed'
  have read := statements_closedTexts each
  simp only [List.flatMap_cons, List.flatMap_nil, List.append_nil, List.map_cons, List.map_nil,
    numberedFrom, Statement.ofGroup, closed.joinedLines_eq, closed'.joinedLines_eq,
    closed.leavesOpen_eq, closed'.leavesOpen_eq] at read
  rw [List.splitOn_append_cons_self]
  exact ⟨_, read⟩

theorem mem_numberedFrom {number : Nat} {groups : List (List (List Char))} {s : Statement}
    (member : s ∈ numberedFrom number groups) :
    ∃ group ∈ groups, ∃ number, s = .ofGroup number group := by
  induction groups generalizing number with
  | nil => contradiction
  | cons group rest ih =>
      rcases List.mem_cons.1 member with rfl | later
      · exact ⟨group, by simp, number, rfl⟩
      · obtain ⟨other, found, place⟩ := ih later
        exact ⟨other, List.mem_cons_of_mem _ found, place⟩

theorem closedText_joinedLines {group : List (List Char)} (lines : group ≠ [])
    (single : ∀ line ∈ group, '\n' ∉ Text.trim line)
    (waits : ∀ part, part <+: group → part ≠ [] → part ≠ group → leavesOpen part = true)
    (closes : leavesOpen group = false) : ClosedText (joinedLines group) := by
  have split : (joinedLines group).splitOn '\n' = group.map Text.trim := by
    apply List.splitOn_intercalate
    · simpa using single
    · simpa using lines
  refine ⟨?_, ?_, closes⟩
  · intro line member
    rw [split] at member
    obtain ⟨untrimmed, -, rfl⟩ := List.mem_map.1 member
    exact Text.trim_trim untrimmed
  · intro before after cut
    -- The text before the line end is that of the group's lines up to there.
    rw [cut, List.splitOn_append_cons_self] at split
    have taken : (group.take (before.splitOn '\n').length).map Text.trim = before.splitOn '\n' := by
      rw [List.map_take, ← split, List.take_left]
    have shorter : (before.splitOn '\n').length < group.length := by
      have count := congrArg List.length split
      have positive := List.length_pos_iff.2 (List.splitOn_ne_nil '\n' after)
      rw [List.length_append, List.length_map] at count
      omega
    have isOpen := waits (group.take (before.splitOn '\n').length) (List.take_prefix _ _) ?_ ?_
    · rwa [leavesOpen, joinedLines, taken, List.intercalate_splitOn] at isOpen
    · intro nothing
      rw [nothing] at taken
      exact List.splitOn_ne_nil '\n' before taken.symm
    · intro whole
      have count := congrArg List.length whole
      rw [List.length_take] at count
      omega

theorem closedText_of_mem_statements {lines : List (List Char)} {s : Statement}
    (single : ∀ line ∈ lines, '\n' ∉ Text.trim line) (member : s ∈ statements lines)
    (complete : s.complete = true) : ClosedText s.text := by
  have greedy := greedyGroups_groupsAfter lines
  rw [statements_eq] at member
  obtain ⟨group, found, number, rfl⟩ := mem_numberedFrom member
  refine closedText_joinedLines (greedy.nonempty group found) ?_ (greedy.waits group found) ?_
  · intro line isLine
    apply single line
    rw [← greedy.covers]
    exact List.mem_flatten.2 ⟨group, found, isLine⟩
  · simpa [Statement.ofGroup] using complete

namespace Backslashed

variable {text escaped : List Char}

theorem trim_eq (backslashed : Backslashed text escaped) (trimmed : Text.trim text = text) :
    Text.trim escaped = escaped := by
  rw [Text.trim_eq_self_iff] at trimmed ⊢
  obtain ⟨first, last⟩ := trimmed
  constructor
  · intro c isFirst
    cases backslashed with
    | nil => simp at isFirst
    | kept =>
        obtain rfl := Option.some.inj isFirst
        exact first _ rfl
    | marked =>
        obtain rfl := Option.some.inj isFirst
        decide
  · have ends : escaped.getLast? = text.getLast? := by
      clear first last
      induction backslashed with
      | nil => rfl
      | kept c _ ih => simp only [List.getLast?_cons, ih]
      | marked _ _ ih => simp only [List.getLast?_cons, ih, Option.getD_some]
    rwa [ends]

private theorem forall₂_modifyHead {before after : List (List Char)} {f g : List Char → List Char}
    (paired : List.Forall₂ Backslashed before after)
    (step : ∀ line escaped, Backslashed line escaped → Backslashed (f line) (g escaped)) :
    List.Forall₂ Backslashed (before.modifyHead f) (after.modifyHead g) := by
  cases paired with
  | nil => exact .nil
  | cons line later => exact .cons (step _ _ line) later

theorem splitOn (backslashed : Backslashed text escaped) :
    List.Forall₂ Backslashed (text.splitOn '\n') (escaped.splitOn '\n') := by
  induction backslashed with
  | nil => exact .cons .nil .nil
  | @kept text escaped c _ ih =>
      rw [List.splitOn_cons_eq_if_modifyHead, List.splitOn_cons_eq_if_modifyHead]
      split
      · exact .cons .nil ih
      · exact forall₂_modifyHead ih fun _ _ => .kept c
  | @marked text escaped c marks _ ih =>
      have notEnd : ¬(c == '\n') = true := by rcases marks with rfl | rfl <;> decide
      rw [List.splitOn_cons_eq_if_modifyHead, List.splitOn_cons_eq_if_modifyHead,
        List.splitOn_cons_eq_if_modifyHead, if_neg notEnd, if_neg notEnd, if_neg (by decide),
        List.modifyHead_modifyHead]
      exact forall₂_modifyHead ih fun _ _ => .marked marks

end Backslashed

private theorem isExpansion_append_lineEnd (mode : Mode) (c : Char) (first second : List Char) :
    isExpansion mode c (first ++ '\n' :: second) = isExpansion mode c first := by
  have opens : opensQuote mode (first ++ '\n' :: second) = opensQuote mode first := by
    rw [Bool.eq_iff_iff, opensQuote_iff, opensQuote_iff]
    cases first <;> simp
  simp only [isExpansion, opens]

/-- A line end in a text without expansions stands where one stood before. -/
theorem exists_of_withoutExpansionsFrom_eq {q : Quoting} {text before after : List Char}
    (cut : withoutExpansionsFrom q text = before ++ '\n' :: after) :
    ∃ first second, text = first ++ '\n' :: second ∧ withoutExpansionsFrom q first = before := by
  induction text generalizing q before with
  | nil => simp at cut
  | cons c rest ih =>
      cases expansion : isExpansion q.mode c rest with
      | true =>
          have notEnd : c ≠ '\n' := by
            rcases (isExpansion_iff.1 expansion).2 with rfl | ⟨rfl, -⟩ <;> decide
          rw [withoutExpansionsFrom_cons_of_isExpansion expansion] at cut
          obtain ⟨rfl, here⟩ | ⟨behind, rfl, marked⟩ := List.cons_eq_append_iff.1 cut
          · exact absurd (List.cons.inj here).1 (by decide)
          · obtain ⟨rfl, here⟩ | ⟨later, rfl, further⟩ := List.cons_eq_append_iff.1 marked
            · exact absurd (List.cons.inj here).1.symm notEnd
            · obtain ⟨first, second, rfl, rfl⟩ := ih further
              rw [isExpansion_append_lineEnd] at expansion
              exact ⟨c :: first, second, rfl, withoutExpansionsFrom_cons_of_isExpansion expansion⟩
      | false =>
          rw [withoutExpansionsFrom_cons_of_not_isExpansion expansion] at cut
          obtain ⟨rfl, here⟩ | ⟨later, rfl, further⟩ := List.cons_eq_append_iff.1 cut
          · obtain ⟨rfl, -⟩ := List.cons.inj here
            exact ⟨[], rest, rfl, rfl⟩
          · obtain ⟨first, second, rfl, rfl⟩ := ih further
            rw [isExpansion_append_lineEnd] at expansion
            exact ⟨c :: first, second, rfl, withoutExpansionsFrom_cons_of_not_isExpansion expansion⟩

theorem isOpen_scan_withoutExpansions (text : List Char) :
    (Quoting.initial.scan (withoutExpansions text)).isOpen =
      (Quoting.initial.scan text).isOpen :=
  (Tracks.same Quoting.initial).scan.isOpen_eq

theorem ClosedText.withoutExpansions {text : List Char} (closed : ClosedText text) :
    ClosedText (withoutExpansions text) where
  trimmed := by
    intro line member
    obtain ⟨count, paired⟩ :=
      List.forall₂_iff_get.1 (backslashed_withoutExpansionsFrom .initial text).splitOn
    obtain ⟨i, rfl⟩ := List.mem_iff_get.1 member
    have bound : i.val < (text.splitOn '\n').length :=
      lt_of_lt_of_eq i.isLt count.symm
    exact (paired i bound i.isLt).trim_eq (closed.trimmed _ (List.get_mem _ _))
  waits := by
    intro before after cut
    obtain ⟨first, second, rfl, rfl⟩ := exists_of_withoutExpansionsFrom_eq cut
    rw [← withoutExpansions.eq_1, isOpen_scan_withoutExpansions]
    exact closed.waits first second rfl
  closes := by
    rw [isOpen_scan_withoutExpansions, closed.closes]

/-- A character that stands for itself in a word and ends none. -/
def IsWordText (c : Char) : Prop :=
  IsPlain c ∧ Text.isBlank c = false

theorem scan_initial_of_isPlain {word : List Char} (plain : ∀ c ∈ word, IsPlain c) :
    Quoting.initial.scan word = .initial := by
  induction word with
  | nil => rfl
  | cons c rest ih =>
      have stays : Quoting.initial.step c = (.initial, .literal) := plain c (by simp)
      rw [Quoting.scan_cons, Quoting.next, stays]
      exact ih fun d member => plain d (List.mem_cons_of_mem _ member)

theorem lineEnd_notMem {word : List Char} (plain : ∀ c ∈ word, IsWordText c) : '\n' ∉ word :=
  fun member => absurd (plain _ member).2 (by decide)

theorem not_isBlank_of_getLast? {word : List Char} (plain : ∀ c ∈ word, IsWordText c) :
    ∀ c ∈ word.getLast?, Text.isBlank c = false :=
  fun c last => (plain c (List.mem_of_getLast? last)).2

private theorem trim_append_of_isWordText {word other rest : List Char} (nonempty : other ≠ [])
    (plain : ∀ c ∈ other, IsWordText c) (trimmed : Text.trim (word ++ rest) = word ++ rest) :
    Text.trim (other ++ rest) = other ++ rest := by
  rw [Text.trim_eq_self_iff] at trimmed ⊢
  constructor
  · obtain ⟨first, more, rfl⟩ := List.exists_cons_of_ne_nil nonempty
    intro c isFirst
    obtain rfl := Option.some.inj isFirst
    exact (plain first (by simp)).2
  · intro c isLast
    rw [List.getLast?_append] at isLast
    cases last : rest.getLast? with
    | none =>
        rw [last] at isLast
        exact not_isBlank_of_getLast? plain c isLast
    | some final =>
        apply trimmed.2
        rw [last] at isLast
        rw [List.getLast?_append, last]
        exact isLast

theorem ClosedText.replace {word other rest : List Char} (closed : ClosedText (word ++ rest))
    (nonempty : other ≠ []) (plain : ∀ c ∈ word, IsWordText c) (plain' : ∀ c ∈ other, IsWordText c) :
    ClosedText (other ++ rest) where
  trimmed := by
    intro line member
    have trimmed := closed.trimmed
    rw [Text.splitOn_append_of_notMem (lineEnd_notMem plain)] at trimmed
    rw [Text.splitOn_append_of_notMem (lineEnd_notMem plain')] at member
    obtain ⟨first, later, split⟩ := List.exists_cons_of_ne_nil (List.splitOn_ne_nil '\n' rest)
    rw [split, List.modifyHead_cons] at trimmed member
    rcases List.mem_cons.1 member with rfl | isLater
    · exact trim_append_of_isWordText nonempty plain' (trimmed _ List.mem_cons_self)
    · exact trimmed line (List.mem_cons_of_mem _ isLater)
  waits := by
    intro before after cut
    obtain ⟨behind, rfl, here⟩ | ⟨behind, rfl, here⟩ := List.append_eq_append_iff.1 cut
    · have isOpen := closed.waits (word ++ behind) after (by rw [here, List.append_assoc])
      rw [Quoting.scan_append, scan_initial_of_isPlain fun c member => (plain c member).1] at isOpen
      rw [Quoting.scan_append, scan_initial_of_isPlain fun c member => (plain' c member).1]
      exact isOpen
    · cases behind with
      | nil =>
          have isOpen := closed.waits word after (by rw [here, List.nil_append])
          rw [scan_initial_of_isPlain fun c member => (plain c member).1] at isOpen
          contradiction
      | cons c more =>
          obtain rfl := (List.cons.inj here).1
          exact absurd (by simp) (lineEnd_notMem plain')
  closes := by
    have closes := closed.closes
    rw [Quoting.scan_append, scan_initial_of_isPlain fun c member => (plain c member).1] at closes
    rw [Quoting.scan_append, scan_initial_of_isPlain fun c member => (plain' c member).1]
    exact closes

end PkgRecipe.Shell
