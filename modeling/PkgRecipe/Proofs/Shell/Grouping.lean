import PkgRecipe.Proofs.Text.Lines
import PkgRecipe.Shell.Statement

namespace PkgRecipe.Shell

/-! Statements as groups of lines. The lines are cut greedily: a group ends with the first line
behind which nothing is open. -/

def joinedLines (lines : List (List Char)) : List Char :=
  List.intercalate ['\n'] (lines.map Text.trim)

def leavesOpen (lines : List (List Char)) : Bool :=
  (Quoting.initial.scan (joinedLines lines)).isOpen

structure GreedyGroups (lines : List (List Char)) (groups : List (List (List Char))) : Prop where
  covers : groups.flatten = lines
  nonempty : ∀ group ∈ groups, group ≠ []
  waits : ∀ group ∈ groups, ∀ part, part <+: group → part ≠ [] → part ≠ group → leavesOpen part = true
  closes : ∀ group ∈ groups.dropLast, leavesOpen group = false

@[simp] theorem joinedLines_singleton (line : List Char) : joinedLines [line] = Text.trim line := by
  simp [joinedLines]

theorem joinedLines_append {first second : List (List Char)} (firstLines : first ≠ [])
    (secondLines : second ≠ []) :
    joinedLines (first ++ second) = joinedLines first ++ '\n' :: joinedLines second := by
  rw [joinedLines, List.map_append, Text.intercalate_append (by simpa using firstLines)
    (by simpa using secondLines)]
  rfl

theorem joinedLines_concat {taken : List (List Char)} (taking : taken ≠ []) (line : List Char) :
    joinedLines (taken ++ [line]) = joinedLines taken ++ '\n' :: Text.trim line := by
  rw [joinedLines_append taking (by simp), joinedLines_singleton]

private theorem joinedLines_flatten {groups : List (List (List Char))}
    (nonempty : ∀ group ∈ groups, group ≠ []) :
    joinedLines groups.flatten = List.intercalate ['\n'] (groups.map joinedLines) := by
  induction groups with
  | nil => rfl
  | cons group rest ih =>
      have later := ih fun other member => nonempty other (List.mem_cons_of_mem _ member)
      cases rest with
      | nil => simp
      | cons next last =>
          have lines : group ≠ [] := nonempty group (by simp)
          have others : (next :: last).flatten ≠ [] := by
            simp [nonempty next (by simp)]
          rw [List.flatten_cons, joinedLines_append lines others, later]
          simp [List.intercalate_cons_cons]

def groupsAfter (taken : List (List Char)) : List (List Char) → List (List (List Char))
  | [] => if taken = [] then [] else [taken]
  | line :: rest =>
      if leavesOpen (taken ++ [line]) then groupsAfter (taken ++ [line]) rest
      else (taken ++ [line]) :: groupsAfter [] rest

def Statement.ofGroup (number : Nat) (group : List (List Char)) : Statement :=
  ⟨joinedLines group, number, !leavesOpen group⟩

def numberedFrom (number : Nat) : List (List (List Char)) → List Statement
  | [] => []
  | group :: rest => .ofGroup number group :: numberedFrom (number + group.length) rest

@[simp] theorem length_numberedFrom (number : Nat) (groups : List (List (List Char))) :
    (numberedFrom number groups).length = groups.length := by
  induction groups generalizing number with
  | nil => rfl
  | cons group rest ih => simp [numberedFrom, ih]

private theorem map_text_numberedFrom (number : Nat) (groups : List (List (List Char))) :
    (numberedFrom number groups).map Statement.text = groups.map joinedLines := by
  induction groups generalizing number with
  | nil => rfl
  | cons group rest ih => simp [numberedFrom, ih, Statement.ofGroup]

private theorem getElem?_numberedFrom (number i : Nat) (groups : List (List (List Char))) :
    (numberedFrom number groups)[i]? =
      groups[i]?.map (.ofGroup (number + (groups.take i).flatten.length)) := by
  induction groups generalizing number i with
  | nil => rfl
  | cons group rest ih =>
      cases i with
      | zero => rfl
      | succ i => simp [numberedFrom, ih, Nat.add_assoc]

def OpenStatement.ofLines? (number : Nat) (taken : List (List Char)) : Option OpenStatement :=
  if taken = [] then none
  else some ⟨joinedLines taken, number, Quoting.initial.scan (joinedLines taken)⟩

theorem OpenStatement.extend_ofLines? (number : Nat) (taken : List (List Char))
    (line : List Char) :
    extend (ofLines? number taken) (number + taken.length) (Text.trim line) =
      ⟨joinedLines (taken ++ [line]), number,
        Quoting.initial.scan (joinedLines (taken ++ [line]))⟩ := by
  by_cases empty : taken = []
  · subst taken
    simp [ofLines?, extend]
  · simp [ofLines?, extend, empty, joinedLines_concat empty]

private theorem statementsAfter_ofLines? (number : Nat) (taken lines : List (List Char))
    (waiting : taken ≠ [] → leavesOpen taken = true) :
    statementsAfter (OpenStatement.ofLines? number taken) (number + taken.length) lines =
      numberedFrom number (groupsAfter taken lines) := by
  induction lines generalizing number taken with
  | nil =>
      by_cases empty : taken = []
      · simp [statementsAfter, OpenStatement.ofLines?, groupsAfter, numberedFrom, empty]
      · simp [statementsAfter, OpenStatement.ofLines?, groupsAfter, numberedFrom, empty,
          Statement.ofGroup, waiting empty]
  | cons line rest ih =>
      rw [statementsAfter, OpenStatement.extend_ofLines?, groupsAfter]
      have length : number + taken.length + 1 = number + (taken ++ [line]).length := by
        simp [Nat.add_assoc]
      rw [length]
      cases ends : leavesOpen (taken ++ [line]) with
      | true =>
          have later := ih number (taken ++ [line]) (fun _ => ends)
          rw [OpenStatement.ofLines?, if_neg (by simp)] at later
          rw [leavesOpen] at ends
          simpa only [ends, if_true] using later
      | false =>
          have later := ih (number + (taken ++ [line]).length) [] (by simp)
          rw [OpenStatement.ofLines?, if_pos rfl] at later
          have complete : Statement.ofGroup number (taken ++ [line]) =
              ⟨joinedLines (taken ++ [line]), number, true⟩ := by
            rw [Statement.ofGroup, ends]
            rfl
          rw [leavesOpen] at ends
          simp only [ends, Bool.false_eq_true, if_false, numberedFrom, complete]
          exact congrArg _ later

theorem statements_eq (lines : List (List Char)) :
    statements lines = numberedFrom 1 (groupsAfter [] lines) :=
  statementsAfter_ofLines? 1 [] lines (by simp)

theorem flatten_groupsAfter (taken lines : List (List Char)) :
    (groupsAfter taken lines).flatten = taken ++ lines := by
  induction lines generalizing taken with
  | nil => by_cases empty : taken = [] <;> simp [groupsAfter, empty]
  | cons line rest ih =>
      rw [groupsAfter]
      split
      · simp [ih]
      · simp [ih]

private theorem ne_nil_of_mem_groupsAfter {taken lines group : List (List Char)}
    (member : group ∈ groupsAfter taken lines) : group ≠ [] := by
  induction lines generalizing taken with
  | nil =>
      by_cases empty : taken = []
      · simp [groupsAfter, empty] at member
      · simp only [groupsAfter, empty, if_false, List.mem_singleton] at member
        exact member ▸ empty
  | cons line rest ih =>
      rw [groupsAfter] at member
      split at member
      · exact ih member
      · rcases List.mem_cons.1 member with rfl | later
        · simp
        · exact ih later

theorem leavesOpen_of_mem_groupsAfter {taken lines group part : List (List Char)}
    (waiting : ∀ part, part <+: taken → part ≠ [] → leavesOpen part = true)
    (member : group ∈ groupsAfter taken lines) (isPart : part <+: group) (lines' : part ≠ [])
    (proper : part ≠ group) : leavesOpen part = true := by
  induction lines generalizing taken with
  | nil =>
      by_cases empty : taken = []
      · simp [groupsAfter, empty] at member
      · simp only [groupsAfter, empty, if_false, List.mem_singleton] at member
        subst group
        exact waiting part isPart lines'
  | cons line rest ih =>
      rw [groupsAfter] at member
      split at member
      · rename_i stillOpen
        refine ih ?_ member
        intro other isPrefix' notEmpty
        rcases List.prefix_concat_iff.1 isPrefix' with rfl | shorter
        · exact stillOpen
        · exact waiting other shorter notEmpty
      · rcases List.mem_cons.1 member with rfl | later
        · rcases List.prefix_concat_iff.1 isPart with whole | shorter
          · exact absurd whole proper
          · exact waiting part shorter lines'
        · exact ih (by simp) later

private theorem leavesOpen_eq_false_of_mem_dropLast {taken lines group : List (List Char)}
    (member : group ∈ (groupsAfter taken lines).dropLast) : leavesOpen group = false := by
  induction lines generalizing taken with
  | nil => by_cases empty : taken = [] <;> simp [groupsAfter, empty] at member
  | cons line rest ih =>
      rw [groupsAfter] at member
      split at member
      · exact ih member
      · rename_i closed
        cases later : groupsAfter [] rest with
        | nil => simp [later] at member
        | cons next last =>
            rw [later, List.dropLast_cons_cons, List.mem_cons] at member
            rcases member with rfl | member
            · exact Bool.eq_false_iff.2 closed
            · exact ih (later ▸ member)

theorem greedyGroups_groupsAfter (lines : List (List Char)) :
    GreedyGroups lines (groupsAfter [] lines) where
  covers := flatten_groupsAfter [] lines
  nonempty := fun _ member => ne_nil_of_mem_groupsAfter member
  waits := fun _ member _ isPart lines proper =>
    leavesOpen_of_mem_groupsAfter (by simp) member isPart lines proper
  closes := fun _ member => leavesOpen_eq_false_of_mem_dropLast member

namespace GreedyGroups

variable {lines group other : List (List Char)} {rest more : List (List (List Char))}

theorem tail (greedy : GreedyGroups lines (group :: rest)) : GreedyGroups rest.flatten rest where
  covers := rfl
  nonempty := fun other member => greedy.nonempty other (List.mem_cons_of_mem _ member)
  waits := fun other member => greedy.waits other (List.mem_cons_of_mem _ member)
  closes := by
    intro other member
    apply greedy.closes
    cases rest with
    | nil => simp at member
    | cons next last => exact List.mem_cons_of_mem _ member

private theorem head_eq_of_prefix (greedy : GreedyGroups lines (group :: rest))
    (greedy' : GreedyGroups lines (other :: more)) (shorter : group <+: other) :
    group = other := by
  apply Classical.byContradiction
  intro proper
  have isOpen : leavesOpen group = true :=
    greedy'.waits other (by simp) group shorter (greedy.nonempty group (by simp)) proper
  cases rest with
  | nil =>
      have covers : group = other ++ more.flatten := by
        simpa using greedy.covers.trans greedy'.covers.symm
      have longer := congrArg List.length covers
      rw [List.length_append] at longer
      have bound := shorter.length_le
      exact proper (shorter.eq_of_length (by omega))
  | cons next last =>
      rw [greedy.closes group (by simp)] at isOpen
      contradiction

theorem head_eq (greedy : GreedyGroups lines (group :: rest))
    (greedy' : GreedyGroups lines (other :: more)) : group = other := by
  have first : group <+: lines := ⟨rest.flatten, greedy.covers⟩
  have second : other <+: lines := ⟨more.flatten, greedy'.covers⟩
  rcases List.prefix_or_prefix_of_prefix first second with shorter | shorter
  · exact greedy.head_eq_of_prefix greedy' shorter
  · exact (greedy'.head_eq_of_prefix greedy shorter).symm

theorem ne_nil (greedy : GreedyGroups lines (group :: rest)) : lines ≠ [] := by
  intro empty
  have covers := greedy.covers
  rw [empty, List.flatten_cons, List.append_eq_nil_iff] at covers
  exact greedy.nonempty group (by simp) covers.1

theorem unique {groups others : List (List (List Char))} (greedy : GreedyGroups lines groups)
    (greedy' : GreedyGroups lines others) : others = groups := by
  induction groups generalizing lines others with
  | nil =>
      cases others with
      | nil => rfl
      | cons other more => exact absurd greedy.covers.symm greedy'.ne_nil
  | cons group rest ih =>
      cases others with
      | nil => exact absurd greedy'.covers.symm greedy.ne_nil
      | cons other more =>
          obtain rfl := greedy.head_eq greedy'
          have covers := greedy.covers.trans greedy'.covers.symm
          rw [List.flatten_cons, List.flatten_cons, List.append_cancel_left_eq] at covers
          have later := greedy'.tail
          rw [← covers] at later
          rw [ih greedy.tail later]

end GreedyGroups

/-- The statements of lines are the groups of their one greedy partition, in order: the text of each
is its group, its number is that of the group's first line, and it is complete unless its text ends
open, which only the last one can. -/
theorem statements_greedy (lines : List (List Char)) :
    ∃ groups, GreedyGroups lines groups ∧
      (∀ others, GreedyGroups lines others → others = groups) ∧
      (statements lines).length = groups.length ∧
      (∀ i group s, groups[i]? = some group → (statements lines)[i]? = some s →
        s.text = joinedLines group ∧
          s.lineNumber = 1 + (groups.take i).flatten.length ∧
          s.tokens = tokenize s.text ∧
          (i + 1 < groups.length → s.complete = true) ∧
          (s.complete = false ↔ (Quoting.initial.scan s.text).isOpen = true)) ∧
      List.intercalate ['\n'] ((statements lines).map Statement.text) =
        List.intercalate ['\n'] (lines.map Text.trim) := by
  have greedy := greedyGroups_groupsAfter lines
  refine ⟨groupsAfter [] lines, greedy, fun _ => greedy.unique, ?_, ?_, ?_⟩
  · rw [statements_eq, length_numberedFrom]
  · intro i group s found reached
    rw [statements_eq, getElem?_numberedFrom, found] at reached
    obtain rfl := Option.some.inj reached
    refine ⟨rfl, rfl, rfl, ?_, ?_⟩
    · intro earlier
      have closed : leavesOpen group = false := by
        apply greedy.closes
        apply List.mem_of_getElem? (i := i)
        rw [List.getElem?_dropLast, if_pos (by omega), found]
      simp [Statement.ofGroup, closed]
    · simp [Statement.ofGroup, leavesOpen]
  · calc
      _ = List.intercalate ['\n'] ((groupsAfter [] lines).map joinedLines) := by
        rw [statements_eq, map_text_numberedFrom]
      _ = joinedLines (groupsAfter [] lines).flatten :=
        (joinedLines_flatten greedy.nonempty).symm
      _ = joinedLines lines := congrArg joinedLines greedy.covers

end PkgRecipe.Shell
