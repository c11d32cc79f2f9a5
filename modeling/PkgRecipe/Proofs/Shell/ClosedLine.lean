import PkgRecipe.Proofs.Shell.Script
import PkgRecipe.Shell.Classifier

namespace PkgRecipe.Shell

def Statement.below (lines : Nat) (s : Statement) : Statement :=
  { s with lineNumber := s.lineNumber + lines }

theorem statementsAfter_append {pending : Option OpenStatement} {number : Nat}
    {before : List (List Char)}
    (closed : ∀ s ∈ statementsAfter pending number before, s.complete = true)
    (rest : List (List Char)) :
    statementsAfter pending number (before ++ rest) =
      statementsAfter pending number before ++
        statementsAfter none (number + before.length) rest := by
  induction before generalizing pending number with
  | nil =>
      cases pending with
      | none => rfl
      | some p => cases closed _ List.mem_cons_self
  | cons line before ih =>
      have behind : number + (line :: before).length = number + 1 + before.length := by
        rw [List.length_cons]
        omega
      rw [statementsAfter] at closed
      rw [List.cons_append, statementsAfter, statementsAfter, behind]
      split
      · rename_i continues
        rw [if_pos continues] at closed
        exact ih closed
      · rename_i ends
        rw [if_neg ends] at closed
        rw [ih fun s member => closed s (List.mem_cons_of_mem _ member), List.cons_append]

private theorem statementsAfter_below (lines : Nat) (pending : Option OpenStatement) (number : Nat)
    (rest : List (List Char)) :
    statementsAfter (pending.map fun p => { p with lineNumber := p.lineNumber + lines })
        (number + lines) rest =
      (statementsAfter pending number rest).map (.below lines) := by
  induction rest generalizing pending number with
  | nil =>
      cases pending with
      | none => rfl
      | some p => rfl
  | cons line rest ih =>
      have extended : OpenStatement.extend
          (pending.map fun p => { p with lineNumber := p.lineNumber + lines }) (number + lines)
          (Text.trim line) =
          let current := OpenStatement.extend pending number (Text.trim line)
          { current with lineNumber := current.lineNumber + lines } := by
        cases pending with
        | none => rfl
        | some p => rfl
      have next : number + lines + 1 = number + 1 + lines := by omega
      simp only [statementsAfter, extended, next]
      split
      · exact ih (some _) (number + 1)
      · exact congrArg _ (ih none (number + 1))

/-- A line behind which nothing is open is a statement of its own if it does not continue one. -/
theorem statements_closedLine {before : List (List Char)}
    (closed : ∀ s ∈ statements before, s.complete = true) {line : List Char}
    (ends : (Quoting.initial.scan (Text.trim line)).isOpen = false) (after : List (List Char)) :
    statements (before ++ line :: after) =
      statements before ++ ⟨Text.trim line, before.length + 1, true⟩ ::
        (statements after).map (.below (before.length + 1)) := by
  have later := statementsAfter_below (before.length + 1) none 1 after
  have next : 1 + before.length + 1 = 1 + (before.length + 1) := by omega
  rw [statements, statementsAfter_append closed, statementsAfter, next]
  simp only [OpenStatement.extend, ends, Bool.false_eq_true, if_false, Nat.add_comm 1 before.length]
  exact congrArg _ (congrArg _ later)

theorem Classifier.kind_of_comment (c : Classifier) {s : Statement}
    (comment : s.text.head? = some '#') : c.kind s = .comment := by
  refine if_pos ?_
  -- the head is where the text begins, if there is a head at all
  obtain ⟨rest, whole⟩ := head_prefix_text s
  cases head : s.head with
  | nil => exact .inl rfl
  | cons first others =>
      rw [← whole, head] at comment
      exact .inr comment

end PkgRecipe.Shell
