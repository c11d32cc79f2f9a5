import PkgRecipe.Proofs.Recipe.Writing
import PkgRecipe.Proofs.Shell.Spacing

namespace PkgRecipe.Recipe

/-! The conversion of statements whose words stand several spaces apart. A file operation passes over
the empty words between the spaces, and a command that is passed through keeps them. -/

open Shell

variable {s : Statement}

theorem fileTargets_eq (closed : (Quoting.initial.scan s.text).isOpen = false) :
    fileTargets s = (s.operands.filter (·.head? ≠ some '-')).map unquote := by
  have visible : (fun t : Token => t.raw ≠ [] && t.raw.head? ≠ some '-') =
      (fun word : List Char => word ≠ [] && word.head? ≠ some '-') ∘ Token.raw := rfl
  have split : (fun word : List Char => decide (word.head? ≠ some '-') && decide (word ≠ [])) =
      fun word => word ≠ [] && word.head? ≠ some '-' := by
    funext word
    exact Bool.and_comm _ _
  rw [fileTargets, Statement.operands, List.filter_filter, split, ← List.map_tail, List.filter_map,
    ← visible, List.map_map]
  apply List.map_congr_left
  intro t member
  have isToken : t ∈ s.tokens := List.mem_of_mem_tail (List.mem_filter.1 member).1
  exact (closedWord_of_mem_tokenize closed t isToken).2

private theorem fileOperationLine_compacted (closed : (Quoting.initial.scan s.text).isOpen = false)
    (headed : s.head ≠ []) (action : List Char) :
    fileOperationLine action s.compacted = fileOperationLine action s := by
  have targets : fileTargets s.compacted = fileTargets s := by
    rw [fileTargets_eq closed, fileTargets_eq (Statement.isOpen_scan_compacted closed),
      Statement.operands_compacted closed headed]
  rw [fileOperationLine, fileOperationLine, targets]

private theorem chdirLine_of_length (several : s.arguments.length ≠ 1) : chdirLine s = systemCall s := by
  unfold chdirLine
  split
  · rename_i directory only
    rw [only] at several
    contradiction
  · rfl

private theorem head_ne_nil_of_kind {c : Classifier} (named : c.kind s ≠ .comment) : s.head ≠ [] :=
  fun empty => named (if_pos (.inl empty))

namespace Converter

/-- Extra spaces between the words of a complete assignment, change of directory or file operation
do not change its kind, the name that it assigns to or the line of a file operation. A change of
directory that does not have just one operand is passed through with its spaces. -/
theorem writeStatement_compacted {lines : List (List Char)} (member : s ∈ statements lines)
    (complete : s.complete = true) {c : Converter}
    (kind : c.classifier.kind s ∈ [.assignment, .chdir, .fileOperation]) :
    c.classifier.kind s.compacted = c.classifier.kind s ∧
    (c.classifier.kind s = .assignment → s.compacted.assignedName? = s.assignedName?) ∧
    (c.classifier.kind s = .fileOperation → c.writeStatement s.compacted = c.writeStatement s) ∧
    (c.classifier.kind s = .chdir →
      (s.operands.length ≠ 1 → c.writeStatement s = Work.append (systemCall s) ∧
        c.writeStatement s.compacted = Work.append (systemCall s.compacted)) ∧
      ([] ∉ s.tokens.map Token.raw → c.writeStatement s.compacted = c.writeStatement s)) := by
  have closed := Statement.closed_of_complete member complete
  have headed : s.head ≠ [] := by
    apply head_ne_nil_of_kind
    intro comment
    rw [comment] at kind
    contradiction
  have sameHead := Statement.head_compacted closed headed
  have sameKind := c.classifier.kind_congr sameHead
  refine ⟨sameKind, fun _ => Statement.assignedName?_compacted closed headed, ?_, ?_⟩
  · intro fileOperation
    rw [writeStatement_eq, writeStatement_eq, lineOf?, lineOf?, sameKind, fileOperation, sameHead]
    dsimp only
    rw [fileOperationLine_compacted closed headed]
  · intro chdir
    constructor
    · intro several
      have several' : s.compacted.arguments.length ≠ 1 := by
        rwa [Statement.length_arguments_compacted closed headed]
      rw [writeStatement_eq, writeStatement_eq, lineOf?, lineOf?, sameKind, chdir]
      dsimp only
      rw [chdirLine_of_length several',
        chdirLine_of_length (Statement.length_arguments_ne_one member several)]
      exact ⟨rfl, rfl⟩
    · intro visible
      have same : s.compacted = .ofText s.text :=
        congrArg Statement.ofText (Statement.text_compacted visible)
      rw [writeStatement_eq, writeStatement_eq, lineOf?, lineOf?, sameKind, chdir, same]
      rfl

theorem writeStatement_compacted_each :
    let c : Converter := ⟨{ fileOperations := [("rm".toList, "rm_rf".toList)] },
      fun _ => throw .interrupted, ⟨none, false, none⟩, none⟩
    let lines := ["rm  -f   'a  b'  \\".toList, "  *.o ".toList, "export  -x A=1".toList,
      "cd -P  x".toList]
    let removal : Statement := ⟨"rm  -f   'a  b'  \\\n*.o".toList, 1, true⟩
    let exporting : Statement := ⟨"export  -x A=1".toList, 3, true⟩
    let change : Statement := ⟨"cd -P  x".toList, 4, true⟩
    statements lines = [removal, exporting, change] ∧
      [removal, exporting, change].map c.classifier.kind = [.fileOperation, .assignment, .chdir] ∧
      removal.compacted.text = "rm -f 'a  b' \\\n*.o".toList ∧
      c.writeStatement removal.compacted = c.writeStatement removal ∧
      exporting.compacted.text = "export -x A=1".toList ∧
      exporting.compacted.assignedName? = exporting.assignedName? ∧
      c.writeStatement change = Work.append "system \"cd -P  x\"".toList ∧
      c.writeStatement change.compacted = Work.append "system \"cd -P x\"".toList := by
  intro c lines removal exporting change
  have read : statements lines = [removal, exporting, change] := by decide +kernel
  have kinds : [removal, exporting, change].map c.classifier.kind =
      [.fileOperation, .assignment, .chdir] := by decide +kernel
  have member : removal ∈ statements lines ∧ exporting ∈ statements lines ∧
      change ∈ statements lines := by simp [read]
  have kind : c.classifier.kind removal = .fileOperation := by decide +kernel
  have kind' : c.classifier.kind exporting = .assignment := by decide +kernel
  have kind'' : c.classifier.kind change = .chdir := by decide +kernel
  have same := writeStatement_compacted member.1 rfl (c := c) (by simp [kind])
  have same' := writeStatement_compacted member.2.1 rfl (c := c) (by simp [kind'])
  have same'' := writeStatement_compacted member.2.2 rfl (c := c) (by simp [kind''])
  obtain ⟨passed, passed'⟩ := (same''.2.2.2 kind'').1 (by decide +kernel)
  refine ⟨read, kinds, by decide +kernel, same.2.2.1 kind, by decide +kernel, same'.2.1 kind',
    ?_, ?_⟩
  · rw [passed]
    exact congrArg Work.append (by decide +kernel)
  · rw [passed']
    exact congrArg Work.append (by decide +kernel)

end Converter

/-- A change of directory that is passed through keeps the spaces in front of its operand. -/
theorem chdirLine_compacted_ne :
    let c : Classifier := ⟨[], []⟩
    let s : Statement := ⟨"cd -P  build".toList, 1, true⟩
    s ∈ statements ["cd -P  build".toList] ∧ s.complete = true ∧ c.kind s = .chdir ∧
      s.compacted.text = "cd -P build".toList ∧
      chdirLine s = "system \"cd -P  build\"".toList ∧
      chdirLine s.compacted = "system \"cd -P build\"".toList ∧
      chdirLine s.compacted ≠ chdirLine s := by
  decide +kernel

end PkgRecipe.Recipe
