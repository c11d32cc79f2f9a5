import PkgRecipe.Proofs.Shell.ClosedText
import PkgRecipe.Proofs.Shell.Words
import PkgRecipe.Proofs.Text.WordChar
import PkgRecipe.Shell.Assignment

namespace PkgRecipe.Shell

theorem isName_of_leadingName? {text name rest : List Char}
    (leading : leadingName? text = some (name, rest)) : isName name = true := by
  cases text with
  | nil => contradiction
  | cons c text =>
      rw [leadingName?] at leading
      split at leading
      · rename_i starts
        obtain ⟨rfl, -⟩ := Prod.mk.inj (Option.some.inj leading)
        have nothing : (text.takeWhile isNameChar).dropWhile isNameChar = [] :=
          List.dropWhile_eq_nil_iff.2 fun d member => List.mem_takeWhile_imp member
        simp only [isName, leadingName?, starts, if_true, nothing]
      · contradiction

private theorem isWordText_of_isNameChar {c : Char} (isPart : isNameChar c = true) : IsWordText c := by
  have range := Text.toNat_of_isAsciiWord isPart
  constructor
  · exact isPlain_of_isWordChar (Text.isWordChar_of_isAsciiWord isPart)
  · simp only [Text.isBlank, Text.blankRanges, Text.inRanges]
    simp
    omega

theorem isWordText_of_isName {name : List Char} (named : isName name = true) :
    ∀ c ∈ name, IsWordText c :=
  fun _ member => isWordText_of_isNameChar (isNameChar_of_mem named member)

private theorem closedText_declareLine {name : List Char} (named : isName name = true) :
    ClosedText ("declare -p ".toList ++ name) := by
  have plain := isWordText_of_isName named
  have nonempty : name ≠ [] := by
    rintro rfl
    contradiction
  have oneLine : '\n' ∉ "declare -p ".toList ++ name := by
    rw [List.mem_append, not_or]
    exact ⟨by decide, lineEnd_notMem plain⟩
  refine ⟨?_, ?_, ?_⟩
  · intro line member
    rw [List.splitOn_eq_singleton oneLine, List.mem_singleton] at member
    rw [member, Text.trim_eq_self_iff, List.getLast?_append_of_ne_nil _ nonempty]
    refine ⟨?_, not_isBlank_of_getLast? plain⟩
    intro c first
    obtain rfl := Option.some.inj first
    decide
  · intro before after cut
    exact absurd (by rw [cut]; simp) oneLine
  · have begun : Quoting.initial.scan "declare -p ".toList = .initial := by decide
    rw [Quoting.scan_append, begun, scan_initial_of_isPlain fun c member => (plain c member).1]
    rfl

theorem head_prefix_text (s : Statement) : s.head <+: s.text := by
  rw [Statement.head]
  split
  · exact List.nil_prefix
  · rename_i token later read
    exact (List.takeWhile_prefix _).trans (raw_prefix_of_tokensFrom read)

/-- The script for a complete statement that names a variable is two complete statements: its own
text without expansions, in which a `local` at the head has become a `declare`, and the command that
prints the variable. No line of the input holds a line end but among the blanks at its ends. -/
theorem statements_script {lines : List (List Char)} {s : Statement} {name : List Char}
    (single : ∀ line ∈ lines, '\n' ∉ Text.trim line) (member : s ∈ statements lines)
    (complete : s.complete = true) (named : s.assignedName? = some name) :
    isName name = true ∧
      ∃ first second, statements ((s.script name).splitOn '\n') = [first, second] ∧
        first.complete = true ∧ second.complete = true ∧
        (s.head ≠ "local".toList → first.text = withoutExpansions s.text) ∧
        (s.head = "local".toList → ∃ rest, s.text = "local".toList ++ rest ∧
          first.text = withoutExpansions ("declare".toList ++ rest)) ∧
        second.text = "declare -p ".toList ++ name := by
  obtain ⟨⟨leading, rest⟩, found, same⟩ := Option.map_eq_some_iff.1 named
  obtain rfl : leading = name := same
  have isNamed := isName_of_leadingName? found
  have closed := closedText_of_mem_statements single member complete
  have global : ClosedText s.globalText ∧ (s.head = "local".toList →
      ∃ rest, s.text = "local".toList ++ rest ∧ s.globalText = "declare".toList ++ rest) := by
    rw [Statement.globalText]
    split
    · rename_i isLocal
      obtain ⟨rest, whole⟩ := head_prefix_text s
      rw [isLocal] at whole
      rw [← whole] at closed ⊢
      have plain := isWordText_of_isName (show isName "local".toList = true by decide)
      have plain' := isWordText_of_isName (show isName "declare".toList = true by decide)
      exact ⟨closed.replace (by decide) plain plain', fun _ => ⟨rest, rfl, rfl⟩⟩
    · rename_i notLocal
      exact ⟨closed, fun isLocal => absurd isLocal notLocal⟩
  obtain ⟨number, read⟩ :=
    statements_two_closedTexts global.1.withoutExpansions (closedText_declareLine isNamed)
  refine ⟨isNamed, ⟨withoutExpansions s.globalText, 1, true⟩,
    ⟨"declare -p ".toList ++ leading, number, true⟩, ?_, rfl, rfl, ?_, ?_, rfl⟩
  · rw [← read, Statement.script, List.append_assoc]
    rfl
  · intro notLocal
    rw [Statement.globalText, if_neg notLocal]
  · intro isLocal
    obtain ⟨rest, whole, changed⟩ := global.2 isLocal
    exact ⟨rest, whole, congrArg withoutExpansions changed⟩

theorem statements_script_local :
    let lines := ["  local x=\"$HOME".toList, "  it's\" \\".toList, "y\n".toList]
    let s : Statement := ⟨"local x=\"$HOME\nit's\" \\\ny".toList, 1, true⟩
    (∀ line ∈ lines, '\n' ∉ Text.trim line) ∧ s ∈ statements lines ∧
      s.complete = true ∧ s.assignedName? = some ['x'] ∧
      ∃ first second, statements ((s.script ['x']).splitOn '\n') = [first, second] ∧
        first.complete = true ∧ second.complete = true ∧
        first.text = "declare x=\"\\$HOME\nit's\" \\\ny".toList ∧
        second.text = "declare -p x".toList := by
  intro lines s
  have single : ∀ line ∈ lines, '\n' ∉ Text.trim line := by decide +kernel
  have member : s ∈ statements lines := by decide +kernel
  have named : s.assignedName? = some ['x'] := by decide +kernel
  have isLocal : s.head = "local".toList := by decide +kernel
  obtain ⟨-, first, second, read, complete, complete', -, changed, printed⟩ :=
    statements_script single member rfl named
  obtain ⟨rest, whole, text⟩ := changed isLocal
  have behind : rest = s.text.drop 5 := by
    rw [whole]
    rfl
  refine ⟨single, member, rfl, named, first, second, read, complete, complete', ?_, printed⟩
  rw [text, behind]
  decide +kernel

end PkgRecipe.Shell
