import PkgRecipe.Proofs.Recipe.CommentLine
import PkgRecipe.Proofs.Recipe.PackageName

namespace PkgRecipe.Recipe

private theorem replaceName_of_notMem (name word : List Char) {text : List Char} (dollarless : '$' ∉ text) :
    replaceName name word text = text := by
  rw [← List.append_nil text, replaceName_append_of_notMem dollarless, replaceName]

theorem substitute_of_notMem (table : Table (List Char)) {text : List Char}
    (dollarless : '$' ∉ text) :
    substitute table text = text := by
  have unchanged : replaceNames table text = text := by
    induction table with
    | nil => rfl
    | cons entry table ih =>
        rw [replaceNames, List.foldl_cons, replaceName_of_notMem entry.1 entry.2 dollarless]
        exact ih
  rw [substitute_eq_replaceNames, unchanged]
  exact replaceReferences_of_notMem dollarless

private theorem substitute_intercalate {table : Table (List Char)}
    (oneLine : ∀ name ∈ table.keys, '\n' ∉ name) (lines : List (List Char)) :
    substitute table (['\n'].intercalate lines) =
      ['\n'].intercalate (lines.map (substitute table)) := by
  induction lines with
  | nil => exact substitute_of_notMem table List.not_mem_nil
  | cons line lines ih =>
      cases lines with
      | nil => simp
      | cons next lines =>
          rw [List.intercalate_cons_cons, List.map_cons, List.map_cons,
            List.intercalate_cons_cons, ← List.map_cons, ← ih, List.append_assoc, List.append_assoc]
          exact substitute_lineEnd oneLine line _

private theorem isWordChar_of_mem_classNameOf {name : List Char} {c : Char} (member : c ∈ classNameOf name) :
    Text.isWordChar c = true := by
  obtain ⟨d, -, same⟩ := List.mem_map.1 member
  split at same
  · rename_i word
    exact same ▸ word
  · exact same ▸ (by decide : Text.isWordChar '_' = true)

namespace Document

def classLine (d : Document) : List Char :=
  "class ".toList ++ d.className ++ " < Package".toList

def headerLines (d : Document) : List (List Char) :=
  ["require 'package'".toList, [], d.classLine]

theorem header_eq_intercalate (d : Document) : d.header = ['\n'].intercalate d.headerLines := by
  have first : "require 'package'\n\nclass ".toList =
      "require 'package'".toList ++ '\n' :: '\n' :: "class ".toList := by decide +kernel
  refine (congrArg (· ++ d.className ++ " < Package".toList) first).trans ?_
  unfold headerLines classLine
  rw [List.intercalate_cons_cons, List.intercalate_cons_cons, List.intercalate_singleton]
  simp only [List.append_assoc, List.cons_append, List.nil_append]

private theorem lineEnd_notMem_className (d : Document) : '\n' ∉ d.className := by
  unfold className
  split
  · decide
  · intro member
    exact absurd (isWordChar_of_mem_classNameOf member) (by decide)

private theorem lineEnd_notMem_headerLines (d : Document) : ∀ line ∈ d.headerLines, '\n' ∉ line := by
  have first : '\n' ∉ "require 'package'".toList := by decide +kernel
  have last : '\n' ∉ d.classLine := by
    apply List.not_mem_append
    · exact List.not_mem_append (by decide) d.lineEnd_notMem_className
    · decide
  intro line member
  rcases List.mem_cons.1 member with rfl | member
  · exact first
  rcases List.mem_cons.1 member with rfl | member
  · exact List.not_mem_nil
  · exact List.mem_singleton.1 member ▸ last

theorem intercalate_headerLines_append (d : Document) {lines : List (List Char)}
    (nonempty : lines ≠ []) :
    ['\n'].intercalate (d.headerLines ++ lines) = d.header ++ '\n' :: ['\n'].intercalate lines := by
  have nonempty' : d.headerLines ≠ [] := List.cons_ne_nil _ _
  rw [Text.intercalate_append nonempty' nonempty, ← header_eq_intercalate]

theorem render_eq (d : Document) {table : Table (List Char)}
    (oneLine : ∀ name ∈ table.keys, '\n' ∉ name) :
    d.render table = ['\n'].intercalate (d.headerLines ++
      (d.lines.map (substitute (d.withPackageName table)) ++ ["end".toList])) ++ ['\n'] := by
  have oneLine' := d.lineEnd_notMem_withPackageName oneLine
  generalize names : d.withPackageName table = names' at oneLine'
  have header := substitute_of_notMem names' d.dollar_notMem_header
  have ending := substitute_of_notMem names' (by decide : '$' ∉ "end".toList)
  have nothing := substitute_of_notMem names' (by decide : '$' ∉ [])
  have nonempty : d.lines.map (substitute names') ++ ["end".toList] ≠ [] :=
    List.append_ne_nil_of_right_ne_nil _ (List.cons_ne_nil _ _)
  calc d.render table
    _ = substitute names' (['\n'].intercalate (d.header :: d.lines ++ ["end".toList])) ++ ['\n'] := by
      rw [render, source, names, substitute_lineEnd oneLine', nothing]
    _ = ['\n'].intercalate (d.header :: (d.lines.map (substitute names') ++ ["end".toList])) ++
          ['\n'] := by
      rw [substitute_intercalate oneLine', List.map_append, List.map_cons, header,
        List.map_singleton, ending, List.cons_append]
    _ = _ := by
      rw [d.intercalate_headerLines_append nonempty, List.intercalate_cons_of_ne_nil nonempty,
        List.append_assoc d.header, List.singleton_append]

theorem take_splitOn_render (d : Document) {table : Table (List Char)}
    (oneLine : ∀ name ∈ table.keys, '\n' ∉ name) :
    ((d.render table).splitOn '\n').take 3 = d.headerLines := by
  have nonempty : d.lines.map (substitute (d.withPackageName table)) ++ ["end".toList] ≠ [] :=
    List.append_ne_nil_of_right_ne_nil _ (List.cons_ne_nil _ _)
  have header : d.header.splitOn '\n' = d.headerLines := by
    rw [header_eq_intercalate]
    exact List.splitOn_intercalate '\n' d.lineEnd_notMem_headerLines (List.cons_ne_nil _ _)
  rw [d.render_eq oneLine, d.intercalate_headerLines_append nonempty, List.append_assoc,
    List.cons_append, List.splitOn_append_cons_self, header]
  exact List.take_left' rfl

end Document

/-- References are replaced line by line, if no name of the table has a line end, as no identifier
has. So in a recipe the lines of the document are replaced each on its own. Its header has three
lines, whatever the package's name is. -/
theorem render_lineByLine {table : Table (List Char)}
    (oneLine : ∀ name ∈ table.keys, '\n' ∉ name) :
    (∀ first rest, substitute table (first ++ '\n' :: rest) =
        substitute table first ++ '\n' :: substitute table rest) ∧
      ∀ d : Document,
        d.render table = ['\n'].intercalate (d.headerLines ++
            (d.lines.map (substitute (d.withPackageName table)) ++ ["end".toList])) ++ ['\n'] ∧
        ((d.render table).splitOn '\n').take 3 = d.headerLines := by
  refine ⟨fun first rest => substitute_lineEnd oneLine first rest, fun d => ⟨?_, ?_⟩⟩
  · exact d.render_eq oneLine
  · exact d.take_splitOn_render oneLine

theorem render_lineByLine_severalLines :
    let table : Table (List Char) := [("v", "1\n$"), ("w", "$\x7bpkgname")].map fun entry =>
      (entry.1.toList, entry.2.toList)
    let d : Document := {
      lines := ["a$v".toList, "w $w\x7d $1".toList]
      packageName := some "é\n$v\nend".toList }
    (∀ name ∈ table.keys, '\n' ∉ name) ∧
      d.withPackageName table = table ++ [("pkgname".toList, "é\n$v\nend".toList)] ∧
      substitute table "$v\nx".toList = "1\n$\nx".toList ∧
      ((d.render table).splitOn '\n').take 3 =
        ["require 'package'".toList, [], "class É__v_end < Package".toList] ∧
      d.render table = ("require 'package'\n\nclass É__v_end < Package\n" ++
        "a1\n$\nw é\n#\x7b@_v\x7d\nend $1\nend\n").toList := by
  intro table d
  have oneLine : ∀ name ∈ table.keys, '\n' ∉ name := by decide +kernel
  obtain ⟨locally, rendered⟩ := render_lineByLine oneLine
  obtain ⟨recipe, header⟩ := rendered d
  refine ⟨oneLine, by decide +kernel, ?_, ?_, ?_⟩
  · have split : "$v\nx".toList = "$v".toList ++ '\n' :: "x".toList := by decide +kernel
    refine (congrArg (substitute table) split).trans ((locally _ _).trans ?_)
    decide +kernel
  · rw [header]
    decide +kernel
  · rw [recipe]
    decide +kernel

end PkgRecipe.Recipe
