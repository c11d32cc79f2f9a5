import PkgRecipe.Proofs.Recipe.CommentLine
import PkgRecipe.Proofs.Recipe.PackageName

namespace PkgRecipe.Recipe

/-! The lines that set variables. An interpolation of a variable that the input assigns has its line
in the recipe, unless the variable describes the package. -/

namespace Document

def Keeps (doc : Document) (line : List Char) : Prop :=
  ∃ place, doc.Holds place ∧ doc.lines[place]? = some line

namespace Keeps

variable {doc : Document} {line : List Char}

theorem append (written : ∃ added, Document.Grown {} added doc) (line : List Char) :
    (doc.append line).Keeps line := by
  refine ⟨doc.lines.length, Converter.holds_length_append written line, ?_⟩
  rw [Document.append, List.getElem?_concat_length]

theorem grown (kept : doc.Keeps line) {added : List (List Char)} {after : Document}
    (grown : doc.Grown added after) : after.Keeps line := by
  obtain ⟨place, held, here⟩ := kept
  refine ⟨place, held.grown grown, ?_⟩
  rw [grown.lines, List.getElem?_append_left held.within, here]

private theorem mem_fillChecksum (kept : doc.Keeps line) (digest : Option (List Char)) :
    line ∈ (doc.fillChecksum digest).lines := by
  obtain ⟨place, held, here⟩ := kept
  obtain ⟨within, value⟩ := List.getElem?_eq_some_iff.1 here
  obtain ⟨gap, filled⟩ := held.exists_fillChecksum digest
  have same : doc.withLine place line = doc := by
    rw [withLine, ← value, List.set_getElem_self]
  rw [← same, filled]
  exact List.mem_set gap.within _

end Keeps

end Document

theorem ExpressionTable.lookup_eq_none_of_interpolated {table : Table (List Char)}
    (wellFormed : ExpressionTable table) {text : List Char} {r : Reference}
    (left : r ∈ interpolated table text) : table.lookup r.name = none := by
  rw [interpolated, replaceNames_eq wellFormed.named wellFormed.expression,
    references_replaceReferences (inert_lookup wellFormed.expression)
      (apart_lookup wellFormed.expression text), List.mem_filter] at left
  exact Option.isNone_iff_eq_none.1 left.2

/-- The package's name, where it is put in for references to it, makes no other of what stands
before it. -/
def Document.NameStandsApart (d : Document) (table : Table (List Char)) : Prop :=
  "pkgname".toList ∉ table.keys → ∀ name, d.packageName = some name →
    Inert name ∧ StandsApart "pkgname".toList (· ∉ "pkgname".toList :: table.keys) d.source

theorem Document.NameStandsApart.lookup_eq_none_of_interpolated {d : Document}
    {table : Table (List Char)} (apart : d.NameStandsApart table)
    (wellFormed : ExpressionTable table) {r : Reference}
    (left : r ∈ interpolated (d.withPackageName table) d.source) :
    (d.withPackageName table).lookup r.name = none := by
  unfold Document.withPackageName at left ⊢
  split at left
  · rename_i name named
    split at left
    · rename_i given
      rw [if_pos given]
      exact wellFormed.lookup_eq_none_of_interpolated left
    · rename_i absent
      rw [if_neg absent]
      have unnamed : "pkgname".toList ∉ table.keys := by simpa using absent
      obtain ⟨inert, apart⟩ := apart unnamed name named
      rw [interpolated_append_singleton wellFormed (by decide) inert apart, List.mem_filter] at left
      exact lookup_append_singleton_eq_none_iff.2 (of_decide_eq_true left.2)
  · exact wellFormed.lookup_eq_none_of_interpolated left

def setterStart (name : List Char) : List Char :=
  "@_".toList ++ name ++ " = ".toList

namespace Converter

/-- A run over the statements resolves a complete assignment among them to the declaration. -/
def Assigns (c : Converter) (ss : List Shell.Statement) (desk : Desk) (d : Shell.Declaration) :
    Prop :=
  ∃ before s after reached, ss = before ++ s :: after ∧
    (before.forM c.write) desk = (.ok (), reached) ∧
    s.complete = true ∧ c.classifier.kind s = .assignment ∧ (c.resolve s reached.outside).1 = .ok d

private theorem exists_literal_of_writeDeclaration {d : Shell.Declaration}
    (other : isMetadata d.name = false) {desk after : Desk}
    (done : writeDeclaration d desk = (.ok (), after)) :
    ∃ literal, after.document = (noted d desk.document).appendAll (variableLines d literal) := by
  rw [writeDeclaration_apply, other, if_neg Bool.false_ne_true] at done
  cases value : literalOf d with
  | error failure =>
      rw [value] at done
      cases (Prod.mk.inj done).1
  | ok literal =>
      rw [value] at done
      exact ⟨literal, congrArg Desk.document (Prod.mk.inj done).2.symm⟩

private theorem keeps_writeDeclaration {d : Shell.Declaration} (other : isMetadata d.name = false)
    {desk after : Desk} (written : ∃ added, Document.Grown {} added desk.document)
    (done : writeDeclaration d desk = (.ok (), after)) :
    ∃ line, setterStart d.name <+: line ∧ after.document.Keeps line := by
  obtain ⟨literal, document⟩ := exists_literal_of_writeDeclaration other done
  obtain ⟨added, grown⟩ := written
  have noted' : ∃ added, Document.Grown {} added (noted d desk.document) :=
    ⟨_, grown.trans (grown_noted d (.nil _))⟩
  refine ⟨setterStart d.name ++ literal, List.prefix_append _ _, ?_⟩
  have both (line : List Char) (lines : List (List Char)) (doc : Document) :
      doc.appendAll (line :: lines) = (doc.append line).appendAll lines := by
    simp only [Document.appendAll, Document.append, List.append_assoc, List.singleton_append]
  rw [document, variableLines, both]
  exact (Document.Keeps.append noted' _).grown (.appendAll _ _)

theorem convert_ok {c : Converter} {ss : List Shell.Statement} {desk final : Desk}
    {recipe : List Char} (done : c.convert ss desk = (.ok recipe, final)) :
    ∃ reached digest, (ss.forM c.write) desk = (.ok (), reached) ∧
      final.document = reached.document.fillChecksum digest ∧
      recipe = final.document.render c.settings.substitutions := by
  rw [convert, Work.bind_apply] at done
  rcases ran : (ss.forM c.write) desk with ⟨failure | _, reached⟩
  · rw [ran] at done
    cases (Prod.mk.inj done).1
  · simp only [ran, finish_apply, ChecksumPolicy.settle_apply] at done
    rcases settled : c.checksum.digestLine reached.document reached.outside with
      ⟨failure | digest, after⟩
    · rw [settled] at done
      cases (Prod.mk.inj done).1
    · rw [settled] at done
      obtain ⟨result, rfl⟩ := Prod.mk.inj done
      cases told : (c.announce (reached.document.fillChecksum digest) after).1 with
      | error failure =>
          rw [told] at result
          contradiction
      | ok _ =>
          rw [told] at result
          exact ⟨reached, digest, rfl, rfl, (Except.ok.inj result).symm⟩

private theorem mem_lines_convert {c : Converter} {ss : List Shell.Statement} {desk final : Desk}
    {line recipe : List Char} (kept : desk.document.Keeps line)
    (done : c.convert ss desk = (.ok recipe, final)) : line ∈ final.document.lines := by
  obtain ⟨added, grown⟩ := Work.Grows.forM c.grows_write ss desk
  obtain ⟨reached, digest, ran, filled, -⟩ := convert_ok done
  rw [ran] at grown
  rw [filled]
  exact (kept.grown grown).mem_fillChecksum digest

private theorem exists_line_of_assigns {c : Converter} {ss : List Shell.Statement} {desk final : Desk}
    {d : Shell.Declaration} {recipe : List Char} (assigns : c.Assigns ss desk d)
    (other : isMetadata d.name = false) (written : ∃ added, Document.Grown {} added desk.document)
    (done : c.convert ss desk = (.ok recipe, final)) :
    ∃ line ∈ final.document.lines, setterStart d.name <+: line := by
  obtain ⟨before, s, after, reached, rfl, ran, complete, kind, resolved⟩ := assigns
  have here : c.write s = Work.ofRun (c.resolve s) >>= writeDeclaration := by
    rw [write, if_pos complete, writeStatement, kind]
  have later : c.convert (s :: after) = c.write s >>= fun _ => c.convert after :=
    bind_assoc _ _ _
  -- the line is written for the assignment, and the statements behind it leave it in place
  rw [convert_append, ran, later, here] at done
  simp only [Work.bind_apply, Work.ofRun_apply, resolved] at done
  let start : Desk := { reached with outside := (c.resolve s reached.outside).2 }
  have written' : ∃ added, Document.Grown {} added start.document := by
    obtain ⟨added, grown⟩ := written
    obtain ⟨added', grown'⟩ := Work.Grows.forM c.grows_write before desk
    rw [ran] at grown'
    exact ⟨_, grown.trans grown'⟩
  rcases ran' : writeDeclaration d start with ⟨failure | _, next⟩
  · rw [ran'] at done
    cases (Prod.mk.inj done).1
  · rw [ran'] at done
    obtain ⟨line, starts, kept⟩ := keeps_writeDeclaration other written' ran'
    exact ⟨line, mem_lines_convert kept done, starts⟩

/-- A reference that becomes the interpolation of a variable that the input assigns, for any
resolver: the recipe has the line that sets the variable, or it is one that describes the package
and is given no expression. -/
theorem exists_line_of_interpolated {c : Converter} {lines : List (List Char)} {o : Outside}
    {recipe : List Char} {desk : Desk}
    (done : c.convert (Shell.statements lines) ⟨{}, o⟩ = (.ok recipe, desk)) :
    let table := c.settings.substitutions
    let names := desk.document.withPackageName table
    c.recipeOfLines lines o = (.ok recipe, desk.outside) ∧
      recipe = substitute names desk.document.source ∧
      ∀ r ∈ interpolated names desk.document.source, ∀ d,
        c.Assigns (Shell.statements lines) ⟨{}, o⟩ d → d.name = r.name →
        (∃ line ∈ desk.document.lines, setterStart r.name <+: line) ∨
          isMetadata r.name ∧
            (ExpressionTable table → desk.document.NameStandsApart table →
              names.lookup r.name = none) := by
  intro table names
  obtain ⟨-, -, -, -, rendered⟩ := convert_ok done
  refine ⟨?_, rendered, fun r left d assigns same => ?_⟩
  · rw [recipeOfLines_eq, fromEmpty, done]
  · cases kind : isMetadata r.name with
    | true =>
        refine .inr ⟨rfl, fun wellFormed apart => ?_⟩
        exact apart.lookup_eq_none_of_interpolated wellFormed left
    | false =>
        rw [← same] at kind ⊢
        exact .inl (exists_line_of_assigns assigns kind ⟨[], .nil _⟩ done)

theorem exists_line_of_interpolated_directory :
    let c : Converter := ⟨{}, fun s => pure ⟨s.assignedName?.getD [], {}, "\"v\"".toList⟩,
      ⟨none, false, none⟩, none⟩
    let lines := ["dir=v", "pkgname=v", "make $dir/$pkgname"].map String.toList
    let o : Outside := ⟨[], [], [], [], []⟩
    let desk := (c.convert (Shell.statements lines) ⟨{}, o⟩).2
    (c.recipeOfLines lines o).1 = .ok ("require 'package'\n\nclass V < Package\n" ++
        "@_dir = \"v\"\nsystem \"make #\x7b@_dir\x7d/v\"\nend\n").toList ∧
      interpolated (desk.document.withPackageName []) desk.document.source =
        [⟨"dir".toList, false⟩] ∧
      ∃ line ∈ desk.document.lines, setterStart "dir".toList <+: line := by
  intro c lines o desk
  have result : (c.convert (Shell.statements lines) ⟨{}, o⟩).1 =
      .ok ("require 'package'\n\nclass V < Package\n" ++
        "@_dir = \"v\"\nsystem \"make #\x7b@_dir\x7d/v\"\nend\n").toList := by
    decide +kernel
  have done : c.convert (Shell.statements lines) ⟨{}, o⟩ = (.ok _, desk) := Prod.ext result rfl
  have left : interpolated (desk.document.withPackageName []) desk.document.source =
      [⟨"dir".toList, false⟩] := by
    decide +kernel
  have statements : Shell.statements lines =
      [⟨"dir=v".toList, 1, true⟩, ⟨"pkgname=v".toList, 2, true⟩,
        ⟨"make $dir/$pkgname".toList, 3, true⟩] := by
    decide +kernel
  have assigns : c.Assigns (Shell.statements lines) ⟨{}, o⟩ ⟨"dir".toList, {}, "\"v\"".toList⟩ :=
    ⟨[], _, _, _, statements, rfl, rfl, by decide +kernel, by decide +kernel⟩
  obtain ⟨same, -, setters⟩ := exists_line_of_interpolated done
  refine ⟨congrArg Prod.fst same, left, ?_⟩
  have member : ⟨"dir".toList, false⟩ ∈
      interpolated (desk.document.withPackageName []) desk.document.source := by
    rw [left]
    exact List.mem_singleton_self _
  rcases setters _ member _ assigns rfl with found | ⟨described, -⟩
  · exact found
  · exact absurd described (by decide +kernel)

/-- A variable that describes the package and has no expression is interpolated, but never set. -/
theorem exists_no_line_of_interpolated_url :
    let c : Converter := ⟨{}, fun s => pure ⟨s.assignedName?.getD [], {}, "\"u\"".toList⟩,
      ⟨none, false, none⟩, none⟩
    let lines := ["url=u", "wget $url"].map String.toList
    let o : Outside := ⟨[], [], [], [], []⟩
    let desk := (c.convert (Shell.statements lines) ⟨{}, o⟩).2
    (c.recipeOfLines lines o).1 = .ok ("require 'package'\n\nclass <pkgName> < Package\n" ++
        "homepage \"u\"\nsystem \"wget #\x7b@_url\x7d\"\nend\n").toList ∧
      c.Assigns (Shell.statements lines) ⟨{}, o⟩ ⟨"url".toList, {}, "\"u\"".toList⟩ ∧
      interpolated (desk.document.withPackageName []) desk.document.source =
        [⟨"url".toList, false⟩] ∧
      ∀ line ∈ desk.document.lines, ¬setterStart "url".toList <+: line := by
  intro c lines o desk
  have statements : Shell.statements lines =
      [⟨"url=u".toList, 1, true⟩, ⟨"wget $url".toList, 2, true⟩] := by
    decide +kernel
  have assigns : c.Assigns (Shell.statements lines) ⟨{}, o⟩ ⟨"url".toList, {}, "\"u\"".toList⟩ :=
    ⟨[], _, _, _, statements, rfl, rfl, by decide +kernel, by decide +kernel⟩
  exact ⟨by decide +kernel, assigns, by decide +kernel, by decide +kernel⟩

end Converter

end PkgRecipe.Recipe
