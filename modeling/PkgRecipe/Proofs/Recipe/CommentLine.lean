import PkgRecipe.Proofs.Recipe.LineFrame
import PkgRecipe.Proofs.Recipe.LineReplacement
import PkgRecipe.Proofs.Shell.ClosedLine

namespace PkgRecipe.Recipe

theorem Document.lineEnd_notMem_withPackageName (d : Document) {table : Table (List Char)}
    (oneLine : ∀ name ∈ table.keys, '\n' ∉ name) :
    ∀ name ∈ (d.withPackageName table).keys, '\n' ∉ name := by
  unfold withPackageName
  split
  · split
    · exact oneLine
    · simp only [Table.keys, List.map_append, List.mem_append]
      rintro name (given | added)
      · exact oneLine name given
      · rw [List.mem_singleton.1 added]
        exact (by decide : '\n' ∉ "pkgname".toList)
  · exact oneLine

/-- A document in which the text of one line is left open. -/
structure Gap where
  document : Document
  place : Nat
  within : place < document.lines.length

namespace Gap

def fill (gap : Gap) (text : List Char) : Document :=
  gap.document.withLine gap.place text

private theorem exists_source_fill (gap : Gap) :
    ∃ front back, ∀ text,
      (gap.fill text).source = front ++ '\n' :: (text ++ '\n' :: back) := by
  let before := gap.document.header :: gap.document.lines.take gap.place
  let after := gap.document.lines.drop (gap.place + 1) ++ ["end".toList]
  refine ⟨['\n'].intercalate before, ['\n'].intercalate after ++ ['\n'], fun text => ?_⟩
  have lines : (gap.fill text).header :: (gap.fill text).lines ++ ["end".toList] =
      before ++ text :: after := by
    rw [fill, Document.withLine, List.set_eq_take_append_cons_drop, if_pos gap.within]
    simp only [before, after, List.append_assoc, List.cons_append]
    rfl
  rw [Document.source, lines, Text.intercalate_append (List.cons_ne_nil _ _) (List.cons_ne_nil _ _),
    List.intercalate_cons_of_ne_nil (List.append_ne_nil_of_right_ne_nil _ (by decide))]
  simp only [before, after, List.append_assoc, List.cons_append, List.nil_append]

/-- All of the recipe but the line itself is the same for every text of the line. -/
private theorem exists_render_fill (gap : Gap) {table : Table (List Char)}
    (oneLine : ∀ name ∈ table.keys, '\n' ∉ name) :
    ∃ front back, ∀ text, (gap.fill text).render table =
      front ++ substitute (gap.document.withPackageName table) text ++ back := by
  let names := gap.document.withPackageName table
  have oneLine' : ∀ name ∈ names.keys, '\n' ∉ name :=
    gap.document.lineEnd_notMem_withPackageName oneLine
  obtain ⟨front, back, source⟩ := gap.exists_source_fill
  refine ⟨substitute names front ++ ['\n'], '\n' :: substitute names back, fun text => ?_⟩
  have render : (gap.fill text).render table = substitute names (gap.fill text).source := rfl
  rw [render, source, substitute_lineEnd oneLine', substitute_lineEnd oneLine', List.append_assoc,
    List.append_assoc]
  rfl

end Gap

namespace ChecksumPolicy

def digestLine (p : ChecksumPolicy) (doc : Document) : Run (Option (List Char)) :=
  match doc.checksumSlot, doc.checksum with
  | none, _ => return none
  | some _, some digest => return some (textStatement "source_sha256" digest)
  | some _, none => return (← p.derive doc).map (textStatement "source_sha256")

theorem settle_eq (p : ChecksumPolicy) (doc : Document) :
    p.settle doc = doc.fillChecksum <$> p.digestLine doc := by
  unfold settle digestLine
  cases slot : doc.checksumSlot with
  | none => simp only [map_pure, Document.fillChecksum, slot]
  | some n =>
      cases doc.checksum with
      | some digest => simp only [map_pure]
      | none => simp only [map_bind, map_pure]

theorem settle_apply (p : ChecksumPolicy) (doc : Document) (o : Outside) :
    p.settle doc o =
      match p.digestLine doc o with
      | (.ok line, after) => (.ok (doc.fillChecksum line), after)
      | (.error failure, after) => (.error failure, after) := by
  rw [settle_eq]
  simp only [Functor.map, ExceptT.map, ExceptT.mk, bind, StateT.bind]
  rcases p.digestLine doc o with ⟨failure | line, after⟩
  · rfl
  · rfl

end ChecksumPolicy

theorem Document.Holds.exists_fillChecksum {doc : Document} {place : Nat} (held : doc.Holds place)
    (line : Option (List Char)) :
    ∃ gap : Gap, ∀ text, (doc.withLine place text).fillChecksum line = gap.fill text := by
  have within := held.within
  cases slot : doc.checksumSlot with
  | none =>
      refine ⟨⟨doc, place, within⟩, fun text => ?_⟩
      simp only [fillChecksum, withLine, Gap.fill, slot]
  | some n =>
      have apart : n ≠ place := fun same => held.unkept (slot.trans (congrArg some same))
      cases line with
      | some digest =>
          refine ⟨⟨{ doc with lines := doc.lines.set n digest }, place, by simpa using within⟩, ?_⟩
          intro text
          simp only [fillChecksum, withLine, Gap.fill, slot, List.set_comm _ _ apart.symm]
      | none =>
          -- the line moves up if the one that is dropped stands before it
          rcases Nat.lt_or_gt_of_ne apart with before | behind
          · have length : (doc.lines.eraseIdx n).length = doc.lines.length - 1 :=
              List.length_eraseIdx_of_lt (by omega)
            refine ⟨⟨{ doc with lines := doc.lines.eraseIdx n, checksumSlot := none }, place - 1,
              by simp only [length]; omega⟩, fun text => ?_⟩
            simp only [fillChecksum, withLine, Gap.fill, slot, List.eraseIdx_set_lt before]
          · have within' : place < (doc.lines.eraseIdx n).length := by
              rw [List.length_eraseIdx]
              split <;> omega
            refine ⟨⟨{ doc with lines := doc.lines.eraseIdx n, checksumSlot := none }, place,
              within'⟩, fun text => ?_⟩
            simp only [fillChecksum, withLine, Gap.fill, slot, List.eraseIdx_set_gt behind]

namespace Converter

theorem finish_apply (c : Converter) (desk : Desk) :
    c.finish desk =
      match c.checksum.settle desk.document desk.outside with
      | (.ok doc, o) =>
          ((c.announce doc o).1.map fun _ => doc.render c.settings.substitutions,
            ⟨doc, (c.announce doc o).2⟩)
      | (.error failure, o) => (.error failure, { desk with outside := o }) := by
  unfold finish
  simp only [Work.bind_apply, Work.document_apply, Work.ofRun_apply]
  rcases c.checksum.settle desk.document desk.outside with ⟨_ | doc, o⟩
  · rfl
  · simp only [Work.setDocument_apply]
    rcases c.announce doc o with ⟨_ | _, after⟩
    · rfl
    · rfl

private theorem settle_withLine (p : ChecksumPolicy) (doc : Document) (place : Nat) (text : List Char)
    (o : Outside) :
    p.settle (doc.withLine place text) o =
      match p.digestLine doc o with
      | (.ok line, after) => (.ok ((doc.withLine place text).fillChecksum line), after)
      | (.error failure, after) => (.error failure, after) :=
  p.settle_apply (doc.withLine place text) o

private theorem exists_finish (c : Converter) (desk : Desk) {place : Nat}
    (held : desk.document.Holds place) :
    ∃ (outcome : Except Failure Gap) (outside : Outside), ∀ text,
      let (result, after) := c.finish (desk.withLine place text)
      result = outcome.map (fun gap => (gap.fill text).render c.settings.substitutions) ∧
        after.outside = outside := by
  simp only [finish_apply, Desk.withLine, settle_withLine]
  rcases c.checksum.digestLine desk.document desk.outside with ⟨failure | line, o⟩
  · exact ⟨.error failure, o, fun text => ⟨rfl, rfl⟩⟩
  · obtain ⟨gap, filled⟩ := held.exists_fillChecksum line
    -- what is reported does not depend on the lines
    rcases told : c.announce gap.document o with ⟨failure | _, after⟩
    · refine ⟨.error failure, after, fun text => ?_⟩
      have same : c.announce (gap.fill text) o = _ := told
      simp only [filled, same]
      exact ⟨rfl, trivial⟩
    · refine ⟨.ok gap, after, fun text => ?_⟩
      have same : c.announce (gap.fill text) o = _ := told
      simp only [filled, same]
      exact ⟨rfl, trivial⟩

theorem holds_length_append {doc : Document} (grown : ∃ added, Document.Grown {} added doc)
    (line : List Char) : (doc.append line).Holds doc.lines.length where
  within := by simp [Document.append]
  unkept := by
    obtain ⟨added, lines, slot⟩ := grown
    have length := congrArg List.length lines
    rcases slot with unkept | ⟨-, n, inside, kept⟩
    · exact ne_of_eq_of_ne unkept (Option.some_ne_none _).symm
    · refine ne_of_eq_of_ne kept fun same => ?_
      have := Option.some.inj same
      simp only [List.nil_append, List.length_nil, Nat.zero_add] at length this
      omega

def convert (c : Converter) (statements : List Shell.Statement) : Work (List Char) := do
  statements.forM c.write
  c.finish

theorem recipeOfLines_eq (c : Converter) (lines : List (List Char)) :
    c.recipeOfLines lines = fromEmpty (c.convert (Shell.statements lines)) :=
  rfl

theorem convert_append (c : Converter) (first second : List Shell.Statement) (desk : Desk) :
    c.convert (first ++ second) desk =
      match (first.forM c.write) desk with
      | (.ok _, after) => c.convert second after
      | (.error failure, after) => (.error failure, after) := by
  unfold convert
  rw [List.forM_eq_forM, List.forM_append, bind_assoc, Work.bind_apply]
  rcases forM first c.write desk with ⟨failure | _, after⟩
  · rfl
  · rfl

private theorem convert_cons_comment (c : Converter) {text : List Char}
    (comment : text = [] ∨ text.head? = some '#') (number : Nat)
    (later : List Shell.Statement) (desk : Desk) :
    c.convert (⟨text, number, true⟩ :: later) desk =
      c.convert later { desk with document := desk.document.append text } := by
  let s : Shell.Statement := ⟨text, number, true⟩
  have kind : c.classifier.kind s = .comment := by
    rcases comment with rfl | comment
    · rfl
    · exact c.classifier.kind_of_comment comment
  have written : c.write s = Work.append text := by
    show c.writeStatement s = _
    rw [writeStatement, kind]
  have first : c.convert (s :: later) = c.write s >>= fun _ => c.convert later :=
    bind_assoc _ _ _
  rw [first, written]
  rfl

theorem exists_convert (c : Converter) (later : List Shell.Statement) (desk : Desk) {place : Nat}
    (held : desk.document.Holds place) :
    ∃ (outcome : Except Failure Gap) (outside : Outside), ∀ text,
      let (result, after) := c.convert later (desk.withLine place text)
      result = outcome.map (fun gap => (gap.fill text).render c.settings.substitutions) ∧
        after.outside = outside := by
  have overlooks : (later.forM c.write).Overlooks place := .forM c.overlooks_write later
  have held' := overlooks.holds held
  simp only [convert, Work.bind_apply, overlooks.withLine desk held]
  generalize (later.forM c.write) desk = ran at held' ⊢
  obtain ⟨failure | _, after⟩ := ran
  · exact ⟨.error failure, after.outside, fun text => ⟨rfl, rfl⟩⟩
  · exact c.exists_finish after held'

theorem exists_recipe (c : Converter) (o : Outside) {before : List (List Char)}
    (closed : ∀ s ∈ Shell.statements before, s.complete = true) (after : List (List Char)) :
    ∃ (outcome : Except Failure Gap) (outside : Outside), ∀ line,
      Text.trim line = [] ∨ (Text.trim line).head? = some '#' →
      (Shell.Quoting.initial.scan (Text.trim line)).isOpen = false →
      c.recipeOfLines (before ++ line :: after) o =
        (outcome.map fun gap => (gap.fill (Text.trim line)).render c.settings.substitutions,
          outside) := by
  have grown := Work.Grows.forM c.grows_write (Shell.statements before) ⟨{}, o⟩
  rcases ran : ((Shell.statements before).forM c.write) ⟨{}, o⟩ with ⟨failure | _, desk⟩
  · refine ⟨.error failure, desk.outside, fun line _ ends => ?_⟩
    rw [recipeOfLines_eq, fromEmpty, Shell.statements_closedLine closed ends, convert_append, ran]
    rfl
  · rw [ran] at grown
    -- the comment is the line behind those that are written so far
    have held := holds_length_append grown []
    obtain ⟨outcome, outside, rest⟩ :=
      c.exists_convert ((Shell.statements after).map (.below (before.length + 1)))
        { desk with document := desk.document.append [] } held
    refine ⟨outcome, outside, fun line comment ends => ?_⟩
    have appended (text : List Char) : desk.document.append text =
        (desk.document.append []).withLine desk.document.lines.length text := by
      simp [Document.append, Document.withLine]
    obtain ⟨result, left⟩ := rest (Text.trim line)
    rw [recipeOfLines_eq, fromEmpty, Shell.statements_closedLine closed ends, convert_append, ran,
      ← result, ← left]
    simp only [convert_cons_comment c comment]
    rw [appended (Text.trim line)]
    rfl

end Converter

/-- A comment that leaves nothing open is a statement of its own if it does not continue one. The
other statements are those of the lines before it and of the lines behind it. Their conversion is
the same as with a blank line in its place: the lines of the recipe differ in this line alone. So do
the recipes, unless a variable that is given an expression has a line end in its name. -/
theorem statements_comment {before : List (List Char)}
    (closed : ∀ s ∈ Shell.statements before, s.complete = true) {line : List Char}
    (comment : (Text.trim line).head? = some '#')
    (ends : (Shell.Quoting.initial.scan (Text.trim line)).isOpen = false)
    (after : List (List Char)) :
    let s : Shell.Statement := ⟨Text.trim line, before.length + 1, true⟩
    Shell.statements (before ++ line :: after) =
        Shell.statements before ++
          s :: (Shell.statements after).map (.below (before.length + 1)) ∧
      (∀ classifier : Shell.Classifier, classifier.kind s = .comment) ∧
      ∀ (c : Converter) (o : Outside), ∃ (outcome : Except Failure Gap) (outside : Outside),
        let table := c.settings.substitutions
        let recipe text := outcome.map fun gap => (gap.fill text).render table
        c.recipeOfLines (before ++ line :: after) o = (recipe (Text.trim line), outside) ∧
          c.recipeOfLines (before ++ [] :: after) o = (recipe [], outside) ∧
          ((∀ name ∈ table.keys, '\n' ∉ name) → ∀ gap, outcome = .ok gap →
            ∃ front back, ∀ text, (gap.fill text).render table =
              front ++ substitute (gap.document.withPackageName table) text ++ back) := by
  intro s
  refine ⟨Shell.statements_closedLine closed ends after,
    fun classifier => classifier.kind_of_comment comment, fun c o => ?_⟩
  obtain ⟨outcome, outside, conversion⟩ := c.exists_recipe o closed after
  refine ⟨outcome, outside, conversion line (.inr comment) ends, conversion [] (.inl rfl) rfl, ?_⟩
  exact fun oneLine gap _ => gap.exists_render_fill oneLine

theorem statements_comment_balanced :
    let before := ["depends=(a".toList, " b)".toList]
    let line := "\t# it is \"(\" 'or' \\) \n".toList
    let after := ["cd \"x".toList, "y\"".toList]
    (∀ s ∈ Shell.statements before, s.complete = true) ∧
      (Text.trim line).head? = some '#' ∧
      (Shell.Quoting.initial.scan (Text.trim line)).isOpen = false ∧
      Shell.statements (before ++ line :: after) =
        [⟨"depends=(a\nb)".toList, 1, true⟩, ⟨"# it is \"(\" 'or' \\)".toList, 3, true⟩,
          ⟨"cd \"x\ny\"".toList, 4, true⟩] := by
  intro before line after
  have closed : ∀ s ∈ Shell.statements before, s.complete = true := by decide +kernel
  have comment : (Text.trim line).head? = some '#' := by decide +kernel
  have ends : (Shell.Quoting.initial.scan (Text.trim line)).isOpen = false := by decide +kernel
  refine ⟨closed, comment, ends, (statements_comment closed comment ends after).1.trans ?_⟩
  decide +kernel

/-- A comment that leaves a quote open takes in what follows it. -/
theorem statements_comment_apostrophe :
    let line := "# it's".toList
    let after := ["pkgname=foo".toList]
    (∀ s ∈ Shell.statements [], s.complete = true) ∧ (Text.trim line).head? = some '#' ∧
      Shell.statements ([] ++ line :: after) = [⟨"# it's\npkgname=foo".toList, 1, false⟩] ∧
      Shell.statements ([] ++ line :: after) ≠
        Shell.statements [] ++
          ⟨Text.trim line, 1, true⟩ :: (Shell.statements after).map (.below 1) := by
  decide +kernel

end PkgRecipe.Recipe
