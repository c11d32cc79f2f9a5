import PkgRecipe.Proofs.Recipe.VariableLine

namespace PkgRecipe.Recipe

/-! The package's name in a recipe, and the value of the variable for it in a download. Both come
from the last declaration that names the package, but the value only if that is no array. -/

section Reading

variable {replacement : Reference → List Char}

theorem Reference.exists_text_eq {r : Reference} (named : IsReferenceName r.name) :
    ∃ rest, r.text = '$' :: rest ∧ reference? rest = some (r, []) := by
  obtain ⟨name, braced⟩ := r
  cases braced with
  | true => exact ⟨_, rfl, reference?_eq_some_iff.2 (.braced named [])⟩
  | false =>
      refine ⟨name, rfl, reference?_eq_some_iff.2 ?_⟩
      have refers : Refers (name ++ []) ⟨name, false⟩ [] := .bare named rfl
      rwa [List.append_nil] at refers

private theorem replaceReferences_reference {r : Reference} (named : IsReferenceName r.name) :
    replaceReferences replacement r.text = replacement r := by
  obtain ⟨rest, text, found⟩ := r.exists_text_eq named
  rw [text, replaceReferences_of_reference? found, replaceReferences, List.append_nil]

end Reading

namespace Document

structure SameName (doc after : Document) : Prop where
  packageName : after.packageName = doc.packageName
  value : after.values.lookup "pkgname".toList = doc.values.lookup "pkgname".toList

theorem SameName.trans {doc next after : Document} (here : doc.SameName next)
    (later : next.SameName after) : doc.SameName after :=
  ⟨later.packageName.trans here.packageName, later.value.trans here.value⟩

private theorem expand_reference (doc : Document) {r : Reference} (named : IsReferenceName r.name) :
    doc.expand r.text = (doc.values.lookup r.name).getD r.text :=
  replaceReferences_reference named

private theorem expand_of_notMem (doc : Document) {text : List Char} (dollarless : '$' ∉ text) :
    doc.expand text = text :=
  replaceReferences_of_notMem dollarless

private theorem packageName_fillChecksum (doc : Document) (line : Option (List Char)) :
    (doc.fillChecksum line).packageName = doc.packageName := by
  unfold fillChecksum
  split <;> rfl

end Document

theorem Document.reserveChecksum_eq (doc : Document) :
    ∃ lines slot, doc.reserveChecksum = { doc with lines, checksumSlot := slot } := by
  unfold reserveChecksum
  split
  · exact ⟨doc.lines, doc.checksumSlot, rfl⟩
  · exact ⟨_, _, rfl⟩

private theorem named_recordChecksums (d : Shell.Declaration) (doc : Document) :
    (recordChecksums d doc).1.packageName = doc.packageName ∧
      (recordChecksums d doc).1.values = doc.values := by
  obtain ⟨lines, slot, reserved⟩ := doc.reserveChecksum_eq
  rw [recordChecksums, reserved]
  repeat' split
  all_goals exact ⟨rfl, rfl⟩

/-- Of the variables that describe the package, only the one for its name changes what is known of
the name, and none has a value for references. -/
private theorem named_recordMetadata (d : Shell.Declaration) (doc : Document) :
    (recordMetadata d doc).1.packageName =
        (if d.name = "pkgname".toList then d.elements.head?.or doc.packageName
          else doc.packageName) ∧
      (recordMetadata d doc).1.values = doc.values := by
  unfold recordMetadata
  by_cases named : d.name = "pkgname".toList
  · rw [if_pos named, if_pos named]
    cases d.elements with
    | nil => exact ⟨rfl, rfl⟩
    | cons first rest => exact ⟨rfl, rfl⟩
  · rw [if_neg named, if_neg named]
    repeat' split
    all_goals first | exact ⟨rfl, rfl⟩ | exact named_recordChecksums d doc

namespace Converter

/-- A declaration that says nothing of the package's name. -/
def Nameless (d : Shell.Declaration) : Prop :=
  d.name = "pkgname".toList → d.attributes.isArray = true ∧ d.elements = []

section Steps

variable {c : Converter} {d : Shell.Declaration}

theorem lookup_noted (d : Shell.Declaration) (doc : Document) (name : List Char) :
    (noted d doc).values.lookup name =
      if d.name = name ∧ d.attributes.isArray = false then some (doc.expand d.scalar)
      else doc.values.lookup name := by
  unfold noted
  cases d.attributes.isArray with
  | true => rw [if_pos rfl, if_neg fun given => nomatch given.2]
  | false =>
      rw [if_neg Bool.false_ne_true]
      by_cases same : d.name = name
      · rw [if_pos ⟨same, rfl⟩, ← same]
        exact Table.lookup_put _ _ _
      · rw [if_neg fun given => same given.1]
        exact Table.lookup_put_of_ne (Ne.symm same) _ _

private theorem packageName_noted (d : Shell.Declaration) (doc : Document) :
    (noted d doc).packageName = doc.packageName := by
  unfold noted
  split <;> rfl

theorem named_writeDeclaration (d : Shell.Declaration) (desk : Desk) :
    (writeDeclaration d desk).2.document.packageName =
        (if d.name = "pkgname".toList then d.elements.head?.or desk.document.packageName
          else desk.document.packageName) ∧
      (writeDeclaration d desk).2.document.values = (noted d desk.document).values := by
  rw [writeDeclaration_apply, ← packageName_noted d desk.document]
  cases described : isMetadata d.name with
  | true => exact named_recordMetadata d (noted d desk.document)
  | false =>
      have other : d.name ≠ "pkgname".toList := by
        intro same
        rw [same] at described
        contradiction
      rw [if_neg other]
      cases literalOf d with
      | ok literal => exact ⟨rfl, rfl⟩
      | error failure => exact ⟨rfl, rfl⟩

private theorem sameName_writeDeclaration (nameless : Nameless d) (desk : Desk) :
    desk.document.SameName (writeDeclaration d desk).2.document := by
  obtain ⟨packageName, values⟩ := named_writeDeclaration d desk
  refine ⟨?_, ?_⟩
  · rw [packageName]
    split
    · rename_i named
      rw [(nameless named).2]
      rfl
    · rfl
  · rw [values, lookup_noted, if_neg]
    rintro ⟨named, scalar⟩
    rw [(nameless named).1] at scalar
    contradiction

theorem sameName_write {s : Shell.Statement} {desk : Desk}
    (each : s.complete = true → c.classifier.kind s = .assignment →
      ∀ d, (c.resolve s desk.outside).1 = .ok d → Nameless d) :
    desk.document.SameName (c.write s desk).2.document := by
  cases c.step_write s desk with
  | declared declares step =>
      obtain ⟨complete, kind, resolved⟩ := declaration?_eq_some_iff.1 declares
      rw [step]
      have nameless := each complete kind _ resolved
      exact sameName_writeDeclaration nameless
        { desk with outside := (c.resolve s desk.outside).2 }
  | line _ _ _ appended =>
      rw [appended]
      exact ⟨rfl, rfl⟩
  | passed _ _ appended =>
      rw [appended]
      exact ⟨rfl, rfl⟩
  | unchanged _ same =>
      rw [same]
      exact ⟨rfl, rfl⟩

end Steps

section Runs

variable {c : Converter} {d : Shell.Declaration} {ss : List Shell.Statement} {start desk : Desk}

theorem Assigns.cons {s : Shell.Statement} {next : Desk} (assigns : c.Assigns ss next d)
    (wrote : c.write s start = (.ok (), next)) : c.Assigns (s :: ss) start d := by
  obtain ⟨before, t, after, reached, rfl, ran, rest⟩ := assigns
  refine ⟨s :: before, t, after, reached, rfl, ?_, rest⟩
  rw [Work.forM_cons_apply, wrote]
  exact ran

theorem Assigns.exists_mem (assigns : c.Assigns ss start d) :
    ∃ s ∈ ss, c.classifier.kind s = .assignment := by
  obtain ⟨before, s, after, -, rfl, -, -, kind, -⟩ := assigns
  exact ⟨s, List.mem_append_right before List.mem_cons_self, kind⟩

theorem sameName_forM (each : ∀ d, c.Assigns ss start d → Nameless d) :
    start.document.SameName ((ss.forM c.write) start).2.document := by
  induction ss generalizing start with
  | nil => exact ⟨rfl, rfl⟩
  | cons s ss ih =>
      have here : start.document.SameName (c.write s start).2.document :=
        sameName_write fun complete kind d resolved =>
          each d ⟨[], s, ss, start, rfl, rfl, complete, kind, resolved⟩
      rw [Work.forM_cons_apply]
      rcases wrote : c.write s start with ⟨failure | _, next⟩
      · rw [wrote] at here
        exact here
      · rw [wrote] at here
        exact here.trans (ih fun d assigns => each d (assigns.cons wrote))

/-- A run in which a declaration is the last that names the package, with the desk before it. -/
def NamesLast (c : Converter) (ss : List Shell.Statement) (start before : Desk)
    (d : Shell.Declaration) (desk : Desk) : Prop :=
  ∃ done s later next, ss = done ++ s :: later ∧
    (done.forM c.write) start = (.ok (), before) ∧
    s.complete = true ∧ c.classifier.kind s = .assignment ∧
    (c.resolve s before.outside).1 = .ok d ∧ d.name = "pkgname".toList ∧
    c.write s before = (.ok (), next) ∧ (later.forM c.write) next = (.ok (), desk) ∧
    ∀ d', c.Assigns later next d' → Nameless d'

private theorem named_of_namesLast {before : Desk} (naming : c.NamesLast ss start before d desk) :
    desk.document.packageName = d.elements.head?.or before.document.packageName ∧
      desk.document.values.lookup "pkgname".toList =
        if d.attributes.isArray = false then some (before.document.expand d.scalar)
        else before.document.values.lookup "pkgname".toList := by
  obtain ⟨done, s, later, next, -, -, complete, kind, resolved, named, wrote, ran, nameless⟩ := naming
  have same := sameName_forM nameless
  rw [ran] at same
  have written := write_of_resolve complete kind resolved
  rw [wrote] at written
  obtain ⟨packageName, values⟩ :=
    named_writeDeclaration d { before with outside := (c.resolve s before.outside).2 }
  rw [← written] at packageName values
  rw [same.packageName, same.value, packageName, values, lookup_noted, if_pos named]
  simp only [named, true_and, and_self]

end Runs

section Consumers

variable {c : Converter} {doc : Document} {p : List Char}

private theorem replaced_of_finish {desk final : Desk} {recipe : List Char}
    (done : c.finish desk = (.ok recipe, final)) (named : desk.document.packageName = some p)
    (plain : '$' ∉ p) :
    let table := c.settings.substitutions
    let source := final.document.source
    final.document.className = classNameOf p ∧ recipe = final.document.render table ∧
      (ExpressionTable table → "pkgname".toList ∉ table.keys →
        StandsApart "pkgname".toList (· ∉ "pkgname".toList :: table.keys) source →
        Replaced (fun r => if r.name = "pkgname".toList then p
          else (table.lookup r.name).getD (interpolation r)) source recipe) := by
  intro table source
  have last : c.convert [] desk = (.ok recipe, final) := done
  obtain ⟨reached, line, ran, filled, rendered⟩ := convert_ok last
  obtain rfl : desk = reached := (Prod.mk.inj ran).2
  have packageName : final.document.packageName = some p := by
    rw [filled, Document.packageName_fillChecksum, named]
  refine ⟨?_, rendered, fun wellFormed unnamed apart => ?_⟩
  · rw [Document.className, packageName]
  · have absent : table.keys.contains "pkgname".toList = false := by simpa using unnamed
    have names : final.document.withPackageName table = table ++ [("pkgname".toList, p)] := by
      rw [Document.withPackageName, packageName, absent]
      rfl
    rw [replaced_iff, rendered, Document.render, names,
      substitute_append_singleton wellFormed (by decide) (inert_of_notMem plain) apart]
    congr 1
    funext r
    rw [lookup_append_singleton unnamed]
    split <;> rfl

theorem derive_of_sourceUrl {policy : ChecksumPolicy} {digest : List Char → Run (List Char)}
    (digests : policy.digest? = some digest) (allowed : policy.fetch = true) {source : List Char}
    (recorded : doc.sourceUrl = some source) (given : source ≠ []) :
    policy.derive doc = do
      Run.tell? policy.status? "progress".toList "Generating sha256sum...".toList
      return some (← digest (doc.expand source)) := by
  obtain ⟨first, rest, rfl⟩ := List.exists_cons_of_ne_nil given
  unfold ChecksumPolicy.derive
  rw [digests, allowed, recorded]

private theorem exists_location_of_derive {policy : ChecksumPolicy} {digest : List Char → Run (List Char)}
    (digests : policy.digest? = some digest) (allowed : policy.fetch = true) {source : List Char}
    (recorded : doc.sourceUrl = some source) (given : source ≠ [])
    (value : doc.values.lookup "pkgname".toList = some p) :
    ∃ location, Replaced (fun r => if r.name = "pkgname".toList then p
        else (doc.values.lookup r.name).getD r.text) source location ∧
      policy.derive doc = do
        Run.tell? policy.status? "progress".toList "Generating sha256sum...".toList
        return some (← digest location) := by
  refine ⟨doc.expand source, ?_, derive_of_sourceUrl digests allowed recorded given⟩
  rw [replaced_iff]
  unfold Document.expand
  congr 1
  funext r
  split
  · rename_i named
    rw [named, value]
    rfl
  · rfl

end Consumers

private theorem elements_of_scalar {d : Shell.Declaration} (scalar : d.attributes.isArray = false)
    (bare : Shell.ArrayText.isParenthesised d.value = false) : d.elements = [d.scalar] := by
  rw [Shell.Declaration.elements, scalar, bare]
  rfl

/-- The name that the package has after the last declaration of it, at any point of a run and for
any resolver: in the recipe, and in the location of a download. An array gives the recipe a name and
leaves the value for the download as it was. -/
theorem packageName_agrees {c : Converter} {lines : List (List Char)} {n : Nat} {o : Outside}
    {before desk : Desk} {d : Shell.Declaration}
    (naming : c.NamesLast ((Shell.statements lines).take n) ⟨{}, o⟩ before d desk)
    {p : List Char} (first : d.elements.head? = some p) (plain : '$' ∉ p) :
    let doc := desk.document
    let table := c.settings.substitutions
    doc.packageName = some p ∧
      (∀ recipe final, c.finish desk = (.ok recipe, final) →
        final.document.className = classNameOf p ∧ recipe = final.document.render table ∧
          (ExpressionTable table → "pkgname".toList ∉ table.keys →
            StandsApart "pkgname".toList (· ∉ "pkgname".toList :: table.keys)
              final.document.source →
            Replaced (fun r => if r.name = "pkgname".toList then p
              else (table.lookup r.name).getD (interpolation r)) final.document.source recipe)) ∧
      (d.attributes.isArray = false → Shell.ArrayText.isParenthesised d.value = false →
        (∀ r : Reference, r.name = "pkgname".toList → doc.expand r.text = p) ∧
          ∀ digest source, c.checksum.digest? = some digest → c.checksum.fetch = true →
            doc.sourceUrl = some source → source ≠ [] →
            ∃ location, Replaced (fun r => if r.name = "pkgname".toList then p
                else (doc.values.lookup r.name).getD r.text) source location ∧
              c.checksum.derive doc = do
                Run.tell? c.checksum.status? "progress".toList "Generating sha256sum...".toList
                return some (← digest location)) ∧
      (d.attributes.isArray = false → Shell.ArrayText.isParenthesised d.value = true →
        ∀ r : Reference, r.name = "pkgname".toList →
          doc.expand r.text = before.document.expand d.scalar) ∧
      (d.attributes.isArray = true → ∀ r : Reference, r.name = "pkgname".toList →
        doc.expand r.text = before.document.expand r.text) := by
  intro doc table
  obtain ⟨packageName, value⟩ := named_of_namesLast naming
  rw [first, Option.some_or] at packageName
  have isName {r : Reference} (same : r.name = "pkgname".toList) : IsReferenceName r.name := by
    rw [same]
    decide
  refine ⟨packageName, fun recipe final done => replaced_of_finish done packageName plain,
    fun scalar bare => ?_, fun scalar _ r same => ?_, fun array r same => ?_⟩
  · rw [elements_of_scalar scalar bare] at first
    obtain rfl := Option.some.inj first
    rw [if_pos scalar, Document.expand_of_notMem _ plain] at value
    refine ⟨fun r same => ?_, fun digest source digests allowed recorded given =>
      exists_location_of_derive digests allowed recorded given value⟩
    rw [Document.expand_reference _ (isName same), same, value]
    rfl
  · rw [if_pos scalar] at value
    rw [Document.expand_reference _ (isName same), same, value]
    rfl
  · rw [if_neg (by simp [array])] at value
    rw [Document.expand_reference _ (isName same), Document.expand_reference _ (isName same), same,
      value]

theorem packageName_agrees_scalar :
    let resolve : Shell.Resolver := fun s =>
      pure ⟨s.assignedName?.getD [], {}, ((Text.cutAt? ['='] s.text).map (·.2)).getD []⟩
    let c : Converter := ⟨{}, resolve, ⟨some (sourceDigest 65536), true, none⟩, none⟩
    let lines := ["source=https://x.org/$pkgname.tar", "md5sums=SKIP", "pkgname=foo",
      "make $\x7bpkgname\x7d"].map String.toList
    let o : Outside := ⟨[], [.body { bytes := [0x78] }], [], [], []⟩
    let d : Shell.Declaration := ⟨"pkgname".toList, {}, "foo".toList⟩
    let ss := Shell.statements lines
    let naming : Shell.Statement := ⟨"pkgname=foo".toList, 3, true⟩
    let later : List Shell.Statement := [⟨"make $\x7bpkgname\x7d".toList, 4, true⟩]
    let before := ((ss.take 2).forM c.write ⟨{}, o⟩).2
    let desk := (later.forM c.write (c.write naming before).2).2
    c.NamesLast (ss.take 4) ⟨{}, o⟩ before d desk ∧
      d.elements.head? = some "foo".toList ∧ '$' ∉ "foo".toList ∧
      desk.document.packageName = some "foo".toList ∧
      desk.document.expand "$pkgname".toList = "foo".toList ∧
      desk.document.expand "$\x7bpkgname\x7d".toList = "foo".toList ∧
      (c.finish desk).2.outside.requested = ["https://x.org/foo.tar".toList] := by
  intro resolve c lines o d ss naming later before desk
  have statements : ss.take 4 = ss.take 2 ++ naming :: later := by decide +kernel
  have quiet : ∀ s ∈ later, c.classifier.kind s ≠ .assignment := by decide +kernel
  have last : c.NamesLast (ss.take 4) ⟨{}, o⟩ before d desk := by
    refine ⟨ss.take 2, naming, later, (c.write naming before).2, statements,
      Prod.ext (by decide +kernel) rfl, rfl, by decide +kernel, by decide +kernel, rfl,
      Prod.ext (by decide +kernel) rfl, Prod.ext (by decide +kernel) rfl, fun d' assigns => ?_⟩
    obtain ⟨s, member, kind⟩ := assigns.exists_mem
    exact absurd kind (quiet s member)
  have first : d.elements.head? = some "foo".toList := by decide +kernel
  have plain : '$' ∉ "foo".toList := by decide
  obtain ⟨packageName, -, scalar, -, -⟩ := packageName_agrees last first plain
  obtain ⟨expand, -⟩ := scalar rfl (by decide +kernel)
  exact ⟨last, first, plain, packageName, expand ⟨"pkgname".toList, false⟩ rfl,
    expand ⟨"pkgname".toList, true⟩ rfl, by decide +kernel⟩

/-- An array names the package in the recipe alone: the download is asked for under the variable. -/
theorem packageName_disagrees_array :
    let command := ["bash".toList, "-c".toList]
    let c : Converter :=
      ⟨{}, Shell.resolveWith command, ⟨some (sourceDigest 65536), true, none⟩, none⟩
    let lines :=
      ["pkgname=(foo)", "source=(https://x.org/$pkgname.tar)", "md5sums=(SKIP)"].map String.toList
    let replies := ["declare -a pkgname=([0]=\"foo\")\n",
      "declare -a source=([0]=\"https://x.org/\\$pkgname.tar\")\n",
      "declare -a md5sums=([0]=\"SKIP\")\n"].map fun text => ProcessReply.ended 0 text.toList []
    let o : Outside := ⟨replies, [.body { bytes := [0x78] }], [], [], []⟩
    let d : Shell.Declaration := ⟨"pkgname".toList, { array := true }, "([0]=\"foo\")".toList⟩
    let ss := Shell.statements lines
    let naming : Shell.Statement := ⟨"pkgname=(foo)".toList, 1, true⟩
    let desk := (c.write naming ⟨{}, o⟩).2
    c.NamesLast (ss.take 1) ⟨{}, o⟩ ⟨{}, o⟩ d desk ∧
      d.elements.head? = some "foo".toList ∧ '$' ∉ "foo".toList ∧
      desk.document.packageName = some "foo".toList ∧
      desk.document.expand "$pkgname".toList ≠ "foo".toList ∧
      (c.recipeOfLines lines o).2.requested = ["https://x.org/$pkgname.tar".toList] := by
  intro command c lines replies o d ss naming desk
  have statements : ss.take 1 = [naming] := by decide +kernel
  have last : c.NamesLast (ss.take 1) ⟨{}, o⟩ ⟨{}, o⟩ d desk := by
    refine ⟨[], naming, [], desk, statements, rfl, rfl, by decide +kernel, by decide +kernel, rfl,
      Prod.ext (by decide +kernel) rfl, rfl, fun d' assigns => ?_⟩
    obtain ⟨s, member, -⟩ := assigns.exists_mem
    contradiction
  exact ⟨last, by decide +kernel, by decide, by decide +kernel, by decide +kernel,
    by decide +kernel⟩

end Converter

end PkgRecipe.Recipe
