import PkgRecipe.Proofs.Recipe.Blocks
import PkgRecipe.Proofs.Settings.MethodName
import PkgRecipe.Yaml.Document

namespace PkgRecipe

namespace Shell

/-- A function name, which may hold hyphens, in front of an empty pair of parentheses and perhaps
the opening brace. -/
structure IsHeaderOf (function word : List Char) : Prop where
  name : ∃ first rest, function = first :: rest ∧ isNameStart first = true ∧
    ∀ c ∈ rest, isNameChar c = true ∨ c = '-'
  tail : word = function ++ "()".toList ∨ word = function ++ "()\x7b".toList

theorem headerName?_eq_some_iff {word function : List Char} :
    headerName? word = some function ↔ IsHeaderOf function word := by
  constructor
  · intro header
    cases word with
    | nil => contradiction
    | cons first word =>
        let isPart (d : Char) : Bool := isNameChar d || d == '-'
        have parts : ∀ c ∈ word.takeWhile isPart, isNameChar c = true ∨ c = '-' := by
          intro c member
          have part : isPart c = true := List.mem_takeWhile_imp member
          simpa [isPart] using part
        have whole : word.takeWhile isPart ++ word.dropWhile isPart = word :=
          List.takeWhile_append_dropWhile
        rw [headerName?] at header
        split at header
        · rename_i starts
          dsimp only at header
          split at header
          · rename_i tail
            cases header
            refine ⟨⟨first, _, rfl, starts, parts⟩, .inl (congrArg (first :: ·) ?_)⟩
            exact whole.symm.trans (congrArg (word.takeWhile isPart ++ ·) tail)
          · rename_i tail
            cases header
            refine ⟨⟨first, _, rfl, starts, parts⟩, .inr (congrArg (first :: ·) ?_)⟩
            exact whole.symm.trans (congrArg (word.takeWhile isPart ++ ·) tail)
          · contradiction
        · contradiction
  · rintro ⟨⟨first, rest, rfl, starts, parts⟩, tail⟩
    have parts : ∀ c ∈ rest, (isNameChar c || c == '-') = true := by
      intro c member
      rw [Bool.or_eq_true, beq_iff_eq]
      exact parts c member
    have taken (behind : List Char) :
        (rest ++ '(' :: behind).takeWhile (fun c => isNameChar c || c == '-') = rest :=
      (List.takeWhile_append_of_pos parts).trans (List.append_nil rest)
    have dropped (behind : List Char) :
        (rest ++ '(' :: behind).dropWhile (fun c => isNameChar c || c == '-') = '(' :: behind :=
      List.dropWhile_append_of_pos parts
    rcases tail with rfl | rfl
    · show headerName? (first :: (rest ++ ['(', ')'])) = _
      simp only [headerName?, starts, if_true, taken, dropped]
    · show headerName? (first :: (rest ++ ['(', ')', '\x7b'])) = _
      simp only [headerName?, starts, if_true, taken, dropped]

theorem Classifier.functionName?_of_functionHeader {c : Classifier} {s : Statement}
    (header : c.kind s = .functionHeader) :
    ∃ function, c.functionName? s = some function := by
  unfold kind at header
  dsimp only at header
  repeat' split at header
  all_goals first | contradiction | skip
  rename_i named
  exact Option.isSome_iff_exists.1 named

end Shell

namespace Recipe

namespace Converter

variable {c : Converter}

private theorem exists_method_of_functionHeader {s : Shell.Statement}
    (header : c.classifier.kind s = .functionHeader) :
    ∃ function method, Shell.IsHeaderOf function s.head ∧
      c.settings.functions.lookup function = some method ∧
      c.methodLine s = "def self.".toList ++ method := by
  obtain ⟨function, named⟩ := Shell.Classifier.functionName?_of_functionHeader header
  obtain ⟨name, known⟩ := Option.filter_eq_some_iff.1 named
  have found := mt Table.lookup_eq_none_iff_notMem_keys.1 (not_not.2 (List.contains_iff_mem.1 known))
  obtain ⟨method, found⟩ := Option.ne_none_iff_exists'.1 found
  refine ⟨function, method, Shell.headerName?_eq_some_iff.1 name, found, ?_⟩
  have looked : ((c.classifier.functionName? s).bind (c.settings.functions.lookup ·)).getD [] =
      method := by
    rw [named, Option.bind_some, found, Option.getD_some]
  exact congrArg ("def self.".toList ++ ·) looked

private theorem write_of_functionHeader {s : Shell.Statement} (complete : s.complete = true)
    (header : c.classifier.kind s = .functionHeader) (desk : Desk) :
    c.write s desk =
      (.ok (), { desk with document := desk.document.append (c.methodLine s) }) := by
  have line : c.lineOf? s = some (c.methodLine s) := by
    rw [lineOf?, header]
  rw [write, if_pos complete, writeStatement_eq, line]
  rfl

private theorem methodLine_of_lineOf? {s : Shell.Statement} {line : List Char}
    (written : c.lineOf? s = some line) (opens : opensMethod line = true) :
    c.classifier.kind s = .functionHeader ∧ line = c.methodLine s := by
  have mark := lineMark?_lineOf? written
  rw [lineMark?, if_pos opens] at mark
  cases kind : c.classifier.kind s with
  | functionHeader =>
      rw [lineOf?, kind] at written
      exact ⟨rfl, (Option.some.inj written).symm⟩
  | _ =>
      rw [kind] at mark
      contradiction

private theorem not_opensMethod {line : List Char} (unmarked : lineMark? line = none) :
    ¬opensMethod line = true := by
  intro opens
  rw [lineMark?, if_pos opens] at unmarked
  contradiction

private theorem opensMethod_of_mem_write {s : Shell.Statement} {desk : Desk} {line : List Char}
    (member : line ∈ (c.write s desk).2.document.lines) (opens : opensMethod line = true) :
    line ∈ desk.document.lines ∨
      s.complete = true ∧ c.classifier.kind s = .functionHeader ∧ line = c.methodLine s := by
  cases c.step_write s desk with
  | unchanged _ same =>
      rw [same] at member
      exact .inl member
  | line _ complete written appended =>
      rw [appended, Document.append, List.mem_append, List.mem_singleton] at member
      refine member.imp id fun here => ?_
      rw [← here] at written
      exact ⟨complete, methodLine_of_lineOf? written opens⟩
  | passed _ _ appended =>
      rw [appended, Document.append, List.mem_append, List.mem_singleton] at member
      refine member.imp id fun here => absurd opens (not_opensMethod ?_)
      rw [here]
      exact lineMark?_systemCall s
  | @declared d _ step =>
      rw [step] at member
      obtain ⟨added, grown, declares⟩ := grown_writeDeclaration d
        { desk with outside := (c.resolve s desk.outside).2 }
      rw [grown.lines, List.mem_append] at member
      exact member.imp id fun here =>
        absurd opens (not_opensMethod (lineMark?_of_declares (declares line here)))

private theorem opensMethod_of_mem_forM {ss : List Shell.Statement} {desk : Desk} {line : List Char}
    (member : line ∈ ((ss.forM c.write) desk).2.document.lines) (opens : opensMethod line = true) :
    line ∈ desk.document.lines ∨ ∃ s ∈ ss,
      s.complete = true ∧ c.classifier.kind s = .functionHeader ∧ line = c.methodLine s := by
  induction ss generalizing desk with
  | nil => exact .inl member
  | cons s ss ih =>
      rw [Work.forM_cons_apply] at member
      have first (member : line ∈ (c.write s desk).2.document.lines) :
          line ∈ desk.document.lines ∨ ∃ t ∈ s :: ss, t.complete = true ∧
            c.classifier.kind t = .functionHeader ∧ line = c.methodLine t :=
        (opensMethod_of_mem_write member opens).imp id
          fun header => ⟨s, List.mem_cons_self, header⟩
      rcases wrote : c.write s desk with ⟨failure | _, next⟩
      · rw [wrote] at member first
        exact first member
      · rw [wrote] at member first
        rcases ih member with before | ⟨t, later, header⟩
        · exact first before
        · exact .inr ⟨t, List.mem_cons_of_mem s later, header⟩

/-- A line that opens a method: for the function that a statement is the header of, with the name
that the settings give it. -/
inductive OpensMethodOf (settings : Settings) (s : Shell.Statement) : List Char → Prop
  | intro {function method : List Char} (header : Shell.IsHeaderOf function s.head)
      (configured : settings.functions.lookup function = some method)
      (named : Settings.NamesMethod method) :
      OpensMethodOf settings s ("def self.".toList ++ method)

private theorem opensMethodOf_methodLine (accepted : c.settings.Accepted) {s : Shell.Statement}
    (header : c.classifier.kind s = .functionHeader) :
    OpensMethodOf c.settings s (c.methodLine s) := by
  obtain ⟨function, method, heads, configured, line⟩ := exists_method_of_functionHeader header
  rw [line]
  exact .intro heads configured (accepted.namesMethod configured)

/-- Under settings that were accepted, the header of a function is written as the line that opens
the method configured for it, whose name is an identifier but for a line feed that may stand behind
it; and only such headers are written as lines that open methods. -/
theorem methodLines_of_accepted (c : Converter) (accepted : c.settings.Accepted)
    (lines : List (List Char)) (o : Outside) :
    let ss := Shell.statements lines
    let written := ((ss.forM c.write) ⟨{}, o⟩).2.document.lines
    (∀ s ∈ ss, s.complete = true → c.classifier.kind s = .functionHeader →
      ∃ line, OpensMethodOf c.settings s line ∧ ∀ desk : Desk, c.write s desk =
        (.ok (), { desk with document := desk.document.append line })) ∧
    ∀ line ∈ written, opensMethod line = true →
      ∃ s ∈ ss, s.complete = true ∧ c.classifier.kind s = .functionHeader ∧
        OpensMethodOf c.settings s line := by
  intro ss written
  constructor
  · intro s _ complete header
    exact ⟨_, opensMethodOf_methodLine accepted header, write_of_functionHeader complete header⟩
  · intro line member opens
    rcases opensMethod_of_mem_forM member opens with nothing | ⟨s, given, complete, header, rfl⟩
    · contradiction
    · exact ⟨s, given, complete, header, opensMethodOf_methodLine accepted header⟩

theorem methodLines_of_accepted_two :
    let entries : Data.Entries := [(.text "functions".toList, .mapping
      [(.text "build()".toList, .text "make".toList), (.text "check".toList, .text "test".toList)])]
    let settings : Settings :=
      { functions := [("build".toList, "make".toList), ("check".toList, "test".toList)] }
    let c : Converter := ⟨settings, fun _ => throw .interrupted, ⟨none, false, none⟩, none⟩
    let lines := ["check() \x7b".toList, "\x7d".toList, "build()\x7b".toList]
    let written :=
      (((Shell.statements lines).forM c.write) ⟨{}, ⟨[], [], [], [], []⟩⟩).2.document.lines
    Settings.ofEntries entries = .ok settings ∧
      written = ["def self.test".toList, "end".toList, "def self.make".toList] ∧
      ∃ s ∈ Shell.statements lines, OpensMethodOf settings s "def self.test".toList := by
  intro entries settings c lines written
  have read : Settings.ofEntries entries = .ok settings := rfl
  have same : written = ["def self.test".toList, "end".toList, "def self.make".toList] := by
    decide +kernel
  refine ⟨read, same, ?_⟩
  obtain ⟨-, opened⟩ := c.methodLines_of_accepted (.data read) lines ⟨[], [], [], [], []⟩
  have member : "def self.test".toList ∈ written := by
    rw [same]
    exact List.mem_cons_self
  obtain ⟨s, given, -, -, opens⟩ := opened _ member rfl
  exact ⟨s, given, opens⟩

/-- A line feed behind the name of a method is accepted, and written behind it. -/
theorem methodLines_lineFeed :
    let text := "functions:\n  build: \"mk\\n\"\n".toList
    let lines := ["build() \x7b".toList, "\x7d".toList]
    let written (settings : Settings) : List (List Char) :=
      let c : Converter := ⟨settings, fun _ => throw .interrupted, ⟨none, false, none⟩, none⟩
      (((Shell.statements lines).forM c.write) ⟨{}, ⟨[], [], [], [], []⟩⟩).2.document.lines
    (Settings.ofText Yaml.plainReader true text).toOption.map written =
        some ["def self.mk\n".toList, "end".toList] ∧
      ¬Shell.IsIdentifier "mk\n".toList := by
  intro text lines written
  refine ⟨by decide +kernel, ?_⟩
  rw [← Shell.isName_iff]
  decide

end Converter

end Recipe

end PkgRecipe
