import Mathlib.Data.List.Infix
import PkgRecipe.Proofs.Recipe.Writing

namespace PkgRecipe.Shell

/-- Whether a word is any name with an empty pair of parentheses, perhaps with the opening brace. -/
def headsFunction (word : List Char) : Bool :=
  ["()".toList, "()\x7b".toList].any fun tail => tail.isSuffixOf word && tail ≠ word

namespace Statement

def opensBlock (s : Statement) : Bool :=
  headsFunction s.head && s.tokens.getLast?.any fun token => token.raw.getLast? = some '\x7b'

def closesBlock (s : Statement) : Bool :=
  s.head = ['\x7d']

end Statement

/-- Blocks are closed only after they were opened, and all are closed in the end. -/
structure WellNested (ss : List Statement) : Prop where
  opened (part : List Statement) (first : part <+: ss) :
    part.countP (·.closesBlock) ≤ part.countP (·.opensBlock)
  closed : ss.countP (·.closesBlock) = ss.countP (·.opensBlock)

instance (ss : List Statement) : Decidable (WellNested ss) :=
  decidable_of_iff
    ((∀ part ∈ ss.inits, part.countP (·.closesBlock) ≤ part.countP (·.opensBlock)) ∧
      ss.countP (·.closesBlock) = ss.countP (·.opensBlock))
    ⟨fun ⟨opened, closed⟩ => ⟨fun part first => opened part ((List.mem_inits part ss).2 first), closed⟩,
      fun nested =>
        ⟨fun part first => nested.opened part ((List.mem_inits part ss).1 first), nested.closed⟩⟩

theorem Classifier.head_of_comment {c : Classifier} {s : Statement} (comment : c.kind s = .comment) :
    s.head = [] ∨ s.head.head? = some '#' := by
  unfold kind at comment
  by_contra other
  simp only [if_neg other] at comment
  repeat' split at comment
  all_goals contradiction

theorem Classifier.head_of_functionEnd {c : Classifier} {s : Statement}
    (ends : c.kind s = .functionEnd) : s.head = ['\x7d'] := by
  unfold kind at ends
  by_contra other
  simp only [if_neg other] at ends
  repeat' split at ends
  all_goals contradiction

end PkgRecipe.Shell

namespace PkgRecipe.Recipe

/-! What opens and what closes a method, among statements and among the lines of a recipe. -/

inductive BlockMark where
  | opening
  | closing
deriving DecidableEq

def opensMethod (line : List Char) : Bool :=
  "def self.".toList.isPrefixOf line

def closesMethod (line : List Char) : Bool :=
  line = "end".toList

def lineMark? (line : List Char) : Option BlockMark :=
  if opensMethod line then some .opening
  else if closesMethod line then some .closing
  else none

def kindMark? : Shell.Kind → Option BlockMark
  | .functionHeader => some .opening
  | .functionEnd => some .closing
  | _ => none

private theorem countP_opensMethod (lines : List (List Char)) :
    lines.countP opensMethod = (lines.filterMap lineMark?).count .opening := by
  rw [List.count, List.countP_filterMap]
  refine List.countP_congr fun line _ => ?_
  unfold lineMark?
  cases opensMethod line <;> cases closesMethod line <;> simp

private theorem countP_closesMethod (lines : List (List Char)) :
    lines.countP closesMethod = (lines.filterMap lineMark?).count .closing := by
  rw [List.count, List.countP_filterMap]
  refine List.countP_congr fun line _ => ?_
  unfold lineMark?
  cases closes : closesMethod line with
  | false => cases opensMethod line <;> simp
  | true =>
      obtain rfl : line = "end".toList := of_decide_eq_true closes
      decide

/-- The words with which the lines begin that are neither comments nor part of a method's frame. -/
def leadingWords : List (List Char) :=
  ["Dir.chdir(", "FileUtils.", "system ", "@_", "ENV[", "version ", "compatibility ", "homepage ",
    "license ", "description ", "depends_on ", "source_url "].map String.toList

theorem lineMark?_eq_none {line : List Char} (notOpening : ¬"def self.".toList <+: line)
    (notClosing : line ≠ "end".toList) : lineMark? line = none := by
  rw [← List.isPrefixOf_iff_prefix] at notOpening
  rw [lineMark?, opensMethod, closesMethod, if_neg notOpening,
    if_neg (fun closes => notClosing (of_decide_eq_true closes))]

theorem lineMark?_of_leadingWord (word : List Char) {line : List Char}
    (leading : word ∈ leadingWords) (begins : word <+: line) : lineMark? line = none := by
  have apart : ∀ word ∈ leadingWords, ¬word <+: "def self.".toList ∧
      ¬"def self.".toList <+: word ∧ ¬word <+: "end".toList := by decide
  obtain ⟨longer, shorter, other⟩ := apart word leading
  refine lineMark?_eq_none (fun opening => ?_) (fun closing => other (closing ▸ begins))
  rcases List.prefix_or_prefix_of_prefix begins opening with first | first
  · exact longer first
  · exact shorter first

private theorem lineMark?_textStatement {keyword : String}
    (leading : keyword.toList ++ [' '] ∈ leadingWords) (value : List Char) :
    lineMark? (textStatement keyword value) = none := by
  refine lineMark?_of_leadingWord _ leading ⟨Ruby.string value, ?_⟩
  rw [textStatement, List.append_assoc, List.singleton_append]

theorem lineMark?_systemCall (s : Shell.Statement) : lineMark? (systemCall s) = none :=
  lineMark?_of_leadingWord "system ".toList (by decide) (List.prefix_append _ _)

private theorem lineMark?_chdirLine (s : Shell.Statement) : lineMark? (chdirLine s) = none := by
  unfold chdirLine
  split
  · refine lineMark?_of_leadingWord "Dir.chdir(".toList (by decide) ?_
    rw [List.append_assoc]
    exact List.prefix_append _ _
  · exact lineMark?_systemCall s

private theorem lineMark?_fileOperationLine (action : List Char) (s : Shell.Statement) :
    lineMark? (fileOperationLine action s) = none := by
  refine lineMark?_of_leadingWord "FileUtils.".toList (by decide) ?_
  simp only [fileOperationLine, List.append_assoc]
  split
  all_goals exact List.prefix_append _ _

private theorem lineMark?_of_comment {c : Shell.Classifier} {s : Shell.Statement}
    (comment : c.kind s = .comment) : lineMark? s.text = none := by
  have head := Shell.Classifier.head_of_comment comment
  refine lineMark?_eq_none ?_ ?_
  · rintro ⟨rest, text⟩
    have begins : s.head = "def".toList := by
      rw [Shell.Statement.head, Shell.Statement.tokens, ← text]
      rfl
    rw [begins] at head
    revert head
    decide
  · intro text
    have begins : s.head = "end".toList := by
      rw [Shell.Statement.head, Shell.Statement.tokens, text]
      rfl
    rw [begins] at head
    revert head
    decide

private theorem lineMark?_recordMetadata (d : Shell.Declaration) :
    ∀ line ∈ (recordMetadata d {}).1.lines, lineMark? line = none := by
  let Unmarked (r : Document × List Event) : Prop := ∀ line ∈ r.1.lines, lineMark? line = none
  show Unmarked (recordMetadata d {})
  have branch {p : Prop} [Decidable p] {a b : Document × List Event} (left : Unmarked a)
      (right : Unmarked b) : Unmarked (if p then a else b) := by
    split
    · exact left
    · exact right
  have one {keyword : String} (leading : keyword.toList ++ [' '] ∈ leadingWords)
      (value : List Char) : ∀ line ∈ [textStatement keyword value], lineMark? line = none := by
    intro line member
    rw [List.mem_singleton.1 member]
    exact lineMark?_textStatement leading value
  have empty : Unmarked ({}, []) := fun line member => nomatch member
  unfold recordMetadata
  refine branch ?pkgname (branch (one (by decide) _) (branch (one (by decide) _)
    (branch (one (by decide) _) (branch (one (by decide) _) (branch (one (by decide) _)
    (branch ?depends (branch ?source (branch ?sums ?others))))))))
  case pkgname => cases d.elements <;> exact empty
  case depends =>
    intro line member
    obtain ⟨e, -, rfl⟩ := List.mem_map.1 member
    exact lineMark?_textStatement (by decide) _
  case source =>
    cases d.elements with
    | nil => exact fun line member => nomatch member
    | cons first rest => exact one (by decide) _
  case sums =>
    have kept : (recordChecksums d {}).1.lines = [[]] := by
      unfold recordChecksums
      split
      · rfl
      · cases d.elements with
        | nil => rfl
        | cons first rest => rfl
    intro line member
    rw [kept, List.mem_singleton] at member
    rw [member]
    rfl
  case others => exact fun line member => nomatch member

theorem lineMark?_of_declares {d : Shell.Declaration} {line : List Char}
    (declares : Converter.Declares d line) : lineMark? line = none := by
  rcases declares with rfl | member | ⟨literal, member⟩
  · rfl
  · rw [Entry.lines] at member
    split at member
    · contradiction
    · exact lineMark?_recordMetadata d line member
  · rw [Converter.variableLines, List.mem_cons] at member
    rcases member with rfl | exported
    · refine lineMark?_of_leadingWord "@_".toList (by decide) ?_
      simp only [List.append_assoc]
      exact List.prefix_append _ _
    · split at exported
      · rw [List.mem_singleton.1 exported]
        refine lineMark?_of_leadingWord "ENV[".toList (by decide) ?_
        simp only [List.append_assoc]
        exact List.prefix_append _ _
      · contradiction

theorem filterMap_cons_eq_append {α β : Type} (f : α → Option β) (a : α) (rest : List α) :
    (a :: rest).filterMap f = (f a).toList ++ rest.filterMap f := by
  rw [List.filterMap_cons]
  cases f a with
  | none => rfl
  | some b => rfl

namespace Converter

theorem lineMark?_lineOf? {c : Converter} {s : Shell.Statement} {line : List Char}
    (written : c.lineOf? s = some line) : lineMark? line = kindMark? (c.classifier.kind s) := by
  unfold lineOf? at written
  cases kind : c.classifier.kind s
  all_goals rw [kind] at written
  case assignment => contradiction
  all_goals obtain rfl := Option.some.inj written
  case comment => exact lineMark?_of_comment kind
  case chdir => exact lineMark?_chdirLine s
  case fileOperation => exact lineMark?_fileOperationLine _ s
  case functionHeader => rfl
  case functionEnd => rfl
  case command => exact lineMark?_systemCall s

def mark? (c : Converter) (s : Shell.Statement) : Option BlockMark :=
  kindMark? (c.classifier.kind s)

theorem marks_write (c : Converter) {s : Shell.Statement} (complete : s.complete = true)
    (desk : Desk) :
    (c.write s desk).2.document.lines.filterMap lineMark? =
      desk.document.lines.filterMap lineMark? ++ (c.mark? s).toList := by
  rw [write, if_pos complete]
  obtain ⟨added, grown, lines⟩ := c.grown_writeStatement s desk
  rw [grown.lines, List.filterMap_append, mark?]
  congr 1
  cases written : c.lineOf? s with
  | some line =>
      rw [written] at lines
      obtain rfl : added = [line] := lines
      rw [filterMap_cons_eq_append, lineMark?_lineOf? written, List.filterMap_nil, List.append_nil]
  | none =>
      rw [written] at lines
      rw [kind_of_lineOf?_eq_none written]
      refine List.filterMap_eq_nil_iff.2 fun line member => ?_
      obtain ⟨d, declares⟩ := lines line member
      exact lineMark?_of_declares declares

theorem marks_forM (c : Converter) {ss : List Shell.Statement}
    (complete : ∀ s ∈ ss, s.complete = true) (desk : Desk) :
    ∃ written, written <+: ss ∧
      ((ss.forM c.write) desk).2.document.lines.filterMap lineMark? =
        desk.document.lines.filterMap lineMark? ++ written.filterMap c.mark? ∧
      (((ss.forM c.write) desk).1 = .ok () → written = ss) := by
  induction ss generalizing desk with
  | nil => exact ⟨[], List.nil_prefix, (List.append_nil _).symm, fun _ => rfl⟩
  | cons s ss ih =>
      have marks := c.marks_write (complete s List.mem_cons_self) desk
      rw [Work.forM_cons_apply]
      generalize c.write s desk = ran at marks ⊢
      obtain ⟨failure | _, after⟩ := ran
      · refine ⟨[s], List.cons_prefix_cons.2 ⟨rfl, List.nil_prefix⟩, ?_, nofun⟩
        rw [filterMap_cons_eq_append, List.filterMap_nil, List.append_nil]
        exact marks
      · obtain ⟨written, part, later, whole⟩ :=
          ih (fun s member => complete s (List.mem_cons_of_mem _ member)) after
        refine ⟨s :: written, List.cons_prefix_cons.2 ⟨rfl, part⟩, ?_, fun ok => ?_⟩
        · rw [filterMap_cons_eq_append, ← List.append_assoc, ← marks]
          exact later
        · rw [whole ok]

private theorem count_opening (c : Converter) (ss : List Shell.Statement) :
    (ss.filterMap c.mark?).count .opening =
      ss.countP fun s => c.classifier.kind s = .functionHeader := by
  rw [List.count, List.countP_filterMap]
  refine List.countP_congr fun s _ => ?_
  unfold mark?
  cases c.classifier.kind s <;> decide

private theorem count_closing (c : Converter) (ss : List Shell.Statement) :
    (ss.filterMap c.mark?).count .closing =
      ss.countP fun s => c.classifier.kind s = .functionEnd := by
  rw [List.count, List.countP_filterMap]
  refine List.countP_congr fun s _ => ?_
  unfold mark?
  cases c.classifier.kind s <;> decide

/-- How many blocks are opened by statements for which the recipe opens no method. -/
def plainOpeners (c : Converter) (ss : List Shell.Statement) : Nat :=
  ss.countP fun s => s.opensBlock && !decide (c.classifier.kind s = .functionHeader)

/-- How many blocks are closed by statements for which the recipe closes no method. -/
def plainClosers (c : Converter) (ss : List Shell.Statement) : Nat :=
  ss.countP fun s => s.closesBlock && !decide (c.classifier.kind s = .functionEnd)

/-- How many methods the recipe opens for statements that open no block. -/
def bareHeaders (c : Converter) (ss : List Shell.Statement) : Nat :=
  ss.countP fun s => decide (c.classifier.kind s = .functionHeader) && !s.opensBlock

theorem countP_split {α : Type} (p q : α → Bool) (xs : List α) :
    xs.countP p = xs.countP (fun x => p x && q x) + xs.countP fun x => p x && !q x := by
  rw [List.countP_eq_countP_filter_add xs p q, List.countP_filter, List.countP_filter]

private theorem countP_headers (c : Converter) (ss : List Shell.Statement) :
    (ss.countP fun s => c.classifier.kind s = .functionHeader) + c.plainOpeners ss =
      ss.countP (·.opensBlock) + c.bareHeaders ss := by
  rw [countP_split (fun s => decide (c.classifier.kind s = .functionHeader)) (·.opensBlock),
    countP_split (·.opensBlock) (fun s => decide (c.classifier.kind s = .functionHeader))]
  simp only [Bool.and_comm, plainOpeners, bareHeaders]
  omega

private theorem countP_ends (c : Converter) (ss : List Shell.Statement) :
    (ss.countP fun s => c.classifier.kind s = .functionEnd) + c.plainClosers ss =
      ss.countP (·.closesBlock) := by
  rw [countP_split (·.closesBlock) (fun s => decide (c.classifier.kind s = .functionEnd)),
    plainClosers]
  congr 1
  refine List.countP_congr fun s _ => ?_
  rw [Bool.and_eq_true, decide_eq_true_eq, iff_and_self]
  exact fun ends => decide_eq_true (Shell.Classifier.head_of_functionEnd ends)

/-- Methods in the lines of a recipe when the blocks of the input are well nested. A recipe that is
done has as many ends as methods, but for the blocks that are opened or closed by statements taken
for something else, and for headers without a block. In no part from the beginning, also of a recipe
that fails, are there more ends than methods and blocks opened otherwise up to there. -/
theorem methods_balanced (c : Converter) (o : Outside) {lines : List (List Char)}
    (complete : ∀ s ∈ Shell.statements lines, s.complete = true)
    (nested : Shell.WellNested (Shell.statements lines)) :
    let ss := Shell.statements lines
    let ran (read : List Shell.Statement) := (read.forM c.write) ⟨{}, o⟩
    let written (read : List Shell.Statement) := (ran read).2.document.lines
    (∀ read, read <+: ss →
        written read <+: written ss ∧
          ∀ part, part <+: written read →
            part.countP closesMethod ≤ part.countP opensMethod + c.plainOpeners read) ∧
      ((ran ss).1 = .ok () →
        (written ss).countP opensMethod + c.plainOpeners ss =
          (written ss).countP closesMethod + c.plainClosers ss + c.bareHeaders ss) := by
  intro ss ran written
  refine ⟨fun read upTo =>
    ⟨Work.Grows.prefix_lines_forM c.grows_write upTo ⟨{}, o⟩, fun part within => ?_⟩, fun ok => ?_⟩
  · obtain ⟨done, first, marks, -⟩ :=
      c.marks_forM (fun s member => complete s (upTo.subset member)) ⟨{}, o⟩
    have marked := within.filterMap lineMark?
    rw [marks, List.filterMap_nil, List.nil_append] at marked
    -- The marks of the part are those of the statements that wrote it.
    obtain ⟨earlier, before, same⟩ := List.prefix_filterMap_iff.1 marked
    rw [countP_closesMethod, countP_opensMethod, same, c.count_closing, c.count_opening]
    have ends := c.countP_ends earlier
    have headers := c.countP_headers earlier
    have opened := nested.opened earlier ((before.trans first).trans upTo)
    have fewer : c.plainOpeners earlier ≤ c.plainOpeners read :=
      (before.trans first).sublist.countP_le
    omega
  · obtain ⟨done, -, marks, whole⟩ := c.marks_forM complete ⟨{}, o⟩
    obtain rfl : done = ss := whole ok
    rw [countP_closesMethod, countP_opensMethod, marks, List.filterMap_nil, List.nil_append,
      c.count_closing, c.count_opening]
    have ends := c.countP_ends ss
    have headers := c.countP_headers ss
    have closed : ss.countP (·.closesBlock) = ss.countP (·.opensBlock) := nested.closed
    omega

/-- A helper at the end is of no account for what comes before it. -/
theorem methods_balanced_helper :
    let c : Converter := ⟨{ functions := [("build".toList, "build".toList)] },
      fun _ => throw .interrupted, ⟨none, false, none⟩, none⟩
    let lines := ["build() \x7b".toList, "  make 'all".toList, "end'".toList, "\x7d".toList,
      "_helper() \x7b".toList, "\x7d".toList]
    let ss := Shell.statements lines
    let written (read : List Shell.Statement) :=
      ((read.forM c.write) ⟨{}, ⟨[], [], [], [], []⟩⟩).2.document.lines
    (∀ s ∈ ss, s.complete = true) ∧ Shell.WellNested ss ∧ ss.length = 5 ∧
      (∀ part, part <+: written (ss.take 3) →
        part.countP closesMethod ≤ part.countP opensMethod) ∧
      (∀ part, part <+: written ss → part.countP closesMethod ≤ part.countP opensMethod + 1) ∧
      (written ss).countP opensMethod + 1 = (written ss).countP closesMethod := by
  intro c lines ss written
  have complete : ∀ s ∈ ss, s.complete = true := by decide +kernel
  have nested : Shell.WellNested ss := by decide +kernel
  have early : c.plainOpeners (ss.take 3) = 0 := by decide +kernel
  have openers : c.plainOpeners ss = 1 := by decide +kernel
  have closers : c.plainClosers ss = 0 := by decide +kernel
  have headers : c.bareHeaders ss = 0 := by decide +kernel
  obtain ⟨parts, whole⟩ := c.methods_balanced ⟨[], [], [], [], []⟩ complete nested
  have first := (parts (ss.take 3) (List.take_prefix 3 ss)).2
  have all := (parts ss List.prefix_rfl).2
  rw [early] at first
  rw [openers] at all whole
  rw [closers, headers] at whole
  exact ⟨complete, nested, by decide +kernel, first, all, whole rfl⟩

/-- The end of a helper function closes a method, although its header opens none. -/
theorem methods_unbalanced_helper :
    let c : Converter := ⟨{ functions := [("build".toList, "build".toList)] },
      fun _ => throw .interrupted, ⟨none, false, none⟩, none⟩
    let lines := ["_helper() \x7b".toList, "make".toList, "\x7d".toList]
    let ss := Shell.statements lines
    let desk := ((ss.forM c.write) ⟨{}, ⟨[], [], [], [], []⟩⟩).2
    let written := desk.document.lines
    (∀ s ∈ ss, s.complete = true) ∧ Shell.WellNested ss ∧
      written = ["system \"_helper() \x7b\"".toList, "system \"make\"".toList, "end".toList] ∧
      written.countP closesMethod = 1 ∧ written.countP opensMethod = 0 := by
  decide +kernel

end Converter

end PkgRecipe.Recipe
