import PkgRecipe.Proofs.Recipe.DigestLine
import PkgRecipe.Recipe.Conversion

namespace PkgRecipe.Recipe

namespace Document

theorem append_append (doc : Document) (first second : List Char) :
    (doc.append first).append second = doc.appendAll [first, second] := by
  simp only [append, appendAll, List.append_assoc, List.singleton_append]

/-- A document to which lines were added. If a line was kept for the digest, it is one of them. -/
structure Grown (doc : Document) (added : List (List Char)) (after : Document) : Prop where
  lines : after.lines = doc.lines ++ added
  slot : after.checksumSlot = doc.checksumSlot ∨
    doc.checksumSlot = none ∧
      ∃ n < added.length, after.checksumSlot = some (doc.lines.length + n)

namespace Grown

theorem nil (doc : Document) : doc.Grown [] doc :=
  ⟨(List.append_nil _).symm, .inl rfl⟩

theorem appendAll (doc : Document) (added : List (List Char)) :
    doc.Grown added (doc.appendAll added) :=
  ⟨rfl, .inl rfl⟩

theorem append (doc : Document) (line : List Char) : doc.Grown [line] (doc.append line) :=
  appendAll doc [line]

theorem trans {doc next after : Document} {first second : List (List Char)}
    (here : doc.Grown first next) (later : next.Grown second after) :
    doc.Grown (first ++ second) after where
  lines := by rw [later.lines, here.lines, List.append_assoc]
  slot := by
    have length : next.lines.length = doc.lines.length + first.length := by
      rw [here.lines, List.length_append]
    rw [List.length_append]
    rcases here.slot with same | ⟨unkept, n, inside, kept⟩
    · rcases later.slot with same' | ⟨unkept, n, inside, kept⟩
      · exact .inl (same'.trans same)
      · refine .inr ⟨same.symm.trans unkept, first.length + n, by omega, ?_⟩
        rw [kept, length, Nat.add_assoc]
    · rcases later.slot with same | ⟨unkept', -⟩
      · exact .inr ⟨unkept, n, by omega, same.trans kept⟩
      · rw [kept] at unkept'
        contradiction

end Grown

end Document

namespace Work

theorem bind_apply {α β : Type} (work : Work α) (next : α → Work β) (desk : Desk) :
    (work >>= next) desk =
      match work desk with
      | (.ok a, after) => next a after
      | (.error failure, after) => (.error failure, after) := by
  simp only [bind, ExceptT.bind, ExceptT.mk, ExceptT.bindCont, StateT.bind]
  rcases work desk with ⟨_ | a, after⟩
  · rfl
  · rfl

theorem forM_cons_apply {α : Type} (write : α → Work Unit) (x : α) (xs : List α) (desk : Desk) :
    ((x :: xs).forM write) desk =
      match write x desk with
      | (.ok _, next) => (xs.forM write) next
      | (.error failure, next) => (.error failure, next) := by
  show (write x >>= fun _ => xs.forM write) desk = _
  rw [bind_apply]
  rcases write x desk with ⟨failure | _, next⟩
  · rfl
  · rfl

theorem forM_append_apply {α : Type} (write : α → Work Unit) (first second : List α) (desk : Desk) :
    ((first ++ second).forM write) desk =
      match (first.forM write) desk with
      | (.ok _, next) => (second.forM write) next
      | (.error failure, next) => (.error failure, next) := by
  rw [List.forM_eq_forM, List.forM_append, bind_apply]
  rcases forM first write desk with ⟨failure | _, next⟩
  · rfl
  · rfl

theorem document_apply (desk : Desk) : document desk = (.ok desk.document, desk) :=
  rfl

theorem setDocument_apply (doc : Document) (desk : Desk) :
    setDocument doc desk = (.ok (), { desk with document := doc }) :=
  rfl

theorem append_apply (line : List Char) (desk : Desk) :
    append line desk = (.ok (), { desk with document := desk.document.append line }) :=
  rfl

theorem ofRun_apply {α : Type} (run : Run α) (desk : Desk) :
    ofRun run desk = ((run desk.outside).1, { desk with outside := (run desk.outside).2 }) :=
  rfl

theorem forM_report_apply (events : List Event) (desk : Desk) :
    (events.forM fun event => ofRun (Run.report event)) desk =
      (.ok (), { desk with
        outside := { desk.outside with events := desk.outside.events ++ events } }) := by
  induction events generalizing desk with
  | nil =>
      rw [List.append_nil]
      rfl
  | cons event rest ih =>
      rw [List.append_cons]
      exact ih { desk with
        outside := { desk.outside with events := desk.outside.events ++ [event] } }

end Work

namespace Converter

def lineOf? (c : Converter) (s : Shell.Statement) : Option (List Char) :=
  match c.classifier.kind s with
  | .comment => some s.text
  | .assignment => none
  | .chdir => some (chdirLine s)
  | .fileOperation =>
      some (fileOperationLine ((c.settings.fileOperations.lookup s.head).getD []) s)
  | .functionHeader => some (c.methodLine s)
  | .functionEnd => some "end".toList
  | .command => some (systemCall s)

theorem writeStatement_eq (c : Converter) (s : Shell.Statement) :
    c.writeStatement s =
      match c.lineOf? s with
      | some line => Work.append line
      | none => Work.ofRun (c.resolve s) >>= writeDeclaration := by
  unfold writeStatement lineOf?
  cases c.classifier.kind s <;> rfl

theorem kind_of_lineOf?_eq_none {c : Converter} {s : Shell.Statement}
    (unwritten : c.lineOf? s = none) : c.classifier.kind s = .assignment := by
  unfold lineOf? at unwritten
  cases kind : c.classifier.kind s
  all_goals rw [kind] at unwritten
  all_goals contradiction

def noted (d : Shell.Declaration) (doc : Document) : Document :=
  if d.attributes.isArray then doc else doc.setVariable d.name (doc.expand d.scalar)

def variableLines (d : Shell.Declaration) (literal : List Char) : List (List Char) :=
  ("@_".toList ++ d.name ++ " = ".toList ++ literal) ::
    if d.attributes.exported then ["ENV[".toList ++ Ruby.string d.name ++ "] = @_".toList ++ d.name]
    else []

def writeNoted (d : Shell.Declaration) : Work Unit := do
  if isMetadata d.name then
    let (after, events) := recordMetadata d (← Work.document)
    Work.setDocument after
    events.forM fun event => Work.ofRun (Run.report event)
  else
    let literal ← ExceptT.mk (pure (literalOf d))
    Work.append ("@_".toList ++ d.name ++ " = ".toList ++ literal)
    if d.attributes.exported then
      Work.append ("ENV[".toList ++ Ruby.string d.name ++ "] = @_".toList ++ d.name)

theorem writeDeclaration_eq (d : Shell.Declaration) (desk : Desk) :
    writeDeclaration d desk = writeNoted d { desk with document := noted d desk.document } := by
  unfold writeDeclaration noted
  cases d.attributes.isArray with
  | true => rfl
  | false => rfl

theorem writeDeclaration_apply (d : Shell.Declaration) (desk : Desk) :
    writeDeclaration d desk =
      let doc := noted d desk.document
      if isMetadata d.name then
        let (after, events) := recordMetadata d doc
        (.ok (), ⟨after, { desk.outside with events := desk.outside.events ++ events }⟩)
      else
        match literalOf d with
        | .ok literal => (.ok (), { desk with document := doc.appendAll (variableLines d literal) })
        | .error failure => (.error failure, { desk with document := doc }) := by
  rw [writeDeclaration_eq, writeNoted]
  cases isMetadata d.name with
  | true => exact Work.forM_report_apply _ _
  | false =>
      simp only [Bool.false_eq_true, if_false]
      cases literalOf d with
      | error failure => rfl
      | ok literal =>
          unfold variableLines
          cases d.attributes.exported with
          | false => rfl
          | true =>
              simp only [if_true, ← Document.append_append]
              rfl

/-- A line that a declaration may add: the one for the digest, one about the package, or one that
sets a variable. -/
def Declares (d : Shell.Declaration) (line : List Char) : Prop :=
  line = [] ∨ line ∈ (Entry.declared d).lines ∨ ∃ literal, line ∈ variableLines d literal

theorem grown_noted (d : Shell.Declaration) {doc after : Document} {added : List (List Char)}
    (grown : (noted d doc).Grown added after) : doc.Grown added after := by
  unfold noted at grown
  split at grown
  · exact grown
  · exact ⟨grown.lines, grown.slot⟩

private theorem grown_recordMetadata (d : Shell.Declaration) (doc : Document) :
    ∃ added, doc.Grown added (recordMetadata d doc).1 ∧ ∀ line ∈ added, Declares d line := by
  show ∃ added, doc.Grown added ((Entry.declared d).write doc) ∧ _
  cases sums : (Entry.declared d).isSums with
  | false =>
      have extended := Entry.extended_write sums doc
      exact ⟨_, ⟨extended.lines, .inl extended.slot⟩, fun line member => .inr (.inl member)⟩
  | true =>
      rw [Entry.write_of_isSums sums, Document.reserveChecksum]
      cases slot : doc.checksumSlot with
      | some n =>
          refine ⟨[], ⟨(List.append_nil _).symm, .inl rfl⟩, fun line member => ?_⟩
          exact absurd member List.not_mem_nil
      | none =>
          refine ⟨[[]], ⟨rfl, .inr ⟨slot, 0, Nat.one_pos, rfl⟩⟩, fun line member => .inl ?_⟩
          exact List.mem_singleton.1 member

theorem grown_writeDeclaration (d : Shell.Declaration) (desk : Desk) :
    ∃ added, desk.document.Grown added (writeDeclaration d desk).2.document ∧
      ∀ line ∈ added, Declares d line := by
  rw [writeDeclaration_apply]
  cases isMetadata d.name with
  | true =>
      obtain ⟨added, grown, declares⟩ := grown_recordMetadata d (noted d desk.document)
      exact ⟨added, grown_noted d grown, declares⟩
  | false =>
      simp only [Bool.false_eq_true, if_false]
      cases literalOf d with
      | error failure =>
          exact ⟨[], grown_noted d (.nil _), fun _ member => nomatch member⟩
      | ok literal =>
          refine ⟨_, grown_noted d (.appendAll _ _), fun line member => ?_⟩
          exact .inr (.inr ⟨literal, member⟩)

theorem grown_writeStatement (c : Converter) (s : Shell.Statement) (desk : Desk) :
    ∃ added, desk.document.Grown added (c.writeStatement s desk).2.document ∧
      match c.lineOf? s with
      | some line => added = [line]
      | none => ∀ line ∈ added, ∃ d, Declares d line := by
  rw [writeStatement_eq]
  cases c.lineOf? s with
  | some line => exact ⟨[line], .append _ line, rfl⟩
  | none =>
      simp only [Work.bind_apply, Work.ofRun_apply]
      cases (c.resolve s desk.outside).1 with
      | error failure => exact ⟨[], .nil _, fun _ member => nomatch member⟩
      | ok d =>
          obtain ⟨added, grown, declares⟩ := grown_writeDeclaration d
            { desk with outside := (c.resolve s desk.outside).2 }
          exact ⟨added, grown, fun line member => ⟨d, declares line member⟩⟩

theorem write_of_resolve {c : Converter} {s : Shell.Statement} {d : Shell.Declaration} {desk : Desk}
    (complete : s.complete = true) (kind : c.classifier.kind s = .assignment)
    (resolved : (c.resolve s desk.outside).1 = .ok d) :
    c.write s desk =
      writeDeclaration d { desk with outside := (c.resolve s desk.outside).2 } := by
  rw [write, if_pos complete, writeStatement, kind]
  simp only [Work.bind_apply, Work.ofRun_apply, resolved]

/-- What a statement is resolved to, if it is an assignment that can be resolved. -/
def declaration? (c : Converter) (s : Shell.Statement) (desk : Desk) : Option Shell.Declaration :=
  if s.complete = true ∧ c.classifier.kind s = .assignment then
    (c.resolve s desk.outside).1.toOption
  else none

theorem declaration?_eq_some_iff {c : Converter} {s : Shell.Statement} {desk : Desk}
    {d : Shell.Declaration} :
    c.declaration? s desk = some d ↔
      s.complete = true ∧ c.classifier.kind s = .assignment ∧
        (c.resolve s desk.outside).1 = .ok d := by
  unfold declaration?
  split
  · rename_i assigns
    cases (c.resolve s desk.outside).1 with
    | ok d' => simp [assigns, Except.toOption]
    | error failure => simp [Except.toOption]
  · rename_i other
    simpa using fun complete kind _ => other ⟨complete, kind⟩

private theorem declaration?_of_kind_ne {c : Converter} {s : Shell.Statement}
    (other : c.classifier.kind s ≠ .assignment) (desk : Desk) : c.declaration? s desk = none :=
  if_neg fun assigns => other assigns.2

inductive Step (c : Converter) (s : Shell.Statement) (desk : Desk) : Prop
  | declared {d : Shell.Declaration} (declares : c.declaration? s desk = some d)
      (step : c.write s desk =
        writeDeclaration d { desk with outside := (c.resolve s desk.outside).2 })
  | line {line : List Char} (undeclared : c.declaration? s desk = none) (complete : s.complete = true)
      (written : c.lineOf? s = some line)
      (appended : (c.write s desk).2.document = desk.document.append line)
  | passed (undeclared : c.declaration? s desk = none) (incomplete : s.complete = false)
      (appended : (c.write s desk).2.document = desk.document.append (systemCall s))
  | unchanged (undeclared : c.declaration? s desk = none)
      (same : (c.write s desk).2.document = desk.document)

theorem step_write (c : Converter) (s : Shell.Statement) (desk : Desk) : Step c s desk := by
  cases complete : s.complete with
  | true =>
      have writes : c.write s = c.writeStatement s := if_pos complete
      by_cases kind : c.classifier.kind s = .assignment
      · cases resolved : (c.resolve s desk.outside).1 with
        | ok d =>
            exact .declared (declaration?_eq_some_iff.2 ⟨complete, kind, resolved⟩)
              (write_of_resolve complete kind resolved)
        | error failure =>
            refine .unchanged ?_ ?_
            · rw [declaration?, if_pos ⟨complete, kind⟩, resolved]
              rfl
            · rw [writes, writeStatement, kind]
              simp only [Work.bind_apply, Work.ofRun_apply, resolved]
      · obtain ⟨line, written⟩ : ∃ line, c.lineOf? s = some line := by
          unfold lineOf?
          cases other : c.classifier.kind s with
          | assignment => exact absurd other kind
          | _ => exact ⟨_, rfl⟩
        refine .line (declaration?_of_kind_ne kind desk) complete written ?_
        rw [writes, writeStatement_eq, written]
        rfl
  | false =>
      have writes : c.write s = c.writeIncomplete s := if_neg (by simp [complete])
      have undeclared : c.declaration? s desk = none := if_neg (by simp [complete])
      rw [writeIncomplete] at writes
      cases strict : c.settings.general.strict with
      | true =>
          rw [strict] at writes
          exact .unchanged undeclared (by rw [writes]; rfl)
      | false =>
          rw [strict] at writes
          exact .passed undeclared complete (by rw [writes]; rfl)

end Converter

/-- A computation that only adds to the document, also when it fails. -/
def Work.Grows {α : Type} (work : Work α) : Prop :=
  ∀ desk : Desk, ∃ added, desk.document.Grown added (work desk).2.document

namespace Work.Grows

variable {α β : Type}

theorem ofRun (run : Run α) : (Work.ofRun run).Grows :=
  fun desk => ⟨[], .nil desk.document⟩

theorem throw (failure : Failure) : (throw failure : Work α).Grows :=
  fun desk => ⟨[], .nil desk.document⟩

theorem append (line : List Char) : (Work.append line).Grows :=
  fun desk => ⟨[line], .append desk.document line⟩

theorem bind {work : Work α} {next : α → Work β} (here : work.Grows)
    (later : ∀ a, (next a).Grows) : (work >>= next).Grows := by
  intro desk
  obtain ⟨first, grown⟩ := here desk
  rw [bind_apply]
  generalize work desk = ran at grown ⊢
  obtain ⟨_ | a, after⟩ := ran
  · exact ⟨first, grown⟩
  · obtain ⟨second, grown'⟩ := later a after
    exact ⟨first ++ second, grown.trans grown'⟩

theorem forM {write : α → Work Unit} (each : ∀ x, (write x).Grows) (xs : List α) :
    (xs.forM write).Grows := by
  induction xs with
  | nil => exact fun desk => ⟨[], .nil desk.document⟩
  | cons x xs ih => exact (each x).bind fun _ => ih

theorem prefix_lines_forM {write : α → Work Unit} (each : ∀ x, (write x).Grows) {first xs : List α}
    (before : first <+: xs) (desk : Desk) :
    ((first.forM write) desk).2.document.lines <+: ((xs.forM write) desk).2.document.lines := by
  obtain ⟨second, rfl⟩ := before
  rw [forM_append_apply]
  rcases (first.forM write) desk with ⟨failure | _, next⟩
  · exact List.prefix_rfl
  · obtain ⟨added, grown⟩ := forM each second next
    rw [grown.lines]
    exact List.prefix_append _ _

end Work.Grows

theorem Converter.grows_write (c : Converter) (s : Shell.Statement) : (c.write s).Grows := by
  unfold write
  split
  · intro desk
    obtain ⟨added, grown, -⟩ := c.grown_writeStatement s desk
    exact ⟨added, grown⟩
  · unfold writeIncomplete
    cases c.settings.general.strict with
    | true => exact .bind (.throw _) fun _ => .bind (.ofRun _) fun _ => .append _
    | false => exact .bind (.ofRun _) fun _ => .append _

end PkgRecipe.Recipe
