import PkgRecipe.Proofs.Recipe.CommentLine

namespace PkgRecipe

namespace Shell

def process? (command : List (List Char)) (s : Statement) : Option (List (List Char)) :=
  s.assignedName?.map fun name => command ++ [s.script name]

def declarationOf (command : List (List Char)) : ProcessReply → Except Failure Declaration
  | .ended status output complaint =>
      if status = 0 then (Declaration.ofOutput output).mapError .notDeclaration
      else .error (.shellFailed status (Text.trim complaint))
  | .missing =>
      match command with
      | [] => .error .shellUnnamed
      | program :: _ => .error (.shellMissing program)
  | .denied reason => .error (.denied reason)
  | .interrupted => .error .interrupted
  | .undecodable fault => .error (.undecodable fault)

/-- What the process for a script brings: the declaration that it prints. -/
def evaluated (command : List (List Char)) (script : List Char) (replies : List ProcessReply) :
    Except Failure Declaration :=
  Run.answer (command ++ [script]) replies >>= declarationOf command

def afterProcess (command : List (List Char)) (s : Statement) (name : List Char) (o : Outside) :
    Outside :=
  { o with
    processReplies := o.processReplies.tail
    started := o.started ++ [command ++ [s.script name]]
    events := o.events ++ [.log .debug ("Resolving ".toList ++ name ++ " (line ".toList ++
      Text.decimal s.lineNumber ++ [')'])] }

theorem resolveWith_apply (command : List (List Char)) (s : Statement) (o : Outside) :
    resolveWith command s o =
      match s.assignedName? with
      | none => (.error (.nameMissing s.text), o)
      | some name =>
          (evaluated command (s.script name) o.processReplies, afterProcess command s name o) := by
  unfold resolveWith
  cases s.assignedName? with
  | none => rfl
  | some name =>
      simp only [Run.bind_apply, Run.log_apply, runScript, Run.start_apply, evaluated]
      rcases Run.answer (command ++ [s.script name]) o.processReplies with failure | reply
      · rfl
      · show _ = (declarationOf command reply, afterProcess command s name o)
        unfold declarationOf
        cases reply with
        | missing =>
            cases command with
            | nil => rfl
            | cons program rest => rfl
        | denied reason => rfl
        | interrupted => rfl
        | undecodable fault => rfl
        | ended status output complaint =>
            by_cases ok : status = 0
            · simp only [if_pos ok, Run.pure_apply]
              cases Declaration.ofOutput output with
              | ok d => rfl
              | error text => rfl
            · simp only [if_neg ok]
              rfl

private theorem exists_output_of_declarationOf {command : List (List Char)} {reply : ProcessReply}
    {d : Declaration} (ok : declarationOf command reply = .ok d) :
    ∃ output complaint, reply = .ended 0 output complaint ∧ Declaration.ofOutput output = .ok d := by
  cases reply with
  | missing => cases command <;> contradiction
  | denied reason => contradiction
  | interrupted => contradiction
  | undecodable fault => contradiction
  | ended status output complaint =>
      rw [declarationOf] at ok
      split at ok
      · rename_i zero
        refine ⟨output, complaint, by rw [zero], ?_⟩
        cases read : Declaration.ofOutput output with
        | ok d' =>
            rw [read] at ok
            exact congrArg Except.ok (Except.ok.inj ok)
        | error text =>
            rw [read] at ok
            contradiction
      · contradiction

theorem reply_of_answer {arguments : List (List Char)} {replies : List ProcessReply}
    {reply : ProcessReply} (answered : Run.answer arguments replies = .ok reply) :
    reply = replies.head?.getD .missing := by
  unfold Run.answer at answered
  split at answered
  · contradiction
  · exact (Except.ok.inj answered).symm

theorem exists_output_of_evaluated {command : List (List Char)} {script : List Char}
    {replies : List ProcessReply} {d : Declaration}
    (ok : evaluated command script replies = .ok d) :
    ∃ output complaint rest, replies = .ended 0 output complaint :: rest ∧
      Declaration.ofOutput output = .ok d := by
  unfold evaluated at ok
  cases answered : Run.answer (command ++ [script]) replies with
  | error failure =>
      rw [answered] at ok
      contradiction
  | ok reply =>
      rw [answered] at ok
      obtain ⟨output, complaint, same, read⟩ := exists_output_of_declarationOf ok
      rw [reply_of_answer answered] at same
      cases replies with
      | nil => contradiction
      | cons first rest => exact ⟨output, complaint, rest, congrArg (· :: rest) same, read⟩

/-- As many replies as counted are there, and each is a declaration. -/
def Declared (replies : List ProcessReply) (count : Nat) : Prop :=
  ∀ i < count, ∃ output complaint d, replies[i]? = some (.ended 0 output complaint) ∧
    Declaration.ofOutput output = .ok d

namespace Declared

variable {replies : List ProcessReply} {first second : Nat}

theorem mono (declared : Declared replies first) (fewer : second ≤ first) :
    Declared replies second :=
  fun i inside => declared i (Nat.lt_of_lt_of_le inside fewer)

theorem add (here : Declared replies first) (later : Declared (replies.drop first) second) :
    Declared replies (first + second) := by
  intro i inside
  rcases Nat.lt_or_ge i first with before | behind
  · exact here i before
  · have found := later (i - first) (by omega)
    rw [List.getElem?_drop, Nat.add_sub_cancel' behind] at found
    exact found

theorem one {command : List (List Char)} {script : List Char} {d : Declaration}
    (ok : evaluated command script replies = .ok d) : Declared replies 1 := by
  intro i inside
  obtain rfl : i = 0 := by omega
  obtain ⟨output, complaint, rest, rfl, read⟩ := exists_output_of_evaluated ok
  exact ⟨output, complaint, d, rfl, read⟩

end Declared

end Shell

namespace Recipe

structure Offline (o after : Outside) : Prop where
  requested : after.requested = o.requested
  replies : after.downloadReplies = o.downloadReplies

theorem Offline.trans {o next after : Outside} (first : Offline o next)
    (second : Offline next after) : Offline o after :=
  ⟨second.requested.trans first.requested, second.replies.trans first.replies⟩

structure Quiet (o after : Outside) : Prop where
  started : after.started = o.started
  replies : after.processReplies = o.processReplies
  offline : Offline o after

theorem Quiet.refl (o : Outside) : Quiet o o :=
  ⟨rfl, rfl, rfl, rfl⟩

theorem Quiet.trans {o next after : Outside} (first : Quiet o next) (second : Quiet next after) :
    Quiet o after :=
  ⟨second.started.trans first.started, second.replies.trans first.replies,
    first.offline.trans second.offline⟩

theorem quiet_log (level : LogLevel) (message : List Char) (o : Outside) :
    Quiet o (Run.log level message o).2 :=
  ⟨rfl, rfl, rfl, rfl⟩

theorem quiet_tell? (status? : Option StatusCallback) (style message : List Char) (o : Outside) :
    Quiet o (Run.tell? status? style message o).2 := by
  cases status? with
  | none => exact ⟨rfl, rfl, rfl, rfl⟩
  | some status =>
      rw [Run.tell?, Run.tell_apply]
      cases status style message with
      | error failure => exact ⟨rfl, rfl, rfl, rfl⟩
      | ok _ => exact ⟨rfl, rfl, rfl, rfl⟩

namespace Converter

def assignments (c : Converter) (ss : List Shell.Statement) : List Shell.Statement :=
  ss.filter fun s => s.complete && c.classifier.kind s = .assignment

def processes (c : Converter) (command : List (List Char)) (ss : List Shell.Statement) :
    List (List (List Char)) :=
  (c.assignments ss).filterMap (Shell.process? command)

theorem processes_append (c : Converter) (command : List (List Char))
    (first second : List Shell.Statement) :
    c.processes command (first ++ second) =
      c.processes command first ++ c.processes command second := by
  rw [processes, assignments, List.filter_append, List.filterMap_append]
  rfl

/-- All the statements are converted: the process for each assignment is started and answered by a
declaration. -/
structure Answered (c : Converter) (command : List (List Char)) (ss : List Shell.Statement)
    (o after : Outside) : Prop where
  named : ∀ s ∈ c.assignments ss, ∃ name, s.assignedName? = some name
  started : after.started = o.started ++ c.processes command ss
  replies : after.processReplies = o.processReplies.drop (c.processes command ss).length
  declared : Shell.Declared o.processReplies (c.processes command ss).length

namespace Answered

variable {c : Converter} {command : List (List Char)} {o after : Outside}

theorem of_quiet {ss : List Shell.Statement} (unassigned : c.assignments ss = [])
    (quiet : Quiet o after) : c.Answered command ss o after := by
  have nothing : c.processes command ss = [] := by rw [processes, unassigned, List.filterMap_nil]
  refine ⟨?_, ?_, ?_, ?_⟩
  · rw [unassigned]
    exact fun _ member => nomatch member
  · rw [nothing, List.append_nil, quiet.started]
  · rw [nothing, quiet.replies]
    rfl
  · rw [nothing]
    exact fun _ inside => nomatch inside

theorem trans {first second : List Shell.Statement} {next : Outside}
    (here : c.Answered command first o next) (later : c.Answered command second next after) :
    c.Answered command (first ++ second) o after where
  named s member := by
    rw [assignments, List.filter_append] at member
    exact (List.mem_append.1 member).elim (here.named s) (later.named s)
  started := by rw [later.started, here.started, processes_append, List.append_assoc]
  replies := by
    rw [later.replies, here.replies, processes_append, List.length_append, List.drop_drop]
  declared := by
    have rest := later.declared
    rw [here.replies] at rest
    rw [processes_append, List.length_append]
    exact here.declared.add rest

end Answered

private theorem quiet_writeDeclaration (d : Shell.Declaration) (desk : Desk) :
    Quiet desk.outside (writeDeclaration d desk).2.outside := by
  rw [writeDeclaration_apply]
  cases isMetadata d.name with
  | true => exact ⟨rfl, rfl, rfl, rfl⟩
  | false =>
      cases literalOf d with
      | ok literal => exact ⟨rfl, rfl, rfl, rfl⟩
      | error failure => exact ⟨rfl, rfl, rfl, rfl⟩

theorem assignments_singleton {c : Converter} {s : Shell.Statement} (complete : s.complete = true)
    (kind : c.classifier.kind s = .assignment) : c.assignments [s] = [s] := by
  rw [assignments, List.filter_singleton, complete, kind]
  rfl

theorem quiet_write {c : Converter} {s : Shell.Statement} (unassigned : c.assignments [s] = [])
    (desk : Desk) : Quiet desk.outside (c.write s desk).2.outside := by
  unfold write
  split
  · rename_i complete
    unfold writeStatement
    cases kind : c.classifier.kind s with
    | assignment =>
        rw [assignments_singleton complete kind] at unassigned
        contradiction
    | comment => exact ⟨rfl, rfl, rfl, rfl⟩
    | chdir => exact ⟨rfl, rfl, rfl, rfl⟩
    | fileOperation => exact ⟨rfl, rfl, rfl, rfl⟩
    | functionHeader => exact ⟨rfl, rfl, rfl, rfl⟩
    | functionEnd => exact ⟨rfl, rfl, rfl, rfl⟩
    | command => exact ⟨rfl, rfl, rfl, rfl⟩
  · unfold writeIncomplete
    cases c.settings.general.strict with
    | true => exact ⟨rfl, rfl, rfl, rfl⟩
    | false => exact ⟨rfl, rfl, rfl, rfl⟩

section DefaultResolver

variable {c : Converter} {command : List (List Char)}

theorem processes_singleton (command : List (List Char)) {s : Shell.Statement}
    (assigns : c.assignments [s] = [s]) :
    c.processes command [s] = (Shell.process? command s).toList := by
  rw [processes, assigns, List.filterMap_cons, List.filterMap_nil]
  cases Shell.process? command s with
  | none => rfl
  | some process => rfl

private theorem answered_of_evaluated {s : Shell.Statement} (itself : c.assignments [s] = [s])
    {name : List Char} (named : s.assignedName? = some name) {d : Shell.Declaration}
    {o after : Outside}
    (answer : Shell.evaluated command (s.script name) o.processReplies = .ok d)
    (quiet : Quiet (Shell.afterProcess command s name o) after) :
    c.Answered command [s] o after := by
  have process : c.processes command [s] = [command ++ [s.script name]] := by
    rw [processes_singleton command itself, Shell.process?, named, Option.map_some,
      Option.toList_some]
  refine ⟨?_, ?_, ?_, ?_⟩
  · intro t member
    rw [itself, List.mem_singleton] at member
    exact ⟨name, member ▸ named⟩
  · rw [process]
    exact quiet.started
  · rw [process, List.length_singleton, List.drop_one]
    exact quiet.replies
  · rw [process]
    exact .one answer

theorem outside_write (resolves : c.resolve = Shell.resolveWith command) (s : Shell.Statement)
    (desk : Desk) :
    (c.write s desk).2.outside.started = desk.outside.started ++ c.processes command [s] ∧
      Offline desk.outside (c.write s desk).2.outside ∧
      ((c.write s desk).1 = .ok () →
        c.Answered command [s] desk.outside (c.write s desk).2.outside) := by
  by_cases assigns : s.complete = true ∧ c.classifier.kind s = .assignment
  · obtain ⟨complete, kind⟩ := assigns
    have itself := assignments_singleton complete kind
    have process := processes_singleton command itself
    rw [write, if_pos complete, writeStatement, kind]
    simp only [Work.bind_apply, Work.ofRun_apply, resolves, Shell.resolveWith_apply]
    cases named : s.assignedName? with
    | none =>
        rw [Shell.process?, named] at process
        rw [process, Option.map_none, Option.toList_none, List.append_nil]
        exact ⟨rfl, ⟨rfl, rfl⟩, fun done => by cases done⟩
    | some name =>
        rw [Shell.process?, named, Option.map_some, Option.toList_some] at process
        rw [process]
        dsimp only
        cases answer : Shell.evaluated command (s.script name) desk.outside.processReplies with
        | error failure => exact ⟨rfl, ⟨rfl, rfl⟩, fun done => by cases done⟩
        | ok d =>
            let next := Shell.afterProcess command s name desk.outside
            have quiet := quiet_writeDeclaration d ⟨desk.document, next⟩
            exact ⟨quiet.started, ⟨quiet.offline.requested, quiet.offline.replies⟩,
              fun _ => answered_of_evaluated itself named answer quiet⟩
  · have unassigned : c.assignments [s] = [] := by
      rw [assignments, List.filter_eq_nil_iff]
      intro t member
      rw [List.mem_singleton.1 member]
      simpa using assigns
    have quiet := quiet_write unassigned desk
    have answered : c.Answered command [s] desk.outside (c.write s desk).2.outside :=
      .of_quiet unassigned quiet
    exact ⟨answered.started, quiet.offline, fun _ => answered⟩

/-- The statements are converted one after the other, to the end or to the first that fails. -/
theorem outside_forM (resolves : c.resolve = Shell.resolveWith command)
    (ss : List Shell.Statement) (desk : Desk) :
    let ran := (ss.forM c.write) desk
    Offline desk.outside ran.2.outside ∧
      (ran.1 = .ok () ∧ c.Answered command ss desk.outside ran.2.outside ∨
        ∃ done s rest before failure, ss = done ++ s :: rest ∧
          (done.forM c.write) desk = (.ok (), before) ∧
          c.Answered command done desk.outside before.outside ∧
          ran = c.write s before ∧ ran.1 = .error failure) := by
  -- the first statement fails, or what is asked for the others comes behind what is asked for it
  induction ss generalizing desk with
  | nil => exact ⟨⟨rfl, rfl⟩, .inl ⟨rfl, .of_quiet rfl (.refl _)⟩⟩
  | cons s ss ih =>
      intro ran
      obtain ⟨-, offline, answered⟩ := outside_write resolves s desk
      have step : ran = _ := Work.forM_cons_apply c.write s ss desk
      rcases here : c.write s desk with ⟨failure | _, next⟩
      · rw [here] at step offline
        rw [step]
        refine ⟨offline, .inr ⟨[], s, ss, desk, failure, rfl, rfl, ?_, here.symm, rfl⟩⟩
        exact .of_quiet rfl (.refl _)
      · rw [here] at step offline answered
        rw [step]
        obtain ⟨offline', outcome⟩ := ih next
        refine ⟨offline.trans offline', ?_⟩
        rcases outcome with ⟨ok, rest⟩ | ⟨done, t, rest, before, failure, split, ran', first, last⟩
        · exact .inl ⟨ok, (answered rfl).trans rest⟩
        · refine .inr ⟨s :: done, t, rest, before, failure, by rw [split, List.cons_append], ?_,
            (answered rfl).trans first, last⟩
          rw [Work.forM_cons_apply, here]
          exact ran'

/-- No process is started, and at most one location is requested, none without leave. -/
structure Fetched (fetch : Bool) (o after : Outside) : Prop where
  started : after.started = o.started
  requested : after.requested = o.requested ∨
    fetch = true ∧ ∃ location, after.requested = o.requested ++ [location]

def digestOf (size : Int) (location : List Char) : DownloadReply → Except Failure (List Char)
  | .body body =>
      if body.takes size then .ok (digestOfChunks (chunks size body.bytes))
      else .error (.sizeOutOfRange size)
  | .failed reason => .error (.downloadFailed location reason)
  | .broken reason => .error (.unexpected reason)
  | .interrupted => .error .interrupted

theorem sourceDigest_apply (size : Int) (location : List Char) (o : Outside) :
    sourceDigest size location o =
      (digestOf size location (o.downloadReplies.head?.getD (.failed "unreachable".toList)),
      { o with
        downloadReplies := o.downloadReplies.tail
        requested := o.requested ++ [location]
        events := o.events ++ [.log .info ("Fetching ".toList ++ location)] }) := by
  simp only [sourceDigest, Run.bind_apply, Run.log_apply, Run.download_apply, digestOf]
  cases o.downloadReplies.head?.getD (.failed "unreachable".toList) with
  | failed reason => rfl
  | broken reason => rfl
  | interrupted => rfl
  | body body =>
      by_cases takes : body.takes size = true
      · simp only [if_pos takes]
        rfl
      · simp only [if_neg takes]
        rfl

theorem fetched_of_quiet {fetch : Bool} {o after : Outside} (quiet : Quiet o after) :
    Fetched fetch o after :=
  ⟨quiet.started, .inl quiet.offline.requested⟩

theorem Fetched.of_quiet_trans {fetch : Bool} {o next after : Outside} (quiet : Quiet o next)
    (fetched : Fetched fetch next after) : Fetched fetch o after where
  started := fetched.started.trans quiet.started
  requested := quiet.offline.requested ▸ fetched.requested

theorem Fetched.quiet_trans {fetch : Bool} {o next after : Outside}
    (fetched : Fetched fetch o next) (quiet : Quiet next after) : Fetched fetch o after where
  started := quiet.started.trans fetched.started
  requested := quiet.offline.requested ▸ fetched.requested

private theorem fetched_sourceDigest (size : Int) (location : List Char) (o : Outside) :
    Fetched true o (sourceDigest size location o).2 := by
  rw [sourceDigest_apply]
  exact ⟨rfl, .inr ⟨rfl, location, rfl⟩⟩

private theorem fetched_derive {p : ChecksumPolicy} {size : Int}
    (digest : p.digest? = some (sourceDigest size)) (doc : Document) (o : Outside) :
    Fetched p.fetch o (p.derive doc o).2 := by
  unfold ChecksumPolicy.derive
  rw [digest]
  cases p.fetch with
  | false => exact fetched_of_quiet (quiet_log _ _ o)
  | true =>
      rcases source : doc.sourceUrl with _ | _ | ⟨c, rest⟩
      · exact fetched_of_quiet (.refl o)
      · exact fetched_of_quiet (.refl o)
      · have told := quiet_tell? p.status? "progress".toList "Generating sha256sum...".toList o
        dsimp only
        rw [Run.bind_apply]
        generalize Run.tell? p.status? _ _ o = ran at told
        obtain ⟨failure | _, next⟩ := ran
        · exact fetched_of_quiet told
        · dsimp only
          rw [Run.bind_pure_apply]
          exact (fetched_sourceDigest size (doc.expand (c :: rest)) next).of_quiet_trans told

private theorem quiet_announce (c : Converter) (doc : Document) (o : Outside) :
    Quiet o (c.announce doc o).2 := by
  unfold announce
  cases doc.packageName.isNone with
  | false => exact quiet_tell? c.status? _ _ o
  | true => exact (quiet_log _ _ o).trans (quiet_tell? c.status? _ _ _)

theorem fetched_finish {size : Int} (digest : c.checksum.digest? = some (sourceDigest size))
    (desk : Desk) : Fetched c.checksum.fetch desk.outside (c.finish desk).2.outside := by
  have fetched : Fetched c.checksum.fetch desk.outside
      (c.checksum.digestLine desk.document desk.outside).2 := by
    unfold ChecksumPolicy.digestLine
    cases desk.document.checksumSlot with
    | none => exact fetched_of_quiet (.refl _)
    | some slot =>
        cases desk.document.checksum with
        | some given => exact fetched_of_quiet (.refl _)
        | none =>
            dsimp only
            rw [Run.bind_pure_apply]
            exact fetched_derive digest desk.document desk.outside
  rw [finish_apply, ChecksumPolicy.settle_apply]
  rcases settled : c.checksum.digestLine desk.document desk.outside with ⟨failure | digest, after⟩
  · rw [settled] at fetched
    exact fetched
  · rw [settled] at fetched
    exact fetched.quiet_trans (c.quiet_announce _ after)

end DefaultResolver

theorem exists_words_of_ofSettings {settings : Settings} {status? : Option StatusCallback}
    {c : Converter} (made : ofSettings settings status? = .ok c) :
    ∃ command, Shell.commandWords settings.shell.command = .ok command := by
  unfold ofSettings at made
  cases words : Shell.commandWords settings.shell.command with
  | ok command => exact ⟨command, rfl⟩
  | error fault =>
      rw [words] at made
      contradiction

theorem ofSettings_ok {settings : Settings} {status? : Option StatusCallback} {c : Converter}
    (made : ofSettings settings status? = .ok c) {command : List (List Char)}
    (words : Shell.commandWords settings.shell.command = .ok command) :
    c.resolve = Shell.resolveWith command ∧
      c.checksum.digest? = some (sourceDigest settings.checksum.chunkSize) ∧
      c.checksum.fetch = settings.checksum.fetch ∧ c.checksum.status? = status? ∧
      c.status? = status? := by
  rw [ofSettings, words] at made
  obtain rfl := Except.ok.inj made
  exact ⟨rfl, rfl, rfl, rfl, rfl⟩

theorem length_processes_singleton (c : Converter) (command : List (List Char))
    (s : Shell.Statement) : (c.processes command [s]).length ≤ 1 :=
  (List.length_filterMap_le _ _).trans (List.length_filter_le _ _)

theorem processes_first (c : Converter) (command : List (List Char)) (done : List Shell.Statement)
    (s : Shell.Statement) (rest : List Shell.Statement) :
    c.processes command (done ++ [s]) <+: c.processes command (done ++ s :: rest) := by
  refine ⟨c.processes command rest, ?_⟩
  rw [← processes_append, List.append_assoc, List.singleton_append]

/-- The processes and downloads of a run, for any settings and any replies. Processes are started
for the complete assignments of the input, in its order, until a statement fails. All but the one
for a statement that fails are answered by declarations. At most one location is requested, when all
statements are converted, and none if sources are not to be fetched. -/
theorem started_eq_processes {settings : Settings} {status? : Option StatusCallback}
    {c : Converter} (made : ofSettings settings status? = .ok c) {command : List (List Char)}
    (words : Shell.commandWords settings.shell.command = .ok command) (lines : List (List Char))
    (o : Outside) :
    let ss := Shell.statements lines
    let written := (ss.forM c.write) ⟨{}, o⟩
    let after := (c.recipeOfLines lines o).2
    ∃ part, part <+: c.processes command ss ∧ after.started = o.started ++ part ∧
      Shell.Declared o.processReplies (part.length - 1) ∧
      after.started = written.2.outside.started ∧ written.2.outside.requested = o.requested ∧
      (after.requested = o.requested ∨ written.1 = .ok () ∧ settings.checksum.fetch = true ∧
        ∃ location, after.requested = o.requested ++ [location]) ∧
      match written.1 with
      | .ok _ => part = c.processes command ss ∧ c.Answered command ss o written.2.outside
      | .error failure => (c.recipeOfLines lines o).1 = .error failure ∧
          ∃ done s rest before, ss = done ++ s :: rest ∧
            (done.forM c.write) ⟨{}, o⟩ = (.ok (), before) ∧
            c.Answered command done o before.outside ∧
            (c.write s before).1 = .error failure ∧ part = c.processes command (done ++ [s]) := by
  intro ss written after
  obtain ⟨resolves, digest, fetch, -⟩ := ofSettings_ok made words
  obtain ⟨⟨requested, -⟩, outcome⟩ := outside_forM resolves ss ⟨{}, o⟩
  have run : c.recipeOfLines lines o =
      ((c.convert ss ⟨{}, o⟩).1, (c.convert ss ⟨{}, o⟩).2.outside) :=
    rfl
  simp only [after, written, run, convert, Work.bind_apply]
  rcases ran : (ss.forM c.write) ⟨{}, o⟩ with ⟨failure | _, reached⟩
  · rw [ran] at requested outcome
    obtain ⟨ok, -⟩ | ⟨done, s, rest, before, _, split, ran', answered, last, -⟩ := outcome
    · contradiction
    · obtain ⟨started, -, -⟩ := outside_write resolves s before
      have short := length_processes_singleton c command s
      have part := processes_append c command done [s]
      rw [← last] at started
      -- the statement that fails may have started a process, which is the last one
      refine ⟨c.processes command (done ++ [s]), ?_, ?_, ?_, rfl, requested, .inl requested, rfl,
        done, s, rest, before, split, ran', answered, congrArg Prod.fst last.symm, rfl⟩
      · rw [split]
        exact processes_first c command done s rest
      · show reached.outside.started = _
        rw [started, answered.started, part, List.append_assoc]
      · refine answered.declared.mono ?_
        rw [part, List.length_append]
        omega
  · rw [ran] at requested outcome
    obtain ⟨-, answered⟩ | ⟨_, _, _, _, _, _, _, _, _, failed⟩ := outcome
    · have fetched := fetched_finish digest reached
      rw [fetch] at fetched
      refine ⟨c.processes command ss, List.prefix_rfl, ?_, ?_, fetched.started, requested, ?_, rfl,
        answered⟩
      · exact fetched.started.trans answered.started
      · exact answered.declared.mono (Nat.sub_le _ _)
      · rcases fetched.requested with unfetched | ⟨allowed, location, one⟩
        · exact .inl (unfetched.trans requested)
        · exact .inr ⟨rfl, allowed, location, one.trans (congrArg (· ++ [location]) requested)⟩
    · contradiction

theorem started_eq_processes_failing :
    let command := ["bash".toList, "-c".toList]
    let c : Converter := ⟨{}, Shell.resolveWith command, ⟨some (sourceDigest 65536), true, none⟩,
      none⟩
    let lines := ["a=1", "make", "b=$(a", ")", "c=3"].map String.toList
    let replies : List ProcessReply :=
      [.ended 0 "declare -- a=\"1\"\n".toList [], .ended 2 [] "no".toList]
    let o : Outside := ⟨replies, [], [], [], []⟩
    let part := [["bash", "-c", "a=1\ndeclare -p a"],
      ["bash", "-c", "b=\\$(a\n)\ndeclare -p b"]].map (·.map String.toList)
    ofSettings {} none = .ok c ∧ Shell.commandWords "bash -c".toList = .ok command ∧
      (c.recipeOfLines lines o).2.started = part ∧
      part <+: c.processes command (Shell.statements lines) ∧
      (c.recipeOfLines lines o).1 = .error (.shellFailed 2 "no".toList) := by
  intro command c lines replies o part
  have words : Shell.commandWords "bash -c".toList = .ok command := by decide +kernel
  have made : ofSettings {} none = .ok c := by
    rw [ofSettings, words]
  have started : (c.recipeOfLines lines o).2.started = part := by decide +kernel
  have result : (c.recipeOfLines lines o).1 = .error (.shellFailed 2 "no".toList) := by
    decide +kernel
  obtain ⟨part', within, same, -⟩ := started_eq_processes made words lines o
  have parts : part = part' := started.symm.trans same
  exact ⟨made, words, started, parts ▸ within, result⟩

end Converter

end Recipe

end PkgRecipe
