import PkgRecipe.Proofs.Program.Ending

namespace PkgRecipe

namespace Recipe

def formatterResult : ProcessReply → Except Failure Bool
  | .ended status _ _ => .ok (status = 0)
  | .missing => .ok false
  | .denied reason => .error (.denied reason)
  | .interrupted => .error .interrupted
  | .undecodable fault => .error (.undecodable fault)

def formatterWarnings (program : List Char) : ProcessReply → List Event
  | .ended status _ complaint =>
      if status = 0 then [] else [.log .warning (formatterComplaint status complaint)]
  | .missing => [.log .warning ("Formatter not found: ".toList ++ program)]
  | .denied _ | .interrupted | .undecodable _ => []

def formatterRun (program : List Char) (arguments : List (List Char))
    (replies : List ProcessReply) : Except Failure (Bool × List Event) := do
  let reply ← Run.answer arguments replies
  let done ← formatterResult reply
  return (done, formatterWarnings program reply)

theorem formatFile_cons (program : List Char) (rest : List (List Char)) (path : List Char)
    (o : Outside) :
    formatFile (program :: rest) path o =
      let arguments := program :: rest ++ [path]
      let after : Outside := { o with
        processReplies := o.processReplies.tail, started := o.started ++ [arguments] }
      match formatterRun program arguments o.processReplies with
      | .error failure => (.error failure, after)
      | .ok (done, warnings) => (.ok done, { after with events := o.events ++ warnings }) := by
  simp only [formatFile, Run.bind_apply, Run.start_apply, formatterRun]
  rcases Run.answer (program :: rest ++ [path]) o.processReplies with failure | reply
  · rfl
  · show _ = match (do
        let done ← formatterResult reply
        return (done, formatterWarnings program reply) : Except Failure (Bool × List Event)) with
      | .error failure => _
      | .ok (done, warnings) => _
    cases reply with
    | missing => rfl
    | denied reason => rfl
    | interrupted => rfl
    | undecodable fault => rfl
    | ended status output complaint =>
        by_cases ok : status = 0
        · simp only [formatterResult, formatterWarnings, if_pos ok, decide_eq_true ok, bind,
            Except.bind, pure, Except.pure, List.append_nil]
          rfl
        · simp only [formatterResult, formatterWarnings, if_neg ok, decide_eq_false ok]
          rfl

end Recipe

namespace Program

open CommandLine (Options)

def completion (path : List Char) : List Char :=
  "Completed! Recipe written to ".toList ++ path

def announcement (f : Settings.Formatter) (path : List Char) : List Char :=
  "Running ".toList ++ f.command ++ " on ".toList ++ path

/-- The user was told that a formatter is to be started. -/
structure Announced (status : StatusCallback) (f : Settings.Formatter) (path : List Char) : Prop where
  completed : status "success".toList (completion path) = .ok ()
  enabled : f.enabled = true
  announced : status "hint".toList (announcement f path) = .ok ()

def announcedOutside (f : Settings.Formatter) (path : List Char) (o : Outside) : Outside :=
  { o with
    events := o.events ++ [.status "success".toList (completion path),
      .status "hint".toList (announcement f path)] }

/-- A failure behind a written recipe that is not only logged, with what it comes from and what was
asked and reported by then. -/
inductive Hindrance (status : StatusCallback) (f : Settings.Formatter) (path : List Char)
    (o : Outside) : Failure → Outside → Prop where
  | completion {failure : Failure}
      (refused : status "success".toList (completion path) = .error failure) :
      Hindrance status f path o failure o
  | announcement {failure : Failure} (completed : status "success".toList (completion path) = .ok ())
      (enabled : f.enabled = true)
      (refused : status "hint".toList (announcement f path) = .error failure) :
      Hindrance status f path o failure
        { o with events := o.events ++ [.status "success".toList (completion path)] }
  | command {fault : Shell.CommandFault} (announced : Announced status f path)
      (unsplit : Shell.commandWords f.command = .error fault) :
      Hindrance status f path o (.badCommand fault) (announcedOutside f path o)
  | process {failure : Failure} {program : List Char} {rest : List (List Char)}
      (announced : Announced status f path)
      (split : Shell.commandWords f.command = .ok (program :: rest))
      (stopped : Recipe.formatterRun program (program :: rest ++ [path]) o.processReplies =
        .error failure) :
      Hindrance status f path o failure { announcedOutside f path o with
        processReplies := o.processReplies.tail
        started := o.started ++ [program :: rest ++ [path]] }

/-- What is asked and reported when nothing hinders the formatting. -/
inductive Formatted (status : StatusCallback) (f : Settings.Formatter) (path : List Char)
    (o : Outside) : Outside → Prop where
  | disabled (completed : status "success".toList (completion path) = .ok ())
      (disabled : f.enabled = false) :
      Formatted status f path o
        { o with events := o.events ++ [.status "success".toList (completion path)] }
  | wordless (announced : Announced status f path) (split : Shell.commandWords f.command = .ok []) :
      Formatted status f path o (announcedOutside f path o)
  | process {done : Bool} {warnings : List Event} {program : List Char} {rest : List (List Char)}
      (announced : Announced status f path)
      (split : Shell.commandWords f.command = .ok (program :: rest))
      (ran : Recipe.formatterRun program (program :: rest ++ [path]) o.processReplies =
        .ok (done, warnings)) :
      Formatted status f path o { o with
        processReplies := o.processReplies.tail
        started := o.started ++ [program :: rest ++ [path]]
        events := (announcedOutside f path o).events ++ warnings }

section Finishing

variable {status : StatusCallback} {s : Settings} {path : List Char} {o closed : Outside}
  {failure : Failure}

private theorem finish_of_refused
    (refused : status "success".toList (completion path) = .error failure) :
    finish status s path o = (.error failure, o) := by
  unfold completion at refused
  rw [finish, Run.bind_apply, Run.tell_apply, refused]

theorem finish_of_completed (completed : status "success".toList (completion path) = .ok ()) :
    finish status s path o =
      (if s.formatter.enabled then do
        Run.tell status "hint".toList (announcement s.formatter path)
        match Shell.commandWords s.formatter.command with
        | .error fault => throw (Failure.badCommand fault)
        | .ok command => discard (Recipe.formatFile command path)
      else pure () : Run Unit)
        { o with events := o.events ++ [Event.status "success".toList (completion path)] } := by
  unfold completion at completed
  rw [finish, Run.bind_apply, Run.tell_apply, completed]
  rfl

theorem finish_of_announced (announced : Announced status s.formatter path) :
    finish status s path o =
      (match Shell.commandWords s.formatter.command with
      | .error fault => throw (Failure.badCommand fault)
      | .ok command => discard (Recipe.formatFile command path) : Run Unit)
        (announcedOutside s.formatter path o) := by
  rw [finish_of_completed announced.completed, if_pos announced.enabled, Run.bind_apply,
    Run.tell_apply, announced.announced]
  simp only [List.append_assoc, List.cons_append, List.nil_append]
  rfl

theorem finish_of_split (announced : Announced status s.formatter path) {program : List Char}
    {rest : List (List Char)}
    (split : Shell.commandWords s.formatter.command = .ok (program :: rest)) :
    finish status s path o =
      let next := announcedOutside s.formatter path o
      let after : Outside := { next with
        processReplies := o.processReplies.tail
        started := o.started ++ [program :: rest ++ [path]] }
      match Recipe.formatterRun program (program :: rest ++ [path]) o.processReplies with
      | .error failure => (.error failure, after)
      | .ok (_, warnings) => (.ok (), { after with events := next.events ++ warnings }) := by
  rw [finish_of_announced announced, split]
  dsimp only
  rw [Run.discard_apply, Recipe.formatFile_cons]
  have same : (announcedOutside s.formatter path o).processReplies = o.processReplies := rfl
  simp only [same]
  rcases Recipe.formatterRun program (program :: rest ++ [path]) o.processReplies with _ | ⟨_, _⟩
  · rfl
  · rfl

theorem Hindrance.finish_eq (hindrance : Hindrance status s.formatter path o failure closed) :
    finish status s path o = (.error failure, closed) := by
  cases hindrance with
  | completion refused => exact finish_of_refused refused
  | announcement completed enabled refused =>
      rw [finish_of_completed completed, if_pos enabled, Run.bind_apply, Run.tell_apply, refused]
  | command announced unsplit =>
      rw [finish_of_announced announced, unsplit]
      rfl
  | process announced split stopped =>
      rw [finish_of_split announced split, stopped]

theorem Formatted.finish_eq (formatted : Formatted status s.formatter path o closed) :
    finish status s path o = (.ok (), closed) := by
  cases formatted with
  | disabled completed disabled =>
      rw [finish_of_completed completed, if_neg (Bool.eq_false_iff.1 disabled)]
      rfl
  | wordless announced split =>
      rw [finish_of_announced announced, split]
      rfl
  | process announced split ran =>
      rw [finish_of_split announced split, ran]
      rfl

theorem hindrance_or_formatted (status : StatusCallback) (f : Settings.Formatter) (path : List Char)
    (o : Outside) :
    (∃ failure closed, Hindrance status f path o failure closed) ∨
      ∃ closed, Formatted status f path o closed := by
  cases completed : status "success".toList (completion path) with
  | error failure => exact .inl ⟨_, _, .completion completed⟩
  | ok _ =>
      cases enabled : f.enabled with
      | false => exact .inr ⟨_, .disabled completed enabled⟩
      | true =>
          cases announced : status "hint".toList (announcement f path) with
          | error failure => exact .inl ⟨_, _, .announcement completed enabled announced⟩
          | ok _ =>
              have announced : Announced status f path := ⟨completed, enabled, announced⟩
              cases split : Shell.commandWords f.command with
              | error fault => exact .inl ⟨_, _, .command announced split⟩
              | ok words =>
                  cases words with
                  | nil => exact .inr ⟨_, .wordless announced split⟩
                  | cons program rest =>
                      cases ran : Recipe.formatterRun program (program :: rest ++ [path])
                        o.processReplies with
                      | error failure => exact .inl ⟨_, _, .process announced split ran⟩
                      | ok result => exact .inr ⟨_, .process announced split ran⟩

end Finishing

/-- A run that has written its recipe keeps it, whatever comes of the formatting. It ends with exit
code zero, and with a warning if the formatter is missing or fails, but for the hindrances. -/
theorem ending_run_of_written {host : Host} {arguments : List (List Char)} {o : Options}
    (accepted : Options.ofArguments host.release arguments = .ok o) {tree written : Files.Tree}
    {s : Settings}
    (loaded : Settings.load host.yaml tree host.home o.config o.configDirectory = .ok s)
    {outside after : Outside}
    (wrote : writeRecipe (display host (overrideSettings o s)).callback o (overrideSettings o s) tree
      outside = (.ok written, after)) :
    let settings := overrideSettings o s
    let status := (display host settings).callback
    let path := outputPath o settings
    let f := settings.formatter
    let outcome := run host arguments tree outside
    outcome.tree = written ∧
      (∃ recipe location, convertFile status settings tree o.buildFile outside = (.ok recipe, after) ∧
        outcome.tree.find path = .file location (Text.Utf8.encode recipe)) ∧
      (outcome.ending = .exit 0 ↔
        ∀ failure closed, ¬Hindrance status f path.text after failure closed) ∧
      (outcome.ending = .exit 0 ↔ Formatted status f path.text after outcome.outside) ∧
      (∀ failure, outcome.ending = .escaped failure ↔
        Hindrance status f path.text after failure outcome.outside) ∧
      outcome.complaint = shown host o settings outcome.outside := by
  intro settings status path f outcome
  have same : outcome = runSettings host o settings tree outside :=
    run_eq_of_load accepted loaded outside
  obtain ⟨recipe, converted, put⟩ := writeRecipe_eq_ok_iff.1 wrote
  obtain ⟨location, found, -⟩ := Files.Tree.find_of_write put
  rw [same, runSettings_of_ok wrote]
  refine ⟨rfl, ⟨recipe, location, converted, found⟩, ?_⟩
  rcases hindrance_or_formatted status f path.text after with
    ⟨failure, closed, hindrance⟩ | ⟨closed, formatted⟩
  · have finished := hindrance.finish_eq
    rw [finished]
    refine ⟨⟨nofun, fun unhindered => absurd hindrance (unhindered _ _)⟩, ⟨nofun, fun other => ?_⟩,
      fun failure' => ⟨fun ending => ?_, fun other => ?_⟩, rfl⟩
    · rw [other.finish_eq] at finished
      cases (Prod.mk.inj finished).1
    · rw [← Ending.escaped.inj ending]
      exact hindrance
    · rw [other.finish_eq] at finished
      rw [Except.error.inj (Prod.mk.inj finished).1]
  · have finished := formatted.finish_eq
    rw [finished]
    refine ⟨⟨fun _ failure closed' hindrance => ?_, fun _ => rfl⟩, ⟨fun _ => formatted, fun _ => rfl⟩,
      fun failure => ⟨nofun, fun hindrance => ?_⟩, rfl⟩
    · rw [hindrance.finish_eq] at finished
      cases (Prod.mk.inj finished).1
    · rw [hindrance.finish_eq] at finished
      cases (Prod.mk.inj finished).1

theorem ending_run_of_written_failing :
    let host : Host := ⟨.late, Yaml.plainReader, fun _ message => .ok (message ++ ['\n']),
      .ofText "/h".toList⟩
    let arguments := ["PKGBUILD".toList]
    let o : Options := { buildFile := .ofText "PKGBUILD".toList }
    let tree : Files.Tree :=
      ⟨[(["PKGBUILD".toList], .file (Text.Utf8.encode "make\n".toList))], [], []⟩
    let outside : Outside := ⟨[.ended 1 [] " 1 offense\n".toList], [], [], [], []⟩
    let settings := overrideSettings o Settings.builtIn
    let status := (display host settings).callback
    let recipe :=
      "require 'package'\n\nclass <pkgName> < Package\nsystem \"make\"\nend\n".toList
    let outcome := run host arguments tree outside
    Options.ofArguments host.release arguments = .ok o ∧
      Settings.load host.yaml tree host.home o.config o.configDirectory = .ok Settings.builtIn ∧
      (∃ written after, writeRecipe status o settings tree outside = (.ok written, after) ∧
        ∀ failure closed,
          ¬Hindrance status settings.formatter "converted.rb".toList after failure closed) ∧
      outcome.ending = .exit 0 ∧
      outcome.tree.find (.ofText "converted.rb".toList) =
        .file ["converted.rb".toList] (Text.Utf8.encode recipe) ∧
      outcome.outside.started = [["rubocop", "-a", "-x", "converted.rb"].map String.toList] ∧
      outcome.outside.events.getLast? =
        some (.log .warning "Formatter exited with status 1: 1 offense".toList) := by
  intro host arguments o tree outside settings status recipe outcome
  have accepted : Options.ofArguments host.release arguments = .ok o := by decide +kernel
  have loaded : Settings.load host.yaml tree host.home o.config o.configDirectory =
      .ok Settings.builtIn :=
    Settings.load_of_missing (by decide +kernel) (by decide +kernel) (by decide +kernel)
      (by decide +kernel)
  have ended : outcome.ending = .exit 0 := by decide +kernel
  have succeeded : (writeRecipe status o settings tree outside).1.toOption.isSome = true := by
    decide +kernel
  have path : (outputPath o settings).text = "converted.rb".toList := by decide +kernel
  rcases wrote : writeRecipe status o settings tree outside with ⟨failure | written, after⟩
  · rw [wrote] at succeeded
    contradiction
  · obtain ⟨-, -, zero, -, -, -⟩ := ending_run_of_written accepted loaded wrote
    rw [path] at zero
    exact ⟨accepted, loaded, ⟨written, after, rfl, zero.1 ended⟩, ended, by decide +kernel,
      by decide +kernel, by decide +kernel⟩

/-- A formatter that may not be started ends the run without an exit code. -/
theorem escaped_of_denied :
    let host : Host := ⟨.late, Yaml.plainReader, fun _ message => .ok (message ++ ['\n']),
      .ofText "/h".toList⟩
    let arguments := ["PKGBUILD".toList]
    let o : Options := { buildFile := .ofText "PKGBUILD".toList }
    let tree : Files.Tree :=
      ⟨[(["PKGBUILD".toList], .file (Text.Utf8.encode "make\n".toList))], [], []⟩
    let reason := "[Errno 13] Permission denied: 'rubocop'".toList
    let outside : Outside := ⟨[.denied reason], [], [], [], []⟩
    let settings := overrideSettings o Settings.builtIn
    Options.ofArguments host.release arguments = .ok o ∧
      Settings.load host.yaml tree host.home o.config o.configDirectory = .ok Settings.builtIn ∧
      (writeRecipe (display host settings).callback o settings tree outside).1.toOption.isSome = true ∧
      (run host arguments tree outside).ending = .escaped (.denied reason) := by
  intro host arguments o tree reason outside settings
  exact ⟨by decide +kernel, Settings.load_of_missing (by decide +kernel) (by decide +kernel)
    (by decide +kernel) (by decide +kernel), by decide +kernel, by decide +kernel⟩

end Program

end PkgRecipe
