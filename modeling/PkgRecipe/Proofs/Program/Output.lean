import PkgRecipe.Program
import PkgRecipe.Proofs.Files.Tree
import PkgRecipe.Proofs.Recipe.Failing
import PkgRecipe.Proofs.Text.Utf8
import PkgRecipe.Yaml.Document

namespace PkgRecipe

namespace Recipe.Converter

section Processes

variable {settings : Settings} {status? : Option StatusCallback} {c : Converter}
  {command : List (List Char)}

/-- Processes are started for the first of the assignments, and for all if no statement fails. -/
private theorem exists_part_forM (resolves : c.resolve = Shell.resolveWith command)
    (ss : List Shell.Statement) (desk : Desk) :
    ∃ part, part <+: c.processes command ss ∧
      ((ss.forM c.write) desk).2.outside.started = desk.outside.started ++ part ∧
      (((ss.forM c.write) desk).1 = .ok () → part = c.processes command ss) := by
  obtain ⟨-, ⟨-, answered⟩ | ⟨done, s, rest, before, failure, split, -, answered, last, failed⟩⟩ :=
    outside_forM resolves ss desk
  · exact ⟨_, List.prefix_rfl, answered.started, fun _ => rfl⟩
  · obtain ⟨started, -, -⟩ := outside_write resolves s before
    refine ⟨c.processes command (done ++ [s]), ?_, ?_, fun ok => ?_⟩
    · rw [split]
      exact processes_first c command done s rest
    · rw [last, started, answered.started, processes_append, List.append_assoc]
    · rw [failed] at ok
      contradiction

private theorem exists_part_recipeOfBytes (made : ofSettings settings status? = .ok c)
    (words : Shell.commandWords settings.shell.command = .ok command) (bytes : List UInt8)
    (o : Outside) :
    let processes := c.processes command (fileStatements bytes)
    ∃ part, part <+: processes ∧ (c.recipeOfBytes bytes o).2.started = o.started ++ part ∧
      ∀ recipe, (c.recipeOfBytes bytes o).1 = .ok recipe → part = processes := by
  obtain ⟨resolves, digest, -⟩ := ofSettings_ok made words
  obtain ⟨part, first, started, all⟩ := exists_part_forM resolves (fileStatements bytes) ⟨{}, o⟩
  refine ⟨part, first, ?_⟩
  rw [recipeOfBytes_apply]
  rcases ran : ((fileStatements bytes).forM c.write) ⟨{}, o⟩ with ⟨failure | _, reached⟩
  · rw [ran] at started
    exact ⟨started, fun recipe ok => nomatch ok⟩
  · rw [ran] at started all
    refine ⟨?_, fun _ _ => all rfl⟩
    unfold closeFile
    cases (Files.readLines bytes).2 with
    | none => exact (fetched_finish digest reached).started.trans started
    | some fault => exact started

private theorem processes_eq_of_ofSettings {status?' : Option StatusCallback} {c' : Converter}
    (made : ofSettings settings status? = .ok c) (made' : ofSettings settings status?' = .ok c') :
    c.processes = c'.processes := by
  obtain ⟨command, words⟩ := exists_words_of_ofSettings made
  rw [ofSettings, words] at made made'
  obtain rfl := Except.ok.inj made
  obtain rfl := Except.ok.inj made'
  rfl

end Processes

end Recipe.Converter

namespace Program

open CommandLine (Options)

def convertFile (status : StatusCallback) (s : Settings) (tree : Files.Tree) (path : Files.Path) :
    Run (List Char) := do
  let converter ← ExceptT.mk (pure (Recipe.Converter.ofSettings s (some status)))
  let bytes ← ExceptT.mk (pure (tree.read path))
  converter.recipeOfBytes bytes

/-- The processes that evaluate the assignments of a file. -/
def evaluations (s : Settings) (tree : Files.Tree) (path : Files.Path) :
    List (List (List Char)) :=
  match Recipe.Converter.ofSettings s none, Shell.commandWords s.shell.command, tree.read path with
  | .ok c, .ok command, .ok bytes =>
      c.processes command (Recipe.Converter.fileStatements bytes)
  | _, _, _ => []

theorem evaluations_eq {s : Settings} {status? : Option StatusCallback} {c : Recipe.Converter}
    (made : Recipe.Converter.ofSettings s status? = .ok c) {command : List (List Char)}
    (words : Shell.commandWords s.shell.command = .ok command) {tree : Files.Tree}
    {path : Files.Path} {bytes : List UInt8} (read : tree.read path = .ok bytes) :
    evaluations s tree path = c.processes command (Recipe.Converter.fileStatements bytes) := by
  obtain ⟨c', made'⟩ : ∃ c', Recipe.Converter.ofSettings s none = .ok c' := by
    rw [Recipe.Converter.ofSettings, words]
    exact ⟨_, rfl⟩
  rw [evaluations, made', words, read, Recipe.Converter.processes_eq_of_ofSettings made made']

section Stages

variable {host : Host} {status : StatusCallback} {o : Options} {s : Settings}
  {tree written : Files.Tree} {outside after : Outside}

theorem convertFile_apply (status : StatusCallback) (s : Settings) (tree : Files.Tree)
    (path : Files.Path) (outside : Outside) :
    convertFile status s tree path outside =
      match Recipe.Converter.ofSettings s (some status), tree.read path with
      | .error failure, _ => (.error failure, outside)
      | .ok _, .error failure => (.error failure, outside)
      | .ok c, .ok bytes => c.recipeOfBytes bytes outside := by
  rw [convertFile, Run.bind_apply]
  cases Recipe.Converter.ofSettings s (some status) with
  | error failure => rfl
  | ok c =>
      cases tree.read path with
      | error failure => rfl
      | ok bytes => rfl

/-- Up to the recipe no process is started but those that evaluate assignments, in their order. -/
theorem exists_part_convertFile (status : StatusCallback) (s : Settings) (tree : Files.Tree)
    (path : Files.Path) (outside : Outside) :
    ∃ part, part <+: evaluations s tree path ∧
      (convertFile status s tree path outside).2.started = outside.started ++ part ∧
      ∀ recipe, (convertFile status s tree path outside).1 = .ok recipe →
        part = evaluations s tree path := by
  rw [convertFile_apply]
  cases made : Recipe.Converter.ofSettings s (some status) with
  | error failure => exact ⟨[], List.nil_prefix, (List.append_nil _).symm, fun _ ok => nomatch ok⟩
  | ok c =>
      cases read : tree.read path with
      | error failure =>
          exact ⟨[], List.nil_prefix, (List.append_nil _).symm, fun _ ok => nomatch ok⟩
      | ok bytes =>
          obtain ⟨command, words⟩ := Recipe.Converter.exists_words_of_ofSettings made
          rw [evaluations_eq made words read]
          exact Recipe.Converter.exists_part_recipeOfBytes made words bytes outside

theorem writeRecipe_eq (status : StatusCallback) (o : Options) (s : Settings) (tree : Files.Tree) :
    writeRecipe status o s tree =
      convertFile status s tree o.buildFile >>= fun recipe =>
        ExceptT.mk (pure (tree.write (outputPath o s) (Text.Utf8.encode recipe))) := by
  simp only [writeRecipe, convertFile, bind_assoc]

theorem writeRecipe_eq_ok_iff :
    writeRecipe status o s tree outside = (.ok written, after) ↔
      ∃ recipe, convertFile status s tree o.buildFile outside = (.ok recipe, after) ∧
        tree.write (outputPath o s) (Text.Utf8.encode recipe) = .ok written := by
  rw [writeRecipe_eq, Run.bind_apply]
  rcases convertFile status s tree o.buildFile outside with ⟨failure | recipe, next⟩
  · constructor
    · intro wrote
      cases (Prod.mk.inj wrote).1
    · rintro ⟨recipe, converted, -⟩
      cases (Prod.mk.inj converted).1
  · constructor
    · intro wrote
      obtain ⟨result, rfl⟩ := Prod.mk.inj wrote
      exact ⟨recipe, rfl, result⟩
    · rintro ⟨recipe', converted, wrote⟩
      obtain ⟨result, rfl⟩ := Prod.mk.inj converted
      obtain rfl := Except.ok.inj result
      exact Prod.ext wrote rfl

theorem writeRecipe_eq_error {failure : Failure}
    (failed : writeRecipe status o s tree outside = (.error failure, after)) :
    (convertFile status s tree o.buildFile outside).2 = after ∧
      ((convertFile status s tree o.buildFile outside).1 = .error failure ∨
        ∃ bytes, tree.write (outputPath o s) bytes = .error failure) := by
  rw [writeRecipe_eq, Run.bind_apply] at failed
  rcases converted : convertFile status s tree o.buildFile outside with ⟨failure' | recipe, next⟩
  · rw [converted] at failed
    obtain ⟨result, rfl⟩ := Prod.mk.inj failed
    exact ⟨rfl, .inl (congrArg Except.error (Except.error.inj result))⟩
  · rw [converted] at failed
    obtain ⟨result, rfl⟩ := Prod.mk.inj failed
    exact ⟨rfl, .inr ⟨_, result⟩⟩

def shown (host : Host) (o : Options) (s : Settings) (outside : Outside) : List Char :=
  outside.events.flatMap ((display host s).event o.verbose)

theorem runSettings_of_error {failure : Failure}
    (failed : writeRecipe (display host s).callback o s tree outside = (.error failure, after)) :
    runSettings host o s tree outside =
      { ending := (endingOf failure).1, complaint := shown host o s after ++ (endingOf failure).2,
        tree, outside := after } := by
  unfold runSettings
  dsimp only
  rw [failed]
  rfl

theorem runSettings_of_ok
    (wrote : writeRecipe (display host s).callback o s tree outside = (.ok written, after)) :
    runSettings host o s tree outside =
      let (result, closed) := finish (display host s).callback s (outputPath o s).text after
      { ending := match result with
          | .ok _ => .exit 0
          | .error failure => .escaped failure
        complaint := shown host o s closed, tree := written, outside := closed } := by
  unfold runSettings
  dsimp only
  rw [wrote]
  dsimp only
  rcases finish (display host s).callback s (outputPath o s).text after with ⟨failure | _, closed⟩
  · rfl
  · rfl

theorem run_eq {arguments : List (List Char)}
    (accepted : Options.ofArguments host.release arguments = .ok o) (tree : Files.Tree)
    (outside : Outside) :
    run host arguments tree outside =
      match Settings.load host.yaml tree host.home o.config o.configDirectory with
      | .error fault =>
          { ending := .exit 1
            complaint := "Error loading configuration: ".toList ++ fault.message ++ ['\n']
            tree, outside }
      | .ok s => runSettings host o (overrideSettings o s) tree outside := by
  unfold run
  generalize Options.ofArguments host.release arguments = parsed at accepted
  subst accepted
  rfl

theorem run_eq_of_load {arguments : List (List Char)}
    (accepted : Options.ofArguments host.release arguments = .ok o)
    (loaded : Settings.load host.yaml tree host.home o.config o.configDirectory = .ok s)
    (outside : Outside) :
    run host arguments tree outside = runSettings host o (overrideSettings o s) tree outside := by
  rw [run_eq accepted, loaded]

private theorem ne_exit_zero_endingOf (failure : Failure) : (endingOf failure).1 ≠ .exit 0 := by
  unfold endingOf
  split
  · simp
  · split <;> simp

private theorem quiet_of_runSettings {code : Nat} (nonzero : code ≠ 0)
    (ending : (runSettings host o s tree outside).ending = .exit code) :
    (runSettings host o s tree outside).tree = tree ∧
      ∃ part, part <+: evaluations s tree o.buildFile ∧
        (runSettings host o s tree outside).outside.started = outside.started ++ part := by
  let status := (display host s).callback
  rcases wrote : writeRecipe status o s tree outside with ⟨failure | written, after⟩
  · obtain ⟨rfl, -⟩ := writeRecipe_eq_error wrote
    obtain ⟨part, first, started, -⟩ := exists_part_convertFile status s tree o.buildFile outside
    rw [runSettings_of_error wrote]
    exact ⟨rfl, part, first, started⟩
  · rw [runSettings_of_ok wrote] at ending
    rcases closing : finish status s (outputPath o s).text after with ⟨failure | _, closed⟩
    · rw [closing] at ending
      contradiction
    · rw [closing] at ending
      exact absurd (Ending.exit.inj ending).symm nonzero

private theorem written_of_runSettings (ending : (runSettings host o s tree outside).ending = .exit 0) :
    let status := (display host s).callback
    ∃ recipe after, convertFile status s tree o.buildFile outside = (.ok recipe, after) ∧
      after.started = outside.started ++ evaluations s tree o.buildFile ∧
      tree.write (outputPath o s) (Text.Utf8.encode recipe) =
        .ok (runSettings host o s tree outside).tree ∧
      finish status s (outputPath o s).text after =
        (.ok (), (runSettings host o s tree outside).outside) := by
  intro status
  rcases wrote : writeRecipe status o s tree outside with ⟨failure | written, after⟩
  · rw [runSettings_of_error wrote] at ending
    exact absurd ending (ne_exit_zero_endingOf failure)
  · obtain ⟨recipe, converted, put⟩ := writeRecipe_eq_ok_iff.1 wrote
    obtain ⟨part, -, started, all⟩ := exists_part_convertFile status s tree o.buildFile outside
    rw [converted] at started all
    rw [all recipe rfl] at started
    rw [runSettings_of_ok wrote] at ending ⊢
    rcases closing : finish status s (outputPath o s).text after with ⟨failure | _, closed⟩
    · rw [closing] at ending
      contradiction
    · exact ⟨recipe, after, converted, started, put, closing⟩

end Stages

/-- What a run leaves of the files. If it ends with another exit code than zero, no file is changed,
and no process was started but for assignments. If it ends with zero, the output file has the text
of the recipe, which it had before anything else was started, and no other file is changed. -/
theorem tree_run {host : Host} {arguments : List (List Char)} {o : Options}
    (accepted : Options.ofArguments host.release arguments = .ok o) (tree : Files.Tree)
    (outside : Outside) :
    let outcome := run host arguments tree outside
    let loaded := Settings.load host.yaml tree host.home o.config o.configDirectory
    (∀ code, code ≠ 0 → outcome.ending = .exit code →
      outcome.tree = tree ∧
        match loaded with
        | .error _ => outcome.outside = outside
        | .ok s => ∃ part, part <+: evaluations (overrideSettings o s) tree o.buildFile ∧
            outcome.outside.started = outside.started ++ part) ∧
    (outcome.ending = .exit 0 →
      ∃ s recipe after location, loaded = .ok s ∧
        let settings := overrideSettings o s
        let path := outputPath o settings
        let status := (display host settings).callback
        convertFile status settings tree o.buildFile outside = (.ok recipe, after) ∧
          after.started = outside.started ++ evaluations settings tree o.buildFile ∧
          tree.write path (Text.Utf8.encode recipe) = .ok outcome.tree ∧
          outcome.tree.find path = .file location (Text.Utf8.encode recipe) ∧
          (∀ other, outcome.tree.at? other ≠ tree.at? other → other = location) ∧
          finish status settings path.text after = (.ok (), outcome.outside)) := by
  intro outcome loaded
  have same := run_eq accepted tree outside
  cases load : Settings.load host.yaml tree host.home o.config o.configDirectory with
  | error fault =>
      rw [load] at same
      simp only [loaded, load]
      refine ⟨fun code _ _ => ?_, fun zero => ?_⟩
      · simp only [outcome, same, and_self]
      · simp [outcome, same] at zero
  | ok s =>
      rw [load] at same
      simp only [loaded, load, outcome, same]
      refine ⟨fun code nonzero ending => quiet_of_runSettings nonzero ending, fun zero => ?_⟩
      obtain ⟨recipe, after, converted, started, put, closing⟩ := written_of_runSettings zero
      obtain ⟨location, found, changed⟩ := Files.Tree.find_of_write put
      exact ⟨s, recipe, after, location, rfl, converted, started, put, found, changed, closing⟩

theorem tree_run_overwriting :
    let host : Host := ⟨.late, Yaml.plainReader, fun _ message => .ok (message ++ ['\n']),
      .ofText "/h".toList⟩
    let arguments := ["PKGBUILD", "-o", "/w/PKGBUILD"].map String.toList
    let o : Options :=
      { buildFile := .ofText "PKGBUILD".toList, output := some (.ofText "/w/PKGBUILD".toList) }
    let location := ["w", "PKGBUILD"].map String.toList
    let tree : Files.Tree := ⟨[(["w".toList], .directory),
      (location, .file (Text.Utf8.encode "pkgname=foo\nmake\n".toList))], ["w".toList], []⟩
    let recipe := "require 'package'\n\nclass Foo < Package\nsystem \"make\"\nend\n".toList
    let evaluation := ["bash", "-c", "pkgname=foo\ndeclare -p pkgname"].map String.toList
    let formatting := ["rubocop", "-a", "-x", "/w/PKGBUILD"].map String.toList
    let answered : Outside := ⟨[.ended 0 "declare -- pkgname=\"foo\"\n".toList []], [], [], [], []⟩
    let interrupted : Outside := ⟨[.interrupted], [], [], [], []⟩
    Options.ofArguments host.release arguments = .ok o ∧
      (run host arguments tree answered).ending = .exit 0 ∧
      (∃ status s after, convertFile status s tree o.buildFile answered = (.ok recipe, after)) ∧
      (run host arguments tree answered).tree.find (.ofText "PKGBUILD".toList) =
        .file location (Text.Utf8.encode recipe) ∧
      (run host arguments tree answered).outside.started = [evaluation, formatting] ∧
      (run host arguments tree interrupted).ending = .exit 130 ∧
      (run host arguments tree interrupted).tree = tree ∧
      (run host arguments tree interrupted).outside.started = [evaluation] := by
  intro host arguments o location tree recipe evaluation formatting answered interrupted
  have accepted : Options.ofArguments host.release arguments = .ok o := by decide +kernel
  have finished : (run host arguments tree answered).ending = .exit 0 := by decide +kernel
  have stopped : (run host arguments tree interrupted).ending = .exit 130 := by decide +kernel
  have same (s : Settings) :
      outputPath o (overrideSettings o s) = .ofText "/w/PKGBUILD".toList :=
    rfl
  have text : (run host arguments tree answered).tree.find (.ofText "/w/PKGBUILD".toList) =
      .file location (Text.Utf8.encode recipe) := by
    decide +kernel
  obtain ⟨s, recipe', after, _, -, converted, -, -, found, -, -⟩ :=
    (tree_run accepted tree answered).2 finished
  obtain ⟨unchanged, -⟩ := (tree_run accepted tree interrupted).1 130 (by decide) stopped
  rw [same, text] at found
  have encoded : Text.Utf8.encode recipe = Text.Utf8.encode recipe' :=
    (Files.Found.file.inj found).2
  have recipes : recipe = recipe' := by
    rw [← Text.Utf8.decodeLossy_encode recipe, encoded, Text.Utf8.decodeLossy_encode]
  exact ⟨accepted, finished, ⟨_, _, after, recipes ▸ converted⟩, by decide +kernel,
    by decide +kernel, stopped, unchanged, by decide +kernel⟩

end Program

end PkgRecipe
