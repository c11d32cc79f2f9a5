import PkgRecipe.CommandLine.Usage
import PkgRecipe.Recipe.Conversion
import PkgRecipe.Recipe.Formatting
import PkgRecipe.Settings.Layers
import PkgRecipe.Status.Display

namespace PkgRecipe.Program

open CommandLine (Options)

/-- What the machine brings to a run, besides its files. -/
structure Host where
  release : CommandLine.Release
  yaml : Yaml.Reader
  terminal : Status.Terminal
  /-- The home directory of the user. -/
  home : Files.Path

inductive Ending where
  | exit (code : Nat)
  /-- A failure that the run does not turn into an exit code. -/
  | escaped (failure : Failure)
deriving DecidableEq, Repr

structure Outcome where
  ending : Ending
  output : List Char := []
  /-- What is shown of the log, of the progress and of errors. -/
  complaint : List Char := []
  tree : Files.Tree
  outside : Outside

def overrideSettings (o : Options) (s : Settings) : Settings :=
  { s with
    general.color := s.general.color && !o.noColor
    general.strict := s.general.strict || o.strict
    formatter.enabled := s.formatter.enabled && !o.noFormat
    checksum.fetch := s.checksum.fetch && !o.noFetch }

def outputPath (o : Options) (s : Settings) : Files.Path :=
  o.output.getD (.ofText s.general.output)

def display (host : Host) (s : Settings) : Status.Display :=
  ⟨s.general.color, Status.styles s.theme, host.terminal⟩

/-- Converts the build file and writes the recipe; gives the tree with the recipe. -/
def writeRecipe (status : StatusCallback) (o : Options) (s : Settings) (tree : Files.Tree) :
    Run Files.Tree := do
  let converter ← ExceptT.mk (pure (Recipe.Converter.ofSettings s (some status)))
  let bytes ← ExceptT.mk (pure (tree.read o.buildFile))
  let recipe ← converter.recipeOfBytes bytes
  ExceptT.mk (pure (tree.write (outputPath o s) (Text.Utf8.encode recipe)))

/-- Reports a recipe that is written, and has it formatted if the settings say so. -/
def finish (status : StatusCallback) (s : Settings) (output : List Char) : Run Unit := do
  Run.tell status "success".toList ("Completed! Recipe written to ".toList ++ output)
  if s.formatter.enabled then
    Run.tell status "hint".toList
      ("Running ".toList ++ s.formatter.command ++ " on ".toList ++ output)
    match Shell.commandWords s.formatter.command with
    | .error fault => throw (.badCommand fault)
    | .ok command => discard (Recipe.formatFile command output)

def endingOf (failure : Failure) : Ending × List Char :=
  if failure = .interrupted then (.exit 130, [])
  else if failure.isForeseen then (.exit 1, "Error: ".toList ++ failure.message ++ ['\n'])
  else (.escaped failure, [])

/-- Runs the conversion under settings, which have the options in them. -/
def runSettings (host : Host) (o : Options) (s : Settings) (tree : Files.Tree)
    (outside : Outside) : Outcome :=
  let display := display host s
  let shown (outside : Outside) : List Char :=
    outside.events.flatMap (display.event o.verbose)
  match writeRecipe display.callback o s tree outside with
  | (.error failure, outside) =>
      let (ending, complaint) := endingOf failure
      { ending, complaint := shown outside ++ complaint, tree, outside }
  | (.ok tree, outside) =>
      match finish display.callback s (outputPath o s).text outside with
      | (.error failure, outside) =>
          { ending := .escaped failure, complaint := shown outside, tree, outside }
      | (.ok (), outside) => { ending := .exit 0, complaint := shown outside, tree, outside }

def run (host : Host) (arguments : List (List Char)) (tree : Files.Tree) (outside : Outside) :
    Outcome :=
  match Options.ofArguments host.release arguments with
  | .error stop =>
      let notice := stop.notice
      { ending := .exit notice.code, output := notice.output, complaint := notice.complaint,
        tree, outside }
  | .ok o =>
      match Settings.load host.yaml tree host.home o.config o.configDirectory with
      | .error fault =>
          { ending := .exit 1
            complaint := "Error loading configuration: ".toList ++ fault.message ++ ['\n']
            tree, outside }
      | .ok s => runSettings host o (overrideSettings o s) tree outside

end PkgRecipe.Program
