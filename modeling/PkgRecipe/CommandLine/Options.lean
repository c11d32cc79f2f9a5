import PkgRecipe.CommandLine.Word
import PkgRecipe.Files.Path
import PkgRecipe.Text.Quoted

namespace PkgRecipe.CommandLine

structure Options where
  /-- The file to convert. -/
  buildFile : Files.Path
  /-- The file to write the recipe to. -/
  output : Option Files.Path := none
  /-- The main file of settings. -/
  config : Option Files.Path := none
  /-- The drop-in directory of settings. -/
  configDirectory : Option Files.Path := none
  noColor : Bool := false
  noFormat : Bool := false
  noFetch : Bool := false
  strict : Bool := false
  verbose : Bool := false
deriving DecidableEq, Repr

inductive UsageFault where
  | ambiguous (ambiguity : Ambiguity)
  | valueMissing (switch : Switch)
  /-- A value is attached to a switch that takes none. -/
  | valueIgnored (switch : Switch) (value : List Char)
  | operandMissing
  | unrecognized (arguments : List (List Char))
deriving DecidableEq, Repr

def UsageFault.message : UsageFault → List Char
  | ambiguous ⟨text, candidates⟩ =>
      "ambiguous option: ".toList ++ text ++ " could match ".toList ++
        ", ".toList.intercalate candidates
  | valueMissing switch =>
      "argument ".toList ++ switch.title ++ ": expected one argument".toList
  | valueIgnored switch value =>
      "argument ".toList ++ switch.title ++ ": ignored explicit argument ".toList ++
        Text.quoted value
  | operandMissing => "the following arguments are required: PKGBUILD".toList
  | unrecognized arguments =>
      "unrecognized arguments: ".toList ++ [' '].intercalate arguments

inductive Stop where
  | help
  | version
  | fault (fault : UsageFault)
deriving DecidableEq, Repr

/-- What has been read of a command line. The path of the build file counts once it was given. -/
structure Progress where
  options : Options := { buildFile := .ofText [] }
  hasOperand : Bool := false
  /-- The arguments that have no place, in order. -/
  extras : List (List Char) := []

namespace Progress

def addExtra (p : Progress) (text : List Char) : Progress :=
  { p with extras := p.extras ++ [text] }

def addOperand (p : Progress) (text : List Char) : Progress :=
  if p.hasOperand then p.addExtra text
  else { p with options.buildFile := .ofText text, hasOperand := true }

def obey (p : Progress) (switch : Switch) (value : List Char) : Except Stop Progress :=
  match switch with
  | .help => .error .help
  | .version => .error .version
  | .output => .ok { p with options.output := some (.ofText value) }
  | .config => .ok { p with options.config := some (.ofText value) }
  | .configDirectory => .ok { p with options.configDirectory := some (.ofText value) }
  | .noColor => .ok { p with options.noColor := true }
  | .noFormat => .ok { p with options.noFormat := true }
  | .noFetch => .ok { p with options.noFetch := true }
  | .strict => .ok { p with options.strict := true }
  | .verbose => .ok { p with options.verbose := true }

def obeyAll (p : Progress) (switches : List (Switch × List Char)) : Except Stop Progress :=
  switches.foldlM (fun p (switch, value) => p.obey switch value) p

end Progress

structure Cluster where
  switches : List (Switch × List Char) := []
  /-- The last switch, if its value is the next word. -/
  needsValue : Option Switch := none
  /-- The letters that are no switches, behind a hyphen. -/
  extra : Option (List Char) := none

namespace Cluster

def cons (switch : Switch) (value : List Char) (c : Cluster) : Cluster :=
  { c with switches := (switch, value) :: c.switches }

def bare (switch : Switch) : Cluster :=
  if switch.takesValue then { needsValue := some switch } else { switches := [(switch, [])] }

def withValue (switch : Switch) (value : List Char) : Except UsageFault Cluster :=
  if switch.takesValue then .ok { switches := [(switch, value)] }
  else .error (.valueIgnored switch value)

/-- A short switch and the text behind it: its value, or the letters of more switches. -/
def ofLetters (release : Release) (switch : Switch) (text : List Char) :
    Except UsageFault Cluster :=
  if switch.takesValue then .ok { switches := [(switch, text)] }
  else
    match text with
    | [] => .error (.valueIgnored switch [])
    | letter :: rest =>
        match Switch.ofSpelling? ['-', letter], release with
        | some next, _ =>
            match rest, release with
            | [], _ => .ok ((bare next).cons switch [])
            | '=' :: value, .late => (withValue next value).map (cons switch [])
            | rest, release => (ofLetters release next rest).map (cons switch [])
        | none, .early => .error (.valueIgnored switch (letter :: rest))
        | none, .late =>
            if letter = '-' then .error (.valueIgnored switch (letter :: rest))
            else .ok { switches := [(switch, [])], extra := some ('-' :: letter :: rest) }

def ofSwitch (release : Release) (switch : Switch) : Attached → Except UsageFault Cluster
  | .nothing => .ok (bare switch)
  | .value value => withValue switch value
  | .letters text => ofLetters release switch text

end Cluster

def readWords (release : Release) (p : Progress) : List Word → Except Stop Progress
  | [] => .ok p
  | .operand text :: .separator :: rest =>
      -- Two hyphens right behind the build file, or right before it, are dropped.
      if p.hasOperand then readWords release ((p.addExtra text).addExtra "--".toList) rest
      else readWords release (p.addOperand text) rest
  | .operand text :: rest => readWords release (p.addOperand text) rest
  | .separator :: rest =>
      if p.hasOperand || rest = [] then readWords release (p.addExtra "--".toList) rest
      else readWords release p rest
  | .unknown text :: rest => readWords release (p.addExtra text) rest
  | .switch switch attached :: rest =>
      match Cluster.ofSwitch release switch attached with
      | .error fault => .error (.fault fault)
      | .ok c =>
          let p := c.extra.elim p p.addExtra
          match c.needsValue with
          | none =>
              match p.obeyAll c.switches with
              | .error stop => .error stop
              | .ok next => readWords release next rest
          | some last =>
              match rest with
              | .operand value :: more =>
                  match p.obeyAll (c.switches ++ [(last, value)]) with
                  | .error stop => .error stop
                  | .ok next => readWords release next more
              | _ => .error (.fault (.valueMissing last))

def Options.ofArguments (release : Release) (arguments : List (List Char)) :
    Except Stop Options :=
  match Word.ofArguments release arguments with
  | .error ambiguity => .error (.fault (.ambiguous ambiguity))
  | .ok words =>
      match readWords release {} words with
      | .error stop => .error stop
      | .ok p =>
          if !p.hasOperand then .error (.fault .operandMissing)
          else if p.extras ≠ [] then .error (.fault (.unrecognized p.extras))
          else .ok p.options

end PkgRecipe.CommandLine
