import PkgRecipe.Files.TextFile
import PkgRecipe.Recipe.Checksum
import PkgRecipe.Settings.Sections
import PkgRecipe.Shell.Resolver

namespace PkgRecipe.Recipe

/-- The recipe that is being written, and what was asked and reported meanwhile. -/
structure Desk where
  document : Document
  outside : Outside

/-- A computation that writes a recipe. What it wrote before a failure stays written. -/
abbrev Work := ExceptT Failure (StateM Desk)

namespace Work

def ofRun {α : Type} (run : Run α) : Work α := fun desk =>
  let (result, outside) := run desk.outside
  (result, { desk with outside })

def document : Work Document :=
  return (← get).document

def setDocument (document : Document) : Work Unit :=
  modify fun desk => { desk with document }

def append (line : List Char) : Work Unit :=
  modify fun desk => { desk with document := desk.document.append line }

end Work

def systemCall (s : Shell.Statement) : List Char :=
  "system ".toList ++ Ruby.stringLiteral true s.text

/-- The value of a declaration as a literal: an integer if it is declared as one, an array if it
is one, otherwise a string. -/
def literalOf (d : Shell.Declaration) : Except Failure (List Char) :=
  if d.attributes.integer then
    match Ruby.integer d.scalar with
    | .ok n => .ok (Text.signedDecimal n)
    | .error digits => .error (.oversized digits)
  else if d.attributes.isArray then .ok (Ruby.array d.elements)
  else .ok (Ruby.string d.scalar)

/-- A change of directory. Only one to a single directory becomes a call of its own. -/
def chdirLine (s : Shell.Statement) : List Char :=
  match s.arguments with
  | [directory] => "Dir.chdir(".toList ++ Ruby.string directory.value ++ [')']
  | _ => systemCall s

def fileTargets (s : Shell.Statement) : List (List Char) :=
  (s.arguments.filter fun t => t.raw ≠ [] && t.raw.head? ≠ some '-').map (·.value)

def fileOperationLine (action : List Char) (s : Shell.Statement) : List Char :=
  let targets := fileTargets s
  let globs := targets.any (·.contains '*')
  let call := "FileUtils.".toList ++ action ++ [' ']
  match targets, globs with
  | [target], false => call ++ Ruby.string target
  | [target], true => call ++ "Dir[".toList ++ Ruby.string target ++ [']']
  | _, false => call ++ Ruby.array targets
  | _, true => call ++ "Dir.glob(".toList ++ Ruby.array targets ++ [')']

structure Converter where
  settings : Settings
  resolve : Shell.Resolver
  checksum : ChecksumPolicy
  /-- How the user is told of progress. -/
  status? : Option StatusCallback

namespace Converter

/-- The converter that settings describe. Assignments go to the configured shell; a digest that is
not given is taken from the source. -/
def ofSettings (settings : Settings) (status? : Option StatusCallback) :
    Except Failure Converter :=
  match Shell.commandWords settings.shell.command with
  | .error fault => .error (.badCommand fault)
  | .ok command =>
      .ok {
        settings
        resolve := Shell.resolveWith command
        checksum := {
          digest? := some (sourceDigest settings.checksum.chunkSize)
          fetch := settings.checksum.fetch
          status? }
        status? }

def classifier (c : Converter) : Shell.Classifier :=
  ⟨c.settings.functions.keys, c.settings.fileOperations.keys⟩

def methodLine (c : Converter) (s : Shell.Statement) : List Char :=
  let method := (c.classifier.functionName? s).bind (c.settings.functions.lookup ·)
  "def self.".toList ++ method.getD []

def writeDeclaration (d : Shell.Declaration) : Work Unit := do
  let before ← Work.document
  if !d.attributes.isArray then
    Work.setDocument (before.setVariable d.name (before.expand d.scalar))
  if isMetadata d.name then
    let (after, events) := recordMetadata d (← Work.document)
    Work.setDocument after
    events.forM fun event => Work.ofRun (Run.report event)
  else
    let literal ← ExceptT.mk (pure (literalOf d))
    Work.append ("@_".toList ++ d.name ++ " = ".toList ++ literal)
    if d.attributes.exported then
      Work.append ("ENV[".toList ++ Ruby.string d.name ++ "] = @_".toList ++ d.name)

def writeStatement (c : Converter) (s : Shell.Statement) : Work Unit := do
  match c.classifier.kind s with
  | .comment => Work.append s.text
  | .assignment => writeDeclaration (← Work.ofRun (c.resolve s))
  | .chdir => Work.append (chdirLine s)
  | .fileOperation =>
      Work.append (fileOperationLine ((c.settings.fileOperations.lookup s.head).getD []) s)
  | .functionHeader => Work.append (c.methodLine s)
  | .functionEnd => Work.append "end".toList
  | .command => Work.append (systemCall s)

/-- Writes a statement that the input leaves open: as a command, unless the settings are strict. -/
def writeIncomplete (c : Converter) (s : Shell.Statement) : Work Unit := do
  if c.settings.general.strict then throw (.unterminated s.text s.lineNumber)
  Work.ofRun (Run.log .warning ("Unterminated statement at line ".toList ++
    Text.decimal s.lineNumber ++ "; passed through as a command".toList))
  Work.append (systemCall s)

def write (c : Converter) (s : Shell.Statement) : Work Unit :=
  if s.complete then c.writeStatement s else c.writeIncomplete s

def announce (c : Converter) (document : Document) : Run Unit := do
  if document.packageName.isNone then
    Run.log .warning "No pkgname found; class name left as placeholder".toList
  Run.tell? c.status? "progress".toList "Replacing variable substitution syntax...".toList

def finish (c : Converter) : Work (List Char) := do
  Work.setDocument (← Work.ofRun (c.checksum.settle (← Work.document)))
  let document ← Work.document
  Work.ofRun (c.announce document)
  return document.render c.settings.substitutions

def fromEmpty {α : Type} (work : Work α) : Run α := fun outside =>
  let (result, desk) := work ⟨{}, outside⟩
  (result, desk.outside)

def recipeOfLines (c : Converter) (lines : List (List Char)) : Run (List Char) :=
  fromEmpty do
    (Shell.statements lines).forM c.write
    c.finish

/-- The failure of lines that end where a file cannot be read on. The statements that were closed
before are written. -/
def failAfterLines (c : Converter) (lines : List (List Char)) (failure : Failure) :
    Run (List Char) :=
  fromEmpty do
    ((Shell.statements lines).filter (·.complete)).forM c.write
    throw failure

def recipeOfBytes (c : Converter) (bytes : List UInt8) : Run (List Char) :=
  match Files.readLines bytes with
  | (lines, none) => c.recipeOfLines lines
  | (lines, some fault) => c.failAfterLines lines (.undecodable fault)

end Converter

end PkgRecipe.Recipe
