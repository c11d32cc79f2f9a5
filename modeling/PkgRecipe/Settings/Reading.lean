import PkgRecipe.Settings.Fault
import PkgRecipe.Settings.Sections
import PkgRecipe.Settings.Value
import PkgRecipe.Shell.Name

namespace PkgRecipe

/-! Data read as settings, section by section. Keys that no section has are passed over, and what is
missing has its default. -/

namespace Settings

def entry {α : Type} (name : String) (default : α) (read : Data → Checked α)
    (entries : Data.Entries) : Checked α :=
  match entries.find? (.text name.toList) with
  | none => .valid default
  | some data => (read data).inside name.toList

def sectionEntry {α : Type} (name : String) (default : α) (read : Data.Entries → Checked α)
    (entries : Data.Entries) : Checked α :=
  entry name default
    (fun
      | .mapping parts => read parts
      | _ => .fail .notSection)
    entries

def General.read (entries : Data.Entries) : Checked General :=
  General.mk <$> entry "color" true truthValue entries
    <*> entry "strict" false truthValue entries
    <*> entry "output" "converted.rb".toList text entries

def Shell.read (entries : Data.Entries) : Checked Shell :=
  Shell.mk <$> entry "command" "bash -c".toList text entries

def Checksum.read (entries : Data.Entries) : Checked Checksum :=
  Checksum.mk <$> entry "fetch" true truthValue entries
    <*> entry "chunk_size" 65536 positiveInteger entries

def Formatter.read (entries : Data.Entries) : Checked Formatter :=
  Formatter.mk <$> entry "enabled" true truthValue entries
    <*> entry "command" "rubocop -a -x".toList text entries

def functionName (name : List Char) : List Char :=
  if "()".toList.isSuffixOf name then name.take (name.length - 2) else name

def variableName (name : List Char) : List Char :=
  let isBrace (c : Char) : Bool := c = '\x7b' || c = '\x7d'
  (((name.dropWhile (· = '$')).dropWhile isBrace).reverse.dropWhile isBrace).reverse

/-- Whether a text names a recipe method. A line feed at its end is let pass. -/
def isMethodName (text : List Char) : Bool :=
  Shell.isName text || (text.getLast? = some '\n' && Shell.isName text.dropLast)

/-- The entries for functions under the plain names of these, up to the first whose method has no
valid name or cannot be written. -/
def functionEntries (read : Data.Entries) : Data.Entries → Except Fault (Checked Data.Entries)
  | [] => .ok (.valid read)
  | (.text name, method) :: rest =>
      let function := functionName name
      if !method.isWritable then .ok (.fail .unwritableMethod)
      else if isMethodName method.plainText then
        functionEntries (read.put (.text function) method) rest
      else .ok (.fail (.invalidMethod function method))
  | (name, _) :: _ => .error (.functionNotText name)

def variableEntries (read : Data.Entries) : Data.Entries → Except Fault Data.Entries
  | [] => .ok read
  | (.text name, expression) :: rest =>
      variableEntries (read.put (.text (variableName name)) expression) rest
  | (name, _) :: _ => .error (.variableNotText name)

def methodTable : Option Data → Except Fault (Checked (Table (List Char)))
  | none | some (.scalar .null) => .ok (.valid [])
  | some (.mapping entries) => do
      let named ← functionEntries [] entries
      return named.andThen fun entries => textTable (.mapping entries)
  | some data => .error (.withoutEntries data)

def expressionTable : Option Data → Except Fault (Checked (Table (List Char)))
  | none | some (.scalar .null) => .ok (.valid [])
  | some (.mapping entries) => do
      return textTable (.mapping (← variableEntries [] entries))
  | some data => .error (.withoutEntries data)

def isText : Scalar → Bool
  | .text _ => true
  | _ => false

def ofEntries (entries : Data.Entries) : Except Fault Settings := do
  if entries.any fun entry => !isText entry.1 then throw .sectionNotText
  let functions ← methodTable (entries.find? (.text "functions".toList))
  let substitutions ← expressionTable (entries.find? (.text "substitutions".toList))
  let settings := Settings.mk <$> sectionEntry "config" {} General.read entries
    <*> sectionEntry "shell" {} Shell.read entries
    <*> sectionEntry "checksum" {} Checksum.read entries
    <*> sectionEntry "formatter" {} Formatter.read entries
    <*> entry "theme" [] textTable entries
    <*> functions.inside "functions".toList
    <*> entry "file_operations" [] textTable entries
    <*> substitutions.inside "substitutions".toList
  match settings with
  | .valid settings => return settings
  | .invalid problems => throw (.invalid problems)

end Settings

end PkgRecipe
