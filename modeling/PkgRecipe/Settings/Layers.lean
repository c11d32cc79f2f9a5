import PkgRecipe.Data.Merge
import PkgRecipe.Files.TextFile
import PkgRecipe.Files.Tree
import PkgRecipe.Settings.Defaults
import PkgRecipe.Settings.Reading
import PkgRecipe.Yaml.Reader

namespace PkgRecipe.Settings

/-! Settings from layers: the built-in ones, the main file, and the files of a drop-in directory in
the order of their names. Each layer is laid over those before it. -/

/-- Whether data says nothing: null, a zero, or something without parts. -/
def isVoid : Data → Bool
  | .scalar .null => true
  | .scalar (.bool b) => !b
  | .scalar (.int n) => n = 0
  | .scalar (.float x) => x == 0
  | .scalar (.text t) => t = []
  | .scalar (.bytes b) => b = []
  | .scalar (.date _) | .scalar (.dateTime _) => false
  | .scalar (.foreign v) => v.isVoid
  | .sequence items => items.isEmpty
  | .mapping entries => entries.isEmpty

/-- The settings that a text describes, alone or laid over the built-in ones. -/
def ofText (yaml : Yaml.Reader) (withDefaults : Bool) (text : List Char) :
    Except Fault Settings := do
  let data ← (yaml.load text).mapError .unreadable
  match if isVoid data then .mapping [] else data with
  | .mapping entries => ofEntries (if withDefaults then Data.merge defaults entries else entries)
  | data => throw (if withDefaults then .withoutEntries data else .noSections data)

def configHome (home : Files.Path) : Files.Path :=
  (home.child ".config".toList).child "pkgbuild-convert".toList

def mainFile (home : Files.Path) : Option Files.Path → Files.Path
  | some path => path
  | none => (configHome home).child "config.yaml".toList

def dropInDirectory (home : Files.Path) : Option Files.Path → Files.Path
  | some path => path
  | none => (configHome home).child "conf.d".toList

section Layers

variable (yaml : Yaml.Reader) (tree : Files.Tree)

/-- The layer in a file. A file that is missing or empty is an empty layer. -/
def readLayer (path : Files.Path) : Except Fault Data.Entries := do
  match tree.find path with
  | .file _ _ =>
      let bytes ← (tree.read path).mapError .unreachable
      let text ← (Files.readText bytes).mapError .undecodable
      match ← (yaml.load text).mapError .unreadable with
      | .scalar .null => return []
      | .mapping entries => return entries
      | _ => throw (.noMapping path.text)
  | .tooLong => throw (.unreachable (.nameTooLong path.text))
  | .denied => throw (.unreachable (.accessDenied path.text))
  | _ => return []

def precedes : List Char → List Char → Bool
  | [], _ => true
  | _ :: _, [] => false
  | a :: first, b :: second => a.toNat < b.toNat || (a = b && precedes first second)

def layerNames (directory : Files.Location) : List (List Char) :=
  let endings := [".yaml".toList, ".yml".toList]
  ((tree.names directory).filter fun name => endings.contains (Files.ending name)).mergeSort precedes

def mergeDirectory (path : Files.Path) (base : Data.Entries) : Except Fault Data.Entries :=
  match tree.find path with
  | .directory location =>
      if tree.forbids location .read then throw (.unreachable (.accessDenied path.text))
      else
        (layerNames tree location).foldlM
          (fun merged name => return Data.merge merged (← readLayer yaml tree (path.child name))) base
  | .tooLong => throw (.unreachable (.nameTooLong path.text))
  | .denied => throw (.unreachable (.accessDenied path.text))
  | _ => return base

def load (home : Files.Path) (file directory : Option Files.Path) : Except Fault Settings := do
  let base := Data.merge defaults (← readLayer yaml tree (mainFile home file))
  ofEntries (← mergeDirectory yaml tree (dropInDirectory home directory) base)

end Layers

end PkgRecipe.Settings
