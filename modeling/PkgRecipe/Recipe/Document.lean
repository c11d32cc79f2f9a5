import PkgRecipe.Recipe.Reference
import PkgRecipe.Text.Casing

namespace PkgRecipe.Recipe

structure Document where
  lines : List (List Char) := []
  packageName : Option (List Char) := none
  sourceUrl : Option (List Char) := none
  /-- The digest of the source that was given. -/
  checksum : Option (List Char) := none
  /-- The index of the line that is kept for the digest. -/
  checksumSlot : Option Nat := none
  /-- The scalar values assigned so far. -/
  values : Table (List Char) := []
deriving DecidableEq, Repr

def classNameOf (packageName : List Char) : List Char :=
  (Text.capitalize packageName).map fun c => if Text.isWordChar c then c else '_'

namespace Document

def append (d : Document) (line : List Char) : Document :=
  { d with lines := d.lines ++ [line] }

def appendAll (d : Document) (lines : List (List Char)) : Document :=
  { d with lines := d.lines ++ lines }

def reserveChecksum (d : Document) : Document :=
  match d.checksumSlot with
  | some _ => d
  | none => { d with lines := d.lines ++ [[]], checksumSlot := some d.lines.length }

def fillChecksum (d : Document) (line : Option (List Char)) : Document :=
  match d.checksumSlot, line with
  | none, _ => d
  | some slot, some text => { d with lines := d.lines.set slot text }
  | some slot, none => { d with lines := d.lines.eraseIdx slot, checksumSlot := none }

def setVariable (d : Document) (name value : List Char) : Document :=
  { d with values := d.values.put name value }

/-- A text in which references to variables assigned so far are replaced by their values. -/
def expand (d : Document) (text : List Char) : List Char :=
  replaceReferences (fun r => (d.values.lookup r.name).getD r.text) text

def className (d : Document) : List Char :=
  match d.packageName with
  | none => "<pkgName>".toList
  | some name => classNameOf name

def header (d : Document) : List Char :=
  "require 'package'\n\nclass ".toList ++ d.className ++ " < Package".toList

/-- The table with the package name, unless it has an entry for that. -/
def withPackageName (d : Document) (table : Table (List Char)) : Table (List Char) :=
  match d.packageName with
  | some name =>
      if table.keys.contains "pkgname".toList then table
      else table ++ [("pkgname".toList, name)]
  | none => table

def source (d : Document) : List Char :=
  ['\n'].intercalate (d.header :: d.lines ++ ["end".toList]) ++ ['\n']

def render (d : Document) (table : Table (List Char)) : List Char :=
  substitute (d.withPackageName table) d.source

end Document

end PkgRecipe.Recipe
