import PkgRecipe.Outside
import PkgRecipe.Recipe.Document
import PkgRecipe.Ruby.Literal
import PkgRecipe.Shell.Declaration

namespace PkgRecipe.Recipe

def metadataNames : List (List Char) :=
  ["pkgbase", "pkgname", "pkgver", "pkgrel", "epoch", "pkgdesc", "arch", "url", "license", "groups",
    "depends", "makedepends", "checkdepends", "optdepends", "provides", "conflicts", "replaces",
    "backup", "options", "install", "changelog", "source", "noextract", "validpgpkeys", "md5sums",
    "sha1sums", "sha256sums", "sha224sums", "sha384sums", "sha512sums",
    "b2sums"].map String.toList

def isMetadata (name : List Char) : Bool :=
  metadataNames.contains name

def withoutOperators (dependency : List Char) : List Char :=
  dependency.dropWhile fun c => c = '<' || c = '>' || c = '='

/-- The location in a source entry, which may have a file name and two colons in front. -/
def entryLocation (entry : List Char) : List Char :=
  match Text.cutAt? "::".toList entry with
  | some (_, location) => location
  | none => entry

def architecture (name : List Char) : List Char :=
  if name = "any".toList then "all".toList else name

def textStatement (keyword : String) (value : List Char) : List Char :=
  keyword.toList ++ ' ' :: Ruby.string value

def commaSeparated (values : List (List Char)) : List Char :=
  ", ".toList.intercalate values

/-- What a declaration of a variable for checksums does. The line for the digest goes where the
first of them stands; its value is the first element of the first list that has one. -/
def recordChecksums (d : Shell.Declaration) (doc : Document) : Document × List Event :=
  let reserved := doc.reserveChecksum
  if d.name ≠ "sha256sums".toList then (reserved, [])
  else
    match reserved.checksum, d.elements with
    | some _, _ =>
        (reserved, [.log .debug "sha256sums already seen; ignoring later value".toList])
    | none, [] => (reserved, [.log .debug "Empty sha256sums array".toList])
    | none, first :: _ => ({ reserved with checksum := some first }, [])

def recordMetadata (d : Shell.Declaration) (doc : Document) : Document × List Event :=
  let name := d.name
  if name = "pkgname".toList then
    match d.elements with
    | [] => (doc, [])
    | first :: _ => ({ doc with packageName := some first }, [])
  else if name = "pkgver".toList then (doc.append (textStatement "version" d.scalar), [])
  else if name = "arch".toList then
    (doc.append (textStatement "compatibility" (commaSeparated (d.elements.map architecture))), [])
  else if name = "url".toList then (doc.append (textStatement "homepage" d.scalar), [])
  else if name = "license".toList then
    (doc.append (textStatement "license" (commaSeparated d.elements)), [])
  else if name = "pkgdesc".toList then (doc.append (textStatement "description" d.scalar), [])
  else if name = "depends".toList then
    (doc.appendAll (d.elements.map fun e => textStatement "depends_on" (withoutOperators e)), [])
  else if name = "source".toList then
    match d.elements with
    | [] => (doc, [.log .warning "Empty source array; no source_url emitted".toList])
    | first :: _ =>
        let location := entryLocation first
        ({ doc.append (textStatement "source_url" location) with sourceUrl := some location }, [])
  else if "sums".toList.isSuffixOf name then recordChecksums d doc
  else (doc, [.log .debug ("No recipe equivalent for ".toList ++ name ++ "; dropped".toList)])

end PkgRecipe.Recipe
