import PkgRecipe.Data.Tree

namespace PkgRecipe.Settings

def defaultSection (name : String) (entries : List (String × Data)) : Scalar × Data :=
  (.text name.toList, .mapping (entries.map fun entry => (.text entry.1.toList, entry.2)))

def textEntry (name value : String) : String × Data :=
  (name, .text value.toList)

def truthEntry (name : String) (value : Bool) : String × Data :=
  (name, .scalar (.bool value))

def defaultGeneral : Scalar × Data :=
  defaultSection "config"
    [truthEntry "color" true, truthEntry "strict" false, textEntry "output" "converted.rb"]

def defaultShell : Scalar × Data :=
  defaultSection "shell" [textEntry "command" "bash -c"]

def defaultChecksum : Scalar × Data :=
  defaultSection "checksum" [truthEntry "fetch" true, ("chunk_size", .scalar (.int 65536))]

def defaultFormatter : Scalar × Data :=
  defaultSection "formatter" [truthEntry "enabled" true, textEntry "command" "rubocop -a -x"]

def defaultTheme : Scalar × Data :=
  defaultSection "theme"
    [textEntry "progress" "bold yellow", textEntry "success" "bold green",
      textEntry "hint" "bold cyan"]

def defaultFunctions : Scalar × Data :=
  defaultSection "functions"
    [textEntry "prepare" "patch", textEntry "pkgver" "__arch_pkgver__", textEntry "build" "build",
      textEntry "check" "check", textEntry "package" "install"]

def defaultFileOperations : Scalar × Data :=
  defaultSection "file_operations" [textEntry "rm" "rm_rf", textEntry "mkdir" "mkdir_p"]

/-- The expressions take the version apart and name the directories of the build. -/
def defaultSubstitutions : Scalar × Data :=
  defaultSection "substitutions"
    [textEntry "pkgver" "#\x7bversion\x7d",
      textEntry "pkgrel" "#\x7bversion[/.*\\-(.*)$/, 1]\x7d",
      textEntry "srcdir"
        "#\x7bDir[\"#\x7bCREW_BREW_DIR\x7d/#\x7bFile.basename(__FILE__, '.rb')\x7d.*.dir\"]\x7d",
      textEntry "pkgdir" "#\x7bCREW_DEST_DIR\x7d"]

def defaults : Data.Entries :=
  [defaultGeneral, defaultShell, defaultChecksum, defaultFormatter, defaultTheme, defaultFunctions,
    defaultFileOperations, defaultSubstitutions]

end PkgRecipe.Settings
