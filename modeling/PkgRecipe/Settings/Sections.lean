import PkgRecipe.Table

namespace PkgRecipe

namespace Settings

structure General where
  /-- Whether status messages are styled. -/
  color : Bool := true
  /-- Whether an unterminated statement at the end of the input is a failure. -/
  strict : Bool := false
  /-- The file that the recipe is written to. -/
  output : List Char := "converted.rb".toList
deriving DecidableEq, Repr

structure Shell where
  /-- The command that evaluates assignments; the script follows it. -/
  command : List Char := "bash -c".toList
deriving DecidableEq, Repr

structure Checksum where
  /-- Whether a source may be downloaded for its digest. -/
  fetch : Bool := true
  /-- How many bytes of a download are read at a time. -/
  chunkSize : Int := 65536
deriving DecidableEq, Repr

structure Formatter where
  enabled : Bool := true
  /-- The command that formats a recipe; the file follows it. -/
  command : List Char := "rubocop -a -x".toList
deriving DecidableEq, Repr

end Settings

structure Settings where
  general : Settings.General := {}
  shell : Settings.Shell := {}
  checksum : Settings.Checksum := {}
  formatter : Settings.Formatter := {}
  /-- The colors of each style of status message. -/
  theme : Table (List Char) := []
  /-- The recipe method for each life cycle function. -/
  functions : Table (List Char) := []
  /-- The file utility for each shell command. -/
  fileOperations : Table (List Char) := []
  /-- The expression for each well-known variable. -/
  substitutions : Table (List Char) := []
deriving DecidableEq, Repr

end PkgRecipe
