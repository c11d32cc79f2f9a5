import PkgRecipe.CommandLine.Options

namespace PkgRecipe.CommandLine

def programName : List Char :=
  "pkgbuild-convert".toList

def versionText : List Char :=
  programName ++ " 0.1.0\n".toList

def ofLines (lines : List String) : List Char :=
  lines.flatMap fun line => line.toList ++ ['\n']

def usageText : List Char :=
  ofLines
    ["usage: pkgbuild-convert [-h] [--output FILE] [--config FILE]",
      "                        [--config-dir DIR] [--no-color] [--no-format]",
      "                        [--no-fetch] [--strict] [--verbose] [--version]",
      "                        PKGBUILD"]

def helpText : List Char :=
  usageText ++ ofLines
    ["",
      "Convert a PKGBUILD file into a Chromebrew style recipe",
      "",
      "positional arguments:",
      "  PKGBUILD              PKGBUILD file to convert",
      "",
      "options:",
      "  -h, --help            show this help message and exit",
      "  --output FILE, -o FILE",
      "                        Output recipe file (default: converted.rb)",
      "  --config FILE, -c FILE",
      "                        Configuration file path (default: ~/.config/pkgbuild-",
      "                        convert/config.yaml)",
      "  --config-dir DIR      Drop-in configuration directory (default:",
      "                        ~/.config/pkgbuild-convert/conf.d/)",
      "  --no-color            Disable colors",
      "  --no-format           Do not run the formatter on the generated recipe",
      "  --no-fetch            Never download sources to compute a missing sha256",
      "                        checksum",
      "  --strict              Fail if the input ends inside an unterminated",
      "                        statement",
      "  --verbose, -v         Show debug messages",
      "  --version, -V         show program's version number and exit",
      "",
      "Example: pkgbuild-convert PKGBUILD -o foo.rb"]

structure Notice where
  code : Nat
  output : List Char := []
  complaint : List Char := []

def Stop.notice : Stop → Notice
  | help => { code := 0, output := helpText }
  | version => { code := 0, output := versionText }
  | fault f =>
      { code := 2
        complaint := usageText ++ programName ++ ": error: ".toList ++ f.message ++ ['\n'] }

end PkgRecipe.CommandLine
