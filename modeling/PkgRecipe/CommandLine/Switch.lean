namespace PkgRecipe.CommandLine

inductive Switch where
  | help
  | output
  | config
  | configDirectory
  | noColor
  | noFormat
  | noFetch
  | strict
  | verbose
  | version
deriving DecidableEq, Repr

namespace Switch

def all : List Switch :=
  [help, output, config, configDirectory, noColor, noFormat, noFetch, strict, verbose, version]

def spellings (s : Switch) : List (List Char) :=
  (match s with
    | help => ["-h", "--help"]
    | output => ["--output", "-o"]
    | config => ["--config", "-c"]
    | configDirectory => ["--config-dir"]
    | noColor => ["--no-color"]
    | noFormat => ["--no-format"]
    | noFetch => ["--no-fetch"]
    | strict => ["--strict"]
    | verbose => ["--verbose", "-v"]
    | version => ["--version", "-V"]).map String.toList

def takesValue : Switch → Bool
  | output | config | configDirectory => true
  | _ => false

/-- All spellings, in the order in which messages name them. -/
def spelled : List (List Char × Switch) :=
  all.flatMap fun s => s.spellings.map (·, s)

def ofSpelling? (spelling : List Char) : Option Switch :=
  spelled.lookup spelling

def title (s : Switch) : List Char :=
  ['/'].intercalate s.spellings

end Switch

end PkgRecipe.CommandLine
