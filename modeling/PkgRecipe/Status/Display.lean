import PkgRecipe.Outside
import PkgRecipe.Status.Style

namespace PkgRecipe.Status

def styles (theme : Table (List Char)) : Table (List Char) :=
  theme.map fun (level, description) => (level, (Style.ofText description).text)

/-- A message in a style as a terminal shows it, unless it cannot show it. -/
abbrev Terminal := (style message : List Char) → Except Failure (List Char)

structure Display where
  /-- Whether styles are used. -/
  color : Bool
  styles : Table (List Char)
  terminal : Terminal

namespace Display

def line (d : Display) (level message : List Char) : Except Failure (List Char) :=
  if d.color then d.terminal ((d.styles.lookup level).getD []) message
  else .ok (message ++ ['\n'])

def callback (d : Display) : StatusCallback := fun level message =>
  (d.line level message).map fun _ => ()

end Display

def levelName : LogLevel → List Char
  | .debug => "DEBUG".toList
  | .info => "INFO".toList
  | .warning => "WARNING".toList

def logLine (level : LogLevel) (message : List Char) : List Char :=
  levelName level ++ ": ".toList ++ message

/-- An event as it is shown. Only warnings are shown of the log, unless all of it is asked for. -/
def Display.event (d : Display) (verbose : Bool) : Event → List Char
  | .log level message =>
      if verbose || level = .warning then logLine level message ++ ['\n'] else []
  | .status level message => (d.line level message).toOption.getD []

end PkgRecipe.Status
