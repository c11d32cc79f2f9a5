namespace PkgRecipe.Shell

inductive CommandFault where
  | openQuotation
  | danglingEscape
deriving DecidableEq, Repr

def CommandFault.message : CommandFault → List Char
  | .openQuotation => "No closing quotation".toList
  | .danglingEscape => "No escaped character".toList

inductive CommandPlace where
  | gap
  | word
  | escape
  | singleQuote
  | doubleQuote
  | doubleQuoteEscape
deriving DecidableEq, Repr

def isCommandBlank (c : Char) : Bool :=
  c = ' ' || c = '\t' || c = '\r' || c = '\n'

/-- The place after a character outside quotes, and whether the character belongs to the word. -/
def commandStep (c : Char) : CommandPlace × List Char :=
  if c = '\\' then (.escape, [])
  else if c = '\'' then (.singleQuote, [])
  else if c = '"' then (.doubleQuote, [])
  else (.word, [c])

/-- The words of a command that follow a place; `word` is the word begun, last character first. -/
def commandWordsFrom (place : CommandPlace) (word : List Char) :
    List Char → Except CommandFault (List (List Char))
  | [] =>
      match place with
      | .gap => .ok []
      | .word => .ok [word.reverse]
      | .escape | .doubleQuoteEscape => .error .danglingEscape
      | .singleQuote | .doubleQuote => .error .openQuotation
  | c :: rest =>
      match place with
      | .gap | .word =>
          if isCommandBlank c then
            match place with
            | .word => (commandWordsFrom .gap [] rest).map (word.reverse :: ·)
            | _ => commandWordsFrom .gap [] rest
          else
            let (next, read) := commandStep c
            commandWordsFrom next (read ++ word) rest
      | .escape => commandWordsFrom .word (c :: word) rest
      | .singleQuote =>
          if c = '\'' then commandWordsFrom .word word rest
          else commandWordsFrom .singleQuote (c :: word) rest
      | .doubleQuote =>
          if c = '"' then commandWordsFrom .word word rest
          else if c = '\\' then commandWordsFrom .doubleQuoteEscape word rest
          else commandWordsFrom .doubleQuote (c :: word) rest
      | .doubleQuoteEscape =>
          -- Inside double quotes a backslash escapes only a backslash and a double quote.
          if c = '"' ∨ c = '\\' then commandWordsFrom .doubleQuote (c :: word) rest
          else commandWordsFrom .doubleQuote (c :: '\\' :: word) rest

/-- The words of a command: quotes and backslashes keep blanks in a word. -/
def commandWords (command : List Char) : Except CommandFault (List (List Char)) :=
  commandWordsFrom .gap [] command

end PkgRecipe.Shell
