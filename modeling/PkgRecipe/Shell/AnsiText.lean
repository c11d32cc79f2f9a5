import PkgRecipe.Text.Numeral
import PkgRecipe.Text.Utf8

namespace PkgRecipe.Shell.AnsiText

/-! The text between `$'` and `'`. Its escapes stand for bytes, so that a character may be written
as the escapes of its UTF-8 bytes. -/

def named? : Char → Option Char
  | 'a' => some '\x07'
  | 'b' => some '\x08'
  | 'e' => some '\x1b'
  | 'E' => some '\x1b'
  | 'f' => some '\x0c'
  | 'n' => some '\n'
  | 'r' => some '\r'
  | 't' => some '\t'
  | 'v' => some '\x0b'
  | '\\' => some '\\'
  | '\'' => some '\''
  | '"' => some '"'
  | '?' => some '?'
  | _ => none

/-- The digits at the start of a text, at most `limit`. -/
def digitRun (isDigit : Char → Bool) (limit : Nat) (text : List Char) : List Char :=
  (text.take limit).takeWhile isDigit

/-- The bytes of a code point that an escape names; what names no character stays as written. -/
def codePointBytes (written : List Char) (code : Nat) : List UInt8 :=
  if code.isValidChar then Text.Utf8.encode [Char.ofNat code] else Text.Utf8.encode written

/-- The escape `\x`, `\u` or `\U` with its digits: its bytes, and how many digits it has. -/
def numericEscape? (letter : Char) (rest : List Char) : Option (List UInt8 × Nat) :=
  let read (limit : Nat) : Option (List Char) :=
    match digitRun Text.isHexDigit limit rest with
    | [] => none
    | digits => some digits
  match letter with
  | 'x' => (read 2).map fun digits =>
      ([UInt8.ofNat (Text.valueInBase 16 digits)], digits.length)
  | 'u' => (read 4).map fun digits =>
      (codePointBytes ('\\' :: 'u' :: digits) (Text.valueInBase 16 digits), digits.length)
  | 'U' => (read 8).map fun digits =>
      (codePointBytes ('\\' :: 'U' :: digits) (Text.valueInBase 16 digits), digits.length)
  | _ => none

/-- The escape that begins with a backslash and `letter`: its bytes, and how many characters after
the letter belong to it. -/
def escapeBytes (letter : Char) (rest : List Char) : List UInt8 × Nat :=
  match numericEscape? letter rest with
  | some escape => escape
  | none =>
      if Text.isOctalDigit letter then
        let digits := letter :: digitRun Text.isOctalDigit 2 rest
        ([UInt8.ofNat (Text.valueInBase 8 digits)], digits.length - 1)
      else
        match letter, rest with
        | 'c', control :: _ => ([UInt8.ofNat (control.toNat % 0x20)], 1)
        | _, _ =>
            match named? letter with
            | some c => (Text.Utf8.encode [c], 0)
            | none => (Text.Utf8.encode ['\\', letter], 0)

def bytes : List Char → List UInt8
  | [] => []
  | c :: rest =>
      if c = '\\' then
        match rest with
        | [] => Text.Utf8.encode ['\\']
        | letter :: after =>
            let (escaped, length) := escapeBytes letter after
            escaped ++ bytes (after.drop length)
      else Text.Utf8.encode [c] ++ bytes rest
termination_by text => text.length
decreasing_by
  all_goals simp only [List.length_cons, List.length_drop]; omega

def decode (body : List Char) : List Char :=
  Text.Utf8.decodeLossy (bytes body)

end PkgRecipe.Shell.AnsiText
