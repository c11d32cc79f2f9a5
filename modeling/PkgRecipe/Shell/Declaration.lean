import PkgRecipe.Shell.ArrayText
import PkgRecipe.Shell.Token
import PkgRecipe.Text.Search

namespace PkgRecipe.Shell

structure Attributes where
  integer : Bool := false
  array : Bool := false
  associative : Bool := false
  exported : Bool := false
  readonly : Bool := false
deriving DecidableEq, Repr

namespace Attributes

/-- The attributes that an option word such as `-ax` names. -/
def ofOption (option : List Char) : Attributes where
  integer := option.contains 'i'
  array := option.contains 'a'
  associative := option.contains 'A'
  exported := option.contains 'x'
  readonly := option.contains 'r'

def isArray (a : Attributes) : Bool :=
  a.array || a.associative

end Attributes

structure Declaration where
  name : List Char
  attributes : Attributes
  /-- The value with its quoting. -/
  value : List Char
deriving DecidableEq, Repr

namespace Declaration

def scalar (d : Declaration) : List Char :=
  unquote d.value

/-- The elements of an array; a scalar is its own only element. -/
def elements (d : Declaration) : List (List Char) :=
  if d.attributes.isArray || ArrayText.isParenthesised d.value then ArrayText.elements d.value
  else [d.scalar]

def ofLine? (line : List Char) : Option Declaration :=
  match tokensFrom .initial 3 line with
  | [_, option, expression] =>
      let (name, value) := (Text.cutAt? ['='] expression.raw).getD (expression.raw, [])
      some ⟨name, .ofOption option.raw, value⟩
  | _ => none

def fromDeclare? (output : List Char) : Option (List Char) :=
  if "declare ".toList.isPrefixOf output then some output
  else (Text.fromFirst? "\ndeclare ".toList output).map List.tail

def withoutLineEnd (text : List Char) : List Char :=
  if text.getLast? = some '\n' then text.dropLast else text

def ofOutput (output : List Char) : Except (List Char) Declaration :=
  match fromDeclare? output with
  | none => .error output
  | some rest =>
      let line := withoutLineEnd rest
      match ofLine? line with
      | some d => .ok d
      | none => .error line

end Declaration

end PkgRecipe.Shell
