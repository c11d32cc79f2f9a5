import PkgRecipe.Number.Range
import PkgRecipe.Settings.IntegerText
import PkgRecipe.Table
import PkgRecipe.Text.Utf8

namespace PkgRecipe.Settings

/-! Single values of settings. Some kinds of data are taken for others: bytes for a text, a number or
a word for a truth value, a text for an integer. -/

def ofBytes {α : Type} (undecodable : Defect) (read : List Char → Checked α) (bytes : List UInt8) :
    Checked α :=
  match Text.Utf8.decode bytes with
  | .ok t => read t
  | .error _ => .fail undecodable

def text : Data → Checked (List Char)
  | .scalar (.text t) => .valid t
  | .scalar (.bytes b) => ofBytes .undecodableText .valid b
  | _ => .fail .notText

def trueWords : List (List Char) :=
  ["1", "on", "t", "true", "y", "yes"].map String.toList

def falseWords : List (List Char) :=
  ["0", "off", "f", "false", "n", "no"].map String.toList

def truthOfWord (word : List Char) : Checked Bool :=
  let small := word.map Char.toLower
  if trueWords.contains small then .valid true
  else if falseWords.contains small then .valid false
  else .fail .unreadableTruthValue

/-- The truth value of an integer. One that is too great counts as another kind of data. -/
def truthOfInteger (fits : Bool) (n : Int) : Checked Bool :=
  if !fits then .fail .notTruthValue
  else if n = 0 then .valid false
  else if n = 1 then .valid true
  else .fail .unreadableTruthValue

def truthValue : Data → Checked Bool
  | .scalar (.bool b) => .valid b
  | .scalar (.int n) => truthOfInteger (Number.fits n) n
  | .scalar (.float x) =>
      match (Binary.ofFloat? x).bind (·.integer?) with
      | some n => truthOfInteger (Number.fitsInside n) n
      | none => .fail .notTruthValue
  | .scalar (.text t) => truthOfWord t
  | .scalar (.bytes b) => ofBytes .unreadableTruthValue truthOfWord b
  | _ => .fail .notTruthValue

def integerOfText (t : List Char) : Checked Int :=
  match IntegerText.value t with
  | .ok n => .valid n
  | .error defect => .fail defect

def integer : Data → Checked Int
  | .scalar (.bool b) => .valid (if b then 1 else 0)
  | .scalar (.int n) => .valid n
  | .scalar (.float x) =>
      match Binary.ofFloat? x with
      | none => .fail .notFinite
      | some b =>
          match b.integer? with
          | some n => if Number.fitsInside n then .valid n else .fail .oversizedInteger
          | none => .fail .fractional
  | .scalar (.text t) => integerOfText t
  | .scalar (.bytes b) => ofBytes .unreadableInteger integerOfText b
  | _ => .fail .notInteger

def positiveInteger (data : Data) : Checked Int :=
  (integer data).andThen fun n => if 0 < n then .valid n else .fail .notPositive

/-- The name of a key in a place. A truth value counts as zero or one. -/
def keyName : Scalar → List Char
  | .text t => t
  | .bool b => if b then ['1'] else ['0']
  | .int n => if Number.isWritable n then Text.signedDecimal n else "<unprintable int object>".toList
  | key => Data.scalarText key

def tableEntry (entry : Scalar × Data) : Checked (List Char × List Char) :=
  let key : Checked (List Char) := (text (.scalar entry.1)).inside "[key]".toList
  (Prod.mk <$> key <*> text entry.2).inside (keyName entry.1)

def textTable : Data → Checked (Table (List Char))
  | .mapping entries => Table.ofEntries <$> Checked.all (entries.map tableEntry)
  | _ => .fail .notMapping

end PkgRecipe.Settings
