import PkgRecipe.Proofs.Ruby.Integer
import PkgRecipe.Proofs.Ruby.Literal
import PkgRecipe.Proofs.Shell.AssociativeText
import PkgRecipe.Proofs.Shell.Resumed
import PkgRecipe.Recipe.Conversion

namespace PkgRecipe

namespace Shell

private theorem unquote_paren (text : List Char) :
    unquote ('(' :: text) = '(' :: valueFrom ⟨.normal, 1⟩ text := by
  have scanned : Quoting.initial.scan ['('] = ⟨.normal, 1⟩ := rfl
  rw [unquote_eq, ← List.singleton_append, valueFrom_append text (by rw [scanned]; decide) rfl]
  rfl

end Shell

namespace Ruby

def IsArrayOf (values : List (List Char)) (literal : List Char) : Prop :=
  ∀ rest, array? (literal ++ rest) = some (values.map (List.map .char), rest)

def IsStringOf (value literal : List Char) : Prop :=
  ∀ rest, string? (literal ++ rest) = some (value.map .char, rest)

end Ruby

namespace Recipe

open Shell

variable {name : List Char} {attributes : Attributes}

theorem literalOf_integer (integer : attributes.integer = true) {n : Int} {printed : List Char}
    (prints : Prints (Text.signedDecimal n) printed) :
    literalOf ⟨name, attributes, printed⟩ =
      if (Text.decimal n.natAbs).length ≤ Number.digitLimit then .ok (Text.signedDecimal n)
      else .error (.oversized (Text.decimal n.natAbs).length) := by
  have scalar : Declaration.scalar ⟨name, attributes, printed⟩ = Text.signedDecimal n :=
    prints.unquote_eq
  rw [literalOf, if_pos integer, scalar, Ruby.integer_signedDecimal]
  by_cases within : (Text.decimal n.natAbs).length ≤ Number.digitLimit
  · rw [if_pos within, if_pos within]
  · rw [if_neg within, if_neg within]

theorem literalOf_integerArray (integer : attributes.integer = true) (es : List PrintedEntry)
    (closing : List Char) :
    literalOf ⟨name, attributes, ArrayText.ofEntries (es.map (·.text)) closing⟩ = .ok ['0'] := by
  rw [literalOf, if_pos integer, Declaration.scalar, ArrayText.ofEntries, unquote_paren,
    Ruby.integer_paren]
  rfl

theorem literalOf_array (notInteger : attributes.integer = false)
    (isArray : attributes.isArray = true) {closing : List Char} (closed : '[' ∉ closing)
    (es : List PrintedEntry) :
    literalOf ⟨name, attributes, ArrayText.ofEntries (es.map (·.text)) closing⟩ =
      .ok (Ruby.array (es.map (·.value))) := by
  rw [literalOf, if_neg (by simp [notInteger]), if_pos isArray, Declaration.elements, isArray,
    Bool.true_or, if_pos rfl, PrintedEntry.elements_ofEntries closed]

theorem literalOf_string (notInteger : attributes.integer = false)
    (notArray : attributes.isArray = false) {text printed : List Char}
    (prints : Prints text printed) :
    literalOf ⟨name, attributes, printed⟩ = .ok (Ruby.string text) := by
  rw [literalOf, if_neg (by simp [notInteger]), if_neg (by simp [notArray]), Declaration.scalar,
    prints.unquote_eq]

/-- The whole value is kept, as it was printed, except for arrays of integers: the attribute of an
integer is looked at first, and what is then read from an array is zero. -/
theorem literalOf_printed (name : List Char) (attributes : Attributes) :
    (attributes.integer = false →
      (attributes.isArray = true →
        ∀ (es : List PrintedEntry) (closing : List Char), '[' ∉ closing →
          ∃ literal,
            literalOf ⟨name, attributes, ArrayText.ofEntries (es.map (·.text)) closing⟩ =
              .ok literal ∧
            Ruby.IsArrayOf (es.map (·.value)) literal) ∧
      (attributes.isArray = false → ∀ text printed : List Char, Prints text printed →
        ∃ literal, literalOf ⟨name, attributes, printed⟩ = .ok literal ∧
          Ruby.IsStringOf text literal)) ∧
    (attributes.integer = true →
      (∀ (n : Int) (printed : List Char), Prints (Text.signedDecimal n) printed →
        literalOf ⟨name, attributes, printed⟩ =
          if (Text.decimal n.natAbs).length ≤ Number.digitLimit then .ok (Text.signedDecimal n)
          else .error (.oversized (Text.decimal n.natAbs).length)) ∧
      ∀ (es : List PrintedEntry) (closing : List Char),
        literalOf ⟨name, attributes, ArrayText.ofEntries (es.map (·.text)) closing⟩ =
          .ok ['0']) := by
  constructor
  · intro notInteger
    constructor
    · intro isArray es closing closed
      exact ⟨_, literalOf_array notInteger isArray closed es, Ruby.array?_array _⟩
    · intro notArray text printed prints
      exact ⟨_, literalOf_string notInteger notArray prints, Ruby.string?_stringLiteral false text⟩
  · intro integer
    constructor
    · intro n printed prints
      exact literalOf_integer integer prints
    · intro es closing
      exact literalOf_integerArray integer es closing

theorem literalOf_printed_each :
    let literal (option value : List Char) := literalOf ⟨['n'], .ofOption option, value⟩
    let entries := "([7]=$'a\\n' [\"x][\"]=\"b\" )".toList
    (∃ array, literal ['-', 'A', 'x'] entries = .ok array ∧
        Ruby.IsArrayOf [['a', '\n'], ['b']] array) ∧
      (∃ string, literal ['-', 'r'] "\"(\\$x)\"".toList = .ok string ∧
        Ruby.IsStringOf "($x)".toList string) ∧
      literal ['-', 'i', 'x'] "\"-12\"".toList = .ok "-12".toList ∧
      literal ['-', 'a', 'i'] entries = .ok ['0'] := by
  intro literal entries
  have spelled : Prints ['a', '\n'] "$'a\\n'".toList :=
    .ansiQuoted (.cons (.kept (by decide)) (.cons (.named (by decide) rfl) .nil))
  have index : Unbroken ']' ['7'] := .plain (by decide) (by decide) .nil
  have reopens : Reopens "x][".toList := by
    simp [reopens_cons_iff, reopens_of_notMem]
  have number : Prints (Text.signedDecimal (-12)) "\"-12\"".toList := .doubleQuoted
  have string : Prints "($x)".toList "\"(\\$x)\"".toList := .doubleQuoted
  let es : List PrintedEntry := [⟨_, _, .indexed index spelled⟩, ⟨['b'], _, .keyed .quoted reopens⟩]
  have text : ArrayText.ofEntries (es.map (·.text)) [' ', ')'] = entries := rfl
  refine ⟨?_, ?_, ?_, ?_⟩
  · rw [← text]
    exact ((literalOf_printed ['n'] (.ofOption ['-', 'A', 'x'])).1 rfl).1 rfl es _ (by decide)
  · exact ((literalOf_printed ['n'] (.ofOption ['-', 'r'])).1 rfl).2 rfl _ _ string
  · exact ((literalOf_printed ['n'] (.ofOption ['-', 'i', 'x'])).2 rfl).1 (-12) _ number
  · rw [← text]
    exact ((literalOf_printed ['n'] (.ofOption ['-', 'a', 'i'])).2 rfl).2 es _

/-- The elements of an array of integers are lost. -/
theorem literalOf_printed_integers :
    let d : Declaration := ⟨['n'], .ofOption "-ai".toList, "([0]=\"1\" [1]=\"2\")".toList⟩
    Declaration.ofOutput "declare -ai n=([0]=\"1\" [1]=\"2\")\n".toList = .ok d ∧
      d.attributes.isArray = true ∧ d.elements = [['1'], ['2']] ∧ literalOf d = .ok ['0'] ∧
      Ruby.array? ['0'] = none := by
  intro d
  have zero : Unbroken ']' ['0'] := .plain (by decide) (by decide) .nil
  have one : Unbroken ']' ['1'] := .plain (by decide) (by decide) .nil
  let es : List PrintedEntry :=
    [⟨['1'], _, .indexed zero .doubleQuoted⟩, ⟨['2'], _, .indexed one .doubleQuoted⟩]
  have text : ArrayText.ofEntries (es.map (·.text)) [')'] = d.value := rfl
  refine ⟨by decide +kernel, rfl, ?_, ?_, rfl⟩
  · exact PrintedEntry.elements_ofEntries (by decide) es
  · exact literalOf_integerArray rfl es [')']

end Recipe

end PkgRecipe
