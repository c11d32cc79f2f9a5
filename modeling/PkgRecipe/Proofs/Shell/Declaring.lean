import Mathlib.Data.List.TakeWhile
import PkgRecipe.Proofs.Shell.AssociativeText
import PkgRecipe.Shell.Declaration
import PkgRecipe.Shell.Name
import PkgRecipe.Text.WordChar

namespace PkgRecipe.Shell

def IsPlain (c : Char) : Prop :=
  Quoting.initial.step c = (.initial, .literal)

instance (c : Char) : Decidable (IsPlain c) :=
  inferInstanceAs (Decidable (_ = _))

private theorem pieces_plain {word : List Char} (plain : ∀ c ∈ word, IsPlain c) (cuts : Nat)
    (rest : List Char) :
    pieces (some (cuts + 1)) .initial (word ++ ' ' :: rest) =
      ⟨.initial, word⟩ :: pieces (some cuts) .initial rest := by
  induction word with
  | nil => rfl
  | cons c word ih =>
      have stays : Quoting.initial.step c = (.initial, .literal) := plain c (by simp)
      have later := ih fun d member => plain d (List.mem_cons_of_mem _ member)
      rw [List.cons_append, pieces_cons, Quoting.next, stays]
      simp only [cutsBehind?_of_ne (show Role.literal ≠ .separator by decide), later, consPiece]

theorem isPlain_of_isWordChar {c : Char} (word : Text.isWordChar c = true) : IsPlain c := by
  have differs (special : Char) (other : Text.isWordChar special = false) : c ≠ special := by
    rintro rfl
    rw [word] at other
    contradiction
  simp [IsPlain, Quoting.step, Quoting.initial, Quoting.stepPlain, differs '"' (by decide),
    differs '\'' (by decide), differs '\\' (by decide), differs '$' (by decide),
    differs ' ' (by decide), differs '(' (by decide), differs ')' (by decide)]

theorem isNameChar_of_mem {name : List Char} (named : isName name = true) {c : Char}
    (member : c ∈ name) : isNameChar c = true := by
  cases name with
  | nil => simp at member
  | cons first rest =>
      rw [isName, leadingName?] at named
      by_cases starts : isNameStart first = true
      · have nothing : rest.dropWhile isNameChar = [] := by
          rw [if_pos starts] at named
          split at named
          · rename_i same
            exact (Prod.mk.inj (Option.some.inj same)).2
          · contradiction
        rcases List.mem_cons.1 member with rfl | later
        · simp only [isNameStart, isNameChar, Bool.or_eq_true, Char.isAlphanum] at starts ⊢
          exact starts.imp Or.inl id
        · exact List.dropWhile_eq_nil_iff.1 nothing c later
      · simp [starts] at named

/-- Output in front of a declaration: whole lines none of which begins a declaration. -/
structure IsPreamble (text : List Char) : Prop where
  wholeLines : text = [] ∨ text.getLast? = some '\n'
  notFirst : ¬ "declare ".toList <+: text
  notLater : ¬ "\ndeclare ".toList <:+: text

/-- The words by which the shell names the attributes of a variable. -/
def IsOptionWord (option : List Char) : Prop :=
  ∀ c ∈ option, c = '-' ∨ Text.isWordChar c = true

theorem IsOptionWord.isPlain {option : List Char} (isOption : IsOptionWord option) :
    ∀ c ∈ option, IsPlain c := by
  intro c member
  rcases isOption c member with rfl | word
  · decide
  · exact isPlain_of_isWordChar word

def declareLine (option name value : List Char) : List Char :=
  "declare ".toList ++ (option ++ ' ' :: (name ++ '=' :: value))

namespace Declaration

theorem fromDeclare?_append {preamble : List Char} (isPreamble : IsPreamble preamble)
    (line : List Char) :
    fromDeclare? (preamble ++ ("declare ".toList ++ line)) = some ("declare ".toList ++ line) := by
  have noLineEnd : '\n' ∉ "declare ".toList := by decide
  rcases isPreamble.wholeLines with rfl | ended
  · rw [List.nil_append, fromDeclare?, if_pos]
    exact List.isPrefixOf_iff_prefix.2 (List.prefix_append _ _)
  · obtain ⟨body, rfl⟩ := List.getLast?_eq_some_iff.1 ended
    have notFirst : ¬ "declare ".toList <+: body ++ ['\n'] ++ ("declare ".toList ++ line) := by
      intro present
      rcases List.prefix_or_prefix_of_prefix present (List.prefix_append _ _) with within | around
      · exact isPreamble.notFirst within
      · exact noLineEnd (around.subset (by simp))
    -- An earlier declaration lies within the preamble or reaches over its last line end.
    have notEarlier (first last : List Char) (split : body = first ++ last) (notEmpty : last ≠ []) :
        ¬ "\ndeclare ".toList <+: last ++ ("\ndeclare ".toList ++ line) := by
      intro present
      have ends : last ++ ['\n'] <+: last ++ ("\ndeclare ".toList ++ line) :=
        List.prefix_append_right_inj _ |>.2 (List.prefix_append ['\n'] ("declare ".toList ++ line))
      rcases List.prefix_or_prefix_of_prefix present ends with within | around
      · apply isPreamble.notLater
        rw [split, List.append_assoc]
        exact within.isInfix.trans (List.suffix_append _ _).isInfix
      · obtain ⟨c, last, rfl⟩ := List.exists_cons_of_ne_nil notEmpty
        have tail : last ++ ['\n'] <+: "declare ".toList := (List.cons_prefix_cons.1 around).2
        exact noLineEnd (tail.subset (by simp))
    have located : Text.fromFirst? "\ndeclare ".toList
        (body ++ ['\n'] ++ ("declare ".toList ++ line)) =
          some ("\ndeclare ".toList ++ line) := by
      rw [List.append_assoc]
      exact Text.fromFirst?_append (List.prefix_append _ _) notEarlier
    rw [fromDeclare?, if_neg (by simpa using notFirst), located]
    rfl

theorem withoutLineEnd_concat (line : List Char) : withoutLineEnd (line ++ ['\n']) = line := by
  simp [withoutLineEnd]

theorem ofLine?_declareLine {option name : List Char} (isOption : IsOptionWord option)
    (named : isName name = true) (value : List Char) :
    ofLine? (declareLine option name value) = some ⟨name, .ofOption option, value⟩ := by
  have absent : '=' ∉ name := fun member => absurd (isNameChar_of_mem named member) (by decide)
  obtain ⟨keyword, cut⟩ : ∃ keyword, pieces (some 2) .initial (declareLine option name value) =
      [keyword, ⟨.initial, option⟩, ⟨.initial, name ++ '=' :: value⟩] := by
    have checked : "declare".toList.all (fun c => decide (IsPlain c)) = true := by decide
    have word : ∀ c ∈ "declare".toList, IsPlain c := fun c member =>
      of_decide_eq_true (List.all_eq_true.1 checked c member)
    have first := pieces_plain word 1 (option ++ ' ' :: (name ++ '=' :: value))
    rw [pieces_plain isOption.isPlain, pieces_some_zero] at first
    exact ⟨_, first⟩
  have limited : cutsFor 3 = some 2 := rfl
  have nonempty : declareLine option name value ≠ [] := List.cons_ne_nil _ _
  simp only [ofLine?, tokensFrom, if_neg nonempty, limited, cut, tokensOf,
    Text.cutAt?_of_notMem absent, Option.getD_some]

theorem ofOutput_declareLine {preamble option name : List Char} (isPreamble : IsPreamble preamble)
    (isOption : IsOptionWord option) (named : isName name = true) (value : List Char) :
    ofOutput (preamble ++ (declareLine option name value ++ ['\n'])) =
      .ok ⟨name, .ofOption option, value⟩ := by
  have begun : fromDeclare? (preamble ++ (declareLine option name value ++ ['\n'])) =
      some (declareLine option name value ++ ['\n']) := by
    unfold declareLine
    rw [List.append_assoc]
    exact fromDeclare?_append isPreamble _
  simp only [ofOutput, begun, withoutLineEnd_concat, ofLine?_declareLine isOption named]

private theorem elements_of_prints {text printed : List Char} (prints : Prints text printed)
    {attributes : Attributes} (notArray : attributes.isArray = false) (name : List Char) :
    elements ⟨name, attributes, printed⟩ = [text] := by
  rw [elements, notArray, prints.isParenthesised_eq, if_neg (by decide), scalar, prints.unquote_eq]

private theorem elements_ofEntries (name : List Char) (attributes : Attributes) (es : List PrintedEntry) :
    elements ⟨name, attributes, ArrayText.ofEntries (es.map (·.text)) [')']⟩ = es.map (·.value) := by
  rw [elements, ArrayText.isParenthesised_ofEntries, Bool.or_true, if_pos rfl,
    PrintedEntry.elements_ofEntries (by decide)]

private theorem isArray_ofOption {option : List Char} (notIndexed : 'a' ∉ option)
    (notAssociative : 'A' ∉ option) : (Attributes.ofOption option).isArray = false := by
  simp [Attributes.ofOption, Attributes.isArray, notIndexed, notAssociative]

/-- What the shell prints about a variable is read back from its output: a scalar in either of the
two quotings, and an array whose entries have any indices, or keys that reopen, and quotings. -/
theorem ofOutput_printed {preamble option name : List Char} (isPreamble : IsPreamble preamble)
    (isOption : IsOptionWord option) (named : isName name = true) :
    (∀ text printed, Prints text printed →
      ∃ d, ofOutput (preamble ++ (declareLine option name printed ++ ['\n'])) = .ok d ∧
        d.name = name ∧ d.attributes = .ofOption option ∧ d.value = printed ∧ d.scalar = text ∧
        ('a' ∉ option → 'A' ∉ option → d.elements = [text])) ∧
    ∀ es : List PrintedEntry,
      let printed := ArrayText.ofEntries (es.map (·.text)) [')']
      ∃ d, ofOutput (preamble ++ (declareLine option name printed ++ ['\n'])) = .ok d ∧
        d.name = name ∧ d.attributes = .ofOption option ∧ d.value = printed ∧
        d.elements = es.map (·.value) := by
  have read := ofOutput_declareLine isPreamble isOption named
  constructor
  · intro text printed prints
    refine ⟨_, read printed, rfl, rfl, rfl, prints.unquote_eq, ?_⟩
    intro notIndexed notAssociative
    exact elements_of_prints prints (isArray_ofOption notIndexed notAssociative) name
  · intro es printed
    exact ⟨_, read _, rfl, rfl, rfl, elements_ofEntries name (.ofOption option) es⟩

theorem ofOutput_printed_octal :
    let preamble := "note: declare x\n declare y\n".toList
    let text := ['é', '\n']
    let printed := ['$', '\'', '\\', '3', '0', '3', '\\', '2', '5', '1', '\\', 'n', '\'']
    IsPreamble preamble ∧ IsOptionWord ['-', 'x'] ∧ isName ['v'] = true ∧
      Prints text printed ∧
      ∃ d, ofOutput (preamble ++ (declareLine ['-', 'x'] ['v'] printed ++ ['\n'])) = .ok d ∧
        d.attributes.exported = true ∧ d.scalar = text ∧ d.elements = [text] := by
  intro preamble text printed
  have isPreamble : IsPreamble preamble :=
    ⟨by decide +kernel, by decide +kernel, by decide +kernel⟩
  have isOption : IsOptionWord ['-', 'x'] := by
    intro c member
    obtain rfl | rfl : c = '-' ∨ c = 'x' := by simpa using member
    · exact Or.inl rfl
    · exact Or.inr (by decide)
  have named : isName ['v'] = true := by decide
  have octal : (String.utf8EncodeChar 'é').flatMap AnsiText.octalEscape =
      ['\\', '3', '0', '3', '\\', '2', '5', '1'] := by decide +kernel
  have spells : AnsiText.SpellsText text
      ((String.utf8EncodeChar 'é').flatMap AnsiText.octalEscape ++ ['\\', 'n']) :=
    .cons (.octal (by decide)) (.cons (.named (by decide) rfl) .nil)
  rw [octal] at spells
  have prints : Prints text printed := .ansiQuoted spells
  obtain ⟨d, read, -, attributes, -, value, elements⟩ :=
    (ofOutput_printed isPreamble isOption named).1 text printed prints
  refine ⟨isPreamble, isOption, named, prints, d, read, ?_, value, ?_⟩
  · rw [attributes]
    rfl
  · exact elements (by decide) (by decide)

end Declaration

end PkgRecipe.Shell
