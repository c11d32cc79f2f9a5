import PkgRecipe.Proofs.Recipe.Processes
import PkgRecipe.Proofs.Shell.FirstLine

namespace PkgRecipe.Shell

/-! The variable that an assignment sets. What tells that a statement is an assignment, the first
line of its first word, and what names the variable, a whole word, speak of the same name. -/

def BeginsWithName (word name : List Char) : Prop :=
  isName name = true ∧ ∃ rest, word = name ++ rest ∧ ∀ c ∈ rest.head?, isNameChar c = false

theorem append_of_leadingName? {word name rest : List Char}
    (leading : leadingName? word = some (name, rest)) :
    word = name ++ rest ∧ ∀ c ∈ rest.head?, isNameChar c = false := by
  cases word with
  | nil => contradiction
  | cons c word =>
      rw [leadingName?] at leading
      split at leading
      · obtain ⟨rfl, rfl⟩ := Prod.mk.inj (Option.some.inj leading)
        refine ⟨?_, ?_⟩
        · rw [List.cons_append, List.takeWhile_append_dropWhile]
        · intro d first
          have stops := List.head?_dropWhile_not isNameChar word
          rw [first] at stops
          exact stops
      · contradiction

private theorem leadingName?_of_isName {name : List Char} (named : isName name = true) :
    leadingName? name = some (name, []) := by
  rw [isName] at named
  split at named
  · rename_i leading
    obtain ⟨rfl, -⟩ := append_of_leadingName? leading
    rwa [List.append_nil] at leading ⊢
  · contradiction

theorem leadingName?_append {name rest : List Char} (named : isName name = true)
    (ends : ∀ c ∈ rest.head?, isNameChar c = false) :
    leadingName? (name ++ rest) = some (name, rest) := by
  have whole := leadingName?_of_isName named
  cases name with
  | nil => contradiction
  | cons c name =>
      rw [leadingName?] at whole
      split at whole
      · rename_i starts
        have parts : ∀ d ∈ name, isNameChar d = true := fun d member =>
          isNameChar_of_mem named (List.mem_cons_of_mem c member)
        have nameless : rest.takeWhile isNameChar = [] ∧ rest.dropWhile isNameChar = rest := by
          cases rest with
          | nil => exact ⟨rfl, rfl⟩
          | cons d rest =>
              have stops := ends d rfl
              simp [stops]
        rw [List.cons_append, leadingName?, if_pos starts, List.takeWhile_append_of_pos parts,
          List.dropWhile_append_of_pos parts, nameless.1, nameless.2, List.append_nil]
      · contradiction

theorem beginsWithName_iff {word name : List Char} :
    BeginsWithName word name ↔ (leadingName? word).map (·.1) = some name := by
  constructor
  · rintro ⟨named, rest, rfl, ends⟩
    rw [leadingName?_append named ends]
    rfl
  · intro leading
    obtain ⟨⟨name', rest⟩, found, same⟩ := Option.map_eq_some_iff.1 leading
    obtain rfl : name' = name := same
    obtain ⟨whole, ends⟩ := append_of_leadingName? found
    exact ⟨isName_of_leadingName? found, rest, whole, ends⟩

theorem leadingName?_eq_none_iff {word : List Char} :
    leadingName? word = none ↔ ∀ c ∈ word.head?, isNameStart c = false := by
  cases word with
  | nil => simp [leadingName?]
  | cons c word => simp [leadingName?]

def IsIndex (text : List Char) : Prop :=
  text = [] ∨ ∃ key, ']' ∉ key ∧ text = '[' :: (key ++ [']'])

/-- A word is a name, perhaps an index in square brackets, perhaps a plus sign, an equals sign and
anything behind it. -/
def AssignsTo (word name : List Char) : Prop :=
  isName name = true ∧ ∃ index sign rest, IsIndex index ∧ (sign = [] ∨ sign = ['+']) ∧
    word = name ++ (index ++ (sign ++ '=' :: rest))

theorem AssignsTo.append {word name : List Char} (assigns : AssignsTo word name)
    (behind : List Char) : AssignsTo (word ++ behind) name := by
  obtain ⟨named, index, sign, rest, isIndex, isSign, rfl⟩ := assigns
  refine ⟨named, index, sign, rest ++ behind, isIndex, isSign, ?_⟩
  simp only [List.append_assoc, List.cons_append]

theorem AssignsTo.beginsWithName {word name : List Char} (assigns : AssignsTo word name) :
    BeginsWithName word name := by
  obtain ⟨named, index, sign, rest, isIndex, isSign, rfl⟩ := assigns
  refine ⟨named, index ++ (sign ++ '=' :: rest), rfl, ?_⟩
  rcases isIndex with rfl | ⟨key, -, rfl⟩
  · rcases isSign with rfl | rfl
    · rintro c ⟨⟩
      rfl
    · rintro c ⟨⟩
      rfl
  · rintro c ⟨⟩
    rfl

private theorem exists_isIndex {behind after : List Char} (nonempty : after ≠ [])
    (found : (match behind with
      | '[' :: index => (index.dropWhile (· ≠ ']')).tail
      | _ => behind) = after) : ∃ index, IsIndex index ∧ behind = index ++ after := by
  split at found
  · rename_i index
    have whole := List.takeWhile_append_dropWhile (p := (· ≠ ']')) (l := index)
    have stops := List.head?_dropWhile_not (· ≠ ']') index
    cases closes : index.dropWhile (· ≠ ']') with
    | nil =>
        rw [closes] at found
        exact absurd found.symm nonempty
    | cons c rest =>
        rw [closes] at found whole stops
        obtain rfl : rest = after := found
        obtain rfl : c = ']' := by simpa using stops
        refine ⟨'[' :: (index.takeWhile (· ≠ ']') ++ [']']), .inr ⟨_, ?_, rfl⟩, ?_⟩
        · intro member
          simpa using List.mem_takeWhile_imp member
        · simpa using whole.symm
  · exact ⟨[], .inl rfl, found⟩

private theorem exists_assignsTo {word : List Char} (begins : beginsAssignment word = true) :
    ∃ name, AssignsTo word name := by
  unfold beginsAssignment at begins
  split at begins
  · contradiction
  · rename_i name behind leading
    obtain ⟨rfl, -⟩ := append_of_leadingName? leading
    refine ⟨name, isName_of_leadingName? leading, ?_⟩
    dsimp only at begins
    split at begins
    · rename_i rest found
      obtain ⟨index, isIndex, rfl⟩ := exists_isIndex (List.cons_ne_nil _ _) found
      exact ⟨index, [], rest, isIndex, .inl rfl, rfl⟩
    · rename_i rest found
      obtain ⟨index, isIndex, rfl⟩ := exists_isIndex (List.cons_ne_nil _ _) found
      exact ⟨index, ['+'], rest, isIndex, .inr rfl, rfl⟩
    · contradiction

theorem Classifier.of_kind_assignment {c : Classifier} {s : Statement}
    (assigns : c.kind s = .assignment) :
    s.head ≠ [] ∧ (s.head ∈ declarationKeywords ∨ ∃ name, AssignsTo s.head name) := by
  unfold kind at assigns
  dsimp only at assigns
  split at assigns
  · contradiction
  · rename_i notComment
    refine ⟨fun empty => notComment (.inl empty), ?_⟩
    split at assigns
    · rename_i isAssignment
      exact isAssignment.imp List.contains_iff_mem.1 exists_assignsTo
    · repeat' split at assigns
      all_goals contradiction

/-- The words behind a declaring command that name no variable. -/
def IsPassedOver (word : List Char) : Prop :=
  word = [] ∨ word.head? = some '-'

def FirstTarget (words : List (List Char)) (word : List Char) : Prop :=
  ¬ IsPassedOver word ∧
    ∃ front back, words = front ++ word :: back ∧ ∀ other ∈ front, IsPassedOver other

theorem firstTarget_iff {words : List (List Char)} {word : List Char} :
    FirstTarget words word ↔
      words.find? (fun word => word ≠ [] && word.head? ≠ some '-') = some word := by
  rw [List.find?_eq_some_iff_append]
  simp [FirstTarget, IsPassedOver, imp_iff_not_or]

namespace Statement

variable {s : Statement}

/-- In a closed text something is open in front of each line end, so that a head behind which
nothing is open is a whole word. -/
private theorem map_raw_of_head (closed : ClosedText s.text) (headed : s.head ≠ [])
    (ends : (Quoting.initial.scan s.head).isOpen = false) :
    ∃ later, s.tokens.map Token.raw = s.head :: later := by
  obtain ⟨raw, later, words⟩ := exists_map_raw headed
  obtain ⟨same, first⟩ := head_of_map_raw words
  rcases eq_firstLine_or raw with whole | ⟨rest, whole⟩
  · refine ⟨later, ?_⟩
    rw [words, same, ← whole]
  · obtain ⟨behind, split⟩ := first
    rw [whole, ← same, List.append_assoc, List.cons_append] at split
    rw [closed.waits _ _ split.symm] at ends
    contradiction

theorem assignedName?_of_keyword {keyword : List Char} {later : List (List Char)}
    (words : s.tokens.map Token.raw = keyword :: later)
    (isKeyword : keyword ∈ declarationKeywords) :
    s.assignedName? =
      (later.find? fun word => word ≠ [] && word.head? ≠ some '-').bind fun word =>
        (leadingName? word).map (·.1) := by
  rw [assignedName?, assignedWord, words]
  simp only [List.contains_iff_mem.2 isKeyword, if_true]
  cases later.find? fun word => word ≠ [] && word.head? ≠ some '-' with
  | none => rfl
  | some word => rfl

private theorem assignedName?_of_notKeyword {raw : List Char} {later : List (List Char)}
    (words : s.tokens.map Token.raw = raw :: later) (notKeyword : raw ∉ declarationKeywords) :
    s.assignedName? = (leadingName? raw).map (·.1) := by
  have absent : declarationKeywords.contains raw = false := by
    simpa using notKeyword
  rw [assignedName?, assignedWord, words]
  simp only [absent, Bool.false_eq_true, if_false]

theorem assignedName?_eq_some_iff {keyword : List Char} {later : List (List Char)}
    (words : s.tokens.map Token.raw = keyword :: later)
    (isKeyword : keyword ∈ declarationKeywords) {name : List Char} :
    s.assignedName? = some name ↔
      ∃ word, FirstTarget later word ∧ BeginsWithName word name := by
  rw [assignedName?_of_keyword words isKeyword, Option.bind_eq_some_iff]
  simp only [firstTarget_iff, beginsWithName_iff]

theorem assignedName?_eq_none_iff {keyword : List Char} {later : List (List Char)}
    (words : s.tokens.map Token.raw = keyword :: later)
    (isKeyword : keyword ∈ declarationKeywords) :
    s.assignedName? = none ↔ (¬ ∃ word, FirstTarget later word) ∨
      ∃ word, FirstTarget later word ∧ ∀ c ∈ word.head?, isNameStart c = false := by
  rw [assignedName?_of_keyword words isKeyword]
  simp only [firstTarget_iff]
  cases later.find? fun word => word ≠ [] && word.head? ≠ some '-' with
  | none => simp
  | some word =>
      have nameless := @leadingName?_eq_none_iff word
      simpa using nameless

private theorem assignedName?_of_assignsTo {name : List Char} (notKeyword : s.head ∉ declarationKeywords)
    (assigns : AssignsTo s.head name) : s.assignedName? = some name := by
  have headed : s.head ≠ [] := by
    obtain ⟨-, index, sign, rest, -, -, whole⟩ := assigns
    rw [whole]
    simp
  obtain ⟨raw, later, words⟩ := exists_map_raw headed
  obtain ⟨same, -⟩ := head_of_map_raw words
  have named : BeginsWithName raw name := by
    rw [same] at assigns
    rcases eq_firstLine_or raw with whole | ⟨rest, whole⟩
    · rw [whole]
      exact assigns.beginsWithName
    · rw [whole]
      exact (assigns.append _).beginsWithName
  have notKeyword' : raw ∉ declarationKeywords := by
    intro isKeyword
    have oneLine : ∀ keyword ∈ declarationKeywords, firstLine keyword = keyword := by decide
    rw [same, oneLine raw isKeyword] at notKeyword
    exact notKeyword isKeyword
  rw [assignedName?_of_notKeyword words notKeyword']
  exact beginsWithName_iff.1 named

theorem script_of_local (isLocal : s.head = "local".toList) :
    ∃ rest, s.text = "local".toList ++ rest ∧ ∀ name, s.script name =
      withoutExpansions ("declare".toList ++ rest) ++ "\ndeclare -p ".toList ++ name := by
  obtain ⟨rest, whole⟩ := head_prefix_text s
  rw [isLocal] at whole
  refine ⟨rest, whole.symm, fun name => ?_⟩
  rw [script, globalText, if_pos isLocal, ← whole]
  rfl

private theorem script_of_notLocal (notLocal : s.head ≠ "local".toList) (name : List Char) :
    s.script name = withoutExpansions s.text ++ "\ndeclare -p ".toList ++ name := by
  rw [script, globalText, if_neg notLocal]

theorem script_eq_iff :
    (∀ name, s.script name = withoutExpansions s.text ++ "\ndeclare -p ".toList ++ name) ↔
      s.head ≠ "local".toList := by
  constructor
  · intro same isLocal
    obtain ⟨rest, whole, scripts⟩ := script_of_local isLocal
    have begins := congrArg List.head? ((scripts []).symm.trans (same []))
    rw [whole] at begins
    exact absurd (Option.some.inj begins) (by decide)
  · exact script_of_notLocal

end Statement

private theorem declarationOf_ne_nameMissing (command : List (List Char)) (reply : ProcessReply)
    (text : List Char) : declarationOf command reply ≠ .error (.nameMissing text) := by
  intro failed
  cases reply with
  | missing => cases command <;> cases failed
  | denied reason => cases failed
  | interrupted => cases failed
  | undecodable fault => cases failed
  | ended status output complaint =>
      rw [declarationOf] at failed
      split at failed
      · cases read : Declaration.ofOutput output with
        | ok d =>
            rw [read] at failed
            cases failed
        | error text =>
            rw [read] at failed
            cases failed
      · cases failed

private theorem evaluated_ne_nameMissing (command : List (List Char)) (script : List Char)
    (replies : List ProcessReply) (text : List Char) :
    evaluated command script replies ≠ .error (.nameMissing text) := by
  intro failed
  unfold evaluated Run.answer at failed
  split at failed
  · cases failed
  · exact declarationOf_ne_nameMissing command _ text failed

theorem nameMissing_iff (command : List (List Char)) (s : Statement) (o : Outside) :
    (resolveWith command s o).1 = .error (.nameMissing s.text) ↔ s.assignedName? = none := by
  rw [resolveWith_apply]
  cases s.assignedName? with
  | none => simp
  | some name => simpa using evaluated_ne_nameMissing command (s.script name) _ s.text

/-- A complete assignment, no line of which holds a line end but among the blanks at its ends, sets
the variable that its first line names. Behind a keyword, which then is a whole word, that is the
name at the start of the first word that is neither empty nor an option; otherwise it is the name in
front of the index, the plus sign and the equals sign. An assignment without a name is refused, and
the script holds another text only where the first word is `local`. -/
theorem assignedName?_of_kind {lines : List (List Char)} {s : Statement}
    (single : ∀ line ∈ lines, '\n' ∉ Text.trim line) (member : s ∈ statements lines)
    (complete : s.complete = true) {c : Classifier} (assigns : c.kind s = .assignment) :
    (s.head ∈ declarationKeywords → ∃ later, s.tokens.map Token.raw = s.head :: later ∧
      (∀ name, s.assignedName? = some name ↔
        ∃ word, FirstTarget later word ∧ BeginsWithName word name) ∧
      (s.assignedName? = none ↔ (¬ ∃ word, FirstTarget later word) ∨
        ∃ word, FirstTarget later word ∧ ∀ c ∈ word.head?, isNameStart c = false)) ∧
    (s.head ∉ declarationKeywords → ∃ name, s.assignedName? = some name ∧
      ∀ other, AssignsTo s.head other ↔ other = name) ∧
    (∀ command outside, (resolveWith command s outside).1 = .error (.nameMissing s.text) ↔
      s.assignedName? = none) ∧
    ((∀ name, s.script name = withoutExpansions s.text ++ "\ndeclare -p ".toList ++ name) ↔
      ¬ ∃ later, s.tokens.map Token.raw = "local".toList :: later) ∧
    ((∃ later, s.tokens.map Token.raw = "local".toList :: later) →
      ∃ rest, s.text = "local".toList ++ rest ∧ ∀ name, s.script name =
        withoutExpansions ("declare".toList ++ rest) ++ "\ndeclare -p ".toList ++ name) := by
  have closed := closedText_of_mem_statements single member complete
  obtain ⟨headed, keywordOrName⟩ := Classifier.of_kind_assignment assigns
  have wholeWord (isKeyword : s.head ∈ declarationKeywords) :
      ∃ later, s.tokens.map Token.raw = s.head :: later := by
    have named : ∀ keyword ∈ declarationKeywords, isName keyword = true := by decide
    have plain := isWordText_of_isName (named s.head isKeyword)
    apply Statement.map_raw_of_head closed headed
    rw [scan_initial_of_isPlain fun c inside => (plain c inside).1]
    rfl
  have isLocal : s.head = "local".toList ↔
      ∃ later, s.tokens.map Token.raw = "local".toList :: later := by
    constructor
    · intro isLocal
      rw [← isLocal]
      apply wholeWord
      rw [isLocal]
      decide
    · rintro ⟨later, words⟩
      exact (Statement.head_of_map_raw words).1
  refine ⟨?_, ?_, fun command outside => nameMissing_iff command s outside, ?_, ?_⟩
  · intro isKeyword
    obtain ⟨later, words⟩ := wholeWord isKeyword
    exact ⟨later, words, fun name => Statement.assignedName?_eq_some_iff words isKeyword,
      Statement.assignedName?_eq_none_iff words isKeyword⟩
  · intro notKeyword
    obtain ⟨name, assignsTo⟩ := keywordOrName.resolve_left notKeyword
    have found := Statement.assignedName?_of_assignsTo notKeyword assignsTo
    refine ⟨name, found, fun other => ⟨fun assignsTo' => ?_, ?_⟩⟩
    · have found' := Statement.assignedName?_of_assignsTo notKeyword assignsTo'
      exact Option.some.inj (found'.symm.trans found)
    · rintro rfl
      exact assignsTo
  · rw [Statement.script_eq_iff, Ne, isLocal]
  · intro words
    exact Statement.script_of_local (isLocal.2 words)

theorem assignedName?_of_kind_twoLines :
    let lines := [" local -r  x=\"$HOME".toList, " b\" y\n".toList, "a[1]+='p".toList,
      "q' r".toList]
    let first : Statement := ⟨"local -r  x=\"$HOME\nb\" y".toList, 1, true⟩
    let second : Statement := ⟨"a[1]+='p\nq' r".toList, 3, true⟩
    let c : Classifier := ⟨[], []⟩
    (∀ line ∈ lines, '\n' ∉ Text.trim line) ∧
      (first ∈ statements lines ∧ first.complete = true ∧ c.kind first = .assignment) ∧
      (second ∈ statements lines ∧ second.complete = true ∧ c.kind second = .assignment) ∧
      first.assignedName? = some ['x'] ∧ second.assignedName? = some ['a'] ∧
      first.script ['x'] =
        withoutExpansions "declare -r  x=\"$HOME\nb\" y".toList ++ "\ndeclare -p x".toList := by
  intro lines first second c
  have single : ∀ line ∈ lines, '\n' ∉ Text.trim line := by decide +kernel
  have member : first ∈ statements lines := by decide +kernel
  have member' : second ∈ statements lines := by decide +kernel
  have assigns : c.kind first = .assignment := by decide +kernel
  have assigns' : c.kind second = .assignment := by decide +kernel
  have words : first.tokens.map Token.raw =
      ["local".toList, "-r".toList, [], "x=\"$HOME\nb\"".toList, ['y']] := by decide +kernel
  have isKeyword : first.head ∈ declarationKeywords := by decide +kernel
  have notKeyword : second.head ∉ declarationKeywords := by decide +kernel
  obtain ⟨declared, -, -, -, rewritten⟩ := assignedName?_of_kind single member rfl assigns
  obtain ⟨-, plain, -⟩ := assignedName?_of_kind single member' rfl assigns'
  obtain ⟨later, words', named, -⟩ := declared isKeyword
  obtain ⟨name, named', only⟩ := plain notKeyword
  obtain ⟨rest, whole, script⟩ := rewritten ⟨_, words⟩
  have target : FirstTarget ["-r".toList, [], "x=\"$HOME\nb\"".toList, ['y']]
      "x=\"$HOME\nb\"".toList := firstTarget_iff.2 (by decide +kernel)
  have begins : BeginsWithName "x=\"$HOME\nb\"".toList ['x'] :=
    beginsWithName_iff.2 (by decide +kernel)
  have assignsTo : AssignsTo second.head ['a'] := by
    have index : IsIndex ['[', '1', ']'] := .inr ⟨['1'], by decide, rfl⟩
    exact ⟨by decide, _, ['+'], "'p".toList, index, .inr rfl, by decide +kernel⟩
  obtain rfl := (List.cons.inj (words.symm.trans words')).2
  obtain rfl := (only ['a']).1 assignsTo
  have parts : "local".toList ++ rest = "local".toList ++ " -r  x=\"$HOME\nb\" y".toList :=
    whole.symm
  refine ⟨single, ⟨member, rfl, assigns⟩, ⟨member', rfl, assigns'⟩,
    (named ['x']).2 ⟨_, target, begins⟩, named', ?_⟩
  rw [script, List.append_cancel_left parts, List.append_assoc]
  rfl

end PkgRecipe.Shell
