import PkgRecipe.Proofs.Data.Merge
import PkgRecipe.Proofs.Table
import PkgRecipe.Settings.Reading

namespace PkgRecipe

namespace Settings

theorem bind_eq_ok_iff {ε α β : Type} {x : Except ε α} {next : α → Except ε β} {b : β} :
    (x >>= next) = .ok b ↔ ∃ a, x = .ok a ∧ next a = .ok b := by
  cases x with
  | error fault => simp [bind, Except.bind]
  | ok a => simp [bind, Except.bind]

namespace Checked

variable {α β : Type}

theorem map_eq_valid_iff {f : α → β} {a : Checked α} {b : β} :
    f <$> a = .valid b ↔ ∃ x, a = .valid x ∧ f x = b := by
  cases a with
  | invalid problems => simp [Functor.map, apply]
  | valid x => simp [Functor.map, apply]

theorem seq_eq_valid_iff {f : Checked (α → β)} {a : Checked α} {b : β} :
    f <*> a = .valid b ↔ ∃ g x, f = .valid g ∧ a = .valid x ∧ g x = b := by
  cases f with
  | invalid problems => cases a <;> simp [Seq.seq, apply]
  | valid g => cases a <;> simp [Seq.seq, apply]

theorem inside_eq_valid_iff {name : List Char} {a : Checked α} {x : α} :
    a.inside name = .valid x ↔ a = .valid x := by
  cases a with
  | invalid problems => simp [inside]
  | valid y => rfl

theorem andThen_eq_valid_iff {a : Checked α} {read : α → Checked β} {b : β} :
    a.andThen read = .valid b ↔ ∃ x, a = .valid x ∧ read x = .valid b := by
  cases a with
  | invalid problems => simp [andThen]
  | valid x => simp [andThen]

theorem all_eq_valid_iff {parts : List (Checked α)} {values : List α} :
    all parts = .valid values ↔ parts = values.map .valid := by
  induction parts generalizing values with
  | nil => cases values <;> simp [all]
  | cons part parts ih =>
      simp only [all, seq_eq_valid_iff, map_eq_valid_iff, ih]
      cases values with
      | nil => simp
      | cons value values =>
          constructor
          · rintro ⟨g, others, ⟨x, rfl, rfl⟩, rfl, same⟩
            cases same
            rfl
          · intro same
            cases same
            exact ⟨_, values, ⟨value, rfl, rfl⟩, rfl, rfl⟩

end Checked

theorem tableEntry_text_eq_valid_iff {name : List Char} {value : Data}
    {row : List Char × List Char} :
    tableEntry (.text name, value) = .valid row ↔ row.1 = name ∧ text value = .valid row.2 := by
  obtain ⟨name', t⟩ := row
  simp only [tableEntry, Checked.inside_eq_valid_iff, Checked.seq_eq_valid_iff,
    Checked.map_eq_valid_iff]
  constructor
  · rintro ⟨g, t', ⟨name'', same, rfl⟩, valid, same'⟩
    have key : Checked.valid name = .valid name'' := same
    cases key
    cases same'
    exact ⟨rfl, valid⟩
  · rintro ⟨rfl, valid⟩
    exact ⟨_, t, ⟨name', rfl, rfl⟩, valid, rfl⟩

theorem textTable_eq_valid_iff {entries : Data.Entries} {table : Table (List Char)} :
    textTable (.mapping entries) = .valid table ↔
      ∃ rows : List (List Char × List Char), entries.map tableEntry = rows.map .valid ∧
        Table.ofEntries rows = table := by
  simp only [textTable, Checked.map_eq_valid_iff, Checked.all_eq_valid_iff]

/-- A name without the signs that other spellings of names have. -/
def IsBare (name : List Char) : Prop :=
  ∀ c ∈ name, c ∉ "()$\x7b\x7d".toList

theorem functionName_parentheses (name : List Char) : functionName (name ++ "()".toList) = name := by
  rw [functionName, if_pos (by simp)]
  simp

theorem variableName_dollar (name : List Char) : variableName ('$' :: name) = variableName name :=
  rfl

namespace IsBare

variable {name : List Char}

theorem functionName (bare : IsBare name) : functionName name = name := by
  rw [Settings.functionName, if_neg]
  intro suffix
  have parenthesis := (List.isSuffixOf_iff_suffix.1 suffix).subset List.mem_cons_self
  exact bare _ parenthesis (by decide)

theorem reverse (bare : IsBare name) : IsBare name.reverse :=
  fun c member => bare c (List.mem_reverse.1 member)

theorem dropWhile (bare : IsBare name) {p : Char → Bool}
    (signs : ∀ c, p c = true → c ∈ "()$\x7b\x7d".toList) : name.dropWhile p = name := by
  cases name with
  | nil => rfl
  | cons c name =>
      refine List.dropWhile_cons_of_neg fun sign => ?_
      exact bare c List.mem_cons_self (signs c sign)

theorem mem_signs_of_brace {c : Char} (brace : (c = '\x7b' || c = '\x7d') = true) :
    c ∈ "()$\x7b\x7d".toList := by
  simp only [Bool.or_eq_true, decide_eq_true_eq] at brace
  rcases brace with rfl | rfl
  · decide
  · decide

theorem dropWhile_brace (bare : IsBare name) :
    name.dropWhile (fun c => c = '\x7b' || c = '\x7d') = name :=
  bare.dropWhile fun _ => mem_signs_of_brace

theorem variableName (bare : IsBare name) : variableName name = name := by
  rw [Settings.variableName, bare.dropWhile (by simp), bare.dropWhile_brace,
    bare.reverse.dropWhile_brace, List.reverse_reverse]

theorem variableName_braces (bare : IsBare name) :
    Settings.variableName ("$\x7b".toList ++ name ++ ['\x7d']) = name := by
  let isBrace (c : Char) : Bool := c = '\x7b' || c = '\x7d'
  show (((name ++ ['\x7d']).dropWhile isBrace).reverse.dropWhile isBrace).reverse = name
  cases name with
  | nil => rfl
  | cons c rest =>
      have first : ¬isBrace c = true := fun brace =>
        bare c List.mem_cons_self (mem_signs_of_brace brace)
      rw [List.cons_append, List.dropWhile_cons_of_neg first, ← List.cons_append,
        List.reverse_append, List.reverse_singleton, List.singleton_append,
        List.dropWhile_cons_of_pos rfl, bare.reverse.dropWhile_brace, List.reverse_reverse]

end IsBare

def putPlain (plain : List Char → List Char) (read : Data.Entries) (entry : Scalar × Data) :
    Data.Entries :=
  match entry.1 with
  | .text name => read.put (.text (plain name)) entry.2
  | _ => read

def spells (plain : List Char → List Char) (name : List Char) : Scalar → Bool
  | .text t => plain t = name
  | _ => false

theorem isKind_spells (plain : List Char → List Char) (name : List Char) :
    Data.IsKind (spells plain name) := by
  intro key other same
  cases other with
  | text t => rw [Scalar.sameKey_text.1 same]
  | _ =>
      cases key with
      | text t =>
          rw [Scalar.sameKey_comm] at same
          rw [Scalar.sameKey_text.1 same]
      | _ => rfl

theorem functionEntries_eq {entries read named : Data.Entries}
    (valid : functionEntries read entries = .ok (.valid named)) :
    named = entries.foldl (putPlain functionName) read := by
  induction entries generalizing read with
  | nil =>
      cases valid
      rfl
  | cons entry entries ih =>
      obtain ⟨key, method⟩ := entry
      cases key with
      | text name =>
          simp only [functionEntries] at valid
          split at valid
          · cases valid
          · split at valid
            · exact ih valid
            · cases valid
      | _ => cases valid

theorem variableEntries_eq {entries read named : Data.Entries}
    (valid : variableEntries read entries = .ok named) :
    named = entries.foldl (putPlain variableName) read := by
  induction entries generalizing read with
  | nil =>
      cases valid
      rfl
  | cons entry entries ih =>
      obtain ⟨key, expression⟩ := entry
      cases key with
      | text name => exact ih valid
      | _ => cases valid

section Plain

variable (plain : List Char → List Char) (name : List Char)

private theorem among_putPlain {read : Data.Entries} {before : Option Data}
    (present : read.among (·.sameKey (.text name)) =
      (before.map fun value => (.text name, value)).toList) (entry : Scalar × Data) :
    (putPlain plain read entry).among (·.sameKey (.text name)) =
      ((if spells plain name entry.1 then some entry.2 else before).map
        fun value => (.text name, value)).toList := by
  obtain ⟨key, value⟩ := entry
  cases key with
  | text t =>
      rw [putPlain, Data.among_put (Data.isKind_sameKey _), present, spells]
      by_cases same : plain t = name
      · rw [same, if_pos (Scalar.sameKey_refl _), if_pos (by simp)]
        cases before with
        | none => rfl
        | some old => simp [Data.Entries.put, Scalar.sameKey_refl]
      · have differs : ¬(Scalar.text (plain t)).sameKey (.text name) = true := by
          rw [Scalar.sameKey_text]
          simpa using same
        rw [if_neg differs, if_neg (by simpa using same)]
  | _ => exact present

/-- Under a name stands what the last of its spellings gives. -/
private theorem among_foldl_putPlain (entries : Data.Entries) :
    (entries.foldl (putPlain plain) []).among (·.sameKey (.text name)) =
      ((entries.among (spells plain name)).getLast?.map
        fun last => (.text name, last.2)).toList := by
  suffices general : ∀ (read : Data.Entries) (before : Option Data),
      read.among (·.sameKey (.text name)) =
        (before.map fun value => (.text name, value)).toList →
      (entries.foldl (putPlain plain) read).among (·.sameKey (.text name)) =
        ((((entries.among (spells plain name)).getLast?.map Prod.snd).or before).map
          fun value => (.text name, value)).toList by
    have whole := general [] none rfl
    rwa [Option.or_none, Option.map_map] at whole
  induction entries with
  | nil => exact fun read before present => present
  | cons entry entries ih =>
      intro read before present
      rw [List.foldl_cons, ih _ _ (among_putPlain plain name present entry)]
      unfold Data.Entries.among
      rw [List.filter_cons]
      split
      · rw [List.getLast?_cons]
        cases (List.filter (fun entry => spells plain name entry.1) entries).getLast? with
        | none => rfl
        | some last => rfl
      · rfl

private theorem isText_of_foldl_putPlain {entries read : Data.Entries}
    (texts : ∀ entry ∈ read, ∃ t, entry.1 = .text t) :
    ∀ entry ∈ entries.foldl (putPlain plain) read, ∃ t, entry.1 = .text t := by
  induction entries generalizing read with
  | nil => exact texts
  | cons entry entries ih =>
      refine ih fun later member => ?_
      obtain ⟨key, value⟩ := entry
      cases key with
      | text t =>
          rcases Data.Entries.mem_put member with present | ⟨-, here | ⟨old, there⟩⟩
          · exact texts later present
          · exact ⟨_, here⟩
          · exact texts (later.1, old) there
      | _ => exact texts later member

private theorem filter_rows {entries : Data.Entries} {rows : List (List Char × List Char)}
    (texts : ∀ entry ∈ entries, ∃ t, entry.1 = .text t)
    (same : entries.map tableEntry = rows.map .valid) :
    (rows.filter (·.1 = name)).map (fun row => Checked.valid row.2) =
      (entries.among (·.sameKey (.text name))).map fun entry => text entry.2 := by
  unfold Data.Entries.among
  induction entries generalizing rows with
  | nil =>
      rw [List.map_eq_nil_iff.1 same.symm]
      rfl
  | cons entry entries ih =>
      cases rows with
      | nil => contradiction
      | cons row rows =>
          obtain ⟨⟨t, key⟩, texts⟩ := List.forall_mem_cons.1 texts
          obtain ⟨here, later⟩ := List.cons.inj same
          have rest := ih texts later
          rw [show entry = (.text t, entry.2) from Prod.ext key rfl,
            tableEntry_text_eq_valid_iff] at here
          rw [List.filter_cons, List.filter_cons, key, here.1]
          by_cases same : t = name
          · rw [if_pos (by simpa using same), if_pos (by rw [same]; exact Scalar.sameKey_refl _),
              List.map_cons, List.map_cons, rest, here.2]
          · rw [if_neg (by simpa using same), if_neg fun same' => ?_, rest]
            exact same (Scalar.text.inj (Scalar.sameKey_text.1 same'))

private theorem lookup_of_textTable {entries : Data.Entries} {table : Table (List Char)}
    (valid : textTable (.mapping (entries.foldl (putPlain plain) [])) = .valid table) :
    (table.lookup name).map Checked.valid =
      (entries.among (spells plain name)).getLast?.map fun entry => text entry.2 := by
  obtain ⟨rows, same, rfl⟩ := textTable_eq_valid_iff.1 valid
  have values := filter_rows name (@isText_of_foldl_putPlain plain entries [] nofun) same
  rw [among_foldl_putPlain plain name entries] at values
  have last := congrArg List.getLast? values
  rw [List.getLast?_map, List.getLast?_map] at last
  rw [Table.lookup_ofEntries, Option.map_map]
  refine last.trans ?_
  cases (entries.among (spells plain name)).getLast? with
  | none => rfl
  | some entry => rfl

end Plain

/-- Each section of settings is what is read from its entry. -/
structure ReadFrom (settings : Settings) (entries : Data.Entries) : Prop where
  general : sectionEntry "config" {} General.read entries = .valid settings.general
  shell : sectionEntry "shell" {} Shell.read entries = .valid settings.shell
  checksum : sectionEntry "checksum" {} Checksum.read entries = .valid settings.checksum
  formatter : sectionEntry "formatter" {} Formatter.read entries = .valid settings.formatter
  theme : entry "theme" [] textTable entries = .valid settings.theme
  functions : methodTable (entries.find? (.text "functions".toList)) =
    .ok (.valid settings.functions)
  fileOperations : entry "file_operations" [] textTable entries = .valid settings.fileOperations
  substitutions : expressionTable (entries.find? (.text "substitutions".toList)) =
    .ok (.valid settings.substitutions)

theorem readFrom_of_ofEntries {entries : Data.Entries} {settings : Settings}
    (valid : ofEntries entries = .ok settings) : settings.ReadFrom entries := by
  unfold ofEntries at valid
  split at valid
  · contradiction
  · obtain ⟨methods, functions, valid⟩ := bind_eq_ok_iff.1 valid
    obtain ⟨expressions, substitutions, valid⟩ := bind_eq_ok_iff.1 valid
    dsimp only at valid
    split at valid
    · rename_i read
      cases valid
      simp only [Checked.seq_eq_valid_iff, Checked.map_eq_valid_iff,
        Checked.inside_eq_valid_iff] at read
      obtain ⟨_, _, ⟨_, _, ⟨_, _, ⟨_, _, ⟨_, _, ⟨_, _, ⟨_, _, ⟨_, general, rfl⟩, shell, rfl⟩, checksum,
        rfl⟩, formatter, rfl⟩, theme, rfl⟩, rfl, rfl⟩, fileOperations, rfl⟩, rfl, rfl⟩ := read
      exact ⟨general, shell, checksum, formatter, theme, functions, fileOperations, substitutions⟩
    · contradiction

/-- A section whose keys are names in one of several spellings. -/
inductive NamedSection where
  | functions
  | substitutions

namespace NamedSection

def key : NamedSection → Scalar
  | functions => .text "functions".toList
  | substitutions => .text "substitutions".toList

def plainName : NamedSection → List Char → List Char
  | functions => functionName
  | substitutions => variableName

def read : NamedSection → Option Data → Except Fault (Checked (Table (List Char)))
  | functions => methodTable
  | substitutions => expressionTable

def table : NamedSection → Settings → Table (List Char)
  | functions => Settings.functions
  | substitutions => Settings.substitutions

def spellings : NamedSection → List Char → List (List Char)
  | functions, name => [name, name ++ "()".toList]
  | substitutions, name => [name, '$' :: name, "$\x7b".toList ++ name ++ ['\x7d']]

theorem plainName_of_mem_spellings (part : NamedSection) {name t : List Char} (bare : IsBare name)
    (written : t ∈ part.spellings name) : part.plainName t = name := by
  cases part with
  | functions =>
      rcases List.mem_cons.1 written with rfl | written
      · exact bare.functionName
      · rw [List.mem_singleton.1 written]
        exact functionName_parentheses name
  | substitutions =>
      rcases List.mem_cons.1 written with rfl | written
      · exact bare.variableName
      rcases List.mem_cons.1 written with rfl | written
      · exact (variableName_dollar name).trans bare.variableName
      · rw [List.mem_singleton.1 written]
        exact bare.variableName_braces

/-- The entries of a section that mention a name. -/
def mentions (part : NamedSection) (name : List Char) (entries : Data.Entries) : Data.Entries :=
  entries.among (spells part.plainName name)

theorem read_of_ofEntries {entries : Data.Entries} {settings : Settings}
    (valid : ofEntries entries = .ok settings) (part : NamedSection) :
    part.read (entries.find? part.key) = .ok (.valid (part.table settings)) := by
  have sections := readFrom_of_ofEntries valid
  cases part with
  | functions => exact sections.functions
  | substitutions => exact sections.substitutions

def entriesIn : Option Data → Data.Entries
  | some (.mapping entries) => entries
  | _ => []

theorem lookup_of_read {part : NamedSection} {value : Option Data} {table : Table (List Char)}
    (valid : part.read value = .ok (.valid table)) (name : List Char) :
    (table.lookup name).map Checked.valid =
      (part.mentions name (entriesIn value)).getLast?.map fun mention => text mention.2 := by
  match value with
  | none => cases part <;> cases valid <;> rfl
  | some (.scalar s) => cases s <;> cases part <;> cases valid <;> rfl
  | some (.sequence items) => cases part <;> cases valid
  | some (.mapping entries) =>
      cases part with
      | functions =>
          obtain ⟨methods, named, same⟩ := bind_eq_ok_iff.1 valid
          obtain ⟨entries', rfl, valid'⟩ := Checked.andThen_eq_valid_iff.1 (Except.ok.inj same)
          rw [functionEntries_eq named] at valid'
          exact lookup_of_textTable functionName name valid'
      | substitutions =>
          obtain ⟨entries', named, same⟩ := bind_eq_ok_iff.1 valid
          have valid' := Except.ok.inj same
          rw [variableEntries_eq named] at valid'
          exact lookup_of_textTable variableName name valid'

end NamedSection

end Settings

end PkgRecipe
