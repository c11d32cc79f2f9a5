import PkgRecipe.Proofs.Settings.NamedSection
import PkgRecipe.Proofs.Shell.AssignedName
import PkgRecipe.Settings.Layers

namespace PkgRecipe

namespace Shell

/-- A letter or an underscore, and letters, digits and underscores behind it. -/
def IsIdentifier (text : List Char) : Prop :=
  ∃ first rest, text = first :: rest ∧ isNameStart first = true ∧
    ∀ c ∈ rest, isNameChar c = true

theorem isName_iff {text : List Char} : isName text = true ↔ IsIdentifier text := by
  constructor
  · intro named
    cases text with
    | nil => contradiction
    | cons first rest =>
        have starts : isNameStart first = true := by
          by_contra other
          simp [isName, leadingName?, other] at named
        refine ⟨first, rest, rfl, starts, fun c member => ?_⟩
        exact isNameChar_of_mem named (List.mem_cons_of_mem first member)
  · rintro ⟨first, rest, rfl, starts, parts⟩
    have consumed := List.dropWhile_eq_nil_iff.2 parts
    rw [isName, leadingName?, if_pos starts, consumed]

end Shell

namespace Settings

def NamesMethod (text : List Char) : Prop :=
  ∃ name, Shell.IsIdentifier name ∧ (text = name ∨ text = name ++ ['\n'])

theorem isMethodName_iff {text : List Char} : isMethodName text = true ↔ NamesMethod text := by
  rw [isMethodName, Bool.or_eq_true, Bool.and_eq_true, decide_eq_true_eq, Shell.isName_iff,
    Shell.isName_iff]
  constructor
  · rintro (name | ⟨lineEnd, name⟩)
    · exact ⟨text, name, .inl rfl⟩
    · exact ⟨text.dropLast, name, .inr (List.dropLast_append_getLast? _ lineEnd).symm⟩
  · rintro ⟨name, identifier, rfl | rfl⟩
    · exact .inl identifier
    · refine .inr ⟨List.getLast?_concat, ?_⟩
      rw [List.dropLast_concat]
      exact identifier

/-- Bytes are not taken for the name of a method, although a text is read from them. -/
private theorem not_isMethodName_quotedBytes (bytes : List UInt8) :
    ¬isMethodName (Text.quotedBytes bytes) = true := by
  rw [isMethodName_iff]
  rintro ⟨_, ⟨first, rest, rfl, -, parts⟩, whole⟩
  rw [Text.quotedBytes] at whole
  have other (text : List Char) : Shell.isNameChar (Text.quotationMark text) = false ∧
      Text.quotationMark text ≠ '\n' := by
    unfold Text.quotationMark
    split
    · decide
    · decide
  specialize other (bytes.map fun b => Char.ofNat b.toNat)
  generalize Text.quotationMark _ = quote at other whole
  rcases whole with same | same
  · obtain ⟨rfl, rfl⟩ := List.cons.inj same
    have here := parts quote List.mem_cons_self
    rw [other.1] at here
    contradiction
  · have behind := (List.cons.inj same).2
    cases rest with
    | nil => exact other.2 (List.cons.inj behind).1
    | cons c rest =>
        obtain rfl := (List.cons.inj behind).1
        have here := parts quote List.mem_cons_self
        rw [other.1] at here
        contradiction

theorem isMethodName_of_text {value : Data} {method : List Char}
    (valid : text value = .valid method) (named : isMethodName value.plainText = true) :
    isMethodName method = true := by
  unfold text at valid
  split at valid
  · cases valid
    exact named
  · exact absurd named (not_isMethodName_quotedBytes _)
  · contradiction

private theorem isMethodName_of_functionEntries {entries read named : Data.Entries}
    (valid : functionEntries read entries = .ok (.valid named)) :
    ∀ entry ∈ entries, isMethodName entry.2.plainText = true := by
  induction entries generalizing read with
  | nil => exact nofun
  | cons entry entries ih =>
      obtain ⟨key, method⟩ := entry
      cases key with
      | text name =>
          simp only [functionEntries] at valid
          split at valid
          · cases valid
          · split at valid
            · rename_i named
              exact List.forall_mem_cons.2 ⟨named, ih valid⟩
            · cases valid
      | _ => cases valid

private theorem isMethodName_of_methodTable {value : Option Data} {table : Table (List Char)}
    (valid : NamedSection.functions.read value = .ok (.valid table)) {function method : List Char}
    (found : table.lookup function = some method) : isMethodName method = true := by
  have last := NamedSection.lookup_of_read valid function
  rw [found] at last
  obtain ⟨entry, mention, same⟩ := Option.map_eq_some_iff.1 last.symm
  have member := (List.mem_filter.1 (List.mem_of_getLast? mention)).1
  match value with
  | some (.mapping entries) =>
      obtain ⟨methods, named, same'⟩ := bind_eq_ok_iff.1 valid
      obtain ⟨entries', rfl, -⟩ := Checked.andThen_eq_valid_iff.1 (Except.ok.inj same')
      have names := isMethodName_of_functionEntries named entry member
      exact isMethodName_of_text same names
  | none => contradiction
  | some (.scalar s) => contradiction
  | some (.sequence items) => contradiction

/-- Settings that are read from data, from a text, or from files. -/
inductive Accepted (settings : Settings) : Prop
  | data {entries : Data.Entries} (read : ofEntries entries = .ok settings)
  | text {yaml : Yaml.Reader} {withDefaults : Bool} {text : List Char}
      (read : ofText yaml withDefaults text = .ok settings)
  | files {yaml : Yaml.Reader} {tree : Files.Tree} {home : Files.Path}
      {file directory : Option Files.Path}
      (read : load yaml tree home file directory = .ok settings)

theorem Accepted.exists_entries {settings : Settings} (accepted : settings.Accepted) :
    ∃ entries, ofEntries entries = .ok settings := by
  cases accepted with
  | data read => exact ⟨_, read⟩
  | text read =>
      obtain ⟨data, -, read⟩ := bind_eq_ok_iff.1 read
      split at read
      · exact ⟨_, read⟩
      · contradiction
  | files read =>
      obtain ⟨main, -, read⟩ := bind_eq_ok_iff.1 read
      obtain ⟨entries, -, read⟩ := bind_eq_ok_iff.1 read
      exact ⟨entries, read⟩

theorem Accepted.namesMethod {settings : Settings} (accepted : settings.Accepted)
    {function method : List Char} (found : settings.functions.lookup function = some method) :
    NamesMethod method := by
  obtain ⟨entries, read⟩ := accepted.exists_entries
  have table := NamedSection.read_of_ofEntries read .functions
  exact isMethodName_iff.1 (isMethodName_of_methodTable table found)

end Settings

end PkgRecipe
