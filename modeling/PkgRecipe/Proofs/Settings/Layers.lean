import PkgRecipe.Proofs.Data.LastEntry
import PkgRecipe.Proofs.Settings.LayerOrder
import PkgRecipe.Yaml.Document

namespace PkgRecipe.Settings

theorem text_congr {value other : Data} (same : Data.scalar? value = Data.scalar? other) :
    text value = text other := by
  cases value with
  | scalar s => rw [Data.scalar?_eq_some_iff.1 same.symm]
  | sequence items =>
      cases other with
      | scalar s => contradiction
      | _ => rfl
  | mapping entries =>
      cases other with
      | scalar s => contradiction
      | _ => rfl

namespace NamedSection

/-- What a layer says of a name, behind what the layers before it say. A mapping that meets none is
taken over with its nulls; something else than a mapping takes the section away. -/
def say (part : NamedSection) (name : List Char) (said : Option Data.Edits) (layer : Data.Entries) :
    Option Data.Edits :=
  match layer.find? part.key with
  | none => said
  | some (.mapping entries) =>
      match said with
      | none => some ((part.mentions name entries).map Data.Entries.taken)
      | some edits => some (edits ++ (part.mentions name entries).map Data.Entries.laid)
  | some _ => none

/-- What layers say of the spellings of a name, in turn. -/
def history (part : NamedSection) (name : List Char) (layers : List Data.Entries) : Data.Edits :=
  (layers.foldl (part.say name) none).getD []

inductive Stands (part : NamedSection) (name : List Char) :
    Option Data.Edits → Option Data → Prop where
  | none {value : Option Data} (other : ∀ entries, value ≠ some (.mapping entries)) :
      Stands part name none value
  | mapping {edits : Data.Edits} {entries : Data.Entries}
      (edited : Data.Edited edits (part.mentions name entries)) :
      Stands part name (some edits) (some (.mapping entries))

variable {part : NamedSection} {name : List Char}

private theorem mentions_mergeEntries (part : NamedSection) (name : List Char)
    (base entries : Data.Entries) :
    part.mentions name (Data.mergeEntries base entries) =
      Data.mergeEntries (part.mentions name base) (part.mentions name entries) :=
  Data.among_mergeEntries (isKind_spells part.plainName name) base entries

theorem Stands.merge {said : Option Data.Edits} {base layer : Data.Entries}
    (stands : Stands part name said (base.find? part.key)) (keys : layer.DistinctKeys) :
    Stands part name (part.say name said layer) ((Data.merge base layer).find? part.key) := by
  rw [Data.merge, Data.find?_mergeEntries, keys.distinct.given, say]
  cases given : layer.find? part.key with
  | none => exact stands
  | some value =>
      rw [Option.toList_some, List.foldl_cons, List.foldl_nil]
      cases value with
      | scalar s => cases s <;> exact .none (fun entries => nofun)
      | sequence items => exact .none (fun entries => nofun)
      | mapping entries =>
          generalize base.find? part.key = value at stands
          cases stands with
          | none other =>
              rw [Data.overlay_of_not_mapping other Data.noConfusion]
              exact .mapping (.of_distinct ((keys.inner given).distinct.among _))
          | @mapping edits under edited =>
              rw [Data.overlay]
              refine .mapping ?_
              rw [mentions_mergeEntries]
              exact edited.mergeEntries _

theorem Stands.foldl_merge {said : Option Data.Edits} {base : Data.Entries}
    (stands : Stands part name said (base.find? part.key)) {layers : List Data.Entries}
    (each : ∀ layer ∈ layers, layer.DistinctKeys) :
    Stands part name (layers.foldl (part.say name) said)
      ((layers.foldl Data.merge base).find? part.key) := by
  induction layers generalizing said base with
  | nil => exact stands
  | cons layer layers ih =>
      obtain ⟨here, later⟩ := List.forall_mem_cons.1 each
      exact ih (stands.merge here) later

theorem Stands.edited {said : Option Data.Edits} {value : Option Data}
    (stands : Stands part name said value) :
    Data.Edited (said.getD []) (part.mentions name (entriesIn value)) := by
  cases stands with
  | mapping edited => exact edited
  | none other =>
      have nothing : entriesIn value = [] := by
        unfold entriesIn
        split
        · exact absurd rfl (other _)
        · rfl
      rw [nothing]
      exact .nil

theorem edited_history (part : NamedSection) (name : List Char) {layers : List Data.Entries}
    (each : ∀ layer ∈ layers, layer.DistinctKeys) :
    Data.Edited (part.history name (defaults :: layers))
      (part.mentions name (entriesIn ((layers.foldl Data.merge defaults).find? part.key))) := by
  have nothing : Stands part name none (Data.Entries.find? part.key []) :=
    .none (fun entries => nofun)
  have first := nothing.merge distinctKeys_defaults
  have same : Data.merge [] defaults = defaults := rfl
  rw [same] at first
  exact (first.foldl_merge each).edited

end NamedSection

section Lookup

variable {yaml : Yaml.Reader} {tree : Files.Tree} {home : Files.Path}
  {file directory : Option Files.Path} {main : Data.Entries} {others : List Data.Entries}
  {settings : Settings}

theorem lookup_of_edited (first : HoldsLayer yaml tree (mainFile home file) main)
    (dropIns : DropInLayers yaml tree (dropInDirectory home directory) others)
    (loaded : load yaml tree home file directory = .ok settings) (part : NamedSection)
    (name : List Char) :
    let history := part.history name (defaults :: main :: others)
    (∀ value, (part.table settings).lookup name = some value ↔
      ∃ spelling given, history.LastIntroduced spelling ∧
        Data.Edits.last? spelling history = some given ∧ text given = .valid value) ∧
    ((part.table settings).lookup name = none ↔
      ∀ spelling, Data.Edits.last? spelling history = none) := by
  rw [load_of_layers first dropIns] at loaded
  have edited := part.edited_history name
    (List.forall_mem_cons.2 ⟨first.distinctKeys, dropIns.distinctKeys⟩)
  have value := NamedSection.lookup_of_read (part.read_of_ofEntries loaded) name
  refine ⟨fun t => ?_, ?_⟩
  · rw [← edited.map_getLast?_eq_some_iff fun _ _ => text_congr, ← value]
    cases (part.table settings).lookup name with
    | none => exact ⟨nofun, nofun⟩
    | some t' => simp
  · have absent := congrArg (· = none) value
    simp only [Option.map_eq_none_iff] at absent
    rw [← edited.getLast?_eq_none_iff, absent]

/-- What is said last of a name, in whatever spelling, is what the name has in the end, but where the
spelling that came in last of those that still stand says something else. When no spelling stands,
the name has nothing. A null takes its spelling away; for a whole section it takes all of them
away. -/
theorem lookup_of_load (first : HoldsLayer yaml tree (mainFile home file) main)
    (dropIns : DropInLayers yaml tree (dropInDirectory home directory) others)
    (loaded : load yaml tree home file directory = .ok settings) (part : NamedSection)
    (name : List Char) :
    let history := part.history name (defaults :: main :: others)
    (∀ spelling given value,
        history.getLast? = some (spelling, some given) → text given = .valid value →
        (∀ other later, history.LastIntroduced other →
          Data.Edits.last? other history = some later → text later = .valid value) →
        (part.table settings).lookup name = some value) ∧
      ((∀ spelling, Data.Edits.last? spelling history = none) →
        (part.table settings).lookup name = none) ∧
      (IsBare name → ∀ t ∈ part.spellings name, part.plainName t = name) := by
  intro history
  obtain ⟨given_iff, none_iff⟩ := lookup_of_edited first dropIns loaded part name
  refine ⟨fun spelling given value last _ agree => ?_, none_iff.2,
    fun bare t => part.plainName_of_mem_spellings bare⟩
  obtain ⟨front, whole⟩ := List.getLast?_eq_some_iff.1 last
  have stands : Data.Edits.last? spelling history = some given := by
    rw [whole, Data.Edits.last?_concat, if_pos spelling.sameKey_refl]
  cases found : (part.table settings).lookup name with
  | none =>
      rw [none_iff.1 found spelling] at stands
      contradiction
  | some value' =>
      obtain ⟨other, later, final, said, same⟩ := (given_iff value').1 found
      have agreed := agree other later final said
      rw [same] at agreed
      rw [Checked.valid.inj agreed]

end Lookup

theorem lookup_of_load_dropIn :
    let home : Files.Path := .ofText "/h".toList
    let tree : Files.Tree := ⟨[
      (["c.yaml".toList],
        .file (Text.Utf8.encode "functions:\n  build(): a\n  check(): test\n".toList)),
      (["d".toList], .directory),
      (["d".toList, "2.yaml".toList],
        .file (Text.Utf8.encode "functions:\n  build(): c\n  check(): null\n".toList)),
      (["d".toList, "1.yaml".toList],
        .file (Text.Utf8.encode "functions:\n  build: b\n  check: null\n".toList))], [], []⟩
    let file : Option Files.Path := some (.ofText "c.yaml".toList)
    let directory : Option Files.Path := some (.ofText "d".toList)
    ∃ settings, load Yaml.plainReader tree home file directory = .ok settings ∧
      settings.functions.lookup "build".toList = some "c".toList ∧
      settings.functions.lookup "check".toList = none := by
  intro home tree file directory
  let child (name : String) : Files.Path := (Files.Path.ofText "d".toList).child name.toList
  let read (path : Files.Path) : Option Data.Entries :=
    (readLayer Yaml.plainReader tree path).toOption
  let said (name : String) (layers : List Data.Entries) : List (Scalar × Option (Option Scalar)) :=
    (NamedSection.functions.history name.toList layers).map (Prod.map id (Option.map Data.scalar?))
  let given (spelling value : String) : Scalar × Option Scalar :=
    (.text spelling.toList, some (.text value.toList))
  let taken (spelling : String) : Scalar × Option Scalar := (.text spelling.toList, none)
  let succeeds (layers : List Data.Entries) : Bool :=
    (ofEntries (layers.foldl Data.merge defaults)).toOption.isSome
  obtain ⟨main, first, one, read', two, read'', build, check, accepted⟩ :
      ∃ main ∈ read (mainFile home file), ∃ one ∈ read (child "1.yaml"), ∃ two ∈ read (child "2.yaml"),
        said "build" [defaults, main, one, two] = [given "build" "build", given "build()" "a",
          given "build" "b", given "build()" "c"].map (Prod.map id (Option.map some)) ∧
        said "check" [defaults, main, one, two] = [given "check" "check", given "check()" "test",
          taken "check", taken "check()"].map (Prod.map id (Option.map some)) ∧
        succeeds [main, one, two] = true := by
    decide +kernel
  have build := Data.Edits.eq_of_scalars build
  have check := Data.Edits.eq_of_scalars check
  have found : tree.find (dropInDirectory home directory) = .directory ["d".toList] := by
    decide +kernel
  have dropIns : DropInLayers Yaml.plainReader tree (dropInDirectory home directory) [one, two] :=
    .of_reads ["1.yaml".toList, "2.yaml".toList] found (by decide +kernel) (by decide +kernel)
      (by decide +kernel) (by decide) (.cons read' (.cons read'' .nil))
  have first := holdsLayer_of_mem_toOption first
  have merged := load_of_layers first dropIns
  cases loaded : load Yaml.plainReader tree home file directory with
  | error fault =>
      rw [loaded] at merged
      simp only [succeeds, ← merged] at accepted
      contradiction
  | ok settings =>
      obtain ⟨method, -, -⟩ := lookup_of_load first dropIns loaded .functions "build".toList
      obtain ⟨-, nothing, -⟩ := lookup_of_load first dropIns loaded .functions "check".toList
      refine ⟨settings, rfl, method (.text "build()".toList) (.text "c".toList) _ ?_ rfl ?_,
        nothing ?_⟩
      · rw [build]
        rfl
      · intro other later final said
        have introduced : (NamedSection.functions.history "build".toList
            [defaults, main, one, two]).LastIntroduced (.text "build()".toList) := by
          let first : Data.Edits := [(.text "build".toList, some (.text "build".toList))]
          let second : Data.Edits := first ++ [(.text "build()".toList, some (.text "a".toList))]
          let third : Data.Edits := second ++ [(.text "build".toList, some (.text "b".toList))]
          have introduced : second.LastIntroduced (.text "build()".toList) :=
            Data.Edits.lastIntroduced_concat rfl _
          have kept : third.LastIntroduced (.text "build()".toList) := introduced.concat rfl _
          rw [build]
          exact kept.concat rfl (.text "c".toList)
        rw [Data.Edits.last?_congr (final.sameKey introduced), build] at said
        obtain rfl := Option.some.inj said
        rfl
      · rw [check]
        intro spelling
        simp only [Data.Edits.last?, given, taken, List.map_cons, List.map_nil, Prod.map_apply, id_eq,
          List.filter]
        cases (Scalar.text "check".toList).sameKey spelling
        all_goals cases (Scalar.text "check()".toList).sameKey spelling
        all_goals rfl

/-- A null takes nothing away in another spelling, and a value in another spelling decides if that
came in later. A null for the whole section takes everything away. -/
theorem lookup_of_load_respelled :
    let tree (text : String) : Files.Tree :=
      ⟨[(["c.yaml".toList], .file (Text.Utf8.encode text.toList))], [], []⟩
    let build (text : String) :=
      (load Yaml.plainReader (tree text) (.ofText "/h".toList) (some (.ofText "c.yaml".toList))
        none).toOption.map (·.functions.lookup "build".toList)
    build "functions:\n  build(): null\n" = some (some "build".toList) ∧
      build "functions:\n  build(): make\n  build: ninja\n" = some (some "make".toList) ∧
      build "functions: null\n" = some none := by
  decide +kernel

end PkgRecipe.Settings
