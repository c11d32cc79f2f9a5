import PkgRecipe.Proofs.Data.Merge
import PkgRecipe.Proofs.Settings.LayerOrder
import PkgRecipe.Yaml.Document

namespace PkgRecipe

namespace Data

private theorem overlay_of_not_isMapping {value : Data} (single : value.isMapping = false)
    (below : Option Data) : overlay below value = (some value).filter (!·.isNull) := by
  cases value with
  | scalar s => cases s <;> rfl
  | sequence items => rfl
  | mapping entries => contradiction

end Data

namespace Settings

def mention? (part key : Scalar) (layer : Data.Entries) : Option Data :=
  match layer.find? part with
  | some (.mapping entries) => Data.Entries.find? key entries
  | _ => none

theorem mention?_of_mapping {part : Scalar} {layer entries : Data.Entries}
    (found : layer.find? part = some (.mapping entries)) (key : Scalar) :
    mention? part key layer = entries.find? key := by
  rw [mention?, found]

/-- What the last layer that mentions a key of a section gives under it. -/
def lastMention? (part key : Scalar) (layers : List Data.Entries) : Option Data :=
  (layers.filterMap (mention? part key)).getLast?

theorem lastMention?_cons (part key : Scalar) (layer : Data.Entries) (layers : List Data.Entries) :
    lastMention? part key (layer :: layers) =
      (lastMention? part key layers).or (mention? part key layer) := by
  have first : ([layer].filterMap (mention? part key)).getLast? = mention? part key layer := by
    rw [List.filterMap_cons]
    cases mention? part key layer with
    | none => rfl
    | some value => rfl
  rw [lastMention?, ← List.singleton_append, List.filterMap_append, List.getLast?_append, first]
  rfl

/-- A section holds under a key what was given last, unless that is null. -/
def HoldsLast (part key : Scalar) (last : Option Data) (merged : Data.Entries) : Prop :=
  ∃ entries : Data.Entries, merged.find? part = some (.mapping entries) ∧
    entries.find? key = last.filter (!·.isNull)

variable {part key : Scalar}

theorem HoldsLast.merge {last : Option Data} {base layer : Data.Entries}
    (holds : HoldsLast part key last base) (keys : layer.DistinctKeys)
    (mapping : ∀ value ∈ layer.find? part, value.isMapping = true)
    (single : ∀ value ∈ mention? part key layer, value.isMapping = false) :
    HoldsLast part key ((mention? part key layer).or last) (Data.merge base layer) := by
  obtain ⟨under, found, value⟩ := holds
  unfold HoldsLast
  rw [Data.merge, Data.find?_mergeEntries, keys.distinct.given, found]
  cases given : layer.find? part with
  | none =>
      rw [mention?, given]
      exact ⟨under, rfl, value⟩
  | some data =>
      cases data with
      | scalar s => exact absurd (mapping _ given) Bool.false_ne_true
      | sequence items => exact absurd (mapping _ given) Bool.false_ne_true
      | mapping entries =>
          rw [mention?_of_mapping given] at single ⊢
          refine ⟨Data.mergeEntries under entries, rfl, ?_⟩
          rw [Data.find?_mergeEntries, (keys.inner given).distinct.given]
          cases said : Data.Entries.find? key entries with
          | none => exact value
          | some data => exact Data.overlay_of_not_isMapping (single data said) _

theorem HoldsLast.foldl_merge {last : Option Data} {base : Data.Entries}
    (holds : HoldsLast part key last base) {layers : List Data.Entries}
    (each : ∀ layer ∈ layers, layer.DistinctKeys)
    (mapping : ∀ layer ∈ layers, ∀ value ∈ layer.find? part, value.isMapping = true)
    (single : ∀ layer ∈ layers, ∀ value ∈ mention? part key layer, value.isMapping = false) :
    HoldsLast part key ((lastMention? part key layers).or last)
      (layers.foldl Data.merge base) := by
  induction layers generalizing last base with
  | nil => exact holds
  | cons layer layers ih =>
      obtain ⟨here, later⟩ := List.forall_mem_cons.1 each
      obtain ⟨mapping, mapping'⟩ := List.forall_mem_cons.1 mapping
      obtain ⟨single, single'⟩ := List.forall_mem_cons.1 single
      rw [lastMention?_cons, Option.or_assoc]
      exact ih (holds.merge here mapping single) later mapping' single'

def isPlain : Data → Bool
  | .mapping entries => entries.all (!·.2.isNull)
  | _ => false

theorem holdsLast_defaults (builtIn : part ∈ defaults.map Prod.fst) (key : Scalar) :
    HoldsLast part key (mention? part key defaults) defaults := by
  obtain ⟨entry, member, rfl⟩ := List.mem_map.1 builtIn
  have found := distinctKeys_defaults.distinct.find?_of_mem member
  have plain : ∀ entry ∈ defaults, isPlain entry.2 = true := by decide +kernel
  have here := plain entry member
  cases data : entry.2 with
  | scalar s =>
      rw [data] at here
      contradiction
  | sequence items =>
      rw [data] at here
      contradiction
  | mapping entries =>
      rw [data] at here found
      refine ⟨entries, found, ?_⟩
      rw [mention?_of_mapping found]
      cases given : Data.Entries.find? key entries with
      | none => rfl
      | some value =>
          obtain ⟨key', -, member⟩ := Data.Entries.mem_of_find? given
          have kept : (!value.isNull) = true := List.all_eq_true.1 here _ member
          rw [Option.filter_some, if_pos kept]

/-- Where sections are mappings and values are not, the last layer that mentions a key of a section
decides: the key has the value it gives, or none if this is null. It does not matter in which order
directories list their files. -/
theorem mergedData_lastMention {yaml : Yaml.Reader} {tree : Files.Tree} {home : Files.Path}
    {file directory : Option Files.Path} {main : Data.Entries} {others : List Data.Entries}
    (first : HoldsLayer yaml tree (mainFile home file) main)
    (dropIns : DropInLayers yaml tree (dropInDirectory home directory) others) :
    ∃ merged, mergedData yaml tree home file directory = .ok merged ∧
      load yaml tree home file directory = ofEntries merged ∧
      (∀ part ∈ defaults.map Prod.fst,
        (∀ layer ∈ main :: others, ∀ value ∈ layer.find? part, value.isMapping = true) →
        ∀ key,
          (∀ layer ∈ defaults :: main :: others, ∀ value ∈ mention? part key layer,
            value.isMapping = false) →
          ∃ entries : Data.Entries, merged.find? part = some (.mapping entries) ∧
            let last := lastMention? part key (defaults :: main :: others)
            (∀ value, last = some value → value ≠ .null → entries.find? key = some value) ∧
              (last = some .null ∨ last = none → entries.find? key = none)) ∧
      ∀ other : Files.Tree, other.Relists tree →
        mergedData yaml other home file directory = .ok merged ∧
          load yaml other home file directory = load yaml tree home file directory := by
  have merged := mergedData_eq_ok_iff.2 ⟨main, others, first, dropIns, rfl⟩
  refine ⟨_, merged, load_of_layers first dropIns, fun part builtIn mapping key single => ?_,
    fun other relists => ?_⟩
  · have each := List.forall_mem_cons.2 ⟨first.distinctKeys, dropIns.distinctKeys⟩
    obtain ⟨-, single⟩ := List.forall_mem_cons.1 single
    have holds := (holdsLast_defaults builtIn key).foldl_merge each mapping single
    rw [← lastMention?_cons] at holds
    obtain ⟨entries, found, value⟩ := holds
    refine ⟨entries, found, fun given last other => ?_, fun taken => ?_⟩
    · rw [value, last, Option.filter_some, if_pos (Data.not_isNull_iff.2 other)]
    · rw [value]
      rcases taken with last | last
      · rw [last]
        rfl
      · rw [last]
        rfl
  · have same := mergedData_eq_of_relists yaml relists home file directory
    exact ⟨same.trans merged, by rw [load_eq_mergedData, load_eq_mergedData, same]⟩

theorem mergedData_lastMention_removed :
    let home : Files.Path := .ofText "/h".toList
    let tree : Files.Tree := ⟨[
      (["h", ".config", "pkgbuild-convert", "config.yaml"].map String.toList,
        .file (Text.Utf8.encode "functions:\n  build: compile\n  check: test\n".toList)),
      (["h".toList], .directory), (["h", ".config"].map String.toList, .directory),
      (["h", ".config", "pkgbuild-convert"].map String.toList, .directory),
      (["w".toList], .directory), (["w", "d"].map String.toList, .directory),
      (["w", "d", "2.yml"].map String.toList,
        .file (Text.Utf8.encode "functions:\n  build: null\n".toList)),
      (["w", "d", "3.yaml"].map String.toList, .directory),
      (["w", "d", "1.yaml"].map String.toList,
        .file (Text.Utf8.encode "functions:\n  build: make\n  check: verify\n".toList))],
      ["w".toList], []⟩
    let directory : Option Files.Path := some (.ofText "d".toList)
    ∃ merged, mergedData Yaml.plainReader tree home none directory = .ok merged ∧
      (∃ entries : Data.Entries, merged.find? (.text "functions".toList) = some (.mapping entries) ∧
        entries.find? (.text "build".toList) = none) ∧
      (∃ entries : Data.Entries, merged.find? (.text "functions".toList) = some (.mapping entries) ∧
        entries.find? (.text "check".toList) = some (.text "verify".toList)) ∧
      mergedData Yaml.plainReader { tree with entries := tree.entries.reverse } home none directory =
        .ok merged := by
  intro home tree directory
  let functions : Scalar := .text "functions".toList
  let child (name : String) : Files.Path := (Files.Path.ofText "d".toList).child name.toList
  let read (path : Files.Path) : Option Data.Entries :=
    (readLayer Yaml.plainReader tree path).toOption
  let Single (key : String) (layers : List Data.Entries) : Prop :=
    ∀ layer ∈ layers, ∀ value ∈ mention? functions (.text key.toList) layer, value.isMapping = false
  let last (key : String) (layers : List Data.Entries) : Option Scalar :=
    (lastMention? functions (.text key.toList) layers).bind Data.scalar?
  obtain ⟨main, first, one, read', two, read'', mapping, single, single', last, last'⟩ :
      ∃ main ∈ read (mainFile home none), ∃ one ∈ read (child "1.yaml"), ∃ two ∈ read (child "2.yml"),
        (∀ layer ∈ [main, one, two], ∀ value ∈ layer.find? functions, value.isMapping = true) ∧
          Single "build" [defaults, main, one, two] ∧ Single "check" [defaults, main, one, two] ∧
          last "build" [defaults, main, one, two] = some .null ∧
          last "check" [defaults, main, one, two] = some (.text "verify".toList) := by
    decide +kernel
  have found : tree.find (dropInDirectory home directory) = .directory (["w", "d"].map String.toList) := by
    decide +kernel
  have dropIns : DropInLayers Yaml.plainReader tree (dropInDirectory home directory) [one, two] :=
    .of_reads ["1.yaml".toList, "2.yml".toList] found (by decide +kernel) (by decide +kernel)
      (by decide +kernel) (by decide) (.cons read' (.cons read'' .nil))
  obtain ⟨merged, data, -, decided, relisted⟩ :=
    mergedData_lastMention (holdsLayer_of_mem_toOption first) dropIns
  have builtIn : functions ∈ defaults.map Prod.fst := by decide +kernel
  obtain ⟨entries, found, -, removed⟩ := decided functions builtIn mapping _ single
  obtain ⟨entries', found', given, -⟩ := decided functions builtIn mapping _ single'
  refine ⟨merged, data, ⟨entries, found, removed (.inl ?_)⟩, ⟨entries', found', given _ ?_ nofun⟩, ?_⟩
  · obtain ⟨value, last, null⟩ := Option.bind_eq_some_iff.1 last
    rw [last, Data.scalar?_eq_some_iff.1 null]
    rfl
  · obtain ⟨value, last, text⟩ := Option.bind_eq_some_iff.1 last'
    rw [last, Data.scalar?_eq_some_iff.1 text]
    rfl
  · exact (relisted _ (Files.Tree.relists_of_perm (List.reverse_perm _) (by decide))).1

end Settings

end PkgRecipe
