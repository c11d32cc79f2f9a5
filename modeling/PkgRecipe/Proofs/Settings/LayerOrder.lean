import PkgRecipe.Proofs.Files.Listing
import PkgRecipe.Proofs.Settings.LayerFiles

namespace PkgRecipe.Settings

/-! The order of layers: the main file first, then the regular files of the drop-in directory by
their names, in whatever order it lists them. -/

theorem precedes_iff {first second : List Char} :
    precedes first second = true ↔ ¬second < first := by
  induction first generalizing second with
  | nil => simp [precedes]
  | cons a first ih =>
      cases second with
      | nil => simp [precedes]
      | cons b second =>
          rw [precedes, List.cons_lt_cons_iff, Bool.or_eq_true, Bool.and_eq_true, ih,
            decide_eq_true_eq, decide_eq_true_eq]
          have order (c d : Char) : c < d ↔ c.toNat < d.toNat := UInt32.lt_iff_toNat_lt
          rw [order]
          rcases Nat.lt_trichotomy a.toNat b.toNat with before | same | behind
          · have differ : b ≠ a := fun same => absurd before (same ▸ Nat.lt_irrefl _)
            simp [before, differ, Nat.lt_asymm before]
          · obtain rfl := Char.toNat_inj.1 same
            simp
          · have differ : a ≠ b := fun same => absurd behind (same ▸ Nat.lt_irrefl _)
            simp [behind, differ, Nat.lt_asymm behind]

theorem eq_of_precedes {first second : List (List Char)} (perm : first.Perm second)
    (sorted : first.Pairwise fun name later => ¬later < name)
    (sorted' : second.Pairwise fun name later => ¬later < name) : first = second :=
  perm.eq_of_pairwise (fun _ _ _ _ => List.le_antisymm) sorted sorted'

def isLayerName (name : List Char) : Bool :=
  [".yaml".toList, ".yml".toList].contains (Files.ending name)

theorem layerNames_perm (tree : Files.Tree) (location : Files.Location) :
    (layerNames tree location).Perm ((tree.names location).filter isLayerName) :=
  List.mergeSort_perm _ _

theorem pairwise_layerNames (tree : Files.Tree) (location : Files.Location) :
    (layerNames tree location).Pairwise fun name later => ¬later < name := by
  refine List.Pairwise.imp precedes_iff.1 (List.pairwise_mergeSort ?_ ?_ _)
  · intro a b c before behind
    rw [precedes_iff] at before behind ⊢
    exact List.le_trans before behind
  · intro a b
    rw [Bool.or_eq_true, precedes_iff, precedes_iff]
    exact List.le_total a b

theorem layerNames_eq_of_relists {other tree : Files.Tree} (relists : other.Relists tree)
    (location : Files.Location) : layerNames other location = layerNames tree location := by
  refine eq_of_precedes ?_ (pairwise_layerNames _ _) (pairwise_layerNames _ _)
  exact (layerNames_perm other location).trans
    (((relists.listed location).filter _).trans (layerNames_perm tree location).symm)

theorem readLayer_eq_of_relists (yaml : Yaml.Reader) {other tree : Files.Tree}
    (relists : other.Relists tree) (path : Files.Path) :
    readLayer yaml other path = readLayer yaml tree path := by
  simp only [readLayer, relists.find, relists.read]

theorem mergedData_eq_of_relists (yaml : Yaml.Reader) {other tree : Files.Tree}
    (relists : other.Relists tree) (home : Files.Path) (file directory : Option Files.Path) :
    mergedData yaml other home file directory = mergedData yaml tree home file directory := by
  have read : readLayer yaml other = readLayer yaml tree :=
    funext (readLayer_eq_of_relists yaml relists)
  have merged : mergeDirectory yaml other = mergeDirectory yaml tree := by
    funext path base
    simp only [mergeDirectory, relists.find, relists.forbids, layerNames_eq_of_relists relists, read]
  unfold mergedData
  rw [read, merged]

/-- The layers in a directory, if there is one: its regular files whose names end as those of layers
do, by increasing name. -/
inductive DropInLayers (yaml : Yaml.Reader) (tree : Files.Tree) (path : Files.Path) :
    List Data.Entries → Prop where
  | missing (absent : (tree.find path).isDirectory = false)
      (reachable : (tree.find path).isHidden = false) : DropInLayers yaml tree path []
  | directory {location : Files.Location} {files : List (List Char × Data.Entries)}
      (found : tree.find path = .directory location)
      (listed : tree.forbids location .read = false)
      (reachable : ∀ name ∈ tree.names location, isLayerName name = true →
        (tree.find (path.child name)).isHidden = false)
      (regular : (files.map Prod.fst).Perm ((tree.names location).filter fun name =>
        isLayerName name && (tree.find (path.child name)).isFile))
      (increasing : (files.map Prod.fst).Pairwise fun name later => ¬later < name)
      (holds : ∀ file ∈ files, HoldsLayer yaml tree (path.child file.1) file.2) :
      DropInLayers yaml tree path (files.map Prod.snd)

section Directory

variable {yaml : Yaml.Reader} {tree : Files.Tree} {path : Files.Path}

/-- Files that are laid over data one after the other. What is no regular file changes nothing. -/
theorem foldlM_eq_ok_iff {names : List (List Char)} {base merged : Data.Entries} :
    names.foldlM
        (fun merged name => return Data.merge merged (← readLayer yaml tree (path.child name))) base =
      .ok merged ↔
    (∀ name ∈ names, (tree.find (path.child name)).isHidden = false) ∧
      ∃ files : List (List Char × Data.Entries),
        files.map Prod.fst = names.filter (fun name => (tree.find (path.child name)).isFile) ∧
          (∀ file ∈ files, HoldsLayer yaml tree (path.child file.1) file.2) ∧
          merged = (files.map Prod.snd).foldl Data.merge base := by
  induction names generalizing base with
  | nil =>
      constructor
      · intro same
        cases same
        exact ⟨nofun, [], rfl, nofun, rfl⟩
      · rintro ⟨-, files, regular, -, rfl⟩
        rw [List.map_eq_nil_iff.1 regular]
        rfl
  | cons name names ih =>
      rw [List.foldlM_cons, bind_assoc]
      simp only [pure_bind, bind_eq_ok_iff, readLayer_eq_ok_iff, ih, List.forall_mem_cons,
        List.filter_cons]
      constructor
      · rintro ⟨layer, holds, reachable, files, regular, each, rfl⟩
        refine ⟨⟨holds.isHidden_find, reachable⟩, ?_⟩
        split
        · exact ⟨(name, layer) :: files, congrArg (name :: ·) regular,
            List.forall_mem_cons.2 ⟨holds, each⟩, rfl⟩
        · rename_i noFile
          cases holds with
          | missing => exact ⟨files, regular, each, rfl⟩
          | empty isFile => exact absurd isFile noFile
          | mapping isFile => exact absurd isFile noFile
      · rintro ⟨⟨reachable, reachable'⟩, files, regular, each, rfl⟩
        split at regular
        · obtain ⟨file, files, rfl, rfl, regular'⟩ := List.map_eq_cons_iff.1 regular
          obtain ⟨holds, each⟩ := List.forall_mem_cons.1 each
          exact ⟨file.2, holds, reachable', files, regular', each, rfl⟩
        · rename_i noFile
          -- the name is read all the same, as a layer without entries
          exact ⟨[], .missing (Bool.eq_false_iff.2 noFile) reachable, reachable', files, regular,
            each, rfl⟩

private theorem mergeDirectory_of_not_isDirectory (other : (tree.find path).isDirectory = false)
    {base merged : Data.Entries} :
    mergeDirectory yaml tree path base = .ok merged ↔
      (tree.find path).isHidden = false ∧ merged = base := by
  unfold mergeDirectory
  cases found : tree.find path with
  | directory location =>
      rw [found] at other
      contradiction
  | denied => exact ⟨nofun, fun shown => nomatch shown.1⟩
  | tooLong => exact ⟨nofun, fun shown => nomatch shown.1⟩
  | _ => exact ⟨fun same => ⟨rfl, (Except.ok.inj same).symm⟩, fun same => same.2 ▸ rfl⟩

private theorem filter_layerNames_perm (tree : Files.Tree) (location : Files.Location)
    (path : Files.Path) :
    ((layerNames tree location).filter fun name => (tree.find (path.child name)).isFile).Perm
      ((tree.names location).filter fun name =>
        isLayerName name && (tree.find (path.child name)).isFile) := by
  refine ((layerNames_perm tree location).filter _).trans ?_
  rw [List.filter_filter]
  simp only [Bool.and_comm, List.Perm.refl]

theorem mergeDirectory_eq_ok_iff {base merged : Data.Entries} :
    mergeDirectory yaml tree path base = .ok merged ↔
      ∃ layers, DropInLayers yaml tree path layers ∧ merged = layers.foldl Data.merge base := by
  cases isDirectory : (tree.find path).isDirectory with
  | false =>
      rw [mergeDirectory_of_not_isDirectory isDirectory]
      constructor
      · rintro ⟨reachable, rfl⟩
        exact ⟨[], .missing isDirectory reachable, rfl⟩
      · rintro ⟨layers, dropIns, rfl⟩
        cases dropIns with
        | missing _ reachable => exact ⟨reachable, rfl⟩
        | directory found =>
            rw [found] at isDirectory
            contradiction
  | true =>
      obtain ⟨location, found⟩ : ∃ location, tree.find path = .directory location := by
        cases found : tree.find path with
        | directory location => exact ⟨location, rfl⟩
        | _ =>
            rw [found] at isDirectory
            contradiction
      have among (name : List Char) : name ∈ layerNames tree location ↔ _ :=
        (layerNames_perm tree location).mem_iff
      have sorted := (pairwise_layerNames tree location).filter
        fun name => (tree.find (path.child name)).isFile
      rw [mergeDirectory, found]
      dsimp only
      constructor
      · intro merges
        split at merges
        · contradiction
        · rename_i listed
          obtain ⟨reachable, files, regular, holds, rfl⟩ := foldlM_eq_ok_iff.1 merges
          refine ⟨_, .directory found (Bool.eq_false_iff.2 listed) ?_ ?_ (regular ▸ sorted) holds, rfl⟩
          · exact fun name listed isLayer =>
              reachable name ((among name).2 (List.mem_filter.2 ⟨listed, isLayer⟩))
          · rw [regular]
            exact filter_layerNames_perm tree location path
      · rintro ⟨layers, dropIns, rfl⟩
        cases dropIns with
        | missing absent =>
            rw [isDirectory] at absent
            contradiction
        | @directory location' files found' listed reachable regular increasing holds =>
            obtain rfl := Files.Found.directory.inj (found.symm.trans found')
            rw [if_neg (Bool.eq_false_iff.1 listed), foldlM_eq_ok_iff]
            refine ⟨fun name member => ?_, files, eq_of_precedes ?_ increasing sorted, holds, rfl⟩
            · obtain ⟨listed, ending⟩ := List.mem_filter.1 ((among name).1 member)
              exact reachable name listed ending
            · exact regular.trans (filter_layerNames_perm tree location path).symm

theorem DropInLayers.of_reads {location : Files.Location} (names : List (List Char))
    {layers : List Data.Entries} (found : tree.find path = .directory location)
    (listed : tree.forbids location .read = false)
    (reachable : ∀ name ∈ tree.names location, isLayerName name = true →
      (tree.find (path.child name)).isHidden = false)
    (regular : names.Perm ((tree.names location).filter fun name =>
      isLayerName name && (tree.find (path.child name)).isFile))
    (increasing : names.Pairwise fun name later => ¬later < name)
    (reads : List.Forall₂
      (fun name layer => layer ∈ (readLayer yaml tree (path.child name)).toOption) names layers) :
    DropInLayers yaml tree path layers := by
  obtain ⟨same, each⟩ := List.forall₂_iff_zip.1 reads
  have first : (names.zip layers).map Prod.fst = names := List.map_fst_zip (Nat.le_of_eq same)
  have second : (names.zip layers).map Prod.snd = layers := List.map_snd_zip (Nat.le_of_eq same.symm)
  rw [← second]
  exact .directory found listed reachable (first.symm ▸ regular) (first.symm ▸ increasing)
    fun file member => holdsLayer_of_mem_toOption (each member)

theorem DropInLayers.distinctKeys {layers : List Data.Entries}
    (dropIns : DropInLayers yaml tree path layers) : ∀ layer ∈ layers, layer.DistinctKeys := by
  cases dropIns with
  | missing => exact nofun
  | directory _ _ _ _ _ holds =>
      intro layer member
      obtain ⟨file, present, rfl⟩ := List.mem_map.1 member
      exact (holds file present).distinctKeys

end Directory

section Layers

variable {yaml : Yaml.Reader} {tree : Files.Tree} {home : Files.Path}
  {file directory : Option Files.Path}

theorem mergedData_eq_ok_iff {merged : Data.Entries} :
    mergedData yaml tree home file directory = .ok merged ↔
      ∃ main others, HoldsLayer yaml tree (mainFile home file) main ∧
        DropInLayers yaml tree (dropInDirectory home directory) others ∧
        merged = (main :: others).foldl Data.merge defaults := by
  simp only [mergedData, bind_eq_ok_iff, readLayer_eq_ok_iff, mergeDirectory_eq_ok_iff]
  constructor
  · rintro ⟨main, first, others, dropIns, rfl⟩
    exact ⟨main, others, first, dropIns, rfl⟩
  · rintro ⟨main, others, first, dropIns, rfl⟩
    exact ⟨main, first, others, dropIns, rfl⟩

theorem load_of_layers {main : Data.Entries} {others : List Data.Entries}
    (first : HoldsLayer yaml tree (mainFile home file) main)
    (dropIns : DropInLayers yaml tree (dropInDirectory home directory) others) :
    load yaml tree home file directory =
      ofEntries ((main :: others).foldl Data.merge defaults) := by
  rw [load_eq_mergedData, mergedData_eq_ok_iff.2 ⟨main, others, first, dropIns, rfl⟩]
  rfl

theorem load_of_missing (absent : (tree.find (mainFile home file)).isFile = false)
    (reachable : (tree.find (mainFile home file)).isHidden = false)
    (absent' : (tree.find (dropInDirectory home directory)).isDirectory = false)
    (reachable' : (tree.find (dropInDirectory home directory)).isHidden = false) :
    load yaml tree home file directory = .ok builtIn := by
  rw [load_of_layers (.missing absent reachable) (.missing absent' reachable')]
  exact ofEntries_defaults

end Layers

end PkgRecipe.Settings
