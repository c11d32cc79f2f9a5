import PkgRecipe.Proofs.Data.Entries
import PkgRecipe.Proofs.Settings.NamedSection
import PkgRecipe.Settings.Layers

namespace PkgRecipe

namespace Files.Found

def isFile : Found → Bool
  | file _ _ => true
  | _ => false

def isDirectory : Found → Bool
  | directory _ => true
  | _ => false

/-- Whether it cannot even be told that nothing is there. -/
def isHidden : Found → Bool
  | denied | tooLong => true
  | _ => false

end Files.Found

namespace Settings

theorem mapError_eq_ok_iff {ε ε' α : Type} {f : ε → ε'} {x : Except ε α} {a : α} :
    x.mapError f = .ok a ↔ x = .ok a := by
  cases x with
  | error fault => exact ⟨nofun, nofun⟩
  | ok b => exact ⟨fun same => congrArg Except.ok (Except.ok.inj same), fun same => same ▸ rfl⟩

/-- A layer in a file: nothing if the file is missing or empty, otherwise the mapping in it. -/
inductive HoldsLayer (yaml : Yaml.Reader) (tree : Files.Tree) (path : Files.Path) :
    Data.Entries → Prop where
  | missing (absent : (tree.find path).isFile = false)
      (reachable : (tree.find path).isHidden = false) : HoldsLayer yaml tree path []
  | empty {bytes : List UInt8} {text : List Char} (isFile : (tree.find path).isFile = true)
      (read : tree.read path = .ok bytes) (decoded : Files.readText bytes = .ok text)
      (loaded : yaml.load text = .ok .null) : HoldsLayer yaml tree path []
  | mapping {bytes : List UInt8} {text : List Char} {entries : Data.Entries}
      (isFile : (tree.find path).isFile = true) (read : tree.read path = .ok bytes)
      (decoded : Files.readText bytes = .ok text)
      (loaded : yaml.load text = .ok (.mapping entries)) : HoldsLayer yaml tree path entries

section Layer

variable {yaml : Yaml.Reader} {tree : Files.Tree} {path : Files.Path} {layer : Data.Entries}

theorem HoldsLayer.distinctKeys (holds : HoldsLayer yaml tree path layer) :
    layer.DistinctKeys := by
  cases holds with
  | missing => exact .nil
  | empty => exact .nil
  | mapping _ _ _ loaded => exact yaml.distinctKeys loaded

theorem HoldsLayer.isHidden_find (holds : HoldsLayer yaml tree path layer) :
    (tree.find path).isHidden = false := by
  have reachable (isFile : (tree.find path).isFile = true) : (tree.find path).isHidden = false := by
    cases found : tree.find path with
    | file location bytes => rfl
    | _ =>
        rw [found] at isFile
        contradiction
  cases holds with
  | missing _ reachable => exact reachable
  | empty isFile => exact reachable isFile
  | mapping isFile => exact reachable isFile

private theorem readLayer_of_isFile (isFile : (tree.find path).isFile = true) :
    readLayer yaml tree path = (do
      let bytes ← (tree.read path).mapError .unreachable
      let text ← (Files.readText bytes).mapError .undecodable
      match ← (yaml.load text).mapError .unreadable with
      | .scalar .null => return []
      | .mapping entries => return entries
      | _ => throw (.noMapping path.text)) := by
  unfold readLayer
  cases found : tree.find path with
  | file location bytes => rfl
  | _ =>
      rw [found] at isFile
      contradiction

private theorem readLayer_of_not_isFile (absent : (tree.find path).isFile = false) :
    readLayer yaml tree path = .ok layer ↔ (tree.find path).isHidden = false ∧ layer = [] := by
  unfold readLayer
  cases found : tree.find path with
  | file location bytes =>
      rw [found] at absent
      contradiction
  | denied => exact ⟨nofun, fun reachable => nomatch reachable.1⟩
  | tooLong => exact ⟨nofun, fun reachable => nomatch reachable.1⟩
  | _ => exact ⟨fun same => ⟨rfl, (Except.ok.inj same).symm⟩, fun same => same.2 ▸ rfl⟩

theorem readLayer_eq_ok_iff :
    readLayer yaml tree path = .ok layer ↔ HoldsLayer yaml tree path layer := by
  cases isFile : (tree.find path).isFile with
  | true =>
      rw [readLayer_of_isFile isFile]
      simp only [bind_eq_ok_iff, mapError_eq_ok_iff]
      constructor
      · rintro ⟨bytes, read, text, decoded, data, loaded, same⟩
        split at same
        · cases same
          exact .empty isFile read decoded loaded
        · cases same
          exact .mapping isFile read decoded loaded
        · contradiction
      · intro holds
        cases holds with
        | missing absent =>
            rw [isFile] at absent
            contradiction
        | empty _ read decoded loaded => exact ⟨_, read, _, decoded, _, loaded, rfl⟩
        | mapping _ read decoded loaded => exact ⟨_, read, _, decoded, _, loaded, rfl⟩
  | false =>
      rw [readLayer_of_not_isFile isFile]
      constructor
      · rintro ⟨reachable, rfl⟩
        exact .missing isFile reachable
      · intro holds
        cases holds with
        | missing _ reachable => exact ⟨reachable, rfl⟩
        | empty isFile' =>
            rw [isFile] at isFile'
            contradiction
        | mapping isFile' =>
            rw [isFile] at isFile'
            contradiction

theorem holdsLayer_of_mem_toOption (read : layer ∈ (readLayer yaml tree path).toOption) :
    HoldsLayer yaml tree path layer := by
  refine readLayer_eq_ok_iff.1 ?_
  cases same : readLayer yaml tree path with
  | error fault =>
      rw [same] at read
      contradiction
  | ok other =>
      rw [same] at read
      exact congrArg Except.ok (Option.some.inj read)

end Layer

instance (entries : Data.Entries) : Decidable entries.Distinct :=
  inferInstanceAs (Decidable (List.Pairwise _ _))

def isFlatSection : Data → Bool
  | .mapping part => decide (Data.Entries.Distinct part) && part.all (!·.2.isMapping)
  | _ => false

private theorem distinctKeys_of_isFlatSection {part : Data.Entries}
    (flat : isFlatSection (.mapping part) = true) : part.DistinctKeys := by
  obtain ⟨distinct, single⟩ := (Bool.and_eq_true _ _).mp flat
  refine .intro (of_decide_eq_true distinct) fun entry member inner same => ?_
  have here := List.all_eq_true.1 single entry member
  rw [same] at here
  contradiction

theorem distinctKeys_defaults : defaults.DistinctKeys := by
  refine .intro (by decide +kernel) fun entry member part same => ?_
  have each : ∀ entry ∈ defaults, isFlatSection entry.2 = true := by decide +kernel
  have here := each entry member
  rw [same] at here
  exact distinctKeys_of_isFlatSection here

section Merged

variable (yaml : Yaml.Reader) (tree : Files.Tree) (home : Files.Path)
  (file directory : Option Files.Path)

def mergedData : Except Fault Data.Entries := do
  let base := Data.merge defaults (← readLayer yaml tree (mainFile home file))
  mergeDirectory yaml tree (dropInDirectory home directory) base

theorem load_eq_mergedData :
    load yaml tree home file directory =
      mergedData yaml tree home file directory >>= ofEntries := by
  unfold load mergedData
  cases readLayer yaml tree (mainFile home file) with
  | error fault => rfl
  | ok main => rfl

end Merged

def builtIn : Settings :=
  (ofEntries (Data.merge defaults [])).toOption.getD {}

theorem ofEntries_defaults : ofEntries (Data.merge defaults []) = .ok builtIn := by
  have accepted : (ofEntries (Data.merge defaults [])).toOption.isSome = true := by decide +kernel
  unfold builtIn
  cases settings : ofEntries (Data.merge defaults []) with
  | ok s => rfl
  | error fault =>
      rw [settings] at accepted
      contradiction

end Settings

end PkgRecipe
