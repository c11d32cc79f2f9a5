import PkgRecipe.Yaml.Node
import PkgRecipe.Yaml.Reader

namespace PkgRecipe.Yaml

/-! A document between its nodes and its data: scalars are read and merge keys are resolved, and what
has no value is marked as a fault. -/

/-- The value of a scalar. A lone equals sign and a merge key have no value. -/
def scalarValue (text : List Char) (plain : Bool) : Except Fault Scalar :=
  if !plain then .ok (.text text)
  else if text = ['='] ∨ text = ['<', '<'] then .error .malformed
  else (plainValue text).mapError .scalar

def keyValue : Node → Except Fault Scalar
  | .scalar text plain => if text = ['='] then .ok (.text text) else scalarValue text plain
  | _ => .error .malformed

def isMergeKey : Node → Bool
  | .scalar text plain => plain && text = ['<', '<']
  | _ => false

inductive Draft where
  | scalar (value : Except Fault Scalar)
  | sequence (items : List Draft)
  /-- A mapping: its entries, unless a merge key in it has something else than mappings. -/
  | mapping (entries : Option (List (Except Fault Scalar × Draft)))

namespace Draft

abbrev Entries := List (Except Fault Scalar × Draft)

mutual
def ofNode : Node → Draft
  | .scalar text plain => .scalar (scalarValue text plain)
  | .sequence items => .sequence (ofItems items)
  | .mapping entries => .mapping ((sortEntries entries).map fun (merged, own) => merged ++ own)

def ofItems : List Node → List Draft
  | [] => []
  | item :: rest => ofNode item :: ofItems rest

/-- The entries that merge keys bring into a mapping, and its own entries. -/
def sortEntries : List (Node × Node) → Option (Entries × Entries)
  | [] => some ([], [])
  | entry :: rest => do
      let (merged, own) ← sortEntry entry
      let (moreMerged, moreOwn) ← sortEntries rest
      return (merged ++ moreMerged, own ++ moreOwn)

def sortEntry : Node × Node → Option (Entries × Entries)
  | (key, value) =>
      if isMergeKey key then (mergedEntries? value).map (·, [])
      else some ([], [(keyValue key, ofNode value)])

/-- The entries of a mapping, or those of all mappings in a sequence, the last mapping first. -/
def mergedEntries? : Node → Option Entries
  | .scalar _ _ => none
  | .sequence items => mergedItems? items
  | .mapping entries => (sortEntries entries).map fun (merged, own) => merged ++ own

def mergedItems? : List Node → Option Entries
  | [] => some []
  | item :: rest => do
      let entries ← entries? item
      return (← mergedItems? rest) ++ entries

def entries? : Node → Option Entries
  | .mapping entries => (sortEntries entries).map fun (merged, own) => merged ++ own
  | _ => none
end

/-- Two rows of faults side by side; the first fault at each place counts. -/
def alongside : List (Option Fault) → List (Option Fault) → List (Option Fault)
  | [], faults => faults
  | faults, [] => faults
  | first :: faults, second :: others => (first <|> second) :: alongside faults others

def faultOf {α : Type} : Except Fault α → List (Option Fault)
  | .error fault => [some fault]
  | .ok _ => []

mutual
/-- The first fault in each round of putting a document together. In a round the collections of one
depth are put together, with the scalars and the keys in them. -/
def rounds : Draft → List (Option Fault)
  | .scalar value => faultOf value
  | .sequence items => none :: itemRounds items
  | .mapping none => [none, some .malformed]
  | .mapping (some entries) => none :: entryRounds entries

def itemRounds : List Draft → List (Option Fault)
  | [] => []
  | item :: rest => alongside (rounds item) (itemRounds rest)

def entryRounds : Entries → List (Option Fault)
  | [] => []
  | entry :: rest => alongside (roundsOfEntry entry) (entryRounds rest)

def roundsOfEntry : Except Fault Scalar × Draft → List (Option Fault)
  | (key, value) => alongside (faultOf key) (rounds value)
end

def fault? (d : Draft) : Option Fault :=
  d.rounds.findSome? id

mutual
/-- The data of a draft. Of equal keys the last value counts, in the place of the first. What is a
fault is left null or out. -/
def toData : Draft → Data
  | .scalar (.ok s) => .scalar s
  | .scalar (.error _) => .null
  | .sequence items => .sequence (itemsData items)
  | .mapping none => .mapping []
  | .mapping (some entries) => .mapping (entriesData entries [])

def itemsData : List Draft → List Data
  | [] => []
  | item :: rest => toData item :: itemsData rest

def entriesData : Entries → Data.Entries → Data.Entries
  | [], read => read
  | entry :: rest, read => entriesData rest (entryData entry read)

def entryData : Except Fault Scalar × Draft → Data.Entries → Data.Entries
  | (.ok key, value), read => read.put key (toData value)
  | (.error _, _), read => read
end

mutual
theorem distinctKeys_toData {entries : Data.Entries} :
    (d : Draft) → d.toData = .mapping entries → entries.DistinctKeys
  | .scalar (.ok s), same => by
      rw [toData] at same
      contradiction
  | .scalar (.error fault), same => by
      rw [toData] at same
      contradiction
  | .sequence items, same => by
      rw [toData] at same
      contradiction
  | .mapping none, same => by
      rw [toData] at same
      cases same
      exact .intro List.Pairwise.nil nofun
  | .mapping (some drafts), same => by
      rw [toData] at same
      cases same
      exact distinctKeys_entriesData drafts (.intro List.Pairwise.nil nofun)

theorem distinctKeys_entriesData {read : Data.Entries} :
    (drafts : Entries) → read.DistinctKeys → (entriesData drafts read).DistinctKeys
  | [], keys => by
      rw [entriesData]
      exact keys
  | draft :: rest, keys => by
      rw [entriesData]
      exact distinctKeys_entriesData rest (distinctKeys_entryData draft keys)

theorem distinctKeys_entryData {read : Data.Entries} :
    (draft : Except Fault Scalar × Draft) → read.DistinctKeys → (entryData draft read).DistinctKeys
  | (.ok key, value), keys => by
      rw [entryData]
      exact keys.put key fun part same => distinctKeys_toData value same
  | (.error fault, value), keys => by
      rw [entryData]
      exact keys
end

end Draft

end PkgRecipe.Yaml
