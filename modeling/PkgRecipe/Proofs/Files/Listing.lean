import Mathlib.Data.List.Perm.Basic
import PkgRecipe.Files.Tree
import PkgRecipe.Proofs.Table

namespace PkgRecipe.Files

/-- The same content, in directories that may list their names in another order. -/
structure Tree.Relists (other tree : Tree) : Prop where
  content : ∀ location, other.at? location = tree.at? location
  listed : ∀ location, (other.names location).Perm (tree.names location)
  working : other.working = tree.working
  forbidden : other.forbidden = tree.forbidden

/-- Each location stands in a tree once, so the order of its entries is that of the listings alone. -/
theorem Tree.relists_of_perm {tree : Tree} {entries : List (Location × Content)}
    (perm : entries.Perm tree.entries) (nodup : (tree.entries.map Prod.fst).Nodup) :
    Tree.Relists { tree with entries } tree where
  working := rfl
  forbidden := rfl
  content location := by
    cases location with
    | nil => rfl
    | cons name rest => exact (lookup_of_perm perm.symm nodup _).symm
  listed location := perm.filterMap _

namespace Tree.Relists

variable {other tree : Tree} (relists : other.Relists tree)

include relists

theorem forbids (location : Location) (right : Right) :
    other.forbids location right = tree.forbids location right := by
  simp only [Tree.forbids, relists.forbidden]

theorem foundAt (here : Location) : other.foundAt here = tree.foundAt here := by
  simp only [Tree.foundAt, relists.content]

theorem follow (here : Location) (parts : List (List Char)) :
    other.follow here parts = tree.follow here parts := by
  induction parts generalizing here with
  | nil => exact relists.foundAt here
  | cons part rest ih => simp only [Tree.follow, relists.foundAt, relists.forbids, ih]

theorem find (path : Path) : other.find path = tree.find path := by
  simp only [Tree.find, relists.working, relists.follow]

theorem read (path : Path) : other.read path = tree.read path := by
  simp only [Tree.read, relists.find, relists.forbids]

end Tree.Relists

end PkgRecipe.Files
