import PkgRecipe.Proofs.Recipe.TableSubstitution
import PkgRecipe.Recipe.Document

namespace PkgRecipe.Recipe

/-! The package's name in a recipe. It is put in before the references to other variables are read,
and changes none of them unless it stands where a name may begin or go on. -/

/-- No reference to a name stands behind a text at whose end a name may begin, or a free one may go
on. -/
def StandsApart (name : List Char) (free : List Char → Prop) (text : List Char) : Prop :=
  ∀ before rest after r, text = before ++ '$' :: rest → Refers rest r after → r.name = name →
    ¬Awaits free before

theorem awaits_iff {free : List Char → Prop} {before : List Char} :
    Awaits free before ↔ ∃ last ∈ before.tails, last.head? = some '$' ∧
      ((last.tail = [] ∨ IsReferenceName last.tail ∧ free last.tail) ∨
        last.tail.head? = some '\x7b' ∧
          (last.tail.tail = [] ∨ IsReferenceName last.tail.tail)) := by
  constructor
  · intro awaits
    cases awaits with
    | dollar before =>
        exact ⟨['$'], (List.mem_tails _ _).2 (List.suffix_append _ _), rfl, .inl (.inl rfl)⟩
    | brace before =>
        exact ⟨['$', '\x7b'], (List.mem_tails _ _).2 (List.suffix_append _ _), rfl,
          .inr ⟨rfl, .inl rfl⟩⟩
    | bare before named unvalued =>
        exact ⟨_, (List.mem_tails _ _).2 (List.suffix_append _ _), rfl,
          .inl (.inr ⟨named, unvalued⟩)⟩
    | braced before named =>
        exact ⟨_, (List.mem_tails _ _).2 (List.suffix_append _ _), rfl,
          .inr ⟨rfl, .inr named⟩⟩
  · rintro ⟨last, member, dollar, shape⟩
    obtain ⟨front, rfl⟩ := (List.mem_tails _ _).1 member
    obtain ⟨name, rfl⟩ := List.head?_eq_some_iff.1 dollar
    rw [List.tail_cons] at shape
    rcases shape with (rfl | ⟨named, unvalued⟩) | ⟨brace, rest⟩
    · exact .dollar front
    · exact .bare front named unvalued
    · obtain ⟨name, rfl⟩ := List.head?_eq_some_iff.1 brace
      rw [List.tail_cons] at rest
      rcases rest with rfl | named
      · exact .brace front
      · exact .braced front named

instance (free : List Char → Prop) [DecidablePred free] (before : List Char) :
    Decidable (Awaits free before) :=
  decidable_of_iff _ awaits_iff.symm

instance (name : List Char) (free : List Char → Prop) [DecidablePred free] (text : List Char) :
    Decidable (StandsApart name free text) :=
  decidable_of_iff
    (∀ before ∈ text.inits, (text.drop before.length).head? = some '$' →
      ∀ found ∈ (reference? (text.drop before.length).tail).toList, found.1.name = name →
        ¬Awaits free before)
    ⟨fun each before rest after r split refers same => by
        have dropped : text.drop before.length = '$' :: rest := by
          rw [split, List.drop_left]
        have found : (r, after) ∈ (reference? (text.drop before.length).tail).toList := by
          rw [dropped, Option.mem_toList]
          exact reference?_eq_some_iff.2 refers
        refine each before ((List.mem_inits _ _).2 ⟨_, split.symm⟩) ?_ (r, after) found same
        rw [dropped]
        rfl,
      fun apart before member dollar found read same => by
        obtain ⟨rest, split⟩ := (List.mem_inits _ _).1 member
        rw [← split, List.drop_left] at dollar read
        obtain ⟨rest, rfl⟩ := List.head?_eq_some_iff.1 dollar
        rw [List.tail_cons, Option.mem_toList] at read
        exact apart before rest found.2 found.1 split.symm (reference?_eq_some_iff.1 read) same⟩

private theorem standsApart_of_notMem {name text : List Char} (free : List Char → Prop)
    (dollarless : '$' ∉ text) : StandsApart name free text := by
  rintro before rest after r rfl
  simp at dollarless

section LastEntry

variable {table : Table (List Char)} {name : List Char}

theorem lookup_append_singleton (absent : name ∉ table.keys) (word other : List Char) :
    (table ++ [(name, word)]).lookup other =
      if other = name then some word else table.lookup other := by
  rw [List.lookup_append, List.lookup_cons, List.lookup_nil]
  by_cases same : other = name
  · rw [if_pos same, same, Table.lookup_eq_none_iff_notMem_keys.2 absent, beq_self_eq_true]
    rfl
  · rw [if_neg same, beq_eq_false_iff_ne.2 same, Option.or_none]

theorem lookup_append_singleton_eq_none_iff {word other : List Char} :
    (table ++ [(name, word)]).lookup other = none ↔ other ∉ name :: table.keys := by
  rw [Table.lookup_eq_none_iff_notMem_keys, Table.keys, List.map_append, List.mem_append,
    List.mem_cons, or_comm]
  exact not_congr (or_congr_left List.mem_singleton)

theorem replaceNames_append_singleton (wellFormed : ExpressionTable table)
    (named : IsReferenceName name) (word text : List Char) :
    replaceNames (table ++ [(name, word)]) text =
      replaceReferences (Reference.resolved ((table ++ [(name, word)]).lookup ·)) text := by
  have passes : replaceNames (table ++ [(name, word)]) text =
      replaceName name word (replaceNames table text) :=
    List.foldl_append
  rw [passes, replaceNames_eq wellFormed.named wellFormed.expression, replaceName_eq named,
    replaceReferences_replaceReferences (inert_lookup wellFormed.expression)
      (apart_lookup wellFormed.expression text)]
  congr 1
  funext r
  simp only [Reference.resolved, List.lookup_append]
  cases table.lookup r.name with
  | none => rfl
  | some word => rfl

theorem inert_lookup_append_singleton (wellFormed : ExpressionTable table) {word : List Char}
    (inert : Inert word) (other found : List Char)
    (valued : (table ++ [(name, word)]).lookup other = some found) : Inert found := by
  rcases List.mem_append.1 (mem_of_lookup valued) with given | last
  · exact (wellFormed.expression _ given).inert
  · rw [(Prod.mk.inj (List.mem_singleton.1 last)).2]
    exact inert

theorem apart_lookup_append_singleton (wellFormed : ExpressionTable table) (word : List Char)
    {text : List Char} (apart : StandsApart name (· ∉ name :: table.keys) text) :
    Apart ((table ++ [(name, word)]).lookup ·) text := by
  intro before rest after r found split refers valued awaits
  rcases List.mem_append.1 (mem_of_lookup valued) with given | last
  · exact ⟨'#', (wellFormed.expression _ given).sign, by decide⟩
  · have same := (Prod.mk.inj (List.mem_singleton.1 last)).1
    exact absurd (awaits.imp fun other => lookup_append_singleton_eq_none_iff.1)
      (apart before rest after r split refers same)

theorem substitute_append_singleton (wellFormed : ExpressionTable table)
    (named : IsReferenceName name) {word : List Char} (inert : Inert word) {text : List Char}
    (apart : StandsApart name (· ∉ name :: table.keys) text) :
    substitute (table ++ [(name, word)]) text =
      replaceReferences
        (fun r => ((table ++ [(name, word)]).lookup r.name).getD (interpolation r)) text := by
  rw [substitute_eq_replaceNames, replaceNames_append_singleton wellFormed named]
  exact replaceReferences_replaceReferences (inert_lookup_append_singleton wellFormed inert)
    (apart_lookup_append_singleton wellFormed word apart) interpolation

theorem interpolated_append_singleton (wellFormed : ExpressionTable table)
    (named : IsReferenceName name) {word : List Char} (inert : Inert word) {text : List Char}
    (apart : StandsApart name (· ∉ name :: table.keys) text) :
    interpolated (table ++ [(name, word)]) text =
      (references text).filter fun r => r.name ∉ name :: table.keys := by
  rw [interpolated, replaceNames_append_singleton wellFormed named,
    references_replaceReferences (inert_lookup_append_singleton wellFormed inert)
      (apart_lookup_append_singleton wellFormed word apart)]
  refine List.filter_congr fun r _ => ?_
  rw [Bool.eq_iff_iff, Option.isNone_iff_eq_none, lookup_append_singleton_eq_none_iff,
    decide_eq_true_eq]

end LastEntry

namespace Document

def body (d : Document) : List Char :=
  ['\n'].intercalate (d.lines ++ ["end".toList]) ++ ['\n']

theorem source_eq (d : Document) : d.source = d.header ++ '\n' :: d.body := by
  have nonempty : d.lines ++ ["end".toList] ≠ [] :=
    List.append_ne_nil_of_right_ne_nil _ (List.cons_ne_nil _ _)
  rw [source, body, List.cons_append, List.intercalate_cons_of_ne_nil nonempty]
  simp only [List.append_assoc, List.cons_append, List.nil_append]

private theorem dollar_notMem_className (d : Document) : '$' ∉ d.className := by
  unfold className
  split
  · decide
  · intro member
    obtain ⟨c, -, same⟩ := List.mem_map.1 member
    split at same
    · rename_i word
      subst c
      contradiction
    · contradiction

theorem dollar_notMem_header (d : Document) : '$' ∉ d.header := by
  have first : '$' ∉ "require 'package'\n\nclass ".toList := by decide +kernel
  have last : '$' ∉ " < Package".toList := by decide
  unfold header
  exact List.not_mem_append (List.not_mem_append first d.dollar_notMem_className) last

end Document

/-- The package's name is put in for the references to it, and the same other references become
interpolations whatever the name is, if no reference to it stands where a name may begin or go
on. -/
theorem render_packageName {table : Table (List Char)} (wellFormed : ExpressionTable table)
    (unnamed : "pkgname".toList ∉ table.keys) {d : Document}
    (apart : StandsApart "pkgname".toList (· ∉ "pkgname".toList :: table.keys) d.body)
    {name : List Char} (plain : '$' ∉ name) :
    let named := { d with packageName := some name }
    ∃ body, named.render table = named.header ++ '\n' :: body ∧
      Replaced (fun r => if r.name = "pkgname".toList then name
        else (table.lookup r.name).getD (interpolation r)) d.body body ∧
      interpolated (named.withPackageName table) d.body =
        (references d.body).filter fun r => r.name ∉ "pkgname".toList :: table.keys := by
  intro named
  have names : named.withPackageName table = table ++ [("pkgname".toList, name)] := by
    have absent : table.keys.contains "pkgname".toList = false := by simpa using unnamed
    rw [Document.withPackageName, absent]
    rfl
  have isName : IsReferenceName "pkgname".toList := by decide
  have inert := inert_of_notMem plain
  refine ⟨substitute (table ++ [("pkgname".toList, name)]) d.body, ?_, ?_, ?_⟩
  · have source : named.source = named.header ++ '\n' :: d.body := named.source_eq
    have oneLine : ∀ other ∈ Table.keys (table ++ [("pkgname".toList, name)]), '\n' ∉ other := by
      rw [Table.keys, List.map_append]
      intro other member
      rcases List.mem_append.1 member with given | last
      · exact (wellFormed.named other given).lineEnd_notMem
      · rw [List.mem_singleton.1 last]
        exact isName.lineEnd_notMem
    have header : substitute (table ++ [("pkgname".toList, name)]) named.header = named.header := by
      have dollarless := named.dollar_notMem_header
      rw [substitute_append_singleton wellFormed isName inert (standsApart_of_notMem _ dollarless)]
      simpa [replaceReferences] using replaceReferences_append_of_notMem dollarless []
    rw [Document.render, names, source, substitute_lineEnd oneLine, header]
  · rw [substitute_append_singleton wellFormed isName inert apart, replaced_iff]
    congr 1
    funext r
    rw [lookup_append_singleton unnamed]
    split <;> rfl
  · rw [names]
    exact interpolated_append_singleton wellFormed isName inert apart

theorem render_packageName_adjacent :
    let table : Table (List Char) := [("pkgver".toList, "#\x7bversion\x7d".toList)]
    let line := "v$pkgver$pkgname-$a.$pkgname$\x7bpkgname\x7d_$\x7bb$1".toList
    let d : Document := { lines := [line] }
    let named := { d with packageName := some "gtk+3.0".toList }
    ExpressionTable table ∧ "pkgname".toList ∉ table.keys ∧
      StandsApart "pkgname".toList (· ∉ "pkgname".toList :: table.keys) d.body ∧
      '$' ∉ "gtk+3.0".toList ∧
      named.render table = ("require 'package'\n\nclass Gtk_3_0 < Package\n" ++
        "v#\x7bversion\x7dgtk+3.0-#\x7b@_a\x7d.gtk+3.0gtk+3.0_$\x7bb$1\nend\n").toList ∧
      interpolated (named.withPackageName table) d.body = [⟨"a".toList, false⟩] := by
  intro table line d named
  have wellFormed : ExpressionTable table := by decide +kernel
  have unnamed : "pkgname".toList ∉ table.keys := by decide +kernel
  have apart : StandsApart "pkgname".toList (· ∉ "pkgname".toList :: table.keys) d.body := by
    decide +kernel
  have plain : '$' ∉ "gtk+3.0".toList := by decide
  obtain ⟨body, rendered, replaced, same⟩ := render_packageName wellFormed unnamed apart plain
  refine ⟨wellFormed, unnamed, apart, plain, ?_, ?_⟩
  · rw [rendered, replaced_iff.1 replaced]
    decide +kernel
  · rw [same]
    decide +kernel

/-- Behind a name that may go on, the package's name makes it another. -/
theorem render_packageName_glued :
    let d : Document := { lines := ["$a$pkgname".toList] }
    let named (name : String) : Document := { d with packageName := some name.toList }
    (named "foo").render [] =
        "require 'package'\n\nclass Foo < Package\n#\x7b@_afoo\x7d\nend\n".toList ∧
      (named "bar").render [] =
        "require 'package'\n\nclass Bar < Package\n#\x7b@_abar\x7d\nend\n".toList ∧
      interpolated ((named "foo").withPackageName []) d.body ≠
        interpolated ((named "bar").withPackageName []) d.body := by
  decide +kernel

end PkgRecipe.Recipe
