import PkgRecipe.Proofs.Recipe.LineReplacement
import PkgRecipe.Proofs.Recipe.Segments
import PkgRecipe.Proofs.Table
import PkgRecipe.Settings.Layers

namespace PkgRecipe

namespace Recipe

/-! References replaced by the entries of a table. The entries are taken one after the other, but it
is as if all references were replaced in one pass, each by what it stands for. -/

theorem afterName?_eq_some_iff {name text after : List Char} (named : IsReferenceName name) :
    afterName? name text = some after ↔ ∃ braced, Refers text ⟨name, braced⟩ after := by
  constructor
  · intro found
    unfold afterName? at found
    split at found
    · rename_i begins
      obtain ⟨rest, rfl⟩ := List.isPrefixOf_iff_prefix.1 begins
      obtain rfl := Option.some.inj found
      refine ⟨true, ?_⟩
      have shape : '\x7b' :: (name ++ ['\x7d']) ++ rest = '\x7b' :: (name ++ '\x7d' :: rest) := by
        simp
      have length : ('\x7b' :: (name ++ ['\x7d'])).length = name.length + 2 := by simp
      rw [← length, List.drop_left, shape]
      exact .braced named rest
    · split at found
      · rename_i begins
        rw [Bool.and_eq_true, Bool.not_eq_true'] at begins
        obtain ⟨rest, rfl⟩ := List.isPrefixOf_iff_prefix.1 begins.1
        rw [List.drop_left] at found begins
        obtain rfl := Option.some.inj found
        exact ⟨false, .bare named begins.2⟩
      · contradiction
  · rintro ⟨braced, refers⟩
    cases refers with
    | braced named =>
        have shape : '\x7b' :: (name ++ '\x7d' :: after) = '\x7b' :: (name ++ ['\x7d']) ++ after := by
          simp
        have length : ('\x7b' :: (name ++ ['\x7d'])).length = name.length + 2 := by simp
        rw [afterName?, shape, if_pos (List.isPrefixOf_iff_prefix.2 (List.prefix_append _ _)),
          ← length, List.drop_left]
    | bare named ended =>
        have unbraced : ¬('\x7b' :: (name ++ ['\x7d'])).isPrefixOf (name ++ after) = true := by
          obtain ⟨c, name, rfl⟩ := List.exists_cons_of_ne_nil named.ne_nil
          intro begins
          obtain ⟨rest, same⟩ := List.isPrefixOf_iff_prefix.1 begins
          obtain rfl := (List.cons.inj same).1
          have starts : Shell.isNameStart '\x7b' = true := named.starts
          contradiction
        have begins : name.isPrefixOf (name ++ after) = true :=
          List.isPrefixOf_iff_prefix.2 (List.prefix_append _ _)
        rw [afterName?, if_neg unbraced, List.drop_left, begins, ended]
        rfl

theorem replaceName_append_of_notMem {name word first : List Char} (dollarless : '$' ∉ first)
    (text : List Char) :
    replaceName name word (first ++ text) = first ++ replaceName name word text := by
  induction first with
  | nil => rfl
  | cons c first ih =>
      rw [List.mem_cons, not_or] at dollarless
      rw [List.cons_append, replaceName_cons fun dollar => absurd dollar.symm dollarless.1,
        ih dollarless.2, List.cons_append]

theorem replaceName_eq {name : List Char} (named : IsReferenceName name)
    (word text : List Char) :
    replaceName name word text =
      replaceReferences (Reference.resolved fun other => [(name, word)].lookup other) text := by
  induction text using replaceReferences.induct with
  | case1 => rw [replaceName, replaceReferences]
  | case2 text r after found ih =>
      have refers := reference?_eq_some_iff.1 found
      rw [replaceReferences_of_reference? found, ← ih, Reference.resolved, List.lookup_cons]
      by_cases same : r.name = name
      · have found' : afterName? name text = some after :=
          (afterName?_eq_some_iff named).2 ⟨r.braced, same ▸ refers⟩
        rw [replaceName_of_afterName? found', same, beq_self_eq_true]
        rfl
      · have unread : afterName? name text = none := by
          rw [Option.eq_none_iff_forall_ne_some]
          intro other found'
          obtain ⟨braced, refers'⟩ := (afterName?_eq_some_iff named).1 found'
          rw [← reference?_eq_some_iff, found] at refers'
          obtain ⟨rfl, -⟩ := Prod.mk.inj (Option.some.inj refers')
          exact same rfl
        obtain ⟨written, plain, rfl, shape⟩ := refers.exists_written
        rw [replaceName_cons fun _ => unread, replaceName_append_of_notMem plain,
          beq_eq_false_iff_ne.2 same, List.lookup_nil, Option.getD_none, shape, List.cons_append]
  | case3 text unread ih =>
      have unread' : afterName? name text = Option.none := by
        rw [Option.eq_none_iff_forall_ne_some]
        intro after found
        obtain ⟨braced, refers⟩ := (afterName?_eq_some_iff named).1 found
        exact reference?_eq_none_iff.1 unread _ _ refers
      rw [replaceName_cons fun _ => unread', replaceReferences_cons fun _ => unread, ih]
  | case4 c text notDollar ih =>
      rw [replaceName_cons fun dollar => absurd dollar notDollar,
        replaceReferences_cons fun dollar => absurd dollar notDollar, ih]

/-- What may stand for a reference without touching its neighbours. -/
structure IsExpression (word : List Char) : Prop where
  sign : word.head? = some '#'
  inert : Inert word

/-- A table from names that references can have, as all identifiers, to expressions. -/
structure ExpressionTable (table : Table (List Char)) : Prop where
  nodup : table.keys.Nodup
  named : ∀ name ∈ table.keys, IsReferenceName name
  expression : ∀ entry ∈ table, IsExpression entry.2

instance (name : List Char) : Decidable (IsReferenceName name) :=
  decidable_of_iff
    (name.head?.any Shell.isNameStart = true ∧ name.all Text.isWordChar = true)
    ⟨fun ⟨starts, word⟩ => ⟨starts, List.all_eq_true.1 word⟩,
      fun ⟨starts, word⟩ => ⟨starts, List.all_eq_true.2 word⟩⟩

instance (word : List Char) : Decidable (IsExpression word) :=
  decidable_of_iff (word.head? = some '#' ∧ Inert word)
    ⟨fun ⟨sign, inert⟩ => ⟨sign, inert⟩, fun ⟨sign, inert⟩ => ⟨sign, inert⟩⟩

instance (table : Table (List Char)) : Decidable (ExpressionTable table) :=
  decidable_of_iff
    (table.keys.Nodup ∧ (∀ name ∈ table.keys, IsReferenceName name) ∧
      ∀ entry ∈ table, IsExpression entry.2)
    ⟨fun ⟨nodup, named, expression⟩ => ⟨nodup, named, expression⟩,
      fun ⟨nodup, named, expression⟩ => ⟨nodup, named, expression⟩⟩

theorem mem_of_lookup {table : Table (List Char)} {name word : List Char}
    (found : table.lookup name = some word) : (name, word) ∈ table := by
  obtain ⟨first, last, rfl, -⟩ := List.lookup_eq_some_iff.1 found
  simp

section Expressions

variable {table : Table (List Char)}

theorem inert_lookup (expression : ∀ entry ∈ table, IsExpression entry.2)
    (name word : List Char) (found : table.lookup name = some word) : Inert word :=
  (expression _ (mem_of_lookup found)).inert

theorem apart_lookup (expression : ∀ entry ∈ table, IsExpression entry.2) (text : List Char) :
    Apart (table.lookup ·) text := by
  intro before rest after r word _ _ found _
  exact ⟨'#', (expression _ (mem_of_lookup found)).sign, by decide⟩

private theorem replaceReferences_text (text : List Char) :
    replaceReferences Reference.text text = text := by
  induction text using replaceReferences.induct with
  | case1 => rw [replaceReferences]
  | case2 text r after found ih =>
      rw [replaceReferences_of_reference? found, ih,
        (reference?_eq_some_iff.1 found).cons_eq_text_append]
  | case3 text unread ih => rw [replaceReferences_cons fun _ => unread, ih]
  | case4 c text notDollar ih =>
      rw [replaceReferences_cons fun dollar => absurd dollar notDollar, ih]

def replaceNames (table : Table (List Char)) (text : List Char) : List Char :=
  table.foldl (fun current entry => replaceName entry.1 entry.2 current) text

theorem replaceNames_eq (named : ∀ name ∈ table.keys, IsReferenceName name)
    (expression : ∀ entry ∈ table, IsExpression entry.2) (text : List Char) :
    replaceNames table text = replaceReferences (Reference.resolved (table.lookup ·)) text := by
  -- the first entry is taken, and what the others do to the result is known
  induction table generalizing text with
  | nil => exact (replaceReferences_text text).symm
  | cons entry table ih =>
      obtain ⟨name, word⟩ := entry
      have first : ∀ entry ∈ [(name, word)], IsExpression entry.2 :=
        fun entry member => expression entry (List.mem_cons.2 (.inl (List.mem_singleton.1 member)))
      have step : replaceNames ((name, word) :: table) text =
          replaceNames table (replaceName name word text) := rfl
      rw [step, ih (fun name member => named name (List.mem_cons_of_mem _ member))
          fun entry member => expression entry (List.mem_cons_of_mem _ member),
        replaceName_eq (named name List.mem_cons_self),
        replaceReferences_replaceReferences (inert_lookup first) (apart_lookup first text)]
      congr 1
      funext r
      simp only [Reference.resolved, List.lookup_cons, List.lookup_nil]
      cases r.name == name with
      | true => rfl
      | false => rfl

theorem substitute_eq_replaceNames (table : Table (List Char)) (text : List Char) :
    substitute table text = replaceReferences interpolation (replaceNames table text) :=
  rfl

/-- The references that a substitution makes interpolations. -/
def interpolated (table : Table (List Char)) (text : List Char) : List Reference :=
  references (replaceNames table text)

end Expressions

theorem ExpressionTable.of_perm {table other : Table (List Char)}
    (wellFormed : ExpressionTable table) (perm : other.Perm table) : ExpressionTable other where
  nodup := (perm.map Prod.fst).nodup_iff.2 wellFormed.nodup
  named name member := wellFormed.named name ((perm.map Prod.fst).mem_iff.1 member)
  expression entry member := wellFormed.expression entry (perm.mem_iff.1 member)

theorem ExpressionTable.substitute_eq {table : Table (List Char)}
    (wellFormed : ExpressionTable table) (text : List Char) :
    substitute table text =
      replaceReferences (fun r => (table.lookup r.name).getD (interpolation r)) text := by
  rw [substitute_eq_replaceNames, replaceNames_eq wellFormed.named wellFormed.expression]
  exact replaceReferences_replaceReferences (inert_lookup wellFormed.expression)
    (apart_lookup wellFormed.expression text) interpolation

/-- References are replaced by the entries of a table, and the others by interpolations, as in one
pass over the text. Whole names are replaced, what is put in is not read again, and the order of the
entries is of no consequence. -/
theorem substitute_simultaneous {table : Table (List Char)} (wellFormed : ExpressionTable table)
    (text : List Char) :
    Replaced (fun r => (table.lookup r.name).getD (interpolation r)) text (substitute table text) ∧
      ∀ other : Table (List Char), other.Perm table →
        substitute other text = substitute table text := by
  refine ⟨replaced_iff.2 (wellFormed.substitute_eq text), fun other perm => ?_⟩
  rw [wellFormed.substitute_eq, (wellFormed.of_perm perm).substitute_eq]
  congr 1
  funext r
  rw [lookup_of_perm perm ((perm.map Prod.fst).nodup_iff.2 wellFormed.nodup)]

theorem substitute_simultaneous_builtIn :
    let table : Table (List Char) := [("pkgver", "#\x7bversion\x7d"),
      ("pkgrel", "#\x7bversion[/.*\\-(.*)$/, 1]\x7d"),
      ("srcdir",
        "#\x7bDir[\"#\x7bCREW_BREW_DIR\x7d/#\x7bFile.basename(__FILE__, '.rb')\x7d.*.dir\"]\x7d"),
      ("pkgdir", "#\x7bCREW_DEST_DIR\x7d")].map fun entry => (entry.1.toList, entry.2.toList)
    let text := "$pkgver_$$pkgver$a\x7b$\x7bpkgdir\x7d$\x7bpkgrel$pkgrel\x7d".toList
    let out := ("#\x7b@_pkgver_\x7d$#\x7bversion\x7d#\x7b@_a\x7d\x7b#\x7bCREW_DEST_DIR\x7d" ++
      "$\x7bpkgrel#\x7bversion[/.*\\-(.*)$/, 1]\x7d\x7d").toList
    (Settings.ofEntries Settings.defaults).toOption.map (·.substitutions) = some table ∧
      ExpressionTable table ∧
      Replaced (fun r => (table.lookup r.name).getD (interpolation r)) text out ∧
      substitute table.reverse text = out := by
  intro table text out
  have builtIn : (Settings.ofEntries Settings.defaults).toOption.map (·.substitutions) =
      some table := by decide +kernel
  have wellFormed : ExpressionTable table := by decide +kernel
  have evaluated : substitute table text = out := by decide +kernel
  obtain ⟨replaced, order⟩ := substitute_simultaneous wellFormed text
  rw [evaluated] at replaced order
  exact ⟨builtIn, wellFormed, replaced, order _ (List.reverse_perm _)⟩

end Recipe

end PkgRecipe
