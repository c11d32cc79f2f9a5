import Mathlib.Logic.Function.Basic
import PkgRecipe.Proofs.Recipe.PackageVariable

namespace PkgRecipe.Recipe

abbrev Store := List Char → Option (List Char)

/-- Each dollar sign in a text begins a reference to a known variable. -/
def LooksBack (known : List Char → Prop) (text : List Char) : Prop :=
  ∀ rest, '$' :: rest <:+ text → ∃ r after, Refers rest r after ∧ known r.name

theorem looksBack_iff {known : List Char → Prop} {text : List Char} :
    LooksBack known text ↔ ∀ suffix ∈ text.tails, suffix.head? = some '$' →
      ∃ found ∈ reference? suffix.tail, known found.1.name := by
  constructor
  · intro looks suffix tail dollar
    obtain ⟨rest, rfl⟩ := List.head?_eq_some_iff.1 dollar
    obtain ⟨r, after, refers, names⟩ := looks rest ((List.mem_tails _ text).1 tail)
    exact ⟨_, reference?_eq_some_iff.2 refers, names⟩
  · intro each rest found
    obtain ⟨⟨r, after⟩, read, names⟩ := each _ ((List.mem_tails _ text).2 found) rfl
    exact ⟨r, after, reference?_eq_some_iff.1 read, names⟩

instance (known : List Char → Prop) [DecidablePred known] (text : List Char) :
    Decidable (LooksBack known text) :=
  decidable_of_iff _ looksBack_iff.symm

/-- A text is evaluated when each reference in it has become the value of its variable. -/
inductive Evaluates (store : Store) : List Char → List Char → Prop
  | nil : Evaluates store [] []
  | reference {text after out value : List Char} {r : Reference} (refers : Refers text r after)
      (stored : store r.name = some value) (rest : Evaluates store after out) :
      Evaluates store ('$' :: text) (value ++ out)
  | char {c : Char} {text out : List Char} (plain : c ≠ '$') (rest : Evaluates store text out) :
      Evaluates store (c :: text) (c :: out)

/-- Scalar variables are assigned in turn, each with the value that its text has then. -/
inductive Assigned : Store → List Shell.Declaration → Store → Prop
  | nil (store : Store) : Assigned store [] store
  | cons {store final : Store} {d : Shell.Declaration} {ds : List Shell.Declaration}
      {value : List Char} (evaluates : Evaluates store d.scalar value)
      (later : Assigned (Function.update store d.name (some value)) ds final) :
      Assigned store (d :: ds) final

/-- Each value refers only to variables that are assigned before it. -/
def LookBack (ds : List Shell.Declaration) : Prop :=
  ∀ n (inside : n < ds.length),
    LooksBack (fun name => ∃ d ∈ ds.take n, d.name = name) ds[n].scalar

theorem LookBack.last {ds later : List Shell.Declaration} {d : Shell.Declaration}
    (looks : LookBack (ds ++ d :: later)) :
    LooksBack (fun name => ∃ e ∈ ds, e.name = name) d.scalar := by
  have inside : ds.length < (ds ++ d :: later).length := by simp
  have here := looks ds.length inside
  rwa [List.take_left, List.getElem_of_append rfl rfl] at here

instance (ds : List Shell.Declaration) : Decidable (LookBack ds) :=
  inferInstanceAs (Decidable (∀ n (_ : n < ds.length), _))

section Texts

variable {store : Store} {text out : List Char}

theorem LooksBack.of_suffix {known : List Char → Prop} {rest : List Char}
    (looks : LooksBack known text) (suffix : rest <:+ text) : LooksBack known rest :=
  fun after here => looks after (here.trans suffix)

private theorem evaluates_replaceReferences (looks : LooksBack (fun name => (store name).isSome) text)
    (otherwise : Reference → List Char) :
    Evaluates store text (replaceReferences (fun r => (store r.name).getD (otherwise r)) text) := by
  induction text using replaceReferences.induct with
  | case1 =>
      rw [replaceReferences]
      exact .nil
  | case2 text r after found ih =>
      obtain ⟨r', after', refers, known⟩ := looks text List.suffix_rfl
      rw [reference?_eq_some_iff.2 refers] at found
      cases found
      obtain ⟨value, stored⟩ := Option.isSome_iff_exists.1 known
      have behind : after <:+ '$' :: text := by
        rw [refers.cons_eq_text_append]
        exact List.suffix_append r.text after
      rw [replaceReferences_of_reference? (reference?_eq_some_iff.2 refers), stored]
      exact .reference refers stored (ih (looks.of_suffix behind))
  | case3 text unread ih =>
      obtain ⟨r, after, refers, -⟩ := looks text List.suffix_rfl
      exact absurd refers (reference?_eq_none_iff.1 unread r after)
  | case4 c text notDollar ih =>
      rw [replaceReferences_cons fun dollar => absurd dollar notDollar]
      exact .char notDollar (ih (looks.of_suffix (List.suffix_cons c text)))

theorem Evaluates.dollar_notMem (free : ∀ name value, store name = some value → '$' ∉ value)
    (evaluates : Evaluates store text out) : '$' ∉ out := by
  induction evaluates with
  | nil => exact List.not_mem_nil
  | reference refers stored rest ih =>
      rw [List.mem_append, not_or]
      exact ⟨free _ _ stored, ih⟩
  | char plain rest ih =>
      rw [List.mem_cons, not_or]
      exact ⟨Ne.symm plain, ih⟩

end Texts

theorem Evaluates.unique {store : Store} {text out out' : List Char}
    (here : Evaluates store text out) (there : Evaluates store text out') : out = out' := by
  induction here generalizing out' with
  | nil =>
      cases there
      rfl
  | reference refers stored rest ih =>
      cases there with
      | reference refers' stored' rest' =>
          have read := reference?_eq_some_iff.2 refers
          rw [reference?_eq_some_iff.2 refers'] at read
          cases read
          cases stored.symm.trans stored'
          rw [ih rest']
      | char plain _ => contradiction
  | char plain rest ih =>
      cases there with
      | reference _ _ _ => contradiction
      | char _ rest' => rw [ih rest']

namespace Assigned

variable {store final : Store} {ds : List Shell.Declaration}

theorem unique {final' : Store} (here : Assigned store ds final)
    (there : Assigned store ds final') : final = final' := by
  induction here with
  | nil =>
      cases there
      rfl
  | cons evaluates _ ih =>
      cases there with
      | cons evaluates' later =>
          cases evaluates.unique evaluates'
          exact ih later

theorem concat {d : Shell.Declaration} {value : List Char} (assigned : Assigned store ds final)
    (evaluates : Evaluates final d.scalar value) :
    Assigned store (ds ++ [d]) (Function.update final d.name (some value)) := by
  induction assigned with
  | nil store => exact .cons evaluates (.nil _)
  | cons here _ ih => exact .cons here (ih evaluates)

private theorem isSome_of_isSome (assigned : Assigned store ds final) {name : List Char}
    (valued : (store name).isSome = true) : (final name).isSome = true := by
  induction assigned with
  | nil => exact valued
  | @cons store final d ds value _ _ ih =>
      apply ih
      by_cases same : name = d.name
      · rw [same, Function.update_self]
        rfl
      · rw [Function.update_of_ne same]
        exact valued

private theorem isSome_of_mem (assigned : Assigned store ds final) {d : Shell.Declaration}
    (member : d ∈ ds) : (final d.name).isSome = true := by
  induction assigned with
  | nil => contradiction
  | cons _ later ih =>
      rcases List.mem_cons.1 member with rfl | behind
      · apply later.isSome_of_isSome
        rw [Function.update_self]
        rfl
      · exact ih behind

end Assigned

namespace Document

def store (doc : Document) : Store :=
  fun name => doc.values.lookup name

/-- What is recorded of variables that were assigned in turn. -/
structure Records (doc : Document) (ds : List Shell.Declaration) : Prop where
  assigned : Assigned (fun _ => none) ds doc.store
  free : ∀ entry ∈ doc.values, '$' ∉ entry.2

private theorem store_setVariable (doc : Document) (name value : List Char) :
    (doc.setVariable name value).store = Function.update doc.store name (some value) := by
  funext other
  by_cases same : other = name
  · rw [same, Function.update_self]
    exact Table.lookup_put name value doc.values
  · rw [Function.update_of_ne same]
    exact Table.lookup_put_of_ne same value doc.values

variable {ds : List Shell.Declaration} {doc : Document}

theorem Records.evaluates_expand (records : doc.Records ds) {text : List Char}
    (looks : LooksBack (fun name => ∃ d ∈ ds, d.name = name) text) :
    Evaluates doc.store text (doc.expand text) ∧ '$' ∉ doc.expand text := by
  have known : LooksBack (fun name => (doc.store name).isSome) text := by
    intro rest found
    obtain ⟨r, after, refers, d, member, same⟩ := looks rest found
    exact ⟨r, after, refers, same ▸ records.assigned.isSome_of_mem member⟩
  have evaluates : Evaluates doc.store text (doc.expand text) :=
    evaluates_replaceReferences known Reference.text
  refine ⟨evaluates, evaluates.dollar_notMem fun name value stored => ?_⟩
  obtain ⟨before, after, values, -⟩ := List.lookup_eq_some_iff.1 stored
  apply records.free (name, value)
  rw [values]
  exact List.mem_append_right before List.mem_cons_self

theorem Records.of_values_eq {after : Document} (records : doc.Records ds)
    (same : after.values = doc.values) : after.Records ds := by
  have store : after.store = doc.store :=
    congrArg (fun values name => List.lookup name values) same
  constructor
  · rw [store]
    exact records.assigned
  · rw [same]
    exact records.free

theorem Records.setVariable (records : doc.Records ds) {d : Shell.Declaration}
    (looks : LooksBack (fun name => ∃ d ∈ ds, d.name = name) d.scalar) :
    (doc.setVariable d.name (doc.expand d.scalar)).Records (ds ++ [d]) := by
  obtain ⟨evaluates, dollarless⟩ := records.evaluates_expand looks
  constructor
  · rw [store_setVariable]
    exact records.assigned.concat evaluates
  · intro entry member
    rcases Table.mem_put member with before | rfl
    · exact records.free entry before
    · exact dollarless

end Document

namespace Converter

/-- What the assignments of a run are resolved to, in turn, up to the failure of the run. -/
def declarations (c : Converter) : List Shell.Statement → Desk → List Shell.Declaration
  | [], _ => []
  | s :: ss, desk =>
      (c.declaration? s desk).toList ++
        match c.write s desk with
        | (.ok _, next) => declarations c ss next
        | (.error _, _) => []

def scalars (c : Converter) (ss : List Shell.Statement) (desk : Desk) : List Shell.Declaration :=
  (c.declarations ss desk).filter fun d => !d.attributes.isArray

variable {c : Converter}

theorem scalars_cons (s : Shell.Statement) (ss : List Shell.Statement) (desk : Desk) :
    c.scalars (s :: ss) desk =
      ((c.declaration? s desk).toList.filter fun d => !d.attributes.isArray) ++
        match c.write s desk with
        | (.ok _, next) => c.scalars ss next
        | (.error _, _) => [] := by
  rw [scalars, declarations, List.filter_append]
  rcases c.write s desk with ⟨failure | _, next⟩
  · rfl
  · rfl

private theorem records_writeDeclaration {ds : List Shell.Declaration} (desk : Desk)
    (records : desk.document.Records ds) {d : Shell.Declaration}
    (looks : d.attributes.isArray = false →
      LooksBack (fun name => ∃ e ∈ ds, e.name = name) d.scalar) :
    (writeDeclaration d desk).2.document.Records
      (ds ++ [d].filter fun d => !d.attributes.isArray) := by
  have values := (named_writeDeclaration d desk).2
  cases array : d.attributes.isArray with
  | true =>
      rw [noted, if_pos array] at values
      rw [List.filter_cons_of_neg (by simp [array]), List.filter_nil, List.append_nil]
      exact records.of_values_eq values
  | false =>
      rw [noted, if_neg (by simp [array])] at values
      rw [List.filter_cons_of_pos (by simp [array]), List.filter_nil]
      exact (records.setVariable (looks array)).of_values_eq values

theorem records_write {s : Shell.Statement} {desk : Desk} {ds : List Shell.Declaration}
    (records : desk.document.Records ds)
    (looks : ∀ d ∈ c.declaration? s desk, d.attributes.isArray = false →
      LooksBack (fun name => ∃ e ∈ ds, e.name = name) d.scalar) :
    (c.write s desk).2.document.Records
      (ds ++ (c.declaration? s desk).toList.filter fun d => !d.attributes.isArray) := by
  have other (undeclared : c.declaration? s desk = none)
      (values : (c.write s desk).2.document.values = desk.document.values) :
      (c.write s desk).2.document.Records
        (ds ++ (c.declaration? s desk).toList.filter fun d => !d.attributes.isArray) := by
    rw [undeclared, Option.toList_none, List.filter_nil, List.append_nil]
    exact records.of_values_eq values
  cases c.step_write s desk with
  | @declared d declares step =>
      rw [step, declares]
      exact records_writeDeclaration { desk with outside := (c.resolve s desk.outside).2 } records
        (looks d declares)
  | line undeclared _ _ appended =>
      apply other undeclared
      rw [appended]
      rfl
  | passed undeclared _ appended =>
      apply other undeclared
      rw [appended]
      rfl
  | unchanged undeclared same =>
      apply other undeclared
      rw [same]

theorem records_forM {ss : List Shell.Statement} {desk : Desk} {ds : List Shell.Declaration}
    (records : desk.document.Records ds) (looks : LookBack (ds ++ c.scalars ss desk)) :
    ((ss.forM c.write) desk).2.document.Records (ds ++ c.scalars ss desk) := by
  induction ss generalizing desk ds with
  | nil =>
      rw [scalars, declarations, List.filter_nil, List.append_nil]
      exact records
  | cons s ss ih =>
      rw [scalars_cons, ← List.append_assoc] at looks ⊢
      have here := records_write (c := c) (s := s) records fun d declares scalar => by
        rw [declares, Option.toList_some, List.filter_cons_of_pos (by simp [scalar]),
          List.filter_nil, List.append_assoc] at looks
        exact looks.last
      rw [Work.forM_cons_apply]
      rcases wrote : c.write s desk with ⟨failure | _, next⟩
      · rw [wrote] at here
        rw [List.append_nil]
        exact here
      · rw [wrote] at here looks
        exact ih here looks

/-- When values refer only to variables that are assigned before, then at any point of a run what
is recorded of the variables is what evaluation at once gives, without a dollar sign; and so is the
location from which the source is asked for, if the source refers to these variables only. -/
theorem values_evaluated (c : Converter) (lines : List (List Char)) (n : Nat) (o : Outside) :
    let ss := (Shell.statements lines).take n
    let ds := c.scalars ss ⟨{}, o⟩
    let doc := ((ss.forM c.write) ⟨{}, o⟩).2.document
    LookBack ds →
      (∀ store, Assigned (fun _ => none) ds store ↔ store = doc.store) ∧
        (∀ entry ∈ doc.values, '$' ∉ entry.2) ∧
        ∀ source digest, doc.sourceUrl = some source → source ≠ [] →
          LooksBack (fun name => ∃ d ∈ ds, d.name = name) source →
          c.checksum.digest? = some digest → c.checksum.fetch = true →
          ∃ location, Evaluates doc.store source location ∧ '$' ∉ location ∧
            c.checksum.derive doc = do
              Run.tell? c.checksum.status? "progress".toList "Generating sha256sum...".toList
              return some (← digest location) := by
  intro ss ds doc looks
  have empty : Document.Records (Desk.mk {} o).document [] := ⟨.nil _, nofun⟩
  have records : doc.Records ds := records_forM empty looks
  have store (store : Store) : Assigned (fun _ => none) ds store ↔ store = doc.store :=
    ⟨fun assigned => assigned.unique records.assigned, fun same => same ▸ records.assigned⟩
  refine ⟨store, records.free, ?_⟩
  intro source digest recorded given refers digests allowed
  obtain ⟨evaluates, dollarless⟩ := records.evaluates_expand refers
  exact ⟨_, evaluates, dollarless, derive_of_sourceUrl digests allowed recorded given⟩

theorem values_evaluated_reassigned :
    let resolve : Shell.Resolver := fun s =>
      pure ⟨s.assignedName?.getD [], {}, ((Text.cutAt? ['='] s.text).map (·.2)).getD []⟩
    let c : Converter := ⟨{}, resolve, ⟨some (sourceDigest 65536), true, none⟩, none⟩
    let lines := ["a=1", "b=$a-$\x7ba\x7dx", "a=$b$a", "source=https://x.org/$a$\x7bb\x7d.tar",
      "md5sums=SKIP"].map String.toList
    let o : Outside := ⟨[], [.body { bytes := [0x78] }], [], [], []⟩
    let ds := c.scalars ((Shell.statements lines).take 5) ⟨{}, o⟩
    let doc := ((((Shell.statements lines).take 5).forM c.write) ⟨{}, o⟩).2.document
    LookBack ds ∧
      doc.store ['a'] = some "1-1x1".toList ∧ doc.store ['b'] = some "1-1x".toList ∧
      (∀ entry ∈ doc.values, '$' ∉ entry.2) ∧
      (∃ location, Evaluates doc.store "https://x.org/$a$\x7bb\x7d.tar".toList location ∧
        '$' ∉ location) ∧
      (c.recipeOfLines lines o).2.requested = ["https://x.org/1-1x11-1x.tar".toList] := by
  intro resolve c lines o ds doc
  have looks : LookBack ds := by decide +kernel
  obtain ⟨-, free, derived⟩ := c.values_evaluated lines 5 o looks
  have source : doc.sourceUrl = some "https://x.org/$a$\x7bb\x7d.tar".toList := by decide +kernel
  have refers : LooksBack (fun name => ∃ d ∈ ds, d.name = name)
      "https://x.org/$a$\x7bb\x7d.tar".toList := by
    decide +kernel
  obtain ⟨location, evaluates, dollarless, -⟩ := derived _ _ source (by decide) refers rfl rfl
  exact ⟨looks, by decide +kernel, by decide +kernel, free, ⟨location, evaluates, dollarless⟩,
    by decide +kernel⟩

end Converter

end PkgRecipe.Recipe
