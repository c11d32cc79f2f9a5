import PkgRecipe.Proofs.Recipe.Writing

namespace PkgRecipe.Recipe

/-! A line in a document whose text is of no consequence to what is written later. -/

namespace Document

def withLine (doc : Document) (place : Nat) (text : List Char) : Document :=
  { doc with lines := doc.lines.set place text }

/-- At the place is a line, and it is not the one that is kept for the digest. -/
structure Holds (doc : Document) (place : Nat) : Prop where
  within : place < doc.lines.length
  unkept : doc.checksumSlot ≠ some place

variable {doc : Document} {place : Nat}

theorem Holds.grown {added : List (List Char)} {after : Document} (held : doc.Holds place)
    (grown : doc.Grown added after) : after.Holds place where
  within := by
    rw [grown.lines, List.length_append]
    exact Nat.lt_add_right _ held.within
  unkept := by
    rcases grown.slot with same | ⟨-, n, -, kept⟩
    · rw [same]
      exact held.unkept
    · have := held.within
      rw [kept]
      intro same
      have := Option.some.inj same
      omega

theorem Holds.appendAll_withLine (held : doc.Holds place) (text : List Char)
    (lines : List (List Char)) :
    (doc.withLine place text).appendAll lines = (doc.appendAll lines).withLine place text := by
  simp only [appendAll, withLine, List.set_append_left _ _ held.within]

theorem Holds.append_withLine (held : doc.Holds place) (text line : List Char) :
    (doc.withLine place text).append line = (doc.append line).withLine place text :=
  held.appendAll_withLine text [line]

theorem Holds.reserveChecksum_withLine (held : doc.Holds place) (text : List Char) :
    (doc.withLine place text).reserveChecksum = doc.reserveChecksum.withLine place text := by
  have appended := congrArg lines (held.append_withLine text [])
  cases slot : doc.checksumSlot with
  | some n => simp only [reserveChecksum, withLine, slot]
  | none =>
      simp only [reserveChecksum, withLine, slot, List.length_set]
      exact congrArg (fun lines => { doc with lines, checksumSlot := some doc.lines.length }) appended

theorem Holds.recordChecksums_withLine (held : doc.Holds place) (text : List Char)
    (d : Shell.Declaration) :
    recordChecksums d (doc.withLine place text) =
      ((recordChecksums d doc).1.withLine place text, (recordChecksums d doc).2) := by
  simp only [recordChecksums, held.reserveChecksum_withLine text]
  split
  · rfl
  · have same : (doc.reserveChecksum.withLine place text).checksum = doc.reserveChecksum.checksum :=
      rfl
    rw [same]
    cases doc.reserveChecksum.checksum with
    | some digest => rfl
    | none =>
        cases d.elements with
        | nil => rfl
        | cons first rest => rfl

theorem Holds.recordMetadata_withLine (held : doc.Holds place) (text : List Char)
    (d : Shell.Declaration) :
    recordMetadata d (doc.withLine place text) =
      ((recordMetadata d doc).1.withLine place text, (recordMetadata d doc).2) := by
  -- the change of the line moves into the branches, which are the same on both sides
  have branch (p : Prop) [Decidable p] (a b : Document × List Event) :=
    apply_ite (fun r : Document × List Event => (r.1.withLine place text, r.2)) p a b
  simp only [recordMetadata, held.append_withLine text, held.appendAll_withLine text,
    held.recordChecksums_withLine text]
  cases d.elements with
  | nil => simp only [branch]
  | cons first rest =>
      simp only [branch]
      rfl

end Document

def Desk.withLine (desk : Desk) (place : Nat) (text : List Char) : Desk :=
  { desk with document := desk.document.withLine place text }

/-- A computation to which the text of the line at a place is of no consequence, and which leaves
the line as it is. -/
structure Work.Overlooks {α : Type} (place : Nat) (work : Work α) : Prop where
  grows : work.Grows
  withLine (desk : Desk) (held : desk.document.Holds place) (text : List Char) :
    work (desk.withLine place text) = ((work desk).1, (work desk).2.withLine place text)

namespace Work.Overlooks

variable {α β : Type} {place : Nat}

theorem holds {work : Work α} (overlooks : Overlooks place work) {desk : Desk}
    (held : desk.document.Holds place) : (work desk).2.document.Holds place := by
  obtain ⟨added, grown⟩ := overlooks.grows desk
  exact held.grown grown

theorem ofRun (run : Run α) : Overlooks place (Work.ofRun run) :=
  ⟨.ofRun run, fun _ _ _ => rfl⟩

theorem throw (failure : Failure) : Overlooks place (throw failure : Work α) :=
  ⟨.throw failure, fun _ _ _ => rfl⟩

theorem append (line : List Char) : Overlooks place (Work.append line) where
  grows := .append line
  withLine desk held text := by
    rw [append_apply, append_apply, Desk.withLine, held.append_withLine]
    rfl

theorem bind {work : Work α} {next : α → Work β} (here : Overlooks place work)
    (later : ∀ a, Overlooks place (next a)) : Overlooks place (work >>= next) where
  grows := here.grows.bind fun a => (later a).grows
  withLine desk held text := by
    have held' := here.holds held
    rw [bind_apply, bind_apply, here.withLine desk held text]
    generalize work desk = ran at held' ⊢
    obtain ⟨_ | a, after⟩ := ran
    · rfl
    · exact (later a).withLine after held' text

theorem forM {write : α → Work Unit} (each : ∀ x, Overlooks place (write x)) (xs : List α) :
    Overlooks place (xs.forM write) := by
  induction xs with
  | nil => exact ⟨.forM (fun x => (each x).grows) [], fun _ _ _ => rfl⟩
  | cons x xs ih => exact (each x).bind fun _ => ih

end Work.Overlooks

namespace Converter

variable {place : Nat}

private theorem noted_withLine (d : Shell.Declaration) (doc : Document) (place : Nat) (text : List Char) :
    noted d (doc.withLine place text) = (noted d doc).withLine place text := by
  unfold noted
  split
  · rfl
  · rfl

private theorem holds_noted (d : Shell.Declaration) {doc : Document} (held : doc.Holds place) :
    (noted d doc).Holds place := by
  unfold noted
  split
  · exact held
  · exact ⟨held.within, held.unkept⟩

private theorem overlooks_writeDeclaration (d : Shell.Declaration) :
    (writeDeclaration d).Overlooks place where
  grows desk := by
    obtain ⟨added, grown, -⟩ := grown_writeDeclaration d desk
    exact ⟨added, grown⟩
  withLine desk held text := by
    have held' := holds_noted d held
    rw [writeDeclaration_apply, writeDeclaration_apply, Desk.withLine, noted_withLine]
    cases isMetadata d.name with
    | true =>
        simp only [if_true, held'.recordMetadata_withLine text]
        rfl
    | false =>
        simp only [Bool.false_eq_true, if_false]
        cases literalOf d with
        | error failure => rfl
        | ok literal =>
            simp only [held'.appendAll_withLine text]
            rfl

private theorem overlooks_writeStatement (c : Converter) (s : Shell.Statement) :
    (c.writeStatement s).Overlooks place := by
  rw [writeStatement_eq]
  cases c.lineOf? s with
  | some line => exact .append line
  | none => exact .bind (.ofRun _) overlooks_writeDeclaration

private theorem overlooks_writeIncomplete (c : Converter) (s : Shell.Statement) :
    (c.writeIncomplete s).Overlooks place := by
  unfold writeIncomplete
  cases c.settings.general.strict with
  | true => exact .bind (.throw _) fun _ => .bind (.ofRun _) fun _ => .append _
  | false => exact .bind (.ofRun _) fun _ => .append _

theorem overlooks_write (c : Converter) (s : Shell.Statement) : (c.write s).Overlooks place := by
  unfold write
  split
  · exact overlooks_writeStatement c s
  · exact overlooks_writeIncomplete c s

end Converter

end PkgRecipe.Recipe
