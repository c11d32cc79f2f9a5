import Mathlib.Data.List.TakeWhile
import PkgRecipe.Recipe.Checksum

namespace PkgRecipe.Recipe

/-- What is written to a recipe: a line, or what a declaration of a metadata variable says. -/
inductive Entry where
  | line (text : List Char)
  | declared (d : Shell.Declaration)
deriving DecidableEq

namespace Entry

def write (doc : Document) : Entry → Document
  | line text => doc.append text
  | declared d => (recordMetadata d doc).1

def isSums : Entry → Bool
  | line _ => false
  | declared d => "sums".toList.isSuffixOf d.name

def digest? : Entry → Option (List Char)
  | line _ => none
  | declared d => if d.name = "sha256sums".toList then d.elements.head? else none

def location? : Entry → Option (List Char)
  | line _ => none
  | declared d => if d.name = "source".toList then d.elements.head?.map entryLocation else none

def lines (e : Entry) : List (List Char) :=
  if e.isSums then [] else (e.write {}).lines

end Entry

def Document.writeAll (doc : Document) (entries : List Entry) : Document :=
  entries.foldl Entry.write doc

/-- A recipe to which lines and perhaps a location of the source were added, and nothing that
concerns the digest. -/
structure Document.Extended (doc : Document) (lines : List (List Char))
    (location? : Option (List Char)) (after : Document) : Prop where
  lines : after.lines = doc.lines ++ lines
  sourceUrl : after.sourceUrl = location?.or doc.sourceUrl
  slot : after.checksumSlot = doc.checksumSlot
  checksum : after.checksum = doc.checksum

/-- A recipe in which a line is kept for the digest between others. -/
structure Document.Reserved (doc : Document) (front back : List (List Char)) : Prop where
  slot : doc.checksumSlot = some front.length
  lines : doc.lines = front ++ [] :: back

namespace Entry

private theorem digest?_of_not_isSums {e : Entry} (other : e.isSums = false) : e.digest? = none := by
  cases e with
  | line text => rfl
  | declared d =>
      refine if_neg fun same => ?_
      rw [isSums, same] at other
      contradiction

private theorem location?_of_isSums {e : Entry} (sums : e.isSums = true) : e.location? = none := by
  cases e with
  | line text => rfl
  | declared d =>
      refine if_neg fun same => ?_
      rw [isSums, same] at sums
      contradiction

theorem lines_of_isSums {e : Entry} (sums : e.isSums = true) : e.lines = [] := by
  rw [lines, if_pos sums]

theorem extended_write {e : Entry} (other : e.isSums = false) (doc : Document) :
    doc.Extended e.lines e.location? (e.write doc) := by
  rw [lines, other, if_neg Bool.false_ne_true]
  cases e with
  | line text => exact ⟨rfl, rfl, rfl, rfl⟩
  | declared d =>
      rw [isSums, Bool.eq_false_iff] at other
      by_cases source : d.name = "source".toList
      · rw [location?, if_pos source]
        simp only [write, recordMetadata, source]
        cases d.elements with
        | nil => exact ⟨by simp, by simp, rfl, rfl⟩
        | cons first rest => exact ⟨by simp [Document.append], by simp, rfl, rfl⟩
      · rw [location?, if_neg source]
        simp only [write, recordMetadata, if_neg source, if_neg other]
        -- the others append lines, or change only what is known of the package's name
        repeat' split
        all_goals exact ⟨by simp [Document.append, Document.appendAll], rfl, rfl, rfl⟩

private theorem recordMetadata_of_isSums {d : Shell.Declaration} (sums : (declared d).isSums = true)
    (doc : Document) : recordMetadata d doc = recordChecksums d doc := by
  rw [isSums] at sums
  have apart {name : String} (other : "sums".toList.isSuffixOf name.toList = false) :
      d.name ≠ name.toList := by
    intro same
    rw [same, other] at sums
    contradiction
  simp only [recordMetadata]
  rw [if_neg (apart (by decide)), if_neg (apart (by decide)), if_neg (apart (by decide)),
    if_neg (apart (by decide)), if_neg (apart (by decide)), if_neg (apart (by decide)),
    if_neg (apart (by decide)), if_neg (apart (by decide)), if_pos sums]

theorem write_of_isSums {e : Entry} (sums : e.isSums = true) (doc : Document) :
    e.write doc = { doc.reserveChecksum with
      checksum := doc.reserveChecksum.checksum.or e.digest? } := by
  cases e with
  | line text => contradiction
  | declared d =>
      rw [write, recordMetadata_of_isSums sums, recordChecksums, digest?]
      obtain ⟨_, _, _, checksum, _, _⟩ := doc.reserveChecksum
      by_cases given : d.name = "sha256sums".toList
      · rw [if_neg (not_not_intro given), if_pos given]
        cases checksum with
        | some digest => rfl
        | none =>
            cases d.elements with
            | nil => rfl
            | cons first rest => rfl
      · rw [if_pos given, if_neg given, Option.or_none]

end Entry

namespace Document

variable {doc : Document}

theorem Extended.nil : doc.Extended [] none doc :=
  ⟨(List.append_nil _).symm, rfl, rfl, rfl⟩

theorem Extended.trans {next after : Document} {first second : List (List Char)}
    {location? later? : Option (List Char)} (here : doc.Extended first location? next)
    (later : next.Extended second later? after) :
    doc.Extended (first ++ second) (later?.or location?) after where
  lines := by rw [later.lines, here.lines, List.append_assoc]
  sourceUrl := by rw [later.sourceUrl, here.sourceUrl, Option.or_assoc]
  slot := later.slot.trans here.slot
  checksum := later.checksum.trans here.checksum

private theorem reserveChecksum_of_slot {slot : Nat} (reserved : doc.checksumSlot = some slot) :
    doc.reserveChecksum = doc := by
  rw [reserveChecksum, reserved]

private theorem checksum_write (e : Entry) (doc : Document) :
    (e.write doc).checksum = doc.checksum.or e.digest? := by
  cases sums : e.isSums with
  | false =>
      rw [(Entry.extended_write sums doc).checksum, Entry.digest?_of_not_isSums sums,
        Option.or_none]
  | true =>
      rw [Entry.write_of_isSums sums, reserveChecksum]
      split <;> rfl

private theorem sourceUrl_write (e : Entry) (doc : Document) :
    (e.write doc).sourceUrl = e.location?.or doc.sourceUrl := by
  cases sums : e.isSums with
  | false => exact (Entry.extended_write sums doc).sourceUrl
  | true =>
      rw [Entry.write_of_isSums sums, Entry.location?_of_isSums sums, reserveChecksum]
      split <;> rfl

theorem reserved_write {e : Entry} (sums : e.isSums = true) (unreserved : doc.checksumSlot = none) :
    (e.write doc).Reserved doc.lines [] := by
  rw [Entry.write_of_isSums sums, reserveChecksum, unreserved]
  exact ⟨rfl, rfl⟩

theorem Reserved.write {front back : List (List Char)} (reserved : doc.Reserved front back)
    (e : Entry) : (e.write doc).Reserved front (back ++ e.lines) := by
  cases sums : e.isSums with
  | false =>
      have added := Entry.extended_write sums doc
      refine ⟨added.slot.trans reserved.slot, ?_⟩
      rw [added.lines, reserved.lines, List.append_assoc, List.cons_append]
  | true =>
      rw [Entry.write_of_isSums sums, Entry.lines_of_isSums sums, List.append_nil,
        reserveChecksum_of_slot reserved.slot]
      exact ⟨reserved.slot, reserved.lines⟩

theorem head?_digests_cons (e : Entry) (entries : List Entry) :
    ((e :: entries).filterMap Entry.digest?).head? =
      e.digest?.or (entries.filterMap Entry.digest?).head? := by
  rw [List.filterMap_cons]
  cases e.digest? with
  | none => rfl
  | some digest => rfl

theorem getLast?_locations_cons (e : Entry) (entries : List Entry) :
    ((e :: entries).filterMap Entry.location?).getLast? =
      (entries.filterMap Entry.location?).getLast?.or e.location? := by
  rw [List.filterMap_cons]
  cases e.location? with
  | none => exact (Option.or_none).symm
  | some location => rw [List.getLast?_cons, Option.or_some]

private theorem checksum_writeAll (doc : Document) (entries : List Entry) :
    (doc.writeAll entries).checksum = doc.checksum.or (entries.filterMap Entry.digest?).head? := by
  induction entries generalizing doc with
  | nil => exact (Option.or_none).symm
  | cons e entries ih =>
      refine (ih (e.write doc)).trans ?_
      rw [checksum_write, head?_digests_cons, Option.or_assoc]

private theorem sourceUrl_writeAll (doc : Document) (entries : List Entry) :
    (doc.writeAll entries).sourceUrl =
      (entries.filterMap Entry.location?).getLast?.or doc.sourceUrl := by
  induction entries generalizing doc with
  | nil => rfl
  | cons e entries ih =>
      refine (ih (e.write doc)).trans ?_
      rw [sourceUrl_write, getLast?_locations_cons, Option.or_assoc]

theorem extended_writeAll {entries : List Entry} (others : ∀ e ∈ entries, e.isSums = false)
    (doc : Document) :
    doc.Extended (entries.flatMap Entry.lines) (entries.filterMap Entry.location?).getLast?
      (doc.writeAll entries) := by
  induction entries generalizing doc with
  | nil => exact .nil
  | cons e entries ih =>
      rw [List.flatMap_cons, getLast?_locations_cons]
      have here := Entry.extended_write (others e List.mem_cons_self) doc
      exact here.trans (ih (fun later member => others later (List.mem_cons_of_mem e member)) _)

theorem Reserved.writeAll {front back : List (List Char)} (reserved : doc.Reserved front back)
    (entries : List Entry) :
    (doc.writeAll entries).Reserved front (back ++ entries.flatMap Entry.lines) := by
  -- the line that is kept stays where it is; what is written grows behind it
  induction entries generalizing doc back with
  | nil =>
      rw [List.flatMap_nil, List.append_nil]
      exact reserved
  | cons e entries ih =>
      rw [List.flatMap_cons, ← List.append_assoc]
      exact ih (reserved.write e)

private theorem flatMap_lines_filter (entries : List Entry) :
    (entries.filter (!·.isSums)).flatMap Entry.lines = entries.flatMap Entry.lines := by
  induction entries with
  | nil => rfl
  | cons e entries ih =>
      rw [List.filter_cons, List.flatMap_cons]
      cases sums : e.isSums with
      | false => rw [Bool.not_false, if_pos rfl, List.flatMap_cons, ih]
      | true =>
          rw [Bool.not_true, if_neg Bool.false_ne_true, Entry.lines_of_isSums sums, ih,
            List.nil_append]

theorem lines_writeAll_filter (doc : Document) (entries : List Entry) :
    (doc.writeAll (entries.filter (!·.isSums))).lines =
      doc.lines ++ entries.flatMap Entry.lines := by
  have others : ∀ e ∈ entries.filter (!·.isSums), e.isSums = false := by
    intro e member
    simpa using (List.mem_filter.1 member).2
  rw [(extended_writeAll others doc).lines, flatMap_lines_filter]

theorem isSums_of_mem_takeWhile {entries : List Entry} {e : Entry}
    (member : e ∈ entries.takeWhile (!·.isSums)) : e.isSums = false := by
  simpa using List.mem_takeWhile_imp member

private theorem length_takeWhile_le_length_filter (doc : Document) (entries : List Entry) :
    (doc.writeAll (entries.takeWhile (!·.isSums))).lines.length ≤
      (doc.writeAll (entries.filter (!·.isSums))).lines.length := by
  have parts : entries.flatMap Entry.lines =
      (entries.takeWhile (!·.isSums)).flatMap Entry.lines ++
        (entries.dropWhile (!·.isSums)).flatMap Entry.lines := by
    rw [← List.flatMap_append, List.takeWhile_append_dropWhile]
  have others : ∀ e ∈ entries.takeWhile (!·.isSums), e.isSums = false :=
    fun _ => isSums_of_mem_takeWhile
  rw [(extended_writeAll others doc).lines, lines_writeAll_filter, parts, ← List.append_assoc]
  exact (List.prefix_append _ _).length_le

private theorem exists_first_sums {entries : List Entry} (notAll : entries.all (!·.isSums) = false) :
    ∃ before e after, entries = before ++ e :: after ∧ entries.takeWhile (!·.isSums) = before ∧
      (∀ b ∈ before, b.isSums = false) ∧ e.isSums = true := by
  cases rest : entries.dropWhile (!·.isSums) with
  | nil =>
      rw [List.all_eq_true.2 (List.dropWhile_eq_nil_iff.1 rest)] at notAll
      contradiction
  | cons e after =>
      refine ⟨_, e, after, ?_, rfl, fun _ => isSums_of_mem_takeWhile, ?_⟩
      · rw [← rest, List.takeWhile_append_dropWhile]
      · have first := List.head?_dropWhile_not (!·.isSums) entries
        rw [rest] at first
        simpa using first

private theorem exists_reserved_writeAll (doc : Document) (unreserved : doc.checksumSlot = none)
    {entries : List Entry} (notAll : entries.all (!·.isSums) = false) :
    ∃ front back, (doc.writeAll entries).Reserved front back ∧
      (doc.writeAll (entries.takeWhile (!·.isSums))).lines = front ∧
      (doc.writeAll (entries.filter (!·.isSums))).lines = front ++ back := by
  obtain ⟨before, e, after, rfl, same, others, sums⟩ := exists_first_sums notAll
  have first := extended_writeAll others doc
  refine ⟨_, after.flatMap Entry.lines, ?_, congrArg (doc.writeAll · |>.lines) same, ?_⟩
  · have kept := (reserved_write sums (first.slot.trans unreserved)).writeAll after
    rw [writeAll, List.foldl_append, List.foldl_cons]
    exact kept
  · rw [lines_writeAll_filter, first.lines, List.append_assoc, List.flatMap_append,
      List.flatMap_cons, Entry.lines_of_isSums sums, List.nil_append]

theorem insertIdx_length_append {α : Type} (front back : List α) (x : α) :
    (front ++ back).insertIdx front.length x = front ++ x :: back := by
  induction front with
  | nil => rfl
  | cons a front ih => exact congrArg (a :: ·) ih

theorem Reserved.fillChecksum_some {front back : List (List Char)}
    (reserved : doc.Reserved front back) (text : List Char) :
    (doc.fillChecksum (some text)).lines = front ++ text :: back := by
  simp [fillChecksum, reserved.slot, reserved.lines]

theorem Reserved.fillChecksum_none {front back : List (List Char)}
    (reserved : doc.Reserved front back) :
    (doc.fillChecksum none).lines = front ++ back := by
  simp only [fillChecksum, reserved.slot, reserved.lines]
  rw [List.eraseIdx_append_of_length_le (Nat.le_refl _), Nat.sub_self, List.eraseIdx_cons_zero]

end Document

namespace ChecksumPolicy

variable {doc : Document} {front back : List (List Char)}

private theorem settle_of_unreserved (p : ChecksumPolicy) (unreserved : doc.checksumSlot = none) :
    p.settle doc = pure doc := by
  simp only [settle, unreserved]

private theorem lines_settle_of_reserved (p : ChecksumPolicy) (reserved : doc.Reserved front back) :
    Document.lines <$> p.settle doc =
      match doc.checksum, p.digest?, p.fetch with
      | some digest, _, _ => pure (front ++ textStatement "source_sha256" digest :: back)
      | none, some digest, true =>
          match doc.sourceUrl with
          | none | some [] => throw .sourceMissing
          | some location => do
              Run.tell? p.status? "progress".toList "Generating sha256sum...".toList
              return front ++ textStatement "source_sha256" (← digest (doc.expand location)) :: back
      | none, _, _ => do
          Run.log .warning "Checksum fetching disabled; no source_sha256 emitted".toList
          return front ++ back := by
  cases given : doc.checksum with
  | some digest =>
      simp only [settle, reserved.slot, given, map_pure, reserved.fillChecksum_some]
  | none =>
      simp only [settle, reserved.slot, given, map_bind, map_pure, derive]
      cases p.digest? with
      | none =>
          simp only [bind_assoc, pure_bind, Option.map_none, reserved.fillChecksum_none]
      | some digest =>
          cases p.fetch with
          | false =>
              simp only [bind_assoc, pure_bind, Option.map_none, reserved.fillChecksum_none]
          | true =>
              rcases source : doc.sourceUrl with _ | _ | ⟨c, rest⟩
              · rfl
              · rfl
              · simp only [bind_assoc, pure_bind, Option.map_some, reserved.fillChecksum_some]

/-- Checksums over a whole run, for any way to find a digest. Without checksums nothing is added.
Otherwise at most one line is added to those written without them, where the first checksums stood:
the first digest given; or the digest found of the last source recorded, which is asked for once;
or none when sources are not downloaded. -/
theorem lines_settle_writeAll (p : ChecksumPolicy) (values : Table (List Char))
    (entries : List Entry) :
    let doc := Document.writeAll { values } entries
    let others := (Document.writeAll { values } (entries.filter (!·.isSums))).lines
    let place := (Document.writeAll { values } (entries.takeWhile (!·.isSums))).lines.length
    let withDigest digest := others.insertIdx place (textStatement "source_sha256" digest)
    place ≤ others.length ∧
      Document.lines <$> p.settle doc =
        if entries.all (!·.isSums) then pure doc.lines
        else
          match (entries.filterMap Entry.digest?).head?, p.digest?, p.fetch with
          | some digest, _, _ => pure (withDigest digest)
          | none, some digest, true =>
              match (entries.filterMap Entry.location?).getLast? with
              | none | some [] => throw .sourceMissing
              | some location => do
                  Run.tell? p.status? "progress".toList "Generating sha256sum...".toList
                  return withDigest (← digest (doc.expand location))
          | none, _, _ => do
              Run.log .warning "Checksum fetching disabled; no source_sha256 emitted".toList
              return others := by
  intro doc others place withDigest
  refine ⟨Document.length_takeWhile_le_length_filter { values } entries, ?_⟩
  have checksum : doc.checksum = (entries.filterMap Entry.digest?).head? :=
    (Document.checksum_writeAll _ entries).trans Option.none_or
  have sourceUrl : doc.sourceUrl = (entries.filterMap Entry.location?).getLast? :=
    (Document.sourceUrl_writeAll _ entries).trans Option.or_none
  rw [← checksum, ← sourceUrl]
  split
  · rename_i unsummed
    have others : ∀ e ∈ entries, e.isSums = false := by simpa using unsummed
    have unreserved : doc.checksumSlot = .none :=
      (Document.extended_writeAll others { values }).slot
    rw [settle_of_unreserved p unreserved, map_pure]
  · rename_i summed
    rw [Bool.not_eq_true] at summed
    obtain ⟨front, back, reserved, first, written⟩ :=
      Document.exists_reserved_writeAll { values } rfl summed
    have inserted (digest : List Char) :
        withDigest digest = front ++ textStatement "source_sha256" digest :: back := by
      simp only [withDigest, others, place, first, written, Document.insertIdx_length_append]
    have kept : others = front ++ back := written
    rw [kept]
    simp only [inserted]
    exact lines_settle_of_reserved p reserved

end ChecksumPolicy

end PkgRecipe.Recipe
