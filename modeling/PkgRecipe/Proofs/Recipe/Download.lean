import PkgRecipe.Proofs.Digest.Blocks
import PkgRecipe.Proofs.Recipe.Processes
import PkgRecipe.Proofs.Settings.ChunkSize
import PkgRecipe.Recipe.Response

namespace PkgRecipe.Recipe.Response

variable {σ : Type}

/-- A read gives at least one and at most so many of the bytes that are left, the next ones, and
nothing when none is left. Of sizes that are not positive nothing is said. -/
structure Delivers (r : Response σ) (size : Int) (left : σ → List UInt8 → Prop) : Prop where
  opened (body : Body) : left (r.opened body) body.bytes
  next {state : σ} {bytes : List UInt8} (positive : 0 < size) (here : left state bytes)
    (more : bytes ≠ []) : ∃ part rest after, r.read size state = .ok (part, after) ∧ part ≠ [] ∧
      (part.length : Int) ≤ size ∧ bytes = part ++ rest ∧ left after rest
  stop {state : σ} (positive : 0 < size) (here : left state []) :
    ∃ after, r.read size state = .ok ([], after)

variable {r : Response σ} {size : Int} {state after : σ} {x : Sha256.Hasher}

private theorem hashFrom_of_error {fault : ReadFault} (read : r.read size state = .error fault) :
    r.hashFrom size x state = .some (.error fault) := by
  refine Part.eq_some_iff.2 (PFun.fix_stop ?_)
  rw [PFun.lift, round, read]
  exact Part.mem_some _

theorem hashFrom_of_nil (read : r.read size state = .ok ([], after)) :
    r.hashFrom size x state = .some (.ok x) := by
  refine Part.eq_some_iff.2 (PFun.fix_stop ?_)
  rw [PFun.lift, round, read]
  exact Part.mem_some _

theorem hashFrom_of_part {part : List UInt8} (read : r.read size state = .ok (part, after))
    (more : part ≠ []) : r.hashFrom size x state = r.hashFrom size (x.update part) after := by
  obtain ⟨b, part, rfl⟩ := List.exists_cons_of_ne_nil more
  refine PFun.fix_fwd_eq ?_
  rw [PFun.lift, round, read]
  exact Part.mem_some _

theorem Delivers.hashFrom {left : σ → List UInt8 → Prop} (delivers : r.Delivers size left)
    (positive : 0 < size) {bytes : List UInt8} (here : left state bytes) :
    r.hashFrom size x state = .some (.ok (x.update bytes)) := by
  induction length : bytes.length using Nat.strongRecOn generalizing state x bytes with
  | _ n ih =>
      by_cases more : bytes = []
      · subst more
        obtain ⟨after, read⟩ := delivers.stop positive here
        exact hashFrom_of_nil read
      · obtain ⟨part, rest, after, read, given, -, rfl, later⟩ := delivers.next positive here more
        have shorter : rest.length < n := by
          have := List.length_pos_iff.2 given
          rw [List.length_append] at length
          omega
        rw [hashFrom_of_part read given, ih rest.length shorter later rfl,
          Sha256.Hasher.update_append]

theorem Delivers.digest {left : σ → List UInt8 → Prop} (delivers : r.Delivers size left)
    (positive : 0 < size) (location : List Char) (body : Body) :
    r.digest size location body = .some (.ok (Sha256.digest body.bytes)) := by
  have holds := Sha256.Hasher.holds_empty.update body.bytes
  rw [Response.digest, delivers.hashFrom positive (delivers.opened body), Part.map_some]
  dsimp only
  rw [holds.hexDigest, List.nil_append]

theorem fetchDigest_apply (r : Response σ) (size : Int) (location : List Char) (o : Outside) :
    r.fetchDigest size location o =
      (match o.downloadReplies.head?.getD (.failed "unreachable".toList) with
        | .body body => r.digest size location body
        | .failed reason => .some (.error (.downloadFailed location reason))
        | .broken reason => .some (.error (.unexpected reason))
        | .interrupted => .some (.error .interrupted)).map (·, { o with
          downloadReplies := o.downloadReplies.tail
          requested := o.requested ++ [location]
          events := o.events ++ [Event.log .info ("Fetching ".toList ++ location)] }) := by
  simp only [fetchDigest, Run.bind_apply, Run.log_apply, Run.download_apply]
  cases o.downloadReplies.head?.getD (.failed "unreachable".toList) with
  | failed reason => rfl
  | broken reason => rfl
  | interrupted => rfl
  | body body => rfl

theorem read_memory {left : Body} (takes : left.takes size = true) :
    memory.read size left = if size < 0 then .ok (left.bytes, { left with bytes := [] })
      else .ok (left.bytes.take size.toNat, { left with bytes := left.bytes.drop size.toNat }) :=
  if_pos takes

theorem delivers_memory (fits : Number.fits size = true) :
    memory.Delivers size fun left bytes => left.bytes = bytes where
  opened body := rfl
  next {state bytes} positive here more := by
    subst here
    have takes : state.takes size = true := by rw [Body.takes, fits, Bool.true_or]
    have read := read_memory takes
    rw [if_neg (Int.not_lt.2 (Int.le_of_lt positive))] at read
    refine ⟨_, _, _, read, ?_, ?_, (List.take_append_drop _ _).symm, rfl⟩
    · rw [Ne, List.take_eq_nil_iff, not_or]
      exact ⟨by omega, more⟩
    · rw [List.length_take]
      omega
  stop {state} positive here := by
    have takes : state.takes size = true := by rw [Body.takes, fits, Bool.true_or]
    have read := read_memory takes
    rw [if_neg (Int.not_lt.2 (Int.le_of_lt positive)), here, List.take_nil] at read
    exact ⟨_, read⟩

theorem hashFrom_memory {isSized : Bool} {bytes : List UInt8}
    (takes : Body.takes ⟨bytes, isSized⟩ size = true) :
    memory.hashFrom size x ⟨bytes, isSized⟩ =
      .some (.ok ((chunks size bytes).foldl Sha256.Hasher.update x)) := by
  -- whether so many bytes can be asked for does not depend on the bytes
  have read (left : List UInt8) :=
    read_memory (show Body.takes ⟨left, isSized⟩ size = true from takes)
  have nothing : ∃ rest, memory.read size ⟨[], isSized⟩ = .ok ([], rest) := by
    rw [read]
    split
    · exact ⟨_, rfl⟩
    · exact ⟨_, by rw [List.take_nil]⟩
  induction bytes using chunks.induct size generalizing x with
  | case1 bytes ends =>
      have last : ∃ rest, memory.read size ⟨bytes, isSized⟩ = .ok ([], rest) := by
        rcases ends with rfl | rfl
        · exact nothing
        · exact ⟨_, read bytes⟩
      obtain ⟨rest, last⟩ := last
      rw [hashFrom_of_nil last, chunks, dif_pos ends]
      rfl
  | case2 bytes more below =>
      have whole := read bytes
      rw [if_pos below] at whole
      obtain ⟨rest, nothing⟩ := nothing
      rw [hashFrom_of_part whole (not_or.1 more).1, hashFrom_of_nil nothing, chunks, dif_neg more,
        if_pos below]
      rfl
  | case3 bytes more above ih =>
      have part := read bytes
      rw [if_neg above] at part
      have given : bytes.take size.toNat ≠ [] := by
        rw [Ne, List.take_eq_nil_iff, not_or]
        exact ⟨by omega, (not_or.1 more).1⟩
      rw [hashFrom_of_part part given, ih takes, chunks.eq_1 size bytes, dif_neg more, if_neg above]
      rfl

theorem digest_memory (size : Int) (location : List Char) (body : Body) :
    memory.digest size location body =
      .some (if body.takes size then .ok (digestOfChunks (chunks size body.bytes))
        else .error (.sizeOutOfRange size)) := by
  rw [digest]
  by_cases takes : body.takes size = true
  · rw [if_pos takes, show memory.opened body = ⟨body.bytes, body.isSized⟩ from rfl,
      hashFrom_memory takes]
    rfl
  · have read : memory.read size (memory.opened body) = .error .sizeOutOfRange := if_neg takes
    rw [hashFrom_of_error read, if_neg takes]
    rfl

theorem fetchDigest_memory (size : Int) (location : List Char) (o : Outside) :
    memory.fetchDigest size location o = .some (sourceDigest size location o) := by
  rw [fetchDigest_apply, Converter.sourceDigest_apply]
  cases o.downloadReplies.head?.getD (.failed "unreachable".toList) with
  | failed reason => rfl
  | broken reason => rfl
  | interrupted => rfl
  | body body =>
      dsimp only
      rw [digest_memory]
      rfl

/-- Under settings that were accepted the reads of a response come to an end, and however they cut
its body, the digest of a source is that of the whole body, after one request for it. A source that
cannot be opened is a download that failed. -/
theorem fetchDigest_of_accepted {settings : Settings} (accepted : settings.Accepted)
    {r : Response σ} {left : σ → List UInt8 → Prop}
    (delivers : r.Delivers settings.checksum.chunkSize left) (location : List Char) (o : Outside) :
    let size := settings.checksum.chunkSize
    let after : Outside := { o with
      downloadReplies := o.downloadReplies.tail
      requested := o.requested ++ [location]
      events := o.events ++ [.log .info ("Fetching ".toList ++ location)] }
    r.fetchDigest size location o =
        .some (match o.downloadReplies.head?.getD (.failed "unreachable".toList) with
          | .body body => .ok (Sha256.digest body.bytes)
          | .failed reason => .error (.downloadFailed location reason)
          | .broken reason => .error (.unexpected reason)
          | .interrupted => .error .interrupted, after) ∧
      (∀ (other : Settings) (left : σ → List UInt8 → Prop), other.Accepted →
        r.Delivers other.checksum.chunkSize left →
        r.fetchDigest other.checksum.chunkSize location o = r.fetchDigest size location o) ∧
      memory.fetchDigest size location o = .some (sourceDigest size location o) := by
  intro size after
  have fetched (given : Settings) (left : σ → List UInt8 → Prop) (accepted : given.Accepted)
      (delivers : r.Delivers given.checksum.chunkSize left) :
      r.fetchDigest given.checksum.chunkSize location o =
        .some (match o.downloadReplies.head?.getD (.failed "unreachable".toList) with
          | .body body => .ok (Sha256.digest body.bytes)
          | .failed reason => .error (.downloadFailed location reason)
          | .broken reason => .error (.unexpected reason)
          | .interrupted => .error .interrupted, after) := by
    rw [fetchDigest_apply]
    cases o.downloadReplies.head?.getD (.failed "unreachable".toList) with
    | failed reason => rfl
    | broken reason => rfl
    | interrupted => rfl
    | body body =>
        dsimp only
        rw [delivers.digest accepted.chunkSize_pos]
        rfl
  refine ⟨fetched settings left accepted delivers, fun other left' accepted' delivers' => ?_,
    fetchDigest_memory size location o⟩
  exact (fetched other left' accepted' delivers').trans
    (fetched settings left accepted delivers).symm

theorem fetchDigest_of_accepted_memory :
    let entries : Data.Entries := [(.text "checksum".toList, .mapping
      [(.text "chunk_size".toList, .scalar (.int 2))])]
    let settings : Settings := { checksum := { chunkSize := 2 } }
    let location := "https://x.org/abc".toList
    let body : Body := { bytes := [0x61, 0x62, 0x63] }
    let o : Outside := ⟨[], [.body body, .failed "gone".toList], [], [], []⟩
    let log : Event := .log .info "Fetching https://x.org/abc".toList
    let after : Outside := ⟨[], [.failed "gone".toList], [], [location], [log]⟩
    let hash := "ba7816bf8f01cfea414140de5dae2223b00361a396177a9cb410ff61f20015ad".toList
    let left (state : Body) (bytes : List UInt8) : Prop := state.bytes = bytes
    Settings.ofEntries entries = .ok settings ∧ Settings.ofEntries [] = .ok {} ∧
      memory.Delivers 2 left ∧ memory.Delivers 65536 left ∧
      memory.fetchDigest 2 location o = .some (.ok hash, after) ∧
      memory.fetchDigest 65536 location o = .some (.ok hash, after) ∧
      memory.fetchDigest 2 location after =
        .some (.error (.downloadFailed location "gone".toList),
          ⟨[], [], [], [location, location], [log, log]⟩) := by
  intro entries settings location body o log after hash left
  have read : Settings.ofEntries entries = .ok settings := rfl
  have read' : Settings.ofEntries [] = .ok {} := rfl
  have delivers : memory.Delivers 2 left := delivers_memory (by decide)
  have delivers' : memory.Delivers 65536 left := delivers_memory (by decide)
  have hashed : Sha256.digest [0x61, 0x62, 0x63] = hash := by decide +kernel
  obtain ⟨fetched, others, -⟩ := fetchDigest_of_accepted (.data read) delivers location o
  obtain ⟨failed, -, -⟩ := fetchDigest_of_accepted (.data read) delivers location after
  have fetched : memory.fetchDigest 2 location o = .some (.ok hash, after) := by
    rw [← hashed]
    exact fetched
  exact ⟨read, read', delivers, delivers', fetched,
    (others {} left (.data read') delivers').trans fetched, failed⟩

end PkgRecipe.Recipe.Response
