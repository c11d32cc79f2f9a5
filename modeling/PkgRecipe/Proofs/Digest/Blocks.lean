import Mathlib.Data.List.Range
import PkgRecipe.Digest.Sha256

namespace PkgRecipe.Sha256

def blocks (message : List UInt8) : List (List UInt8) :=
  (List.range (message.length / 64)).map fun i => (message.drop (64 * i)).take 64

def padded (message : List UInt8) : List UInt8 :=
  message ++ Hasher.padding message.length

def hashOfBlocks (message : List UInt8) : Words :=
  (blocks message).foldl compress initialWords

def digest (message : List UInt8) : List Char :=
  (hashOfBlocks (padded message)).toList.flatMap fun word => Text.hex 8 word.toNat

theorem block_append {message : List UInt8} {i : Nat} (whole : i < message.length / 64)
    (more : List UInt8) :
    ((message ++ more).drop (64 * i)).take 64 = (message.drop (64 * i)).take 64 := by
  rw [List.drop_append_of_le_length (by omega), List.take_append_of_le_length]
  rw [List.length_drop]
  omega

private theorem blocks_concat_of_ne {message : List UInt8} {b : UInt8}
    (inside : (message.length + 1) % 64 ≠ 0) : blocks (message ++ [b]) = blocks message := by
  have same : (message.length + 1) / 64 = message.length / 64 := by omega
  rw [blocks, List.length_append, List.length_singleton, same, blocks]
  refine List.map_congr_left fun i member => ?_
  exact block_append (List.mem_range.1 member) [b]

theorem blocks_concat_of_eq {message : List UInt8} {b : UInt8}
    (last : (message.length + 1) % 64 = 0) :
    blocks (message ++ [b]) =
      blocks message ++ [message.drop (64 * (message.length / 64)) ++ [b]] := by
  have next : (message.length + 1) / 64 = message.length / 64 + 1 := by omega
  have added : ((message ++ [b]).drop (64 * (message.length / 64))).take 64 =
      message.drop (64 * (message.length / 64)) ++ [b] := by
    rw [List.drop_append_of_le_length (by omega), List.take_of_length_le]
    rw [List.length_append, List.length_drop, List.length_singleton]
    omega
  rw [blocks, List.length_append, List.length_singleton, next, List.range_succ, List.map_append,
    List.map_singleton, added, blocks]
  refine congrArg (· ++ _) (List.map_congr_left fun i member => ?_)
  exact block_append (List.mem_range.1 member) [b]

namespace Hasher

/-- What a hasher holds when the bytes of a message have arrived. -/
structure Holds (x : Hasher) (message : List UInt8) : Prop where
  hash : x.hash = hashOfBlocks message
  pending : x.pending.reverse = message.drop (64 * (message.length / 64))
  count : x.count = message.length

theorem holds_empty : empty.Holds [] :=
  ⟨rfl, rfl, rfl⟩

theorem Holds.push {x : Hasher} {message : List UInt8} (holds : x.Holds message) (b : UInt8) :
    (x.push b).Holds (message ++ [b]) := by
  have length : (message ++ [b]).length = message.length + 1 := List.length_append
  rw [Hasher.push, holds.count]
  split
  · rename_i last
    constructor
    · show compress x.hash (b :: x.pending).reverse = _
      rw [List.reverse_cons, holds.pending, holds.hash, hashOfBlocks, hashOfBlocks,
        blocks_concat_of_eq last, List.foldl_append]
      rfl
    · rw [length, List.drop_eq_nil_of_le (by rw [length]; omega)]
      rfl
    · exact length.symm
  · rename_i inside
    constructor
    · show x.hash = _
      rw [holds.hash, hashOfBlocks, hashOfBlocks, blocks_concat_of_ne inside]
    · show (b :: x.pending).reverse = _
      have same : (message.length + 1) / 64 = message.length / 64 := by omega
      rw [List.reverse_cons, holds.pending, length, same,
        List.drop_append_of_le_length (by omega)]
    · exact length.symm

theorem Holds.update {x : Hasher} {message : List UInt8} (holds : x.Holds message)
    (bytes : List UInt8) : (x.update bytes).Holds (message ++ bytes) := by
  induction bytes generalizing x message with
  | nil =>
      rw [List.append_nil]
      exact holds
  | cons b bytes ih =>
      rw [List.append_cons]
      exact ih (holds.push b)

theorem Holds.hexDigest {x : Hasher} {message : List UInt8} (holds : x.Holds message) :
    x.hexDigest = digest message := by
  rw [Hasher.hexDigest, (holds.update _).hash, holds.count]
  rfl

end Hasher

end PkgRecipe.Sha256
