import PkgRecipe.Text.Numeral

namespace PkgRecipe.Sha256

structure Words where
  a : UInt32
  b : UInt32
  c : UInt32
  d : UInt32
  e : UInt32
  f : UInt32
  g : UInt32
  h : UInt32
deriving DecidableEq, Repr

def Words.add (x y : Words) : Words :=
  ⟨x.a + y.a, x.b + y.b, x.c + y.c, x.d + y.d, x.e + y.e, x.f + y.f, x.g + y.g, x.h + y.h⟩

def Words.toList (x : Words) : List UInt32 :=
  [x.a, x.b, x.c, x.d, x.e, x.f, x.g, x.h]

def initialWords : Words :=
  ⟨0x6a09e667, 0xbb67ae85, 0x3c6ef372, 0xa54ff53a, 0x510e527f, 0x9b05688c, 0x1f83d9ab, 0x5be0cd19⟩

def roundConstants : List UInt32 :=
  [
    0x428a2f98, 0x71374491, 0xb5c0fbcf, 0xe9b5dba5, 0x3956c25b, 0x59f111f1, 0x923f82a4, 0xab1c5ed5,
    0xd807aa98, 0x12835b01, 0x243185be, 0x550c7dc3, 0x72be5d74, 0x80deb1fe, 0x9bdc06a7, 0xc19bf174,
    0xe49b69c1, 0xefbe4786, 0x0fc19dc6, 0x240ca1cc, 0x2de92c6f, 0x4a7484aa, 0x5cb0a9dc, 0x76f988da,
    0x983e5152, 0xa831c66d, 0xb00327c8, 0xbf597fc7, 0xc6e00bf3, 0xd5a79147, 0x06ca6351, 0x14292967,
    0x27b70a85, 0x2e1b2138, 0x4d2c6dfc, 0x53380d13, 0x650a7354, 0x766a0abb, 0x81c2c92e, 0x92722c85,
    0xa2bfe8a1, 0xa81a664b, 0xc24b8b70, 0xc76c51a3, 0xd192e819, 0xd6990624, 0xf40e3585, 0x106aa070,
    0x19a4c116, 0x1e376c08, 0x2748774c, 0x34b0bcb5, 0x391c0cb3, 0x4ed8aa4a, 0x5b9cca4f, 0x682e6ff3,
    0x748f82ee, 0x78a5636f, 0x84c87814, 0x8cc70208, 0x90befffa, 0xa4506ceb, 0xbef9a3f7, 0xc67178f2
  ]

def rotateRight (x n : UInt32) : UInt32 :=
  (x >>> n) ||| (x <<< (32 - n))

def smallSigma0 (x : UInt32) : UInt32 :=
  rotateRight x 7 ^^^ rotateRight x 18 ^^^ (x >>> 3)

def smallSigma1 (x : UInt32) : UInt32 :=
  rotateRight x 17 ^^^ rotateRight x 19 ^^^ (x >>> 10)

def bigSigma0 (x : UInt32) : UInt32 :=
  rotateRight x 2 ^^^ rotateRight x 13 ^^^ rotateRight x 22

def bigSigma1 (x : UInt32) : UInt32 :=
  rotateRight x 6 ^^^ rotateRight x 11 ^^^ rotateRight x 25

/-- Adds message words before those given, of which the last comes first. -/
def extendSchedule : Nat → List UInt32 → List UInt32
  | 0, words => words
  | n + 1, words =>
      let word := smallSigma1 (words.getD 1 0) + words.getD 6 0 + smallSigma0 (words.getD 14 0) +
        words.getD 15 0
      extendSchedule n (word :: words)

def schedule (block : List UInt32) : List UInt32 :=
  (extendSchedule 48 block.reverse).reverse

def round (x : Words) (constantAndWord : UInt32 × UInt32) : Words :=
  let choice := (x.e &&& x.f) ^^^ (~~~x.e &&& x.g)
  let majority := (x.a &&& x.b) ^^^ (x.a &&& x.c) ^^^ (x.b &&& x.c)
  let first := x.h + bigSigma1 x.e + choice + constantAndWord.1 + constantAndWord.2
  let second := bigSigma0 x.a + majority
  ⟨first + second, x.a, x.b, x.c, x.d + first, x.e, x.f, x.g⟩

def wordsOfBytes : List UInt8 → List UInt32
  | a :: b :: c :: d :: rest =>
      ((a.toUInt32 <<< 24) ||| (b.toUInt32 <<< 16) ||| (c.toUInt32 <<< 8) ||| d.toUInt32) ::
        wordsOfBytes rest
  | _ => []

def compress (hash : Words) (block : List UInt8) : Words :=
  hash.add ((roundConstants.zip (schedule (wordsOfBytes block))).foldl round hash)

/-- The hash of the whole blocks read, the bytes after them, the last first, and the count of all. -/
structure Hasher where
  hash : Words
  pending : List UInt8
  count : Nat
deriving DecidableEq, Repr

namespace Hasher

def empty : Hasher :=
  ⟨initialWords, [], 0⟩

def push (x : Hasher) (b : UInt8) : Hasher :=
  if (x.count + 1) % 64 = 0 then ⟨compress x.hash (b :: x.pending).reverse, [], x.count + 1⟩
  else ⟨x.hash, b :: x.pending, x.count + 1⟩

def update (x : Hasher) (bytes : List UInt8) : Hasher :=
  bytes.foldl push x

@[simp] theorem update_append (x : Hasher) (first second : List UInt8) :
    x.update (first ++ second) = (x.update first).update second :=
  List.foldl_append

def lengthBytes (bits : Nat) : List UInt8 :=
  (List.range 8).map fun i => UInt8.ofNat (bits >>> (8 * (7 - i)))

/-- The bytes that fill up the last block: a one bit, zeros and the length in bits. -/
def padding (count : Nat) : List UInt8 :=
  0x80 :: (List.replicate ((119 - count % 64) % 64) 0 ++ lengthBytes (8 * count))

def hexDigest (x : Hasher) : List Char :=
  (x.update (padding x.count)).hash.toList.flatMap fun word => Text.hex 8 word.toNat

end Hasher

end PkgRecipe.Sha256
