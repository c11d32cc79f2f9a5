namespace PkgRecipe.Text.Utf8

/-! UTF-8: texts as bytes, and bytes as characters and invalid parts. An invalid part is as long as
it can be: the bytes that could have begun a character, up to the first that could not follow. -/

def encode (text : List Char) : List UInt8 :=
  text.flatMap String.utf8EncodeChar

inductive Defect where
  | startByte
  | continuationByte
  | endOfData
deriving DecidableEq, Repr

/-- A character, or a row of bytes that is none. -/
inductive Part where
  | char (c : Char)
  | invalid (bytes : List UInt8) (defect : Defect)
deriving DecidableEq, Repr

structure Partial where
  /-- The bytes read, the last first. -/
  bytes : List UInt8
  /-- The bits read. -/
  value : Nat
  /-- How many bytes follow the next one. -/
  missing : Nat
  /-- The next byte lies between `least` and `greatest`. -/
  least : Nat
  greatest : Nat
deriving DecidableEq, Repr

inductive Start where
  | char (c : Char)
  | lead (p : Partial)
  | invalid
deriving DecidableEq, Repr

def start (b : UInt8) : Start :=
  let n := b.toNat
  if n < 0x80 then .char (Char.ofNat n)
  else if n < 0xC2 then .invalid
  else if n < 0xE0 then .lead ⟨[b], n - 0xC0, 0, 0x80, 0xBF⟩
  else if n = 0xE0 then .lead ⟨[b], 0, 1, 0xA0, 0xBF⟩
  else if n = 0xED then .lead ⟨[b], 0xD, 1, 0x80, 0x9F⟩
  else if n < 0xF0 then .lead ⟨[b], n - 0xE0, 1, 0x80, 0xBF⟩
  else if n = 0xF0 then .lead ⟨[b], 0, 2, 0x90, 0xBF⟩
  else if n < 0xF4 then .lead ⟨[b], n - 0xF0, 2, 0x80, 0xBF⟩
  else if n = 0xF4 then .lead ⟨[b], 4, 2, 0x80, 0x8F⟩
  else .invalid

/-- The byte that begins a part: the part if it is complete, and the beginning that it leaves. -/
def beginPart (b : UInt8) : List Part × Option Partial :=
  match start b with
  | .char c => ([.char c], none)
  | .lead p => ([], some p)
  | .invalid => ([.invalid [b] .startByte], none)

def readByte (pending : Option Partial) (b : UInt8) : List Part × Option Partial :=
  match pending with
  | none => beginPart b
  | some p =>
      if p.least ≤ b.toNat ∧ b.toNat ≤ p.greatest then
        let value := p.value * 0x40 + (b.toNat - 0x80)
        match p.missing with
        | 0 => ([.char (Char.ofNat value)], none)
        | missing + 1 => ([], some ⟨b :: p.bytes, value, missing, 0x80, 0xBF⟩)
      else
        let (parts, left) := beginPart b
        (.invalid p.bytes.reverse .continuationByte :: parts, left)

def readBytes (pending : Option Partial) : List UInt8 → List Part × Option Partial
  | [] => ([], pending)
  | b :: rest =>
      let (now, left) := readByte pending b
      let (later, last) := readBytes left rest
      (now ++ later, last)

def unfinished : Option Partial → List Part
  | none => []
  | some p => [.invalid p.bytes.reverse .endOfData]

def parts (bytes : List UInt8) : List Part :=
  let (complete, left) := readBytes none bytes
  complete ++ unfinished left

/-- The character for a part; every invalid part becomes one replacement character. -/
def Part.toChar : Part → Char
  | .char c => c
  | .invalid _ _ => '\uFFFD'

def decodeLossy (bytes : List UInt8) : List Char :=
  (parts bytes).map Part.toChar

structure Fault where
  position : Nat
  bytes : List UInt8
  defect : Defect
deriving DecidableEq, Repr

/-- The characters before the first invalid part, and what is wrong with that part. -/
def validPrefix (position : Nat) : List Part → List Char × Option Fault
  | [] => ([], none)
  | .char c :: rest =>
      let (text, fault) := validPrefix (position + c.utf8Size) rest
      (c :: text, fault)
  | .invalid bytes defect :: _ => ([], some ⟨position, bytes, defect⟩)

def decode (bytes : List UInt8) : Except Fault (List Char) :=
  match validPrefix 0 (parts bytes) with
  | (text, none) => .ok text
  | (_, some fault) => .error fault

end PkgRecipe.Text.Utf8
