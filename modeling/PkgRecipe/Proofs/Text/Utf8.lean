import PkgRecipe.Text.Utf8

namespace PkgRecipe.Text.Utf8

private theorem start_ascii {b : UInt8} (small : b.toNat < 0x80) :
    start b = .char (Char.ofNat b.toNat) := by
  simp [start, small]

private theorem start_two {b : UInt8} (least : 0xC2 ≤ b.toNat) (greatest : b.toNat < 0xE0) :
    start b = .lead ⟨[b], b.toNat - 0xC0, 0, 0x80, 0xBF⟩ := by
  unfold start
  rw [if_neg (by omega), if_neg (by omega), if_pos greatest]

private theorem start_three {b : UInt8} (least : 0xE0 ≤ b.toNat) (greatest : b.toNat < 0xF0) :
    ∃ low high, start b = .lead ⟨[b], b.toNat - 0xE0, 1, low, high⟩ ∧
      ∀ n, 0x80 ≤ n → n ≤ 0xBF → (b.toNat = 0xE0 → 0xA0 ≤ n) → (b.toNat = 0xED → n ≤ 0x9F) →
        low ≤ n ∧ n ≤ high := by
  by_cases first : b.toNat = 0xE0
  · refine ⟨0xA0, 0xBF, by simp [start, first], ?_⟩
    omega
  · by_cases surrogate : b.toNat = 0xED
    · refine ⟨0x80, 0x9F, by simp [start, surrogate], ?_⟩
      omega
    · refine ⟨0x80, 0xBF, ?_, ?_⟩
      · unfold start
        rw [if_neg (by omega), if_neg (by omega), if_neg (by omega), if_neg first,
          if_neg surrogate, if_pos greatest]
      · omega

private theorem start_four {b : UInt8} (least : 0xF0 ≤ b.toNat) (greatest : b.toNat ≤ 0xF4) :
    ∃ low high, start b = .lead ⟨[b], b.toNat - 0xF0, 2, low, high⟩ ∧
      ∀ n, 0x80 ≤ n → n ≤ 0xBF → (b.toNat = 0xF0 → 0x90 ≤ n) → (b.toNat = 0xF4 → n ≤ 0x8F) →
        low ≤ n ∧ n ≤ high := by
  by_cases first : b.toNat = 0xF0
  · refine ⟨0x90, 0xBF, by simp [start, first], ?_⟩
    omega
  · by_cases last : b.toNat = 0xF4
    · refine ⟨0x80, 0x8F, by simp [start, last], ?_⟩
      omega
    · refine ⟨0x80, 0xBF, ?_, ?_⟩
      · unfold start
        rw [if_neg (by omega), if_neg (by omega), if_neg (by omega), if_neg (by omega),
          if_neg (by omega), if_neg (by omega), if_neg first, if_pos (by omega)]
      · omega

theorem readByte_last {p : Partial} {b : UInt8} (last : p.missing = 0)
    (least : p.least ≤ b.toNat) (greatest : b.toNat ≤ p.greatest) :
    readByte (some p) b =
      ([.char (Char.ofNat (p.value * 0x40 + (b.toNat - 0x80)))], none) := by
  simp [readByte, last, least, greatest]

theorem readByte_continuation {p : Partial} {b : UInt8} {missing : Nat}
    (more : p.missing = missing + 1) (least : p.least ≤ b.toNat)
    (greatest : b.toNat ≤ p.greatest) :
    readByte (some p) b =
      ([], some ⟨b :: p.bytes, p.value * 0x40 + (b.toNat - 0x80), missing, 0x80, 0xBF⟩) := by
  simp [readByte, more, least, greatest]

/-! Rows of bytes that are one character. The bounds on the second byte of a row keep out longer
rows than the character needs, surrogates, and code points beyond the last one. -/

section Rows

variable {first second third fourth : UInt8} {rest : List UInt8}

private theorem readBytes_one (small : first.toNat < 0x80) :
    readBytes none (first :: rest) =
      (.char (Char.ofNat first.toNat) :: (readBytes none rest).1, (readBytes none rest).2) := by
  simp [readBytes, readByte, beginPart, start_ascii small]

private theorem readBytes_two (least : 0xC2 ≤ first.toNat) (greatest : first.toNat < 0xE0)
    (least₂ : 0x80 ≤ second.toNat) (greatest₂ : second.toNat ≤ 0xBF) :
    readBytes none (first :: second :: rest) =
      (.char (Char.ofNat ((first.toNat - 0xC0) * 0x40 + (second.toNat - 0x80))) ::
        (readBytes none rest).1, (readBytes none rest).2) := by
  have ended := readByte_last (p := ⟨[first], first.toNat - 0xC0, 0, 0x80, 0xBF⟩) rfl least₂
    greatest₂
  have begun : readByte none first = ([], some ⟨[first], first.toNat - 0xC0, 0, 0x80, 0xBF⟩) := by
    simp [readByte, beginPart, start_two least greatest]
  simp [readBytes, begun, ended]

private theorem readBytes_three (least : 0xE0 ≤ first.toNat) (greatest : first.toNat < 0xF0)
    (least₂ : 0x80 ≤ second.toNat) (greatest₂ : second.toNat ≤ 0xBF)
    (shortest : first.toNat = 0xE0 → 0xA0 ≤ second.toNat)
    (scalar : first.toNat = 0xED → second.toNat ≤ 0x9F)
    (least₃ : 0x80 ≤ third.toNat) (greatest₃ : third.toNat ≤ 0xBF) :
    readBytes none (first :: second :: third :: rest) =
      (.char (Char.ofNat (((first.toNat - 0xE0) * 0x40 + (second.toNat - 0x80)) * 0x40 +
        (third.toNat - 0x80))) :: (readBytes none rest).1, (readBytes none rest).2) := by
  obtain ⟨low, high, lead, bounds⟩ := start_three least greatest
  obtain ⟨above, below⟩ := bounds second.toNat least₂ greatest₂ shortest scalar
  have begun : readByte none first = ([], some ⟨[first], first.toNat - 0xE0, 1, low, high⟩) := by
    simp [readByte, beginPart, lead]
  have continued := readByte_continuation
    (p := ⟨[first], first.toNat - 0xE0, 1, low, high⟩) rfl above below
  have ended := readByte_last
    (p := ⟨[second, first], (first.toNat - 0xE0) * 0x40 + (second.toNat - 0x80), 0, 0x80, 0xBF⟩)
    rfl least₃ greatest₃
  simp [readBytes, begun, continued, ended]

private theorem readBytes_four (least : 0xF0 ≤ first.toNat) (greatest : first.toNat ≤ 0xF4)
    (least₂ : 0x80 ≤ second.toNat) (greatest₂ : second.toNat ≤ 0xBF)
    (shortest : first.toNat = 0xF0 → 0x90 ≤ second.toNat)
    (inRange : first.toNat = 0xF4 → second.toNat ≤ 0x8F)
    (least₃ : 0x80 ≤ third.toNat) (greatest₃ : third.toNat ≤ 0xBF)
    (least₄ : 0x80 ≤ fourth.toNat) (greatest₄ : fourth.toNat ≤ 0xBF) :
    readBytes none (first :: second :: third :: fourth :: rest) =
      (.char (Char.ofNat ((((first.toNat - 0xF0) * 0x40 + (second.toNat - 0x80)) * 0x40 +
        (third.toNat - 0x80)) * 0x40 + (fourth.toNat - 0x80))) ::
          (readBytes none rest).1, (readBytes none rest).2) := by
  obtain ⟨low, high, lead, bounds⟩ := start_four least greatest
  obtain ⟨above, below⟩ := bounds second.toNat least₂ greatest₂ shortest inRange
  have begun : readByte none first = ([], some ⟨[first], first.toNat - 0xF0, 2, low, high⟩) := by
    simp [readByte, beginPart, lead]
  have continued := readByte_continuation
    (p := ⟨[first], first.toNat - 0xF0, 2, low, high⟩) rfl above below
  have continued' := readByte_continuation
    (p := ⟨[second, first], (first.toNat - 0xF0) * 0x40 + (second.toNat - 0x80), 1, 0x80, 0xBF⟩)
    rfl least₃ greatest₃
  have ended := readByte_last
    (p := ⟨[third, second, first], ((first.toNat - 0xF0) * 0x40 + (second.toNat - 0x80)) * 0x40 +
      (third.toNat - 0x80), 0, 0x80, 0xBF⟩)
    rfl least₄ greatest₄
  simp [readBytes, begun, continued, continued', ended]

end Rows

private theorem toNat_ofNat {n : Nat} (small : n < 0x100) : (UInt8.ofNat n).toNat = n := by
  simp [Nat.mod_eq_of_lt small]

private theorem readBytes_utf8EncodeChar (c : Char) (rest : List UInt8) :
    readBytes none (String.utf8EncodeChar c ++ rest) =
      (.char c :: (readBytes none rest).1, (readBytes none rest).2) := by
  have same : Char.ofNat c.val.toNat = c := Char.ofNat_toNat c
  have valid : c.val.toNat < 0xD800 ∨ 0xDFFF < c.val.toNat ∧ c.val.toNat < 0x110000 := c.valid
  unfold String.utf8EncodeChar
  generalize c.val.toNat = n at valid same ⊢
  dsimp only
  split
  · rename_i one
    have byte : (UInt8.ofNat n).toNat = n := toNat_ofNat (by omega)
    rw [List.cons_append, List.nil_append, readBytes_one (by omega), byte, same]
  · split
    · rename_i several two
      have byte₁ : (UInt8.ofNat (n / 64 % 0x20 + 0xC0)).toNat = n / 64 + 0xC0 := by
        rw [toNat_ofNat (by omega)]
        omega
      have byte₂ : (UInt8.ofNat (n % 0x40 + 0x80)).toNat = n % 0x40 + 0x80 :=
        toNat_ofNat (by omega)
      have value : (n / 64 + 0xC0 - 0xC0) * 0x40 + (n % 0x40 + 0x80 - 0x80) = n := by omega
      simp only [List.cons_append, List.nil_append]
      rw [readBytes_two (by omega) (by omega) (by omega) (by omega), byte₁, byte₂, value, same]
    · split
      · rename_i several more three
        have byte₁ : (UInt8.ofNat (n / 4096 % 0x10 + 0xE0)).toNat = n / 4096 + 0xE0 := by
          rw [toNat_ofNat (by omega)]
          omega
        have byte₂ : (UInt8.ofNat (n / 64 % 0x40 + 0x80)).toNat = n / 64 % 0x40 + 0x80 :=
          toNat_ofNat (by omega)
        have byte₃ : (UInt8.ofNat (n % 0x40 + 0x80)).toNat = n % 0x40 + 0x80 :=
          toNat_ofNat (by omega)
        have value : ((n / 4096 + 0xE0 - 0xE0) * 0x40 + (n / 64 % 0x40 + 0x80 - 0x80)) * 0x40 +
            (n % 0x40 + 0x80 - 0x80) = n := by omega
        simp only [List.cons_append, List.nil_append]
        rw [readBytes_three (by omega) (by omega) (by omega) (by omega) (by omega) (by omega)
          (by omega) (by omega), byte₁, byte₂, byte₃, value, same]
      · rename_i several more many
        have byte₁ : (UInt8.ofNat (n / 262144 % 0x08 + 0xF0)).toNat = n / 262144 + 0xF0 := by
          rw [toNat_ofNat (by omega)]
          omega
        have byte₂ : (UInt8.ofNat (n / 4096 % 0x40 + 0x80)).toNat = n / 4096 % 0x40 + 0x80 :=
          toNat_ofNat (by omega)
        have byte₃ : (UInt8.ofNat (n / 64 % 0x40 + 0x80)).toNat = n / 64 % 0x40 + 0x80 :=
          toNat_ofNat (by omega)
        have byte₄ : (UInt8.ofNat (n % 0x40 + 0x80)).toNat = n % 0x40 + 0x80 :=
          toNat_ofNat (by omega)
        have value : (((n / 262144 + 0xF0 - 0xF0) * 0x40 + (n / 4096 % 0x40 + 0x80 - 0x80)) * 0x40 +
            (n / 64 % 0x40 + 0x80 - 0x80)) * 0x40 + (n % 0x40 + 0x80 - 0x80) = n := by omega
        simp only [List.cons_append, List.nil_append]
        rw [readBytes_four (by omega) (by omega) (by omega) (by omega) (by omega) (by omega)
          (by omega) (by omega) (by omega) (by omega), byte₁, byte₂, byte₃, byte₄, value, same]

theorem parts_utf8EncodeChar_append (c : Char) (rest : List UInt8) :
    parts (String.utf8EncodeChar c ++ rest) = .char c :: parts rest := by
  simp [parts, readBytes_utf8EncodeChar]

theorem parts_encode_append (text : List Char) (rest : List UInt8) :
    parts (encode text ++ rest) = text.map Part.char ++ parts rest := by
  induction text with
  | nil => rfl
  | cons c text ih =>
      rw [encode, List.flatMap_cons, List.append_assoc, parts_utf8EncodeChar_append]
      rw [encode] at ih
      rw [ih]
      rfl

@[simp] theorem decodeLossy_encode (text : List Char) : decodeLossy (encode text) = text := by
  have read := parts_encode_append text []
  have nothing : parts [] = [] := rfl
  rw [List.append_nil, nothing, List.append_nil] at read
  rw [decodeLossy, read, List.map_map]
  exact List.map_id text

end PkgRecipe.Text.Utf8
