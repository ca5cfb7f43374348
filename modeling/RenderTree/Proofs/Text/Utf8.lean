import RenderTree.Text.Utf8
import Mathlib.Data.List.Basic

/-!
# Bytes that are a text

Bytes are read as a text if they are the bytes of one, and as that text then: all others are refused.

* `Spells` — bytes that are read as a code point, by the class of the first of them.
* `Spells.decodeFrom_append`, `Spells.of_decodeFrom` — they are read at once, and nothing else is.
* `spells_utf8EncodeChar`, `Spells.utf8EncodeChar_eq` — they are the bytes of the character.
* `decode_eq_ok_iff` — decoding undoes encoding, and nothing else can be decoded.
* `encode_injective`, `decode_eq_error_iff` — different texts have different bytes, and what is refused
  are those of none.
-/

namespace RenderTree.Text

variable {b b₁ b₂ b₃ low high first : UInt8} {bs bytes rest : List UInt8} {done cs : List Char}
  {offset read point v n : Nat}

/-- The bytes behind the first of a character, but for the second of a long one. -/
def IsContinuation (b : UInt8) : Prop :=
  0x80 ≤ b ∧ b ≤ 0xBF

/-- Bytes that are read as a code point. -/
inductive Spells : Nat → List UInt8 → Prop where
  | one {b low high : UInt8} (lead : tail? b = some (0, low, high)) : Spells b.toNat [b]
  | two {b low high b₁ : UInt8} (lead : tail? b = some (1, low, high)) (second : low ≤ b₁ ∧ b₁ ≤ high) :
      Spells (leadBits b 1 * 64 + b₁.toNat % 64) [b, b₁]
  | three {b low high b₁ b₂ : UInt8} (lead : tail? b = some (2, low, high))
      (second : low ≤ b₁ ∧ b₁ ≤ high) (third : IsContinuation b₂) :
      Spells ((leadBits b 2 * 64 + b₁.toNat % 64) * 64 + b₂.toNat % 64) [b, b₁, b₂]
  | four {b low high b₁ b₂ b₃ : UInt8} (lead : tail? b = some (3, low, high))
      (second : low ≤ b₁ ∧ b₁ ≤ high) (third : IsContinuation b₂) (fourth : IsContinuation b₃) :
      Spells (((leadBits b 3 * 64 + b₁.toNat % 64) * 64 + b₂.toNat % 64) * 64 + b₃.toNat % 64)
        [b, b₁, b₂, b₃]

/-! ### First bytes -/

/-- Four kinds of bytes begin a character, and each says which bytes may follow it. -/
theorem tail?_cases (h : tail? b = some (n, low, high)) :
    (n = 0 ∧ b.toNat < 0x80) ∨
      (n = 1 ∧ 0xC2 ≤ b.toNat ∧ b.toNat < 0xE0 ∧ low.toNat = 0x80 ∧ high.toNat = 0xBF) ∨
      (n = 2 ∧ 0xE0 ≤ b.toNat ∧ b.toNat < 0xF0 ∧
        low.toNat = (if b.toNat = 0xE0 then 0xA0 else 0x80) ∧
        high.toNat = (if b.toNat = 0xED then 0x9F else 0xBF)) ∨
      (n = 3 ∧ 0xF0 ≤ b.toNat ∧ b.toNat < 0xF5 ∧
        low.toNat = (if b.toNat = 0xF0 then 0x90 else 0x80) ∧
        high.toNat = (if b.toNat = 0xF4 then 0x8F else 0xBF)) := by
  unfold tail? at h
  simp only [UInt8.lt_iff_toNat_lt, ← UInt8.toNat_inj, UInt8.toNat_ofNat, Nat.reducePow,
    Nat.reduceMod] at h
  split_ifs at h <;> cases h <;> simp [*] <;> omega

/-- An ASCII byte is a character. -/
theorem tail?_one (h : b.toNat < 0x80) : tail? b = some (0, 0x80, 0xBF) := by
  unfold tail?
  rw [if_pos (UInt8.lt_iff_toNat_lt.2 h)]

/-- The first byte of two. -/
theorem tail?_two (h : 0xC2 ≤ b.toNat) (h' : b.toNat < 0xE0) :
    tail? b = some (1, 0x80, 0xBF) := by
  unfold tail?
  simp only [UInt8.lt_iff_toNat_lt, UInt8.toNat_ofNat, Nat.reducePow, Nat.reduceMod]
  rw [if_neg (by omega), if_neg (by omega), if_pos h']

/-- The first byte of three. What follows it is restricted where a shorter form or a surrogate would
be spelled. -/
theorem tail?_three (h : 0xE0 ≤ b.toNat) (h' : b.toNat < 0xF0) :
    ∃ low high, tail? b = some (2, low, high) ∧
      low.toNat = (if b.toNat = 0xE0 then 0xA0 else 0x80) ∧
        high.toNat = (if b.toNat = 0xED then 0x9F else 0xBF) := by
  unfold tail?
  simp only [UInt8.lt_iff_toNat_lt, ← UInt8.toNat_inj, UInt8.toNat_ofNat, Nat.reducePow,
    Nat.reduceMod]
  rw [if_neg (by omega), if_neg (by omega), if_neg (by omega), if_pos h']
  split_ifs <;> first | omega | exact ⟨_, _, rfl, rfl, rfl⟩

/-- The first byte of four. What follows it is restricted where a shorter form or no code point
would be spelled. -/
theorem tail?_four (h : 0xF0 ≤ b.toNat) (h' : b.toNat < 0xF5) :
    ∃ low high, tail? b = some (3, low, high) ∧
      low.toNat = (if b.toNat = 0xF0 then 0x90 else 0x80) ∧
        high.toNat = (if b.toNat = 0xF4 then 0x8F else 0xBF) := by
  unfold tail?
  simp only [UInt8.lt_iff_toNat_lt, ← UInt8.toNat_inj, UInt8.toNat_ofNat, Nat.reducePow,
    Nat.reduceMod]
  rw [if_neg (by omega), if_neg (by omega), if_neg (by omega), if_neg (by omega),
    if_neg (by omega), if_neg (by omega)]
  split_ifs <;> first | omega | exact ⟨_, _, rfl, rfl, rfl⟩

/-! ### Steps of the decoder -/

/-- A character of one byte is read at once. -/
theorem decodeFrom_one (h : tail? b = some (0, low, high)) :
    decodeFrom done offset 0 0 0 0 0 0 (b :: bs) =
      decodeFrom (Char.ofNat b.toNat :: done) (offset + 1) 0 0 0 0 0 0 bs := by
  rw [decodeFrom, h]

/-- The first byte of a longer character tells how many follow. -/
theorem decodeFrom_lead (h : tail? b = some (n + 1, low, high)) :
    decodeFrom done offset 0 0 0 0 0 0 (b :: bs) =
      decodeFrom done offset 1 (n + 1) (leadBits b (n + 1)) b low high bs := by
  rw [decodeFrom, h]

/-- The last byte of a character ends it. -/
theorem decodeFrom_last (h : low ≤ b ∧ b ≤ high) :
    decodeFrom done offset read 1 point first low high (b :: bs) =
      decodeFrom (Char.ofNat (point * 64 + b.toNat % 64) :: done) (offset + read + 1) 0 0 0 0 0 0
        bs := by
  rw [decodeFrom, if_pos h]

/-- Any other byte adds six bits. -/
theorem decodeFrom_next (h : low ≤ b ∧ b ≤ high) :
    decodeFrom done offset read (n + 2) point first low high (b :: bs) =
      decodeFrom done offset (read + 1) (n + 1) (point * 64 + b.toNat % 64) first 0x80 0xBF bs := by
  rw [decodeFrom, if_pos h]

/-- Within a character a byte in range follows. -/
theorem decodeFrom_waiting
    (h : decodeFrom done offset read (n + 1) point first low high bs = .ok cs) :
    ∃ b rest, bs = b :: rest ∧ low ≤ b ∧ b ≤ high := by
  cases bs with
  | nil => simp [decodeFrom] at h
  | cons b rest =>
    rw [decodeFrom] at h
    split at h
    next hb => exact ⟨b, rest, rfl, hb⟩
    next => cases h

/-- The bytes of a character are read at once. -/
theorem Spells.decodeFrom_append (h : Spells v bytes) (done : List Char) (offset : Nat)
    (rest : List UInt8) :
    decodeFrom done offset 0 0 0 0 0 0 (bytes ++ rest) =
      decodeFrom (Char.ofNat v :: done) (offset + bytes.length) 0 0 0 0 0 0 rest := by
  cases h with
  | one lead => exact decodeFrom_one lead
  | two lead second =>
    show decodeFrom done offset 0 0 0 0 0 0 (_ :: _ :: rest) = _
    rw [decodeFrom_lead lead, decodeFrom_last second]
    rfl
  | three lead second third =>
    show decodeFrom done offset 0 0 0 0 0 0 (_ :: _ :: _ :: rest) = _
    rw [decodeFrom_lead lead, decodeFrom_next second, decodeFrom_last third]
    rfl
  | four lead second third fourth =>
    show decodeFrom done offset 0 0 0 0 0 0 (_ :: _ :: _ :: _ :: rest) = _
    rw [decodeFrom_lead lead, decodeFrom_next second, decodeFrom_next third,
      decodeFrom_last fourth]
    rfl

/-- Only the bytes of characters are read. -/
theorem Spells.of_decodeFrom (h : decodeFrom done offset 0 0 0 0 0 0 (b :: bs) = .ok cs) :
    ∃ v bytes rest, Spells v bytes ∧ b :: bs = bytes ++ rest := by
  cases hb : tail? b with
  | none => simp [decodeFrom, hb] at h
  | some t =>
    obtain ⟨n, low, high⟩ := t
    -- The first byte tells how many follow.
    rcases n with _ | _ | _ | _ | n
    · exact ⟨_, [b], bs, .one hb, rfl⟩
    · rw [decodeFrom_lead hb] at h
      obtain ⟨b₁, bs, rfl, h₁⟩ := decodeFrom_waiting h
      exact ⟨_, [b, b₁], bs, .two hb h₁, rfl⟩
    · rw [decodeFrom_lead hb] at h
      obtain ⟨b₁, bs, rfl, h₁⟩ := decodeFrom_waiting h
      rw [decodeFrom_next h₁] at h
      obtain ⟨b₂, bs, rfl, h₂⟩ := decodeFrom_waiting h
      exact ⟨_, [b, b₁, b₂], bs, .three hb h₁ h₂, rfl⟩
    · rw [decodeFrom_lead hb] at h
      obtain ⟨b₁, bs, rfl, h₁⟩ := decodeFrom_waiting h
      rw [decodeFrom_next h₁] at h
      obtain ⟨b₂, bs, rfl, h₂⟩ := decodeFrom_waiting h
      rw [decodeFrom_next h₂] at h
      obtain ⟨b₃, bs, rfl, h₃⟩ := decodeFrom_waiting h
      exact ⟨_, [b, b₁, b₂, b₃], bs, .four hb h₁ h₂ h₃, rfl⟩
    · have hn := tail?_cases hb
      omega

/-! ### Bytes of characters -/

/-- A byte continues a character if its number is in the range for that. -/
theorem isContinuation_iff : IsContinuation b ↔ 0x80 ≤ b.toNat ∧ b.toNat ≤ 0xBF := by
  rw [IsContinuation, UInt8.le_iff_toNat_le, UInt8.le_iff_toNat_le]
  rfl

/-- A number below 256 is that of a byte. -/
theorem toNat_ofNat_of_lt {k : Nat} (h : k < 256) : (UInt8.ofNat k).toNat = k :=
  UInt8.toNat_ofNat_of_lt' h

/-- The six bits that a byte behind the first carries. -/
theorem toNat_continuation (k : Nat) : (UInt8.ofNat (k % 64 + 128)).toNat = k % 64 + 128 :=
  toNat_ofNat_of_lt (by omega)

/-- Six bits make a byte that continues a character. -/
theorem isContinuation_ofNat (k : Nat) : IsContinuation (UInt8.ofNat (k % 64 + 128)) := by
  rw [isContinuation_iff, toNat_continuation]
  omega

/-- The two bytes of a code point spell it. -/
theorem spells_of_two (h : 0x7F < v) (h' : v ≤ 0x7FF) :
    Spells v [UInt8.ofNat (v / 64 % 32 + 192), UInt8.ofNat (v % 64 + 128)] := by
  have hb : (UInt8.ofNat (v / 64 % 32 + 192)).toNat = v / 64 % 32 + 192 :=
    toNat_ofNat_of_lt (by omega)
  have hlead := tail?_two (b := UInt8.ofNat (v / 64 % 32 + 192)) (by omega) (by omega)
  have hspells := Spells.two hlead (isContinuation_ofNat v)
  have hv : leadBits (UInt8.ofNat (v / 64 % 32 + 192)) 1 * 64 +
      (UInt8.ofNat (v % 64 + 128)).toNat % 64 = v := by
    rw [toNat_continuation]
    simp only [leadBits, hb, Nat.pow_eq, Nat.reduceSub, Nat.reducePow]
    omega
  rwa [hv] at hspells

/-- The three bytes of a code point spell it. -/
theorem spells_of_three (h : 0x7FF < v) (h' : v ≤ 0xFFFF) (hv : v < 0xD800 ∨ 0xDFFF < v) :
    Spells v [UInt8.ofNat (v / 4096 % 16 + 224), UInt8.ofNat (v / 64 % 64 + 128),
      UInt8.ofNat (v % 64 + 128)] := by
  have hb : (UInt8.ofNat (v / 4096 % 16 + 224)).toNat = v / 4096 % 16 + 224 :=
    toNat_ofNat_of_lt (by omega)
  obtain ⟨low, high, hlead, hlow, hhigh⟩ :=
    tail?_three (b := UInt8.ofNat (v / 4096 % 16 + 224)) (by omega) (by omega)
  have hsecond : low ≤ UInt8.ofNat (v / 64 % 64 + 128) ∧ UInt8.ofNat (v / 64 % 64 + 128) ≤ high := by
    rw [UInt8.le_iff_toNat_le, UInt8.le_iff_toNat_le, toNat_continuation, hlow, hhigh, hb]
    split_ifs <;> omega
  have hspells := Spells.three hlead hsecond (isContinuation_ofNat v)
  have hpoint : (leadBits (UInt8.ofNat (v / 4096 % 16 + 224)) 2 * 64 +
      (UInt8.ofNat (v / 64 % 64 + 128)).toNat % 64) * 64 +
        (UInt8.ofNat (v % 64 + 128)).toNat % 64 = v := by
    rw [toNat_continuation, toNat_continuation]
    simp only [leadBits, hb, Nat.pow_eq, Nat.reduceSub, Nat.reducePow]
    omega
  rwa [hpoint] at hspells

/-- The four bytes of a code point spell it. -/
theorem spells_of_four (h : 0xFFFF < v) (h' : v < 0x110000) :
    Spells v [UInt8.ofNat (v / 262144 % 8 + 240), UInt8.ofNat (v / 4096 % 64 + 128),
      UInt8.ofNat (v / 64 % 64 + 128), UInt8.ofNat (v % 64 + 128)] := by
  have hb : (UInt8.ofNat (v / 262144 % 8 + 240)).toNat = v / 262144 % 8 + 240 :=
    toNat_ofNat_of_lt (by omega)
  obtain ⟨low, high, hlead, hlow, hhigh⟩ :=
    tail?_four (b := UInt8.ofNat (v / 262144 % 8 + 240)) (by omega) (by omega)
  have hsecond : low ≤ UInt8.ofNat (v / 4096 % 64 + 128) ∧
      UInt8.ofNat (v / 4096 % 64 + 128) ≤ high := by
    rw [UInt8.le_iff_toNat_le, UInt8.le_iff_toNat_le, toNat_continuation, hlow, hhigh, hb]
    split_ifs <;> omega
  have hspells :=
    Spells.four hlead hsecond (isContinuation_ofNat (v / 64)) (isContinuation_ofNat v)
  have hpoint : ((leadBits (UInt8.ofNat (v / 262144 % 8 + 240)) 3 * 64 +
      (UInt8.ofNat (v / 4096 % 64 + 128)).toNat % 64) * 64 +
        (UInt8.ofNat (v / 64 % 64 + 128)).toNat % 64) * 64 +
          (UInt8.ofNat (v % 64 + 128)).toNat % 64 = v := by
    rw [toNat_continuation, toNat_continuation, toNat_continuation]
    simp only [leadBits, hb, Nat.pow_eq, Nat.reduceSub, Nat.reducePow]
    omega
  rwa [hpoint] at hspells

/-- The bytes of a character are read as its code point. -/
theorem spells_utf8EncodeChar (c : Char) : Spells c.toNat (String.utf8EncodeChar c) := by
  have hvalid : c.toNat < 0xD800 ∨ 0xDFFF < c.toNat ∧ c.toNat < 0x110000 := c.valid
  unfold String.utf8EncodeChar
  simp only [Char.toNat_val]
  generalize c.toNat = v at hvalid
  split_ifs with h₁ h₂ h₃
  · have hb : (UInt8.ofNat v).toNat = v := toNat_ofNat_of_lt (by omega)
    have hspells := Spells.one (tail?_one (b := UInt8.ofNat v) (by omega))
    rwa [hb] at hspells
  · exact spells_of_two (by omega) h₂
  · exact spells_of_three (by omega) h₃ (by omega)
  · exact spells_of_four (by omega) (by omega)

/-- A code point is that of its character. -/
theorem toNat_ofNat_char (h : v < 0xD800 ∨ 0xDFFF < v ∧ v < 0x110000) : (Char.ofNat v).toNat = v := by
  have hv : v.isValidChar := h
  rw [Char.ofNat, dif_pos hv]
  rfl

/-- A byte can be told by its number. -/
theorem ofNat_eq {k : Nat} (h : b.toNat = k) : UInt8.ofNat k = b := by
  rw [← h, UInt8.ofNat_toNat]

/-- Two bytes are those of the character that they spell. -/
theorem utf8EncodeChar_of_two (hb : 0xC2 ≤ b.toNat ∧ b.toNat < 0xE0) (h₁ : IsContinuation b₁)
    (hv : v = b.toNat % 32 * 64 + b₁.toNat % 64) :
    String.utf8EncodeChar (Char.ofNat v) = [b, b₁] := by
  rw [isContinuation_iff] at h₁
  unfold String.utf8EncodeChar
  simp only [Char.toNat_val]
  rw [toNat_ofNat_char (by omega), if_neg (by omega), if_pos (by omega),
    ofNat_eq (b := b) (by omega), ofNat_eq (b := b₁) (by omega)]

/-- Three bytes are those of the character that they spell. -/
theorem utf8EncodeChar_of_three (hb : 0xE0 ≤ b.toNat ∧ b.toNat < 0xF0)
    (hlow : (if b.toNat = 0xE0 then 0xA0 else 0x80) ≤ b₁.toNat)
    (hhigh : b₁.toNat ≤ if b.toNat = 0xED then 0x9F else 0xBF) (h₂ : IsContinuation b₂)
    (hv : v = (b.toNat % 16 * 64 + b₁.toNat % 64) * 64 + b₂.toNat % 64) :
    String.utf8EncodeChar (Char.ofNat v) = [b, b₁, b₂] := by
  rw [isContinuation_iff] at h₂
  have hrange : 0x7FF < v ∧ v ≤ 0xFFFF ∧ (v < 0xD800 ∨ 0xDFFF < v) := by
    split_ifs at hlow hhigh <;> omega
  have hsecond : 0x80 ≤ b₁.toNat ∧ b₁.toNat ≤ 0xBF := by
    split_ifs at hlow hhigh <;> omega
  unfold String.utf8EncodeChar
  simp only [Char.toNat_val]
  rw [toNat_ofNat_char (by omega), if_neg (by omega), if_neg (by omega), if_pos (by omega),
    ofNat_eq (b := b) (by omega), ofNat_eq (b := b₁) (by omega), ofNat_eq (b := b₂) (by omega)]

/-- Four bytes are those of the character that they spell. -/
theorem utf8EncodeChar_of_four (hb : 0xF0 ≤ b.toNat ∧ b.toNat < 0xF5)
    (hlow : (if b.toNat = 0xF0 then 0x90 else 0x80) ≤ b₁.toNat)
    (hhigh : b₁.toNat ≤ if b.toNat = 0xF4 then 0x8F else 0xBF) (h₂ : IsContinuation b₂)
    (h₃ : IsContinuation b₃)
    (hv : v = ((b.toNat % 8 * 64 + b₁.toNat % 64) * 64 + b₂.toNat % 64) * 64 + b₃.toNat % 64) :
    String.utf8EncodeChar (Char.ofNat v) = [b, b₁, b₂, b₃] := by
  rw [isContinuation_iff] at h₂ h₃
  have hrange : 0xFFFF < v ∧ v < 0x110000 := by
    split_ifs at hlow hhigh <;> omega
  have hsecond : 0x80 ≤ b₁.toNat ∧ b₁.toNat ≤ 0xBF := by
    split_ifs at hlow hhigh <;> omega
  unfold String.utf8EncodeChar
  simp only [Char.toNat_val]
  rw [toNat_ofNat_char (by omega), if_neg (by omega), if_neg (by omega), if_neg (by omega),
    ofNat_eq (b := b) (by omega), ofNat_eq (b := b₁) (by omega), ofNat_eq (b := b₂) (by omega),
    ofNat_eq (b := b₃) (by omega)]

/-- What is read as a code point is that of a character, and the bytes are its bytes. -/
theorem Spells.utf8EncodeChar_eq (h : Spells v bytes) :
    String.utf8EncodeChar (Char.ofNat v) = bytes := by
  -- The number of bytes fixes the range of the first one, and with it that of the code point.
  cases h with
  | @one b low high lead =>
    have hlead := tail?_cases lead
    unfold String.utf8EncodeChar
    simp only [Char.toNat_val]
    rw [toNat_ofNat_char (by omega), if_pos (by omega), ofNat_eq rfl]
  | two lead second =>
    have hlead := tail?_cases lead
    rw [UInt8.le_iff_toNat_le, UInt8.le_iff_toNat_le] at second
    exact utf8EncodeChar_of_two (by omega) (isContinuation_iff.2 (by omega)) rfl
  | three lead second third =>
    obtain ⟨hn, -⟩ | ⟨hn, -⟩ | ⟨-, hb, hb', hlow, hhigh⟩ | ⟨hn, -⟩ := tail?_cases lead
    · omega
    · omega
    · rw [UInt8.le_iff_toNat_le, UInt8.le_iff_toNat_le, hlow, hhigh] at second
      exact utf8EncodeChar_of_three ⟨hb, hb'⟩ second.1 second.2 third rfl
    · omega
  | four lead second third fourth =>
    obtain ⟨hn, -⟩ | ⟨hn, -⟩ | ⟨hn, -⟩ | ⟨-, hb, hb', hlow, hhigh⟩ := tail?_cases lead
    · omega
    · omega
    · omega
    · rw [UInt8.le_iff_toNat_le, UInt8.le_iff_toNat_le, hlow, hhigh] at second
      exact utf8EncodeChar_of_four ⟨hb, hb'⟩ second.1 second.2 third fourth rfl

/-! ### Texts -/

/-- Encoded characters are decoded one after the other. -/
theorem decodeFrom_flatMap (cs done : List Char) (offset : Nat) :
    decodeFrom done offset 0 0 0 0 0 0 (cs.flatMap String.utf8EncodeChar) =
      .ok (done.reverse ++ cs) := by
  induction cs generalizing done offset with
  | nil => simp [decodeFrom]
  | cons c cs ih =>
    rw [List.flatMap_cons, (spells_utf8EncodeChar c).decodeFrom_append, Char.ofNat_toNat, ih]
    simp

/-- Bytes that are decoded are those of the characters that they are decoded to. -/
theorem flatMap_of_decodeFrom (bs : List UInt8) : ∀ (done : List Char) (offset : Nat) (cs : List Char),
    decodeFrom done offset 0 0 0 0 0 0 bs = .ok cs →
      ∃ new, cs = done.reverse ++ new ∧ bs = new.flatMap String.utf8EncodeChar := by
  -- By induction on the number of bytes, a character at a time.
  induction hn : bs.length using Nat.strongRecOn generalizing bs with
  | ind n ih =>
    intro done offset cs h
    cases bs with
    | nil =>
      rw [decodeFrom, if_pos rfl] at h
      cases h
      exact ⟨[], by simp, rfl⟩
    | cons b bs =>
      obtain ⟨v, bytes, rest, hspells, hbytes⟩ := Spells.of_decodeFrom h
      have hlength : rest.length < n := by
        have hpos : 0 < bytes.length := by cases hspells <;> simp
        have hsum := congrArg List.length hbytes
        simp only [List.length_append] at hsum
        omega
      rw [hbytes, hspells.decodeFrom_append] at h
      obtain ⟨new, rfl, rfl⟩ := ih rest.length hlength rest rfl _ _ _ h
      refine ⟨Char.ofNat v :: new, by simp, ?_⟩
      rw [hbytes, List.flatMap_cons, hspells.utf8EncodeChar_eq]

/-- **Decoding.** Bytes can be decoded if they are those of a text, and to that text. -/
theorem decode_eq_ok_iff {text : String} : decode bytes = .ok text ↔ encode text = bytes := by
  constructor
  · intro h
    unfold decode at h
    cases hcs : decodeFrom [] 0 0 0 0 0 0 0 bytes with
    | error f => simp [hcs, Except.map] at h
    | ok cs =>
      rw [hcs] at h
      cases h
      obtain ⟨new, hnew, rfl⟩ := flatMap_of_decodeFrom bytes _ _ _ hcs
      rw [encode, String.toList_ofList, hnew]
      rfl
  · rintro rfl
    rw [decode, encode, decodeFrom_flatMap]
    simp [Except.map]

/-- Different texts have different bytes. -/
theorem encode_injective {text text' : String} (h : encode text = encode text') : text = text' := by
  have htext := decode_eq_ok_iff.2 h
  rw [decode_eq_ok_iff.2 rfl, Except.ok.injEq] at htext
  exact htext.symm

/-- Bytes are refused if they are those of no text. -/
theorem decode_eq_error_iff : (∃ f, decode bytes = .error f) ↔ ∀ text, encode text ≠ bytes := by
  constructor
  · rintro ⟨f, hf⟩ text ht
    rw [decode_eq_ok_iff.2 ht] at hf
    cases hf
  · intro h
    cases hd : decode bytes with
    | error f => exact ⟨f, rfl⟩
    | ok text => exact absurd (decode_eq_ok_iff.1 hd) (h text)

end RenderTree.Text
