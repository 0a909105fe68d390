/-
# Incremental UTF-8

The decoder of the encoding standard: a machine that takes one byte at a time and emits a
character when one is complete, and U+FFFD where no sequence can go on.  It keeps nothing but
what it needs for the next byte, so cutting the bytes into chunks makes no difference
(`decode_append`), and it reads back what was encoded (`decode_encode`).

The encoder is Lean's own, on lists.
-/
import Mathlib.Data.List.Basic

namespace Utf8

/-- The bytes of a text. -/
def encode (text : List Char) : List UInt8 := text.flatMap String.utf8EncodeChar

@[simp] theorem encode_nil : encode [] = [] := rfl

@[simp] theorem encode_cons (c : Char) (text : List Char) :
    encode (c :: text) = String.utf8EncodeChar c ++ encode text := rfl

@[simp] theorem encode_append (s t : List Char) : encode (s ++ t) = encode s ++ encode t := by
  simp [encode]

/-- U+FFFD. -/
def replacement : Char := Char.ofNat 0xFFFD

/-- The code point so far, the bytes still to come, and the bounds of the next one. -/
structure Decoder where
  codePoint : Nat
  needed : Nat
  lower : Nat
  upper : Nat
  deriving DecidableEq, Repr

namespace Decoder

/-- Between two characters. -/
def start : Decoder := ⟨0, 0, 0x80, 0xBF⟩

/-- The first byte of a character. -/
def first (b : Nat) : Decoder × List Char :=
  if b ≤ 0x7F then (start, [Char.ofNat b])
  else if b < 0xC2 then (start, [replacement])
  else if b ≤ 0xDF then (⟨b % 0x20, 1, 0x80, 0xBF⟩, [])
  else if b ≤ 0xEF then
    (⟨b % 0x10, 2, if b = 0xE0 then 0xA0 else 0x80, if b = 0xED then 0x9F else 0xBF⟩, [])
  else if b ≤ 0xF4 then
    (⟨b % 0x08, 3, if b = 0xF0 then 0x90 else 0x80, if b = 0xF4 then 0x8F else 0xBF⟩, [])
  else (start, [replacement])

/-- One byte.  A byte that cannot go on ends the sequence, and is looked at again. -/
def step (d : Decoder) (byte : UInt8) : Decoder × List Char :=
  let b := byte.toNat
  if d.needed = 0 then first b
  else if d.lower ≤ b ∧ b ≤ d.upper then
    let codePoint := d.codePoint * 0x40 + b % 0x40
    if d.needed = 1 then (start, [Char.ofNat codePoint])
    else (⟨codePoint, d.needed - 1, 0x80, 0xBF⟩, [])
  else ((first b).1, replacement :: (first b).2)

end Decoder

/-- The decoder after some bytes, and what it has emitted. -/
def decode : Decoder → List UInt8 → Decoder × List Char
  | d, [] => (d, [])
  | d, byte :: bytes =>
    let (next, out) := d.step byte
    let (last, rest) := decode next bytes
    (last, out ++ rest)

/-- **Chunks make no difference.** -/
theorem decode_append (d : Decoder) (xs ys : List UInt8) :
    decode d (xs ++ ys) =
      ((decode (decode d xs).1 ys).1, (decode d xs).2 ++ (decode (decode d xs).1 ys).2) := by
  induction xs generalizing d with
  | nil => rfl
  | cons x xs ih => simp only [List.cons_append, decode, ih, List.append_assoc]

theorem toNat_ofNat {n : Nat} (h : n < 256) : (UInt8.ofNat n).toNat = n := by
  simp [Nat.mod_eq_of_lt h]

/-- A byte that goes on. -/
theorem decode_continue {d : Decoder} {n : Nat} (hneeded : d.needed ≠ 0) (hlower : d.lower ≤ n)
    (hupper : n ≤ d.upper) (hn : n < 256) (bytes : List UInt8) :
    decode d (UInt8.ofNat n :: bytes) =
      if d.needed = 1 then
        ((decode .start bytes).1,
          Char.ofNat (d.codePoint * 0x40 + n % 0x40) :: (decode .start bytes).2)
      else decode ⟨d.codePoint * 0x40 + n % 0x40, d.needed - 1, 0x80, 0xBF⟩ bytes := by
  simp only [decode, Decoder.step, toNat_ofNat hn, if_neg hneeded, if_pos (And.intro hlower hupper)]
  split <;> simp

/-- A first byte. -/
theorem decode_first {n : Nat} (hn : n < 256) (bytes : List UInt8) :
    decode .start (UInt8.ofNat n :: bytes) =
      ((decode (Decoder.first n).1 bytes).1,
        (Decoder.first n).2 ++ (decode (Decoder.first n).1 bytes).2) := by
  simp only [decode, Decoder.step, toNat_ofNat hn]
  rfl

theorem first_one {b : Nat} (h : b ≤ 0x7F) : Decoder.first b = (.start, [Char.ofNat b]) := if_pos h

theorem first_two {x : Nat} (hlow : 2 ≤ x) (hhigh : x < 0x20) :
    Decoder.first (x + 0xC0) = (⟨x, 1, 0x80, 0xBF⟩, []) := by
  have hx : (x + 0xC0) % 0x20 = x := by omega
  simp only [Decoder.first, hx]
  rw [if_neg (by omega), if_neg (by omega), if_pos (by omega)]

theorem first_three {x : Nat} (hhigh : x < 0x10) : Decoder.first (x + 0xE0) =
    (⟨x, 2, if x = 0 then 0xA0 else 0x80, if x = 13 then 0x9F else 0xBF⟩, []) := by
  have hx : (x + 0xE0) % 0x10 = x := by omega
  have hzero : x + 0xE0 = 0xE0 ↔ x = 0 := by omega
  have hsurrogate : x + 0xE0 = 0xED ↔ x = 13 := by omega
  simp only [Decoder.first, hx, hzero, hsurrogate]
  rw [if_neg (by omega), if_neg (by omega), if_neg (by omega), if_pos (by omega)]

theorem first_four {x : Nat} (hhigh : x ≤ 4) : Decoder.first (x + 0xF0) =
    (⟨x, 3, if x = 0 then 0x90 else 0x80, if x = 4 then 0x8F else 0xBF⟩, []) := by
  have hx : (x + 0xF0) % 0x08 = x := by omega
  have hzero : x + 0xF0 = 0xF0 ↔ x = 0 := by omega
  have hlast : x + 0xF0 = 0xF4 ↔ x = 4 := by omega
  simp only [Decoder.first, hx, hzero, hlast]
  rw [if_neg (by omega), if_neg (by omega), if_neg (by omega), if_neg (by omega),
    if_pos (by omega)]

/-- One character. -/
theorem decode_encodeChar (c : Char) : decode .start (String.utf8EncodeChar c) = (.start, [c]) := by
  have hvalid : c.toNat < 0xD800 ∨ 0xDFFF < c.toNat ∧ c.toNat < 0x110000 := c.valid
  have hc : Char.ofNat c.toNat = c := Char.ofNat_toNat c
  have hv : c.val.toNat = c.toNat := rfl
  simp only [String.utf8EncodeChar, hv]
  generalize c.toNat = v at *
  -- the bytes by the range of the code point
  split
  · rw [decode_first (by omega), first_one (by omega)]
    simp [decode, hc]
  split
  · rw [decode_first (by omega), first_two (by omega) (by omega),
      decode_continue (by simp) (by show 0x80 ≤ _; omega) (by show _ ≤ 0xBF; omega) (by omega)]
    have hpoint : v / 64 % 32 * 64 + (v % 64 + 128) % 64 = v := by omega
    simp only [decode, if_true, hpoint, hc, List.nil_append]
  split
  · rw [decode_first (by omega), first_three (by omega),
      decode_continue (by simp) (by dsimp only; split <;> omega)
        (by dsimp only; split <;> omega) (by omega), if_neg (by simp),
      decode_continue (by simp) (by show 0x80 ≤ _; omega) (by show _ ≤ 0xBF; omega) (by omega)]
    have hpoint : (v / 4096 % 16 * 64 + (v / 64 % 64 + 128) % 64) * 64 +
        (v % 64 + 128) % 64 = v := by omega
    simp only [decode, if_true, hpoint, hc, List.nil_append]
  · rw [decode_first (by omega), first_four (by omega),
      decode_continue (by simp) (by dsimp only; split <;> omega)
        (by dsimp only; split <;> omega) (by omega), if_neg (by simp),
      decode_continue (by simp) (by show 0x80 ≤ _; omega) (by show _ ≤ 0xBF; omega) (by omega),
      if_neg (by simp),
      decode_continue (by simp) (by show 0x80 ≤ _; omega) (by show _ ≤ 0xBF; omega) (by omega)]
    have hpoint : ((v / 262144 % 8 * 64 + (v / 4096 % 64 + 128) % 64) * 64 +
        (v / 64 % 64 + 128) % 64) * 64 + (v % 64 + 128) % 64 = v := by omega
    simp only [decode, if_true, hpoint, hc, List.nil_append]

/-- **What was encoded is read back.** -/
theorem decode_encode (text : List Char) : decode .start (encode text) = (.start, text) := by
  induction text with
  | nil => rfl
  | cons c text ih => rw [encode_cons, decode_append, decode_encodeChar, ih, List.singleton_append]

/-- No character has the byte `0xFF`. -/
theorem notMem_encode (text : List Char) : 0xFF ∉ encode text := by
  have hne {n : Nat} (h : n < 0xFF) : (0xFF : UInt8) ≠ UInt8.ofNat n := by
    intro heq
    have hnat := congrArg UInt8.toNat heq
    rw [toNat_ofNat (by omega)] at hnat
    change 0xFF = n at hnat
    omega
  intro h
  obtain ⟨c, -, hc⟩ := List.mem_flatMap.mp h
  simp only [String.utf8EncodeChar] at hc
  generalize c.val.toNat = v at hc
  split at hc
  · exact absurd (List.mem_singleton.mp hc) (hne (by omega))
  split at hc
  · simp only [List.mem_cons, List.not_mem_nil, or_false] at hc
    rcases hc with hc | hc <;> exact absurd hc (hne (by omega))
  split at hc
  · simp only [List.mem_cons, List.not_mem_nil, or_false] at hc
    rcases hc with hc | hc | hc <;> exact absurd hc (hne (by omega))
  · simp only [List.mem_cons, List.not_mem_nil, or_false] at hc
    rcases hc with hc | hc | hc | hc <;> exact absurd hc (hne (by omega))

/-! ## Bytes that are not all there yet -/

/-- Between two characters, a character has just been emitted. -/
theorem step_emits {d : Decoder} {byte : UInt8} (h : (d.step byte).1 = .start) :
    (d.step byte).2 ≠ [] := by
  have hfirst : ∀ b, (Decoder.first b).1 = .start → (Decoder.first b).2 ≠ [] := by
    intro b hb
    unfold Decoder.first at hb ⊢
    split <;> rename_i h1
    · simp
    split <;> rename_i h2
    · simp
    split <;> rename_i h3
    · rw [if_neg h1, if_neg h2, if_pos h3] at hb
      exact absurd (congrArg Decoder.needed hb) (by simp [Decoder.start])
    split <;> rename_i h4
    · rw [if_neg h1, if_neg h2, if_neg h3, if_pos h4] at hb
      exact absurd (congrArg Decoder.needed hb) (by simp [Decoder.start])
    split <;> rename_i h5
    · rw [if_neg h1, if_neg h2, if_neg h3, if_neg h4, if_pos h5] at hb
      exact absurd (congrArg Decoder.needed hb) (by simp [Decoder.start])
    · simp
  simp only [Decoder.step] at h ⊢
  split <;> rename_i hneeded
  · rw [if_pos hneeded] at h
    exact hfirst _ h
  split <;> rename_i hbounds
  · rw [if_neg hneeded, if_pos hbounds] at h
    split <;> rename_i hone
    · simp
    · -- more bytes are needed
      rw [if_neg hone] at h
      have hzero : d.needed - 1 = 0 := congrArg Decoder.needed h
      omega
  · simp

theorem decode_emits {bytes : List UInt8} (hne : bytes ≠ []) {d : Decoder}
    (h : (decode d bytes).1 = .start) : (decode d bytes).2 ≠ [] := by
  obtain ⟨init, last, rfl⟩ := List.eq_nil_or_concat bytes |>.resolve_left hne
  rw [List.concat_eq_append, decode_append] at h ⊢
  have hlast : ((decode d init).1.step last).2 ≠ [] := step_emits h
  simp only [decode, List.append_nil]
  exact fun hnil => hlast (List.append_eq_nil_iff.mp hnil).2

/-- A character that is not all there is not emitted. -/
theorem decode_unfinished {c : Char} {bytes more : List UInt8} (hne : more ≠ [])
    (h : bytes ++ more = String.utf8EncodeChar c) : (decode .start bytes).2 = [] := by
  have hwhole := decode_encodeChar c
  rw [← h, decode_append, Prod.mk.injEq] at hwhole
  obtain ⟨hlast, hout⟩ := hwhole
  -- the last bytes emit something, and there is one character in all
  have hmore := decode_emits hne hlast
  rcases List.append_eq_singleton_iff.mp hout with ⟨hnil, -⟩ | ⟨-, hnil⟩
  · exact hnil
  · exact absurd hnil hmore

/-- **From a part of the bytes, a part of the text**, with no character that is not all there. -/
theorem decode_prefix : ∀ {text : List Char} {bytes : List UInt8}, bytes <+: encode text →
    (decode .start bytes).2 <+: text ∧ (encode (decode .start bytes).2).length ≤ bytes.length
  | [], bytes, h => by
    obtain rfl := List.prefix_nil.mp h
    exact ⟨List.nil_prefix, Nat.le_refl 0⟩
  | c :: text, bytes, h => by
    rw [encode_cons] at h
    obtain ⟨more, hmore⟩ := h
    rcases List.append_eq_append_iff.mp hmore with ⟨rest, hrest, -⟩ | ⟨later, rfl, hlater⟩
    · by_cases hnil : rest = []
      · rw [hnil, List.append_nil] at hrest
        rw [← hrest, decode_encodeChar]
        exact ⟨⟨text, rfl⟩, by simp⟩
      · rw [decode_unfinished hnil hrest.symm]
        exact ⟨List.nil_prefix, Nat.zero_le _⟩
    · obtain ⟨hpre, hlength⟩ := decode_prefix ⟨more, hlater.symm⟩
      rw [decode_append, decode_encodeChar, List.singleton_append, encode_cons,
        List.length_append, List.length_append]
      exact ⟨List.cons_prefix_cons.mpr ⟨rfl, hpre⟩, Nat.add_le_add_left hlength _⟩

/-! ## A text decoder -/

/-- A decoder that drops a byte order mark at the start of the stream. -/
structure TextDecoder where
  decoder : Decoder
  /-- Something has been emitted. -/
  started : Bool

namespace TextDecoder

def new : TextDecoder := ⟨.start, false⟩

/-- U+FEFF. -/
def mark : Char := Char.ofNat 0xFEFF

/-- One chunk of a stream. -/
def decode (d : TextDecoder) (chunk : List UInt8) : TextDecoder × List Char :=
  match Utf8.decode d.decoder chunk with
  | (next, []) => (⟨next, d.started⟩, [])
  | (next, c :: out) =>
    (⟨next, true⟩, if d.started = false ∧ c = mark then out else c :: out)

/-- All that is emitted for some chunks. -/
def decodeAll : TextDecoder → List (List UInt8) → List Char
  | _, [] => []
  | d, chunk :: chunks => (d.decode chunk).2 ++ decodeAll (d.decode chunk).1 chunks

/-- **The chunks of a text without a byte order mark.** -/
theorem decodeAll_eq : ∀ {chunks : List (List UInt8)} {d : TextDecoder},
    (d.started = false → (Utf8.decode d.decoder chunks.flatten).2.head? ≠ some mark) →
      decodeAll d chunks = (Utf8.decode d.decoder chunks.flatten).2
  | [], _, _ => rfl
  | chunk :: chunks, d, h => by
    rw [List.flatten_cons, decode_append] at h ⊢
    rcases hout : Utf8.decode d.decoder chunk with ⟨next, out⟩
    rw [hout] at h
    cases out with
    | nil =>
      have hdecode : d.decode chunk = (⟨next, d.started⟩, []) := by
        simp only [TextDecoder.decode, hout]
      rw [decodeAll, hdecode]
      exact decodeAll_eq h
    | cons c out =>
      have hmark : ¬ (d.started = false ∧ c = mark) := by
        rintro ⟨hstarted, rfl⟩
        exact h hstarted rfl
      have hdecode : d.decode chunk = (⟨next, true⟩, c :: out) := by
        simp only [TextDecoder.decode, hout, if_neg hmark]
      rw [decodeAll, hdecode, decodeAll_eq fun hstarted => by cases hstarted]

end TextDecoder

/-! ## All the bytes at once -/

/-- The text of some bytes, whatever they are. -/
def lossy (bytes : List UInt8) : List Char :=
  let (d, out) := decode .start bytes
  if d.needed = 0 then out else out ++ [replacement]

/-- The text they encode, if they encode one. -/
def text? (bytes : List UInt8) : Option (List Char) :=
  if encode (lossy bytes) = bytes then some (lossy bytes) else none

@[simp] theorem lossy_encode (text : List Char) : lossy (encode text) = text := by
  simp only [lossy, decode_encode]
  rfl

end Utf8
