import Redact.Text.Utf8
import Mathlib.Tactic.SplitIfs

/-! # Encoding and decoding

What is encoded is read back character by character, whatever follows (`scalars_encode`), so strict
decoding undoes encoding and the encoding of a text is well-formed. A text is cut at a number of bytes
on its characters; where that number is a boundary of characters, the encoding is cut with it
(`encode_takeBytes`, `encode_dropBytes`). -/

namespace Redact.Text.Utf8

theorem encode_append (xs ys : List Char) : encode (xs ++ ys) = encode xs ++ encode ys :=
  List.flatMap_append

theorem encode_cons (c : Char) (cs : List Char) : encode (c :: cs) = encodeChar c ++ encode cs :=
  List.flatMap_cons

/-! ### Reading one character -/

theorem toNat_toUInt8 {n : Nat} (h : n < 256) : n.toUInt8.toNat = n := by
  simp [Nat.mod_eq_of_lt h]

theorem scalars_lead {b : UInt8} {p : Pending} (h : start b = ([], some p)) (rest : List UInt8) :
    scalars none (b :: rest) = scalars (some p) rest := by
  simp [scalars, step, h]

theorem scalars_more {p : Pending} {b : UInt8} (hb : p.low ≤ b.toNat ∧ b.toNat ≤ p.high)
    (ho : 1 < p.owed) (rest : List UInt8) :
    scalars (some p) (b :: rest) =
      scalars (some ⟨p.bits * 64 + (b.toNat - 0x80), p.owed - 1, 0x80, 0xBF⟩) rest := by
  simp [scalars, step, hb, Nat.not_le.2 ho]

theorem scalars_last {p : Pending} {b : UInt8} (hb : p.low ≤ b.toNat ∧ b.toNat ≤ p.high)
    (ho : p.owed = 1) (rest : List UInt8) :
    scalars (some p) (b :: rest) =
      some (Char.ofNat (p.bits * 64 + (b.toNat - 0x80))) :: scalars none rest := by
  simp [scalars, step, hb, ho]

theorem start_two {b : UInt8} (h : 0xC2 ≤ b.toNat ∧ b.toNat ≤ 0xDF) :
    start b = ([], some ⟨b.toNat - 0xC0, 1, 0x80, 0xBF⟩) := by
  have hnot : ¬ b.toNat < 0x80 := by omega
  simp only [start, hnot, h, and_self, if_true, if_false]

theorem start_three {b : UInt8} (h : 0xE0 ≤ b.toNat ∧ b.toNat ≤ 0xEF) :
    start b = ([], some ⟨b.toNat - 0xE0, 2, if b.toNat = 0xE0 then 0xA0 else 0x80,
      if b.toNat = 0xED then 0x9F else 0xBF⟩) := by
  have hone : ¬ b.toNat < 0x80 := by omega
  have htwo : ¬ (0xC2 ≤ b.toNat ∧ b.toNat ≤ 0xDF) := by omega
  by_cases h0 : b.toNat = 0xE0
  · simp [start, h0]
  · by_cases hd : b.toNat = 0xED
    · simp [start, hd]
    · have hrange : 0xE1 ≤ b.toNat ∧ b.toNat ≤ 0xEF := by omega
      simp only [start, hone, htwo, h0, hd, hrange, and_self, if_true, if_false]

theorem start_four {b : UInt8} (h : 0xF0 ≤ b.toNat ∧ b.toNat ≤ 0xF4) :
    start b = ([], some ⟨b.toNat - 0xF0, 3, if b.toNat = 0xF0 then 0x90 else 0x80,
      if b.toNat = 0xF4 then 0x8F else 0xBF⟩) := by
  have hone : ¬ b.toNat < 0x80 := by omega
  have htwo : ¬ (0xC2 ≤ b.toNat ∧ b.toNat ≤ 0xDF) := by omega
  have hthree : ¬ (0xE1 ≤ b.toNat ∧ b.toNat ≤ 0xEF) := by omega
  have he0 : b.toNat ≠ 0xE0 := by omega
  have hed : b.toNat ≠ 0xED := by omega
  by_cases h0 : b.toNat = 0xF0
  · simp [start, h0]
  · by_cases h4 : b.toNat = 0xF4
    · simp [start, h4]
    · have hrange : 0xF1 ≤ b.toNat ∧ b.toNat ≤ 0xF3 := by omega
      simp only [start, hone, htwo, hthree, he0, hed, h0, h4, hrange, and_self, if_true, if_false]

/-- A character is no surrogate and not above U+10FFFF. -/
theorem toNat_bounds (c : Char) :
    c.toNat < 0xD800 ∨ (0xDFFF < c.toNat ∧ c.toNat < 0x110000) := c.valid

theorem scalars_encodeChar (c : Char) (rest : List UInt8) :
    scalars none (encodeChar c ++ rest) = some c :: scalars none rest := by
  have hc := toNat_bounds c
  have hback : Char.ofNat c.toNat = c := Char.ofNat_toNat c
  generalize hn : c.toNat = n at hc hback
  simp only [encodeChar, hn]
  split_ifs with h1 h2 h3
  · have hb : n.toUInt8.toNat = n := toNat_toUInt8 (by omega)
    simp only [List.cons_append, List.nil_append, scalars, step, start, hb, h1, if_true, hback]
  · have hb1 : (0xC0 + n / 64).toUInt8.toNat = 0xC0 + n / 64 := toNat_toUInt8 (by omega)
    have hb2 : (0x80 + n % 64).toUInt8.toNat = 0x80 + n % 64 := toNat_toUInt8 (by omega)
    have hbits : (0xC0 + n / 64 - 0xC0) * 64 + (0x80 + n % 64 - 0x80) = n := by omega
    rw [List.cons_append, List.cons_append, List.nil_append,
      scalars_lead (start_two (by omega)), scalars_last (by dsimp only; omega) rfl]
    simp only [hb1, hb2, hbits, hback]
  · have hb1 : (0xE0 + n / 4096).toUInt8.toNat = 0xE0 + n / 4096 := toNat_toUInt8 (by omega)
    have hb2 : (0x80 + n / 64 % 64).toUInt8.toNat = 0x80 + n / 64 % 64 := toNat_toUInt8 (by omega)
    have hb3 : (0x80 + n % 64).toUInt8.toNat = 0x80 + n % 64 := toNat_toUInt8 (by omega)
    have hbits : ((0xE0 + n / 4096 - 0xE0) * 64 + (0x80 + n / 64 % 64 - 0x80)) * 64 +
        (0x80 + n % 64 - 0x80) = n := by omega
    rw [List.cons_append, List.cons_append, List.cons_append, List.nil_append,
      scalars_lead (start_three (by omega)),
      scalars_more (by dsimp only; split_ifs <;> omega) (by dsimp only; omega),
      scalars_last (by dsimp only; omega) rfl]
    simp only [hb1, hb2, hb3, hbits, hback]
  · have hb1 : (0xF0 + n / 262144).toUInt8.toNat = 0xF0 + n / 262144 := toNat_toUInt8 (by omega)
    have hb2 : (0x80 + n / 4096 % 64).toUInt8.toNat = 0x80 + n / 4096 % 64 :=
      toNat_toUInt8 (by omega)
    have hb3 : (0x80 + n / 64 % 64).toUInt8.toNat = 0x80 + n / 64 % 64 := toNat_toUInt8 (by omega)
    have hb4 : (0x80 + n % 64).toUInt8.toNat = 0x80 + n % 64 := toNat_toUInt8 (by omega)
    have hbits : (((0xF0 + n / 262144 - 0xF0) * 64 + (0x80 + n / 4096 % 64 - 0x80)) * 64 +
        (0x80 + n / 64 % 64 - 0x80)) * 64 + (0x80 + n % 64 - 0x80) = n := by omega
    rw [List.cons_append, List.cons_append, List.cons_append, List.cons_append, List.nil_append,
      scalars_lead (start_four (by omega)),
      scalars_more (by dsimp only; split_ifs <;> omega) (by dsimp only; omega),
      scalars_more (by dsimp only; omega) (by dsimp only; omega),
      scalars_last (by dsimp only; omega) rfl]
    simp only [hb1, hb2, hb3, hb4, hbits, hback]

theorem scalars_encode (cs : List Char) (rest : List UInt8) :
    scalars none (encode cs ++ rest) = cs.map some ++ scalars none rest := by
  induction cs with
  | nil => rfl
  | cons c cs ih =>
    rw [encode_cons, List.append_assoc, scalars_encodeChar, ih, List.map_cons, List.cons_append]

theorem decode?_encode (cs : List Char) : decode? (encode cs) = some cs := by
  have hscalars : scalars none (encode cs) = cs.map some := by
    have h := scalars_encode cs []
    rwa [List.append_nil, show scalars none [] = [] from rfl, List.append_nil] at h
  have hpure : cs.mapM (fun c => (pure (id c) : Option Char)) = pure (cs.map id) := List.mapM_pure
  rw [List.map_id] at hpure
  rw [decode?, hscalars, List.mapM_map]
  exact hpure

/-! ### Cutting a text at a number of bytes -/

def width (c : Char) : Nat := (encodeChar c).length

theorem width_pos (c : Char) : 0 < width c := by
  simp only [width, encodeChar]
  split_ifs <;> simp

/-- The characters that begin before byte `n`. -/
def takeBytes : Nat → List Char → List Char
  | _, [] => []
  | n, c :: rest => if n = 0 then [] else c :: takeBytes (n - width c) rest

/-- The characters that begin at byte `n` or after it. -/
def dropBytes : Nat → List Char → List Char
  | _, [] => []
  | n, c :: rest => if n = 0 then c :: rest else dropBytes (n - width c) rest

/-- Byte `n` stands between two characters, or at an end. -/
def IsBoundary (cs : List Char) (n : Nat) : Prop :=
  ∃ front back, cs = front ++ back ∧ (encode front).length = n

theorem takeBytes_append_dropBytes (n : Nat) (cs : List Char) :
    takeBytes n cs ++ dropBytes n cs = cs := by
  induction cs generalizing n with
  | nil => rfl
  | cons c cs ih =>
    rw [takeBytes, dropBytes]
    split
    · rfl
    · rw [List.cons_append, ih]

theorem length_encode_cons (c : Char) (cs : List Char) :
    (encode (c :: cs)).length = width c + (encode cs).length := by
  rw [encode_cons, List.length_append, width]

theorem eq_nil_of_length_encode {cs : List Char} (h : (encode cs).length = 0) : cs = [] := by
  cases cs with
  | nil => rfl
  | cons c cs =>
    have hpos := width_pos c
    rw [length_encode_cons] at h
    omega

theorem takeBytes_append (front back : List Char) :
    takeBytes (encode front).length (front ++ back) = front := by
  induction front with
  | nil => cases back <;> simp [takeBytes, encode]
  | cons c front ih =>
    have hpos := width_pos c
    have hne : width c + (encode front).length ≠ 0 := by omega
    rw [length_encode_cons, List.cons_append, takeBytes, if_neg hne, Nat.add_sub_cancel_left, ih]

theorem dropBytes_append (front back : List Char) :
    dropBytes (encode front).length (front ++ back) = back := by
  induction front with
  | nil => cases back <;> simp [dropBytes, encode]
  | cons c front ih =>
    have hpos := width_pos c
    have hne : width c + (encode front).length ≠ 0 := by omega
    rw [length_encode_cons, List.cons_append, dropBytes, if_neg hne, Nat.add_sub_cancel_left, ih]

theorem isBoundary_iff {cs : List Char} {n : Nat} :
    IsBoundary cs n ↔ (encode (takeBytes n cs)).length = n := by
  constructor
  · rintro ⟨front, back, rfl, rfl⟩
    rw [takeBytes_append]
  · intro h
    exact ⟨takeBytes n cs, dropBytes n cs, (takeBytes_append_dropBytes n cs).symm, h⟩

instance (cs : List Char) (n : Nat) : Decidable (IsBoundary cs n) :=
  decidable_of_iff _ isBoundary_iff.symm

theorem encode_takeBytes {cs : List Char} {n : Nat} (h : IsBoundary cs n) :
    encode (takeBytes n cs) = (encode cs).take n := by
  obtain ⟨front, back, rfl, rfl⟩ := h
  rw [takeBytes_append, encode_append, List.take_left]

theorem encode_dropBytes {cs : List Char} {n : Nat} (h : IsBoundary cs n) :
    encode (dropBytes n cs) = (encode cs).drop n := by
  obtain ⟨front, back, rfl, rfl⟩ := h
  rw [dropBytes_append, encode_append, List.drop_left]

/-- A boundary before another one is a boundary of the characters before that. -/
theorem IsBoundary.takeBytes {cs : List Char} {m n : Nat} (hm : IsBoundary cs m)
    (hn : IsBoundary cs n) (hmn : m ≤ n) : IsBoundary (takeBytes n cs) m := by
  obtain ⟨front, back, rfl, rfl⟩ := hm
  obtain ⟨front', back', hcs, rfl⟩ := hn
  rw [hcs, takeBytes_append]
  have hpre : front <+: front ++ back := List.prefix_append front back
  have hpre' : front' <+: front ++ back := ⟨back', hcs.symm⟩
  rcases List.prefix_or_prefix_of_prefix hpre hpre' with ⟨rest, hrest⟩ | ⟨rest, hrest⟩
  · exact ⟨front, rest, hrest.symm, rfl⟩
  · -- the longer part has no more bytes, so it is no longer
    have hlen : (encode rest).length = 0 := by
      rw [← hrest, encode_append, List.length_append] at hmn
      omega
    have hnil : rest = [] := eq_nil_of_length_encode hlen
    rw [hnil, List.append_nil] at hrest
    exact ⟨front', [], (List.append_nil _).symm, by rw [hrest]⟩

/-- The characters from byte `a` up to byte `b`. -/
def slice (a b : Nat) (cs : List Char) : List Char := dropBytes a (takeBytes b cs)

theorem encode_slice {cs : List Char} {a b : Nat} (ha : IsBoundary cs a) (hb : IsBoundary cs b)
    (hab : a ≤ b) : encode (slice a b cs) = ((encode cs).take b).drop a := by
  rw [slice, encode_dropBytes (ha.takeBytes hb hab), encode_takeBytes hb]

end Redact.Text.Utf8
