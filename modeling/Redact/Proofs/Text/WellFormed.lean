import Mathlib.Data.List.Basic
import Mathlib.Tactic.ByContra
import Redact.Proofs.Text.Utf8

/-! # Well-formed bytes

Strict decoding accepts exactly the encodings of texts (`decode?_eq_some_iff`): no character has a second
form. The encoding of a text starts with that of another one only if the text starts with it
(`encode_prefix_iff`), so a run of first bytes is well-formed exactly if it ends between characters
(`isValid_take_iff`). -/

namespace Redact.Text.Utf8

/-! ### Reading one character back -/

theorem toUInt8_eq {n : Nat} {b : UInt8} (h : n = b.toNat) : n.toUInt8 = b := by
  rw [h]
  exact UInt8.ofNat_toNat

theorem toNat_ofNat {n : Nat} (h : n < 0xD800 ∨ (0xDFFF < n ∧ n < 0x110000)) :
    (Char.ofNat n).toNat = n := by
  rw [Char.ofNat, dif_pos h]
  rfl

theorem scalars_pending_ne_nil (p : Pending) (bytes : List UInt8) : scalars (some p) bytes ≠ [] := by
  induction bytes generalizing p with
  | nil => simp [scalars]
  | cons b rest ih =>
    simp only [scalars, step]
    split
    · split
      · simp
      · simpa using ih _
    · simp

/-- A byte between characters is a character, leads one of two to four bytes, or is ill-formed. -/
theorem lead_cases (b : UInt8) :
    b.toNat < 0x80 ∨ (0xC2 ≤ b.toNat ∧ b.toNat ≤ 0xDF) ∨ (0xE0 ≤ b.toNat ∧ b.toNat ≤ 0xEF) ∨
      (0xF0 ≤ b.toNat ∧ b.toNat ≤ 0xF4) ∨ start b = ([none], none) := by
  by_cases hlead : b.toNat < 0x80 ∨ (0xC2 ≤ b.toNat ∧ b.toNat ≤ 0xDF) ∨
      (0xE0 ≤ b.toNat ∧ b.toNat ≤ 0xEF) ∨ (0xF0 ≤ b.toNat ∧ b.toNat ≤ 0xF4)
  · rcases hlead with h | h | h | h <;> simp [h]
  · have hstart : start b = ([none], none) := by
      dsimp only [start]
      split_ifs <;> first | rfl | omega
    simp [hstart]

theorem nil_of_scalars_nil {bytes : List UInt8} (h : scalars none bytes = []) : bytes = [] := by
  cases bytes with
  | nil => rfl
  | cons b rest =>
    exfalso
    rcases lead_cases b with hb | hb | hb | hb | hb
    · simp [scalars, step, start, hb] at h
    · rw [scalars_lead (start_two hb)] at h
      exact scalars_pending_ne_nil _ _ h
    · rw [scalars_lead (start_three hb)] at h
      exact scalars_pending_ne_nil _ _ h
    · rw [scalars_lead (start_four hb)] at h
      exact scalars_pending_ne_nil _ _ h
    · simp [scalars, step, hb] at h

/-- A character under way that comes to its end has a next byte within its bounds. -/
theorem exists_next {p : Pending} {bytes : List UInt8} {c : Char} {items : List (Option Char)}
    (h : scalars (some p) bytes = some c :: items) :
    ∃ b rest, bytes = b :: rest ∧ (p.low ≤ b.toNat ∧ b.toNat ≤ p.high) := by
  cases bytes with
  | nil => simp [scalars] at h
  | cons b rest =>
    refine ⟨b, rest, rfl, ?_⟩
    by_contra hb
    simp [scalars, step, hb] at h

/-- A character that is one byte short is brought by the next byte. -/
theorem exists_last {p : Pending} {bytes : List UInt8} {c : Char} {items : List (Option Char)}
    (ho : p.owed = 1) (h : scalars (some p) bytes = some c :: items) :
    ∃ b rest, bytes = b :: rest ∧ (p.low ≤ b.toNat ∧ b.toNat ≤ p.high) ∧
      c = Char.ofNat (p.bits * 64 + (b.toNat - 0x80)) ∧ scalars none rest = items := by
  obtain ⟨b, rest, rfl, hb⟩ := exists_next h
  rw [scalars_last hb ho] at h
  obtain ⟨hc, hitems⟩ := List.cons.inj h
  exact ⟨b, rest, rfl, hb, (Option.some.inj hc).symm, hitems⟩

/-- Of a character that is more than one byte short the next byte brings six bits. -/
theorem exists_more {p : Pending} {bytes : List UInt8} {c : Char} {items : List (Option Char)}
    (ho : 1 < p.owed) (h : scalars (some p) bytes = some c :: items) :
    ∃ b rest, bytes = b :: rest ∧ (p.low ≤ b.toNat ∧ b.toNat ≤ p.high) ∧
      scalars (some ⟨p.bits * 64 + (b.toNat - 0x80), p.owed - 1, 0x80, 0xBF⟩) rest =
        some c :: items := by
  obtain ⟨b, rest, rfl, hb⟩ := exists_next h
  rw [scalars_more hb ho] at h
  exact ⟨b, rest, rfl, hb, h⟩

/-- The items begin with a character, and so do the bytes. -/
def Begins (bytes : List UInt8) (c : Char) (items : List (Option Char)) : Prop :=
  ∃ rest, bytes = encodeChar c ++ rest ∧ scalars none rest = items

theorem begins_one {b : UInt8} {rest : List UInt8} {c : Char} {items : List (Option Char)}
    (hb : b.toNat < 0x80) (h : scalars none (b :: rest) = some c :: items) :
    Begins (b :: rest) c items := by
  have hread : scalars none (b :: rest) = some (Char.ofNat b.toNat) :: scalars none rest := by
    simp [scalars, step, start, hb]
  rw [hread] at h
  obtain ⟨hc, hitems⟩ := List.cons.inj h
  have hn : c.toNat = b.toNat := by
    rw [← Option.some.inj hc, toNat_ofNat (by omega)]
  refine ⟨rest, ?_, hitems⟩
  simp only [encodeChar, hn, hb, if_true, toUInt8_eq rfl, List.cons_append, List.nil_append]

theorem begins_two {b : UInt8} {rest : List UInt8} {c : Char} {items : List (Option Char)}
    (hb : 0xC2 ≤ b.toNat ∧ b.toNat ≤ 0xDF) (h : scalars none (b :: rest) = some c :: items) :
    Begins (b :: rest) c items := by
  rw [scalars_lead (start_two hb)] at h
  obtain ⟨b2, rest2, rfl, hb2, hc, hitems⟩ := exists_last rfl h
  dsimp only at hb2 hc
  have hn : c.toNat = (b.toNat - 0xC0) * 64 + (b2.toNat - 0x80) := by
    rw [hc, toNat_ofNat (by omega)]
  have h1 : ¬ c.toNat < 0x80 := by omega
  have h2 : c.toNat < 0x800 := by omega
  refine ⟨rest2, ?_, hitems⟩
  simp only [encodeChar, h1, h2, if_true, if_false, List.cons_append, List.nil_append]
  rw [toUInt8_eq (b := b) (by omega), toUInt8_eq (b := b2) (by omega)]

theorem begins_three {b : UInt8} {rest : List UInt8} {c : Char} {items : List (Option Char)}
    (hb : 0xE0 ≤ b.toNat ∧ b.toNat ≤ 0xEF) (h : scalars none (b :: rest) = some c :: items) :
    Begins (b :: rest) c items := by
  rw [scalars_lead (start_three hb)] at h
  obtain ⟨b2, rest2, rfl, hb2, h⟩ := exists_more (by dsimp only; omega) h
  obtain ⟨b3, rest3, rfl, hb3, hc, hitems⟩ := exists_last rfl h
  dsimp only at hb2 hb3 hc
  -- The bounds on the second byte keep the character above the shorter forms and off the surrogates.
  have hsecond : (b.toNat = 0xE0 → 0xA0 ≤ b2.toNat) ∧ (b.toNat = 0xED → b2.toNat ≤ 0x9F) ∧
      0x80 ≤ b2.toNat ∧ b2.toNat ≤ 0xBF := by
    split_ifs at hb2 <;> omega
  have hn : c.toNat = ((b.toNat - 0xE0) * 64 + (b2.toNat - 0x80)) * 64 + (b3.toNat - 0x80) := by
    rw [hc, toNat_ofNat (by omega)]
  have h1 : ¬ c.toNat < 0x80 := by omega
  have h2 : ¬ c.toNat < 0x800 := by omega
  have h3 : c.toNat < 0x10000 := by omega
  refine ⟨rest3, ?_, hitems⟩
  simp only [encodeChar, h1, h2, h3, if_true, if_false, List.cons_append, List.nil_append]
  rw [toUInt8_eq (b := b) (by omega), toUInt8_eq (b := b2) (by omega),
    toUInt8_eq (b := b3) (by omega)]

theorem begins_four {b : UInt8} {rest : List UInt8} {c : Char} {items : List (Option Char)}
    (hb : 0xF0 ≤ b.toNat ∧ b.toNat ≤ 0xF4) (h : scalars none (b :: rest) = some c :: items) :
    Begins (b :: rest) c items := by
  rw [scalars_lead (start_four hb)] at h
  obtain ⟨b2, rest2, rfl, hb2, h⟩ := exists_more (by dsimp only; omega) h
  obtain ⟨b3, rest3, rfl, hb3, h⟩ := exists_more (by dsimp only; omega) h
  obtain ⟨b4, rest4, rfl, hb4, hc, hitems⟩ := exists_last rfl h
  dsimp only at hb2 hb3 hb4 hc
  have hsecond : (b.toNat = 0xF0 → 0x90 ≤ b2.toNat) ∧ (b.toNat = 0xF4 → b2.toNat ≤ 0x8F) ∧
      0x80 ≤ b2.toNat ∧ b2.toNat ≤ 0xBF := by
    split_ifs at hb2 <;> omega
  have hn : c.toNat = (((b.toNat - 0xF0) * 64 + (b2.toNat - 0x80)) * 64 + (b3.toNat - 0x80)) * 64 +
      (b4.toNat - 0x80) := by
    rw [hc, toNat_ofNat (by omega)]
  have h1 : ¬ c.toNat < 0x80 := by omega
  have h2 : ¬ c.toNat < 0x800 := by omega
  have h3 : ¬ c.toNat < 0x10000 := by omega
  refine ⟨rest4, ?_, hitems⟩
  simp only [encodeChar, h1, h2, h3, if_false, List.cons_append, List.nil_append]
  rw [toUInt8_eq (b := b) (by omega), toUInt8_eq (b := b2) (by omega),
    toUInt8_eq (b := b3) (by omega), toUInt8_eq (b := b4) (by omega)]

theorem begins_of_scalars {bytes : List UInt8} {c : Char} {items : List (Option Char)}
    (h : scalars none bytes = some c :: items) : Begins bytes c items := by
  cases bytes with
  | nil => simp [scalars] at h
  | cons b rest =>
    rcases lead_cases b with hb | hb | hb | hb | hb
    · exact begins_one hb h
    · exact begins_two hb h
    · exact begins_three hb h
    · exact begins_four hb h
    · simp [scalars, step, hb] at h

/-! ### Strict decoding -/

theorem mapM_id_eq_some {α : Type} {items : List (Option α)} {xs : List α} :
    items.mapM id = some xs ↔ items = xs.map some := by
  induction items generalizing xs with
  | nil => cases xs <;> simp
  | cons item rest ih =>
    cases item with
    | none => cases xs <;> simp
    | some a =>
      cases xs with
      | nil => simp [Option.bind_eq_some_iff]
      | cons x xs => simp [Option.bind_eq_some_iff, ih, and_comm]

theorem encode_of_scalars {bytes : List UInt8} {cs : List Char} (h : scalars none bytes = cs.map some) :
    encode cs = bytes := by
  induction cs generalizing bytes with
  | nil => exact (nil_of_scalars_nil h).symm
  | cons c cs ih =>
    obtain ⟨rest, rfl, hrest⟩ := begins_of_scalars h
    rw [encode_cons, ih hrest]

theorem decode?_eq_some_iff {bytes : List UInt8} {cs : List Char} :
    decode? bytes = some cs ↔ bytes = encode cs := by
  constructor
  · intro h
    exact (encode_of_scalars (mapM_id_eq_some.1 h)).symm
  · rintro rfl
    exact decode?_encode cs

theorem isValid_iff {bytes : List UInt8} : isValid bytes = true ↔ ∃ cs, bytes = encode cs := by
  rw [isValid, Option.isSome_iff_exists]
  exact exists_congr fun cs => decode?_eq_some_iff

theorem decodeLossy_of_decode? {bytes : List UInt8} {cs : List Char} (h : decode? bytes = some cs) :
    decodeLossy bytes = cs := by
  have hscalars : scalars none bytes = cs.map some := mapM_id_eq_some.1 h
  rw [decodeLossy, hscalars, List.map_map]
  exact List.map_id cs

/-! ### First bytes -/

theorem encode_prefix_iff {front cs : List Char} : encode front <+: encode cs ↔ front <+: cs := by
  constructor
  · rintro ⟨rest, hrest⟩
    have hcs : scalars none (encode cs) = cs.map some := mapM_id_eq_some.1 (decode?_encode cs)
    rw [← hrest, scalars_encode] at hcs
    obtain ⟨back, back', rfl, hfront, -⟩ := List.append_eq_map_iff.1 hcs
    have hsame : back = front := List.map_injective_iff.2 (fun _ _ => Option.some.inj) hfront
    exact ⟨back', by rw [hsame]⟩
  · rintro ⟨back, rfl⟩
    exact ⟨encode back, (encode_append front back).symm⟩

/-- No text begins with a byte that leads no character. -/
theorem not_prefix_encode {b : UInt8} (hb : start b = ([none], none)) (front : List UInt8)
    (cs : List Char) : ¬ b :: front <+: encode cs := by
  rintro ⟨rest, hrest⟩
  have hcs : scalars none (encode cs) = cs.map some := mapM_id_eq_some.1 (decode?_encode cs)
  rw [← hrest] at hcs
  cases cs <;> simp [scalars, step, hb] at hcs

/-- The first bytes of a text are well-formed exactly if they are whole characters. -/
theorem isValid_take_iff {cs : List Char} {n : Nat} (hn : n ≤ (encode cs).length) :
    isValid ((encode cs).take n) = true ↔ IsBoundary cs n := by
  rw [isValid_iff]
  constructor
  · rintro ⟨front, hfront⟩
    have hpre : encode front <+: encode cs := hfront ▸ List.take_prefix n (encode cs)
    obtain ⟨back, rfl⟩ := encode_prefix_iff.1 hpre
    refine ⟨front, back, rfl, ?_⟩
    rw [← hfront, List.length_take, Nat.min_eq_left hn]
  · intro h
    exact ⟨takeBytes n cs, (encode_takeBytes h).symm⟩

/-- No boundary stands inside a character. -/
theorem not_isBoundary_inside {front back : List Char} {c : Char} {n : Nat}
    (hlo : (encode front).length < n) (hhi : n < (encode (front ++ [c])).length) :
    ¬ IsBoundary (front ++ c :: back) n := by
  rintro ⟨front', back', hcs, rfl⟩
  have hpre : front' <+: front ++ c :: back := ⟨back', hcs.symm⟩
  have hpre' : front ++ [c] <+: front ++ c :: back := ⟨back, by simp⟩
  have hmono : ∀ {xs ys : List Char}, xs <+: ys → (encode xs).length ≤ (encode ys).length :=
    fun hxy => (encode_prefix_iff.2 hxy).length_le
  rcases List.prefix_or_prefix_of_prefix hpre hpre' with h | h
  · rcases List.prefix_concat_iff.1 h with rfl | h
    · omega
    · have := hmono h
      omega
  · have := hmono h
    omega

end Redact.Text.Utf8
