import Redact.Proofs.Text.WellFormed
import Redact.Text.Encoding

/-! # Bytes that are read without replacement

Decoding never fails, but it may put U+FFFD in the place of bytes that the encoding has no characters for.
Strict decoding gives up on these (`decode?`); where it does not, decoding brings the same text
(`decode_of_decode?`). A text that was read without replacement is written in the same bytes
(`encode?_of_decode?`): no character has two forms in one encoding, and the mark that UTF-8 with a mark
takes off is put back. -/

namespace Redact.Text.Encoding

/-- The text of UTF-16 code units, if each surrogate has its partner. -/
def pairedUnits? : List Nat → Option (List Char)
  | [] => some []
  | u :: rest =>
    if 0xD800 ≤ u ∧ u < 0xDC00 then
      match rest with
      | [] => none
      | v :: rest' =>
        if 0xDC00 ≤ v ∧ v < 0xE000 then
          (pairedUnits? rest').map (Char.ofNat (0x10000 + (u - 0xD800) * 1024 + (v - 0xDC00)) :: ·)
        else none
    else if 0xDC00 ≤ u ∧ u < 0xE000 then none
    else (pairedUnits? rest).map (Char.ofNat u :: ·)

def paired16? (big : Bool) (bytes : List UInt8) : Option (List Char) :=
  let (units, odd) := units16 big bytes
  if odd then none else pairedUnits? units

/-- The text of a byte string in encoding `e`, or `none` if a part of it has to be replaced. -/
def decode? (e : Encoding) (bytes : List UInt8) : Option (List Char) :=
  match e with
  | utf8 => Utf8.decode? bytes
  | utf8Marked => Utf8.decode? (if mark.isPrefixOf bytes then bytes.drop 3 else bytes)
  | utf16le => paired16? false bytes
  | utf16be => paired16? true bytes
  | ascii => bytes.mapM fun b => if b.toNat < 0x80 then some (Char.ofNat b.toNat) else none
  | latin1 => some (bytes.map fun b => Char.ofNat b.toNat)
  | windows1252 => bytes.mapM fun b => if windowsChar b = '\uFFFD' then none else some (windowsChar b)

/-! ### Encodings of one byte -/

theorem map_of_mapM {α β : Type} {f : α → Option β} {g : α → β} (hf : ∀ a b, f a = some b → g a = b)
    {xs : List α} {ys : List β} (h : xs.mapM f = some ys) : xs.map g = ys := by
  induction xs generalizing ys with
  | nil => simpa using h
  | cons x xs ih =>
    rw [List.mapM_cons] at h
    obtain ⟨y, hy, h⟩ := Option.bind_eq_some_iff.1 h
    obtain ⟨rest, hrest, h⟩ := Option.bind_eq_some_iff.1 h
    obtain rfl := Option.some.inj h
    rw [List.map_cons, hf x y hy, ih hrest]

theorem mapM_of_mapM {α β : Type} {f : α → Option β} {g : β → Option α}
    (hf : ∀ a b, f a = some b → g b = some a) {xs : List α} {ys : List β}
    (h : xs.mapM f = some ys) : ys.mapM g = some xs := by
  induction xs generalizing ys with
  | nil =>
    obtain rfl : ys = [] := by simpa using h.symm
    rfl
  | cons x xs ih =>
    rw [List.mapM_cons] at h
    obtain ⟨y, hy, h⟩ := Option.bind_eq_some_iff.1 h
    obtain ⟨rest, hrest, h⟩ := Option.bind_eq_some_iff.1 h
    obtain rfl := Option.some.inj h
    rw [List.mapM_cons, hf x y hy, ih hrest]
    rfl

theorem toNat_ofNat_byte (b : UInt8) : (Char.ofNat b.toNat).toNat = b.toNat := by
  have hb := b.toNat_lt
  exact Utf8.toNat_ofNat (by omega)

/-- The characters that windows-1252 has for bytes have these bytes. -/
theorem windowsByte?_windowsChar {b : UInt8} (h : windowsChar b ≠ '\uFFFD') :
    windowsByte? (windowsChar b) = some b := by
  have hall : ∀ n < 256, windowsChar n.toUInt8 ≠ '\uFFFD' →
      windowsByte? (windowsChar n.toUInt8) = some n.toUInt8 := by
    decide +kernel
  have hb := hall b.toNat b.toNat_lt
  rw [Utf8.toUInt8_eq rfl] at hb
  exact hb h

/-! ### UTF-16 -/

theorem pairedUnits?_cons {u : Nat} (hu : ¬ (0xD800 ≤ u ∧ u < 0xDC00)) (rest : List Nat) :
    pairedUnits? (u :: rest) =
      if 0xDC00 ≤ u ∧ u < 0xE000 then none else (pairedUnits? rest).map (Char.ofNat u :: ·) := by
  cases rest <;> simp only [pairedUnits?, hu, if_false]

theorem decodeUnits_cons {u : Nat} (hu : ¬ (0xD800 ≤ u ∧ u < 0xDC00)) (odd : Bool)
    (rest : List Nat) :
    decodeUnits odd (u :: rest) =
      (if 0xDC00 ≤ u ∧ u < 0xE000 then '\uFFFD' else Char.ofNat u) :: decodeUnits odd rest := by
  cases rest <;> simp only [decodeUnits, hu, if_false]

theorem decodeUnits_of_pairedUnits? {units : List Nat} {cs : List Char}
    (h : pairedUnits? units = some cs) : decodeUnits false units = cs := by
  induction units using pairedUnits?.induct generalizing cs with
  | case1 => simpa [pairedUnits?, decodeUnits] using h
  | case2 u hu => simp [pairedUnits?, hu] at h
  | case3 u hu v rest' hv ih =>
    simp only [pairedUnits?, hu, hv, and_self, if_true, Option.map_eq_some_iff] at h
    obtain ⟨cs', hcs', rfl⟩ := h
    simp only [decodeUnits, hu, hv, and_self, if_true, ih hcs']
  | case4 u hu v rest' hv => simp [pairedUnits?, hu, hv] at h
  | case5 u rest hu hlow => simp [pairedUnits?_cons hu, hlow] at h
  | case6 u rest hu hlow ih =>
    rw [pairedUnits?_cons hu, if_neg hlow, Option.map_eq_some_iff] at h
    obtain ⟨cs', hcs', rfl⟩ := h
    rw [decodeUnits_cons hu, if_neg hlow, ih hcs']

theorem units16_lt {big : Bool} {bytes : List UInt8} : ∀ u ∈ (units16 big bytes).1, u < 0x10000 := by
  induction bytes using units16.induct big with
  | case1 a b rest units odd hrest ih =>
    intro u hu
    have ha := a.toNat_lt
    have hb := b.toNat_lt
    rcases List.mem_cons.1 hu with rfl | hu
    · split <;> omega
    · exact ih u hu
  | case2 b => simp [units16]
  | case3 => simp [units16]

theorem unitBytes_unit (big : Bool) (a b : UInt8) :
    unitBytes big (if big then a.toNat * 256 + b.toNat else b.toNat * 256 + a.toNat) = [a, b] := by
  have ha := a.toNat_lt
  have hb := b.toNat_lt
  cases big with
  | false =>
    simp only [unitBytes, Bool.false_eq_true, if_false]
    rw [Utf8.toUInt8_eq (b := a) (by omega), Utf8.toUInt8_eq (b := b) (by omega)]
  | true =>
    simp only [unitBytes, if_true]
    rw [Utf8.toUInt8_eq (b := a) (by omega), Utf8.toUInt8_eq (b := b) (by omega)]

/-- Code units without a byte left over have the bytes that they were read from. -/
theorem flatMap_unitBytes {big : Bool} {bytes : List UInt8} (h : (units16 big bytes).2 = false) :
    (units16 big bytes).1.flatMap (unitBytes big) = bytes := by
  induction bytes using units16.induct big with
  | case1 a b rest units odd hread ih =>
    have hrest : (units16 big rest).2 = false := h
    have hunits : (units16 big (a :: b :: rest)).1 =
        (if big then a.toNat * 256 + b.toNat else b.toNat * 256 + a.toNat) ::
          (units16 big rest).1 := rfl
    rw [hunits, List.flatMap_cons, unitBytes_unit, ih hrest]
    rfl
  | case2 b => simp [units16] at h
  | case3 => rfl

/-- Paired units have the bytes of the text that they stand for. -/
theorem flatMap_encodeChar16 {big : Bool} {units : List Nat} {cs : List Char}
    (hlt : ∀ u ∈ units, u < 0x10000) (h : pairedUnits? units = some cs) :
    cs.flatMap (encodeChar16 big) = units.flatMap (unitBytes big) := by
  induction units using pairedUnits?.induct generalizing cs with
  | case1 =>
    obtain rfl : cs = [] := by simpa [pairedUnits?] using h.symm
    rfl
  | case2 u hu => simp [pairedUnits?, hu] at h
  | case3 u hu v rest' hv ih =>
    simp only [pairedUnits?, hu, hv, and_self, if_true, Option.map_eq_some_iff] at h
    obtain ⟨cs', hcs', rfl⟩ := h
    have hn : (Char.ofNat (0x10000 + (u - 0xD800) * 1024 + (v - 0xDC00))).toNat =
        0x10000 + (u - 0xD800) * 1024 + (v - 0xDC00) := Utf8.toNat_ofNat (by omega)
    have hhigh : 0xD800 + (0x10000 + (u - 0xD800) * 1024 + (v - 0xDC00) - 0x10000) / 1024 = u := by
      omega
    have hlow : 0xDC00 + (0x10000 + (u - 0xD800) * 1024 + (v - 0xDC00) - 0x10000) % 1024 = v := by
      omega
    have hlarge : ¬ 0x10000 + (u - 0xD800) * 1024 + (v - 0xDC00) < 0x10000 := by omega
    have hrest := ih (fun w hw => hlt w (by simp [hw])) hcs'
    simp only [List.flatMap_cons, hrest, encodeChar16, hn, hlarge, if_false, hhigh, hlow,
      List.append_assoc]
  | case4 u hu v rest' hv => simp [pairedUnits?, hu, hv] at h
  | case5 u rest hu hlow => simp [pairedUnits?_cons hu, hlow] at h
  | case6 u rest hu hlow ih =>
    rw [pairedUnits?_cons hu, if_neg hlow, Option.map_eq_some_iff] at h
    obtain ⟨cs', hcs', rfl⟩ := h
    have hsmall : u < 0x10000 := hlt u (List.mem_cons_self ..)
    have hn : (Char.ofNat u).toNat = u := Utf8.toNat_ofNat (by omega)
    have hrest := ih (fun w hw => hlt w (List.mem_cons_of_mem u hw)) hcs'
    simp only [List.flatMap_cons, hrest, encodeChar16, hn, hsmall, if_true]

theorem paired16?_eq_some {big : Bool} {bytes : List UInt8} {cs : List Char}
    (h : paired16? big bytes = some cs) :
    (units16 big bytes).2 = false ∧ pairedUnits? (units16 big bytes).1 = some cs := by
  cases hodd : (units16 big bytes).2 with
  | false => exact ⟨rfl, by simpa [paired16?, hodd] using h⟩
  | true => simp [paired16?, hodd] at h

theorem decodeUnits_of_paired16? {big : Bool} {bytes : List UInt8} {cs : List Char}
    (h : paired16? big bytes = some cs) :
    decodeUnits (units16 big bytes).2 (units16 big bytes).1 = cs := by
  obtain ⟨hodd, hpaired⟩ := paired16?_eq_some h
  rw [hodd, decodeUnits_of_pairedUnits? hpaired]

theorem encode16_of_paired16? {big : Bool} {bytes : List UInt8} {cs : List Char}
    (h : paired16? big bytes = some cs) : cs.flatMap (encodeChar16 big) = bytes := by
  obtain ⟨hodd, hpaired⟩ := paired16?_eq_some h
  rw [flatMap_encodeChar16 units16_lt hpaired, flatMap_unitBytes hodd]

/-! ### All encodings -/

theorem mark_eq_encode : mark = Utf8.encode ['\uFEFF'] := by decide

theorem nil_of_prefix_mark {bytes : List UInt8} {cs : List Char} (hno : ¬ mark.isPrefixOf bytes = true)
    (hpart : bytes <+: mark) (h : Utf8.decode? bytes = some cs) : cs = [] := by
  rw [Utf8.decode?_eq_some_iff.1 h, mark_eq_encode] at hpart
  have hcs : cs <+: ['\uFEFF'] := Utf8.encode_prefix_iff.1 hpart
  rcases List.prefix_cons_iff.1 hcs with hnil | ⟨rest, hone, hrest⟩
  · exact hnil
  · rw [List.prefix_nil.1 hrest] at hone
    rw [Utf8.decode?_eq_some_iff.1 h, hone, ← mark_eq_encode] at hno
    exact absurd (List.isPrefixOf_iff_prefix.2 (List.prefix_refl mark)) hno

theorem decode_of_decode? {e : Encoding} {bytes : List UInt8} {cs : List Char}
    (h : e.decode? bytes = some cs) : e.decode bytes = cs := by
  cases e with
  | utf8 => exact Utf8.decodeLossy_of_decode? h
  | utf8Marked =>
    rw [decode]
    by_cases hmark : mark.isPrefixOf bytes = true
    · simp only [decode?, hmark, if_true] at h ⊢
      exact Utf8.decodeLossy_of_decode? h
    · simp only [decode?, hmark, Bool.false_eq_true, if_false] at h ⊢
      split
      -- Of the bytes that end inside a mark only none at all are well-formed.
      · rename_i hpart
        exact (nil_of_prefix_mark hmark (List.isPrefixOf_iff_prefix.1 hpart) h).symm
      · exact Utf8.decodeLossy_of_decode? h
  | utf16le => exact decodeUnits_of_paired16? h
  | utf16be => exact decodeUnits_of_paired16? h
  | ascii =>
    refine map_of_mapM ?_ h
    intro b c hc
    split at hc
    · rename_i hb
      simpa [hb] using hc
    · simp at hc
  | latin1 => exact Option.some.inj h
  | windows1252 =>
    refine map_of_mapM ?_ h
    intro b c hc
    split at hc
    · simp at hc
    · exact Option.some.inj hc

/-- A text that was read without replacement is written in the bytes it was read from. UTF-8 with a mark
has to have found the mark that it puts in front. -/
theorem encode?_of_decode? {e : Encoding} {bytes : List UInt8} {cs : List Char}
    (hmark : e = utf8Marked → mark <+: bytes) (h : e.decode? bytes = some cs) :
    e.encode? cs = some bytes := by
  cases e with
  | utf8 =>
    rw [encode?, ← Utf8.decode?_eq_some_iff.1 h]
  | utf8Marked =>
    obtain ⟨rest, rfl⟩ := hmark rfl
    have hpre : mark.isPrefixOf (mark ++ rest) = true := List.isPrefixOf_iff_prefix.2 ⟨rest, rfl⟩
    simp only [decode?, hpre, if_true] at h
    have hrest : rest = Utf8.encode cs := Utf8.decode?_eq_some_iff.1 h
    rw [encode?, hrest]
  | utf16le => exact congrArg some (encode16_of_paired16? h)
  | utf16be => exact congrArg some (encode16_of_paired16? h)
  | ascii =>
    refine mapM_of_mapM ?_ h
    intro b c hc
    split at hc
    · rename_i hb
      obtain rfl := Option.some.inj hc
      rw [toNat_ofNat_byte, if_pos hb, Utf8.toUInt8_eq rfl]
    · simp at hc
  | latin1 =>
    obtain rfl := Option.some.inj h
    refine mapM_of_mapM (f := fun b : UInt8 => some (Char.ofNat b.toNat)) ?_ ?_
    · intro b c hc
      obtain rfl := Option.some.inj hc
      have hb : b.toNat < 0x100 := b.toNat_lt
      rw [toNat_ofNat_byte, if_pos hb, Utf8.toUInt8_eq rfl]
    · exact List.mapM_pure
  | windows1252 =>
    refine mapM_of_mapM ?_ h
    intro b c hc
    split at hc
    · simp at hc
    · rename_i hwhole
      obtain rfl := Option.some.inj hc
      exact windowsByte?_windowsChar hwhole

end Redact.Text.Encoding
