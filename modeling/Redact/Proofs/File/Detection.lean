import Redact.File.Read
import Redact.Proofs.Text.Encoding

/-! # Files in UTF-8

Detection sees the first bytes of a file only. Of a text in UTF-8 these tell the mark in front of it, or that
they are whole characters; where they end inside a character they tell nothing, and the guess decides
(`ofSample_take`). So a file in UTF-8 is read as such whatever the guess exactly if its sample shows the
mark or ends between characters (`reads_utf8_iff`). A sample that cuts a character brings another text
(`misread_cut_sample`). -/

namespace Redact.Text

/-- There is a byte order mark in front of the text. -/
def Marked (cs : List Char) : Prop := cs.head? = some '\uFEFF'

instance (cs : List Char) : Decidable (Marked cs) := inferInstanceAs (Decidable (_ = _))

def withoutMark (cs : List Char) : List Char := if Marked cs then cs.tail else cs

namespace Encoding

/-- The first `size` bytes of the text are whole characters, or all of it. -/
def EndsBetween (cs : List Char) (size : Nat) : Prop :=
  (Utf8.encode cs).length ≤ size ∨ Utf8.IsBoundary cs size

/-- The first `size` bytes of the text show its mark or are whole characters. -/
def Tells (cs : List Char) (size : Nat) : Prop := (Marked cs ∧ 3 ≤ size) ∨ EndsBetween cs size

instance (cs : List Char) (size : Nat) : Decidable (EndsBetween cs size) :=
  inferInstanceAs (Decidable (_ ∨ _))

instance (cs : List Char) (size : Nat) : Decidable (Tells cs size) :=
  inferInstanceAs (Decidable (_ ∨ _))

/-! ### The first bytes of a text -/

theorem mark_prefix_encode_iff {cs : List Char} : mark <+: Utf8.encode cs ↔ Marked cs := by
  rw [mark_eq_encode, Utf8.encode_prefix_iff, Marked]
  cases cs <;> simp [eq_comm]

theorem mark_prefix_take_iff {cs : List Char} {size : Nat} :
    mark <+: (Utf8.encode cs).take size ↔ Marked cs ∧ 3 ≤ size := by
  rw [← mark_prefix_encode_iff, List.prefix_take_iff]
  rfl

theorem ofMark?_take (cs : List Char) (size : Nat) :
    ofMark? ((Utf8.encode cs).take size) =
      if Marked cs ∧ 3 ≤ size then some "utf-8-sig" else none := by
  have hno : ∀ front : List UInt8, ∀ b : UInt8, Utf8.start b = ([none], none) →
      (b :: front).isPrefixOf ((Utf8.encode cs).take size) = false := by
    intro front b hb
    rw [← Bool.not_eq_true, List.isPrefixOf_iff_prefix]
    exact fun hpre => Utf8.not_prefix_encode hb front cs (hpre.trans (List.take_prefix _ _))
  have hle := hno [0xFE] 0xFF rfl
  have hbe := hno [0xFF] 0xFE rfl
  simp only [ofMark?, hle, hbe, Bool.false_eq_true, if_false, List.isPrefixOf_iff_prefix,
    mark_prefix_take_iff]

theorem isValid_take_iff_endsBetween {cs : List Char} {size : Nat} :
    Utf8.isValid ((Utf8.encode cs).take size) = true ↔ EndsBetween cs size := by
  rcases Nat.lt_or_ge size (Utf8.encode cs).length with hlt | hle
  · rw [Utf8.isValid_take_iff (Nat.le_of_lt hlt), EndsBetween]
    exact (or_iff_right (Nat.not_le.2 hlt)).symm
  · rw [List.take_of_length_le hle, Utf8.isValid_iff]
    exact iff_of_true ⟨cs, rfl⟩ (Or.inl hle)

/-- What the first bytes of a text in UTF-8 tell. -/
theorem ofSample_take (guess : Guess) (cs : List Char) (size : Nat) :
    ofSample guess ((Utf8.encode cs).take size) =
      if Marked cs ∧ 3 ≤ size then "utf-8-sig"
      else if EndsBetween cs size then "utf-8"
      else ofGuess (guess ((Utf8.encode cs).take size)) := by
  have hmark := @mark_prefix_take_iff cs size
  have hwhole := @isValid_take_iff_endsBetween cs size
  rw [ofSample, ofMark?_take]
  by_cases hempty : (Utf8.encode cs).take size = []
  · -- No bytes are whole characters, and show no mark.
    rw [hempty] at hmark hwhole
    have hno : ¬ (Marked cs ∧ 3 ≤ size) := fun h => by simpa [mark] using hmark.2 h
    simp only [hempty, List.isEmpty_nil, hno, hwhole.1 rfl, if_true, if_false]
  · have hfilled : ((Utf8.encode cs).take size).isEmpty = false := by simpa using hempty
    rw [hfilled]
    by_cases hm : Marked cs ∧ 3 ≤ size
    · simp only [hm, and_self, if_true, Bool.false_eq_true, if_false]
    · simp only [hm, if_false, Bool.false_eq_true, hwhole]

theorem ofSample_of_tells (guess : Guess) {cs : List Char} {size : Nat} (h : Tells cs size) :
    ofSample guess ((Utf8.encode cs).take size) =
      if Marked cs ∧ 3 ≤ size then "utf-8-sig" else "utf-8" := by
  rw [ofSample_take]
  rcases h with hmark | hends
  · rw [if_pos hmark, if_pos hmark]
  · rw [if_pos hends]

/-- Where the first bytes tell nothing, a guess is believed. -/
theorem ofSample_of_not_tells {cs : List Char} {size : Nat} (h : ¬ Tells cs size) :
    ofSample (fun _ => some "latin-1") ((Utf8.encode cs).take size) = "latin-1" := by
  have hguess : ofGuess (some "latin-1") = "latin-1" := by decide +kernel
  obtain ⟨hmark, hends⟩ := not_or.1 h
  rw [ofSample_take, if_neg hmark, if_neg hends, hguess]

theorem detect?_eq (guess : Guess) (size : Nat) (bytes : List UInt8) :
    detect? guess size bytes = some (ofSample guess (bytes.take size)) := rfl

/-! ### The text of the file -/

theorem decode?_utf8Marked_encode (cs : List Char) :
    utf8Marked.decode? (Utf8.encode cs) = some (withoutMark cs) := by
  by_cases hm : Marked cs
  · obtain ⟨rest, rfl⟩ := List.head?_eq_some_iff.1 hm
    have hsplit : Utf8.encode ('\uFEFF' :: rest) = mark ++ Utf8.encode rest := by
      rw [Utf8.encode_cons]
      rfl
    have hpre : mark.isPrefixOf (mark ++ Utf8.encode rest) = true :=
      List.isPrefixOf_iff_prefix.2 (List.prefix_append _ _)
    rw [withoutMark, if_pos hm, hsplit]
    simp only [decode?, hpre, if_true]
    exact Utf8.decode?_encode rest
  · have hno : mark.isPrefixOf (Utf8.encode cs) = false := by
      rw [← Bool.not_eq_true, List.isPrefixOf_iff_prefix, mark_prefix_encode_iff]
      exact hm
    rw [withoutMark, if_neg hm]
    simp only [decode?, hno, Bool.false_eq_true, if_false]
    exact Utf8.decode?_encode cs

end Encoding

end Redact.Text

namespace Redact.SourceText

open Text Text.Encoding

theorem read_of_detect (codecs : Codecs) {guess : Guess} {bytes : List UInt8} {name : String}
    {e : Encoding} {cs : List Char} (hd : detect guess bytes = name) (he : ofName? name = some e)
    (h : e.decode? bytes = some cs) : read codecs guess none bytes = ⟨.ofList cs, name⟩ := by
  rw [← decode_of_decode? h]
  simp [read, decodeAs?, Codecs.find?, hd, he, Encoding.codec]

/-- A text in UTF-8 is told by its first bytes, whatever the guess, exactly if these show its mark or are
whole characters; and it is read as UTF-8, without its mark, exactly if the bytes that are sampled do. -/
theorem reads_utf8_iff (codecs : Codecs) {bytes : List UInt8} {cs : List Char}
    (h : Utf8.decode? bytes = some cs) :
    (∀ size : Nat, (∀ guess, detect? guess size bytes = some "utf-8" ∨
        detect? guess size bytes = some "utf-8-sig") ↔ Tells cs size) ∧
      ((∀ guess, (detect guess bytes = "utf-8" ∨ detect guess bytes = "utf-8-sig") ∧
        read codecs guess none bytes = ⟨.ofList (withoutMark cs), detect guess bytes⟩) ↔
          Tells cs sampleSize.toNat) := by
  obtain rfl := Utf8.decode?_eq_some_iff.1 h
  constructor
  · intro size
    constructor
    · intro hall
      by_contra hno
      have hguess := hall fun _ => some "latin-1"
      rw [detect?_eq, ofSample_of_not_tells hno] at hguess
      revert hguess
      decide
    · intro htells guess
      rw [detect?_eq, ofSample_of_tells guess htells]
      split
      · exact Or.inr rfl
      · exact Or.inl rfl
  · constructor
    · intro hall
      by_contra hno
      have hguess := (hall fun _ => some "latin-1").1
      rw [detect, ofSample_of_not_tells hno] at hguess
      revert hguess
      decide
    · intro htells guess
      have hdetect := ofSample_of_tells guess htells
      by_cases hm : Marked cs
      · have hname : detect guess (Utf8.encode cs) = "utf-8-sig" := by
          rw [detect, hdetect, if_pos ⟨hm, by decide⟩]
        refine ⟨Or.inr hname, ?_⟩
        rw [hname]
        exact read_of_detect codecs hname (by decide +kernel) (decode?_utf8Marked_encode cs)
      · have hname : detect guess (Utf8.encode cs) = "utf-8" := by
          rw [detect, hdetect, if_neg fun hboth => hm hboth.1]
        refine ⟨Or.inl hname, ?_⟩
        rw [hname, withoutMark, if_neg hm]
        exact read_of_detect (e := .utf8) codecs hname (by decide +kernel) (Utf8.decode?_encode cs)

/-- Four bytes show the mark, though they cut the character behind it. -/
theorem reads_utf8_marked :
    Utf8.decode? [0xEF, 0xBB, 0xBF, 0xC3, 0xA9] = some ['\uFEFF', 'é'] ∧
      (∀ guess, detect? guess (4 : Nat) [0xEF, 0xBB, 0xBF, 0xC3, 0xA9] = some "utf-8" ∨
        detect? guess (4 : Nat) [0xEF, 0xBB, 0xBF, 0xC3, 0xA9] = some "utf-8-sig") ∧
      ∀ codecs guess, (read codecs guess none [0xEF, 0xBB, 0xBF, 0xC3, 0xA9]).text = "é" := by
  have hdecode : Utf8.decode? [0xEF, 0xBB, 0xBF, 0xC3, 0xA9] = some ['\uFEFF', 'é'] := by
    decide +kernel
  have hdetect := (reads_utf8_iff (fun _ => none) hdecode).1
  refine ⟨hdecode, (hdetect 4).2 (Or.inl ⟨rfl, by decide⟩), ?_⟩
  intro codecs guess
  rw [((reads_utf8_iff codecs hdecode).2.2 (Or.inl ⟨rfl, by decide⟩) guess).2]
  rfl

/-- A text whose one long character stands where the sample ends. -/
def cutText : List Char := List.replicate 8191 'a' ++ ['é']

theorem encode_replicate (n : Nat) :
    Utf8.encode (List.replicate n 'a') = List.replicate n 0x61 := by
  induction n with
  | zero => rfl
  | succ n ih =>
    rw [List.replicate_succ, List.replicate_succ, Utf8.encode_cons, ih]
    rfl

theorem encode_cutText : Utf8.encode cutText = List.replicate 8191 0x61 ++ [0xC3, 0xA9] := by
  rw [cutText, Utf8.encode_append, encode_replicate]
  rfl

theorem not_tells_cutText : ¬ Tells cutText sampleSize.toNat := by
  have hsize : sampleSize.toNat = 8192 := rfl
  have hmark : ¬ Marked cutText := by
    have hhead : cutText.head? = some 'a' := rfl
    rw [Marked, hhead]
    decide
  have hlength : ¬ (Utf8.encode cutText).length ≤ 8192 := by
    rw [encode_cutText, List.length_append, List.length_replicate]
    decide
  have hinside : ¬ Utf8.IsBoundary cutText 8192 := by
    refine Utf8.not_isBoundary_inside ?_ ?_
    · rw [encode_replicate, List.length_replicate]
      decide
    · have hall : List.replicate 8191 'a' ++ ['é'] = cutText := rfl
      rw [hall]
      omega
  rw [hsize]
  rintro (⟨hm, -⟩ | hlong | hb)
  · exact hmark hm
  · exact hlength hlong
  · exact hinside hb

/-- A guess decides about a text in UTF-8 if the sample cuts a character of it: one byte of `é` is taken
for another encoding, and so is a file of which 8192 bytes end inside a character. -/
theorem misread_cut_sample :
    (Utf8.decode? [0xC3, 0xA9] = some ['é'] ∧
        detect? (fun _ => some "latin-1") (1 : Nat) [0xC3, 0xA9] = some "latin-1") ∧
      Utf8.decode? (Utf8.encode cutText) = some cutText ∧
      detect (fun _ => some "latin-1") (Utf8.encode cutText) = "latin-1" ∧
      read (fun _ => none) (fun _ => some "latin-1") none (Utf8.encode cutText) =
        ⟨.ofList (List.replicate 8191 'a' ++ ['Ã', '©']), "latin-1"⟩ := by
  have hname : detect (fun _ => some "latin-1") (Utf8.encode cutText) = "latin-1" :=
    ofSample_of_not_tells not_tells_cutText
  have hchars : latin1.decode? (Utf8.encode cutText) =
      some (List.replicate 8191 'a' ++ ['Ã', '©']) := by
    rw [encode_cutText, decode?, List.map_append, List.map_replicate]
    rfl
  exact ⟨by decide +kernel, Utf8.decode?_encode cutText, hname,
    read_of_detect _ hname (by decide +kernel) hchars⟩

end Redact.SourceText
