import Redact.File.Read
import Redact.Proofs.Text.Encoding
import Redact.Proofs.Text.Raw

/-! # Texts that go back to their files

A detected encoding is one that the program knows, and if it takes a mark off, the file has that mark
(`ofSample_known`). So a file that is read without replacement, written in the encoding that it was read
in, is the same file (`encode?_read`). A detector may not guess UTF-8 with a mark: of a file without one it
would add it. -/

namespace Redact

namespace Text.Encoding

/-- An answer of a detector: nothing, or a name of an encoding that adds no mark. -/
def Plain (answer : Option String) : Prop :=
  ∀ name, answer = some name → ∃ e, ofName? (lower name) = some e ∧ e ≠ utf8Marked

/-- No answer, and the usual names of the encodings that are known. -/
def usualAnswers : List (Option String) :=
  [none, some "utf-8", some "utf-16-le", some "utf-16-be", some "ascii", some "latin-1", some "iso-8859-1",
    some "cp1252", some "windows-1252"]

theorem plain_of_usual {answer : Option String} (h : answer ∈ usualAnswers) : Plain answer := by
  have hknown : ∀ answer ∈ usualAnswers, ∀ name ∈ answer,
      ∃ e ∈ ofName? (lower name), e ≠ utf8Marked := by decide +kernel
  intro name hname
  obtain ⟨e, he, hno⟩ := hknown answer h name hname
  exact ⟨e, he, hno⟩

theorem ofGuess_known {answer : Option String} (h : Plain answer) :
    ∃ e, ofName? (ofGuess answer) = some e ∧ e ≠ utf8Marked := by
  have hutf8 : ofName? "utf-8" = some utf8 := by decide +kernel
  cases answer with
  | none => exact ⟨utf8, hutf8, by decide⟩
  | some name =>
    dsimp only [ofGuess, Option.map_some]
    split
    · exact ⟨utf8, hutf8, by decide⟩
    · exact h name rfl

theorem ofMark?_known {sample : List UInt8} {name : String} (h : ofMark? sample = some name) :
    ∃ e, ofName? name = some e ∧ (e = utf8Marked → mark <+: sample) := by
  unfold ofMark? at h
  split at h
  · rename_i hmark
    obtain rfl := Option.some.inj h
    exact ⟨utf8Marked, by decide +kernel, fun _ => List.isPrefixOf_iff_prefix.1 hmark⟩
  · split at h
    · obtain rfl := Option.some.inj h
      exact ⟨utf16le, by decide +kernel, nofun⟩
    · split at h
      · obtain rfl := Option.some.inj h
        exact ⟨utf16be, by decide +kernel, nofun⟩
      · simp at h

theorem ofSample_known {guess : Guess} {sample : List UInt8} (h : Plain (guess sample)) :
    ∃ e, ofName? (ofSample guess sample) = some e ∧ (e = utf8Marked → mark <+: sample) := by
  have hutf8 : ofName? "utf-8" = some utf8 := by decide +kernel
  unfold ofSample
  split
  · exact ⟨utf8, hutf8, nofun⟩
  · split
    · rename_i name hname
      exact ofMark?_known hname
    · split
      · exact ⟨utf8, hutf8, nofun⟩
      · obtain ⟨e, he, hno⟩ := ofGuess_known h
        exact ⟨e, he, fun heq => absurd heq hno⟩

end Text.Encoding

namespace SourceText

open Text Text.Encoding

/-- The bytes have a text in the encoding that was read, with none of them replaced. -/
def Whole (t : SourceText) (bytes : List UInt8) : Prop :=
  ∃ e cs, ofName? t.encoding = some e ∧ e.decode? bytes = some cs

theorem find?_of_ofName? {name : String} {e : Encoding} (h : ofName? name = some e) (others : Codecs) :
    others.find? name = some e.codec := by
  rw [Codecs.find?, h]
  rfl

/-- A file that is read in one of the seven encodings, with nothing replaced, has the bytes that its text is
written with. -/
theorem encode?_read {codecs : Codecs} {guess : Guess} {bytes : List UInt8}
    (hplain : Plain (guess (bytes.take sampleSize.toNat)))
    (h : (read codecs guess none bytes).Whole bytes) :
    encode? codecs (read codecs guess none bytes).encoding (read codecs guess none bytes).text =
      some bytes := by
  obtain ⟨e, he, hmark⟩ := ofSample_known hplain
  have hread : read codecs guess none bytes = ⟨.ofList (e.decode bytes), detect guess bytes⟩ := by
    simp [read, decodeAs?, detect, find?_of_ofName? he, Encoding.codec]
  have hname : ofName? (read codecs guess none bytes).encoding = some e := by
    rw [hread]
    exact he
  obtain ⟨e', cs, he', hcs⟩ := h
  obtain rfl : e' = e := Option.some.inj (he'.symm.trans hname)
  have htext : (read codecs guess none bytes).text = .ofList cs := by
    rw [hread, decode_of_decode? hcs]
  have hcodec : ∀ ds : List Char, e'.codec.encode? (.ofList ds) = e'.encode? ds := by
    intro ds
    simp only [Encoding.codec, RawText.isPlain_ofList, if_true, RawText.chars_ofList]
  rw [encode?, find?_of_ofName? hname, htext, Option.bind_some, hcodec]
  exact encode?_of_decode? (fun hm => (hmark hm).trans (List.take_prefix _ _)) hcs

end SourceText

end Redact
