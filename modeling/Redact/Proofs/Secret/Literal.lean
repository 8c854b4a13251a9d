import Redact.Proofs.Secret.Hits
import Redact.Proofs.Secret.Token

/-! # String literals with letters before them

A string of Python is written with up to two letters before its delimiter. The letters that may stand there
in a plain string are taken away before it is judged, and so are all quotes at the ends. Neither step knows
where the letters end, but the first quote keeps the text between the delimiters apart from them. So a plain
string is judged by that text alone. A formatted string keeps its letter, with the quote behind it, and is
never a token (`tokenHit_of_written`). -/

namespace Redact.Secret

def literalLetters : List Char := ['r', 'R', 'b', 'B', 'u', 'U', 'f', 'F']

def literalDelimiters : List (List Char) :=
  [['\x27'], ['\x22'], ['\x27', '\x27', '\x27'], ['\x22', '\x22', '\x22']]

/-- The text of a string of Python: letters, a delimiter, any text and the delimiter again. -/
structure Written (text letters delimiter inner : List Char) : Prop where
  text_eq : text = letters ++ delimiter ++ inner ++ delimiter
  few : letters.length ≤ 2
  known : ∀ c ∈ letters, c ∈ literalLetters
  delimits : delimiter ∈ literalDelimiters

def isMark (c : Char) : Bool := (Shape.ofLanguage .python).stringMarks.contains c

namespace Written

variable {text letters delimiter inner : List Char}

theorem quotes (h : Written text letters delimiter inner) : ∀ c ∈ delimiter, isQuote c = true := by
  have hall : (literalDelimiters.all fun d => d.all isQuote) = true := by decide
  exact List.all_eq_true.1 (List.all_eq_true.1 hall delimiter h.delimits)

theorem exists_delimiter (h : Written text letters delimiter inner) :
    ∃ q rest, delimiter = q :: rest ∧ isQuote q = true ∧ isMark q = false := by
  have hne : delimiter ≠ [] := by
    rintro rfl
    exact absurd h.delimits (by decide)
  obtain ⟨q, rest, rfl⟩ := List.exists_cons_of_ne_nil hne
  have hq := h.quotes q (List.mem_cons_self ..)
  refine ⟨q, rest, rfl, hq, ?_⟩
  simp only [isQuote, Bool.or_eq_true, decide_eq_true_eq] at hq
  rcases hq with rfl | rfl
  · decide
  · decide

theorem not_isQuote_letter (h : Written text letters delimiter inner) {c : Char} (hc : c ∈ letters) :
    isQuote c = false := by
  have hall : (literalLetters.all fun d => !isQuote d) = true := by decide
  simpa using List.all_eq_true.1 hall c (h.known c hc)

theorem isMark_letter (h : Written text letters delimiter inner) {c : Char} (hc : c ∈ letters) :
    isMark c = true ∨ c = 'f' ∨ c = 'F' := by
  have hall : (literalLetters.all fun d => isMark d || d == 'f' || d == 'F') = true := by decide
  simpa [or_assoc] using List.all_eq_true.1 hall c (h.known c hc)

theorem stripQuotes_eq (h : Written text letters delimiter inner) :
    stripQuotes (delimiter ++ inner ++ delimiter) = stripQuotes inner := by
  rw [stripQuotes, stripQuotes, Text.trimBoth_append_right h.quotes,
    Text.trimBoth_append_left h.quotes]

theorem dropWhile_of_plain (h : Written text letters delimiter inner) (hf : 'f' ∉ letters)
    (hF : 'F' ∉ letters) : text.dropWhile isMark = delimiter ++ inner ++ delimiter := by
  have hmarks : ∀ c ∈ letters, isMark c = true := by
    intro c hc
    rcases h.isMark_letter hc with hmark | rfl | rfl
    · exact hmark
    · exact absurd hc hf
    · exact absurd hc hF
  obtain ⟨q, rest, rfl, -, hq⟩ := h.exists_delimiter
  rw [h.text_eq, List.append_assoc letters, List.append_assoc letters,
    List.dropWhile_append_of_pos hmarks, List.append_assoc, List.cons_append,
    List.dropWhile_cons_of_neg (by simp [hq])]

theorem dropWhile_of_formatted (h : Written text letters delimiter inner)
    (hf : 'f' ∈ letters ∨ 'F' ∈ letters) :
    ∃ kept q rest, text.dropWhile isMark = kept ++ q :: rest ∧ kept ≠ [] ∧
      (∀ c ∈ kept, c ∈ letters) ∧ kept.length ≤ 2 ∧ isQuote q = true := by
  have hkept : letters.dropWhile isMark ≠ [] := by
    intro hnil
    have hall := List.dropWhile_eq_nil_iff.1 hnil
    rcases hf with hf | hf
    · exact absurd (hall 'f' hf) (by decide)
    · exact absurd (hall 'F' hf) (by decide)
  have hsub : (letters.dropWhile isMark).Sublist letters := List.dropWhile_sublist isMark
  obtain ⟨q, rest, rfl, hq, -⟩ := h.exists_delimiter
  refine ⟨letters.dropWhile isMark, q, rest ++ inner ++ (q :: rest), ?_, hkept, ?_, ?_, hq⟩
  · rw [h.text_eq, List.append_assoc letters, List.append_assoc letters, List.dropWhile_append,
      if_neg (by simpa using hkept)]
    simp
  · intro c hc
    exact hsub.mem hc
  · exact hsub.length_le.trans h.few

end Written

/-- A string of Python is redacted, with its letters, if it is not formatted and the text between its
delimiters is a token that is not allowed. Which letters and which delimiter it has changes nothing. -/
theorem tokenHit_of_written (settings : Settings) (source : List UInt8) {n : Node}
    {letters delimiter inner : List Char} (hkind : n.kind = "string")
    (h : Written (n.text source).toList letters delimiter inner) (e : Edit) :
    tokenHit (Shape.ofLanguage .python) settings source n = some e ↔
      (settings.tokensEnabled = true ∧ ('f' ∉ letters ∧ 'F' ∉ letters) ∧
        settings.allowlist.contains (RawText.ofList (stripQuotes inner)) = false ∧
        looksLikeToken settings.tokenMinLength inner = true) ∧
      e = ⟨n.start, n.stop, settings.replacement, .secretToken⟩ := by
  have hstring : n.kind ∈ (Shape.ofLanguage .python).stringKinds := by
    rw [hkind]
    decide
  have hbody : body (Shape.ofLanguage .python) source n = (n.text source).toList.dropWhile isMark := rfl
  rw [tokenHit_eq_some, hbody]
  by_cases hplain : 'f' ∉ letters ∧ 'F' ∉ letters
  · rw [h.dropWhile_of_plain hplain.1 hplain.2, h.stripQuotes_eq,
      looksLikeToken_congr h.stripQuotes_eq]
    -- the delimiters are quotes and go with the others, so both sides speak of the text between them
    constructor
    · rintro ⟨hon, -, hallow, hlook, rfl⟩
      exact ⟨⟨hon, hplain, hallow, hlook⟩, rfl⟩
    · rintro ⟨⟨hon, -, hallow, hlook⟩, rfl⟩
      exact ⟨hon, hstring, hallow, hlook, rfl⟩
  · have hformatted : 'f' ∈ letters ∨ 'F' ∈ letters := by
      rw [not_and_or, not_not, not_not] at hplain
      exact hplain
    -- a letter stays in front of the delimiter, which is then a quote inside the text
    obtain ⟨kept, q, rest, hdrop, hne, hkept, hlen, hq⟩ := h.dropWhile_of_formatted hformatted
    have hnot : looksLikeToken settings.tokenMinLength (kept ++ q :: rest) = false :=
      not_looksLikeToken_of_quote hne (fun c hc => h.not_isQuote_letter (hkept c hc)) (by omega) hq
    rw [hdrop, hnot]
    constructor
    · rintro ⟨-, -, -, hlook, -⟩
      exact absurd hlook Bool.false_ne_true
    · rintro ⟨⟨-, hin, -⟩, -⟩
      exact absurd hin hplain

def letteredSource : List UInt8 :=
  Text.Utf8.encode "é = Rb\x27\x27\x27\x22uRb-uRb-uRb-uRb-uRb-uRb\x22\x27\x27\x27".toList

def letteredString : Node := .mk "string" 5 38 [] []

/-- The text between the delimiters begins with a quote and a letter of its own. -/
theorem tokenHit_of_written_lettered :
    letteredString.kind = "string" ∧
      Written (letteredString.text letteredSource).toList ['R', 'b'] ['\x27', '\x27', '\x27']
        "\x22uRb-uRb-uRb-uRb-uRb-uRb\x22".toList ∧
      tokenHit (Shape.ofLanguage .python) {} letteredSource letteredString =
        some ⟨5, 38, placeholder, .secretToken⟩ := by
  have hwritten : Written (letteredString.text letteredSource).toList ['R', 'b']
      ['\x27', '\x27', '\x27'] "\x22uRb-uRb-uRb-uRb-uRb-uRb\x22".toList :=
    ⟨by decide +kernel, by decide, by simp [literalLetters], by decide⟩
  refine ⟨rfl, hwritten, (tokenHit_of_written {} letteredSource rfl hwritten _).2 ⟨?_, rfl⟩⟩
  exact ⟨rfl, by decide, by decide, by decide⟩

end Redact.Secret
