import Redact.Proofs.Text.Trim
import Redact.Secret.Token

/-! # What is recognised as a token

A text is recognised if, without the quotes at its ends, it is a token: long enough, and made of token
characters only. There is one exception: a token may be followed by a line feed, and then the text is
recognised although it holds a character that no token has (`looksLikeToken_iff`). -/

namespace Redact.Secret

/-- An ASCII letter, an ASCII digit, `_`, `.` or `-`. -/
def IsTokenChar (c : Char) : Prop :=
  'A' ≤ c ∧ c ≤ 'Z' ∨ 'a' ≤ c ∧ c ≤ 'z' ∨ '0' ≤ c ∧ c ≤ '9' ∨ c = '_' ∨ c = '.' ∨ c = '-'

/-- More than `minLength` characters and at least twenty, all of them token characters. -/
structure IsToken (minLength : Int) (cs : List Char) : Prop where
  longer : minLength < cs.length
  atLeast : 20 ≤ cs.length
  plain : ∀ c ∈ cs, IsTokenChar c

/-- Twenty or more token characters and a line feed, together more than `minLength` characters. -/
def IsTokenLine (minLength : Int) (cs : List Char) : Prop :=
  ∃ run, cs = run ++ ['\n'] ∧ minLength < cs.length ∧ 20 ≤ run.length ∧ ∀ c ∈ run, IsTokenChar c

theorem isTokenChar_iff {c : Char} : isTokenChar c = true ↔ IsTokenChar c := by
  have hclasses : c.isAlphanum = ((c.isUpper || c.isLower) || c.isDigit) := rfl
  have hupper : c.isUpper = true ↔ 'A' ≤ c ∧ c ≤ 'Z' := decide_eq_true_iff
  have hlower : c.isLower = true ↔ 'a' ≤ c ∧ c ≤ 'z' :=
    Bool.and_eq_true_iff.trans (and_congr decide_eq_true_iff decide_eq_true_iff)
  have hdigit : c.isDigit = true ↔ '0' ≤ c ∧ c ≤ '9' :=
    Bool.and_eq_true_iff.trans (and_congr decide_eq_true_iff decide_eq_true_iff)
  simp only [isTokenChar, hclasses, Bool.or_eq_true, hupper, hlower, hdigit, decide_eq_true_eq,
    or_assoc, IsTokenChar]

theorem not_isTokenChar_feed : ¬ IsTokenChar '\n' := by
  rw [← isTokenChar_iff]
  decide

theorem isLongRun_iff {run : List Char} :
    (leastTokenLength ≤ run.length && run.all isTokenChar) = true ↔
      20 ≤ run.length ∧ ∀ c ∈ run, IsTokenChar c := by
  have hlen : leastTokenLength ≤ run.length ↔ 20 ≤ run.length := by
    rw [leastTokenLength]
    omega
  rw [Bool.and_eq_true, decide_eq_true_eq, List.all_eq_true, hlen]
  simp only [isTokenChar_iff]

theorem isTokenRun_iff {cs : List Char} :
    isTokenRun cs = true ↔
      (20 ≤ cs.length ∧ ∀ c ∈ cs, IsTokenChar c) ∨
        ∃ run, cs = run ++ ['\n'] ∧ 20 ≤ run.length ∧ ∀ c ∈ run, IsTokenChar c := by
  by_cases hfeed : cs.getLast? = some '\n'
  · obtain ⟨run, rfl⟩ := List.getLast?_eq_some_iff.1 hfeed
    have hplain : ¬ ∀ c ∈ run ++ ['\n'], IsTokenChar c :=
      fun h => not_isTokenChar_feed (h '\n' (by simp))
    rw [isTokenRun, if_pos hfeed, List.dropLast_concat, isLongRun_iff]
    constructor
    · intro h
      exact Or.inr ⟨run, rfl, h⟩
    · rintro (⟨-, h⟩ | ⟨other, heq, h⟩)
      · exact absurd h hplain
      · rwa [(List.append_inj_left' heq rfl : run = other)]
  · rw [isTokenRun, if_neg hfeed, isLongRun_iff]
    constructor
    · exact Or.inl
    · rintro (h | ⟨run, rfl, -⟩)
      · exact h
      · exact absurd List.getLast?_concat hfeed

theorem looksLikeToken_eq_true_iff {minLength : Int} {text : List Char} :
    looksLikeToken minLength text = true ↔
      IsToken minLength (stripQuotes text) ∨ IsTokenLine minLength (stripQuotes text) := by
  rw [looksLikeToken, Bool.and_eq_true, decide_eq_true_eq, isTokenRun_iff]
  constructor
  · rintro ⟨hmin, ⟨hlen, hplain⟩ | ⟨run, hcs, hlen, hplain⟩⟩
    · exact Or.inl ⟨hmin, hlen, hplain⟩
    · exact Or.inr ⟨run, hcs, hmin, hlen, hplain⟩
  · rintro (⟨hmin, hlen, hplain⟩ | ⟨run, hcs, hmin, hlen, hplain⟩)
    · exact ⟨hmin, Or.inl ⟨hlen, hplain⟩⟩
    · exact ⟨hmin, Or.inr ⟨run, hcs, hlen, hplain⟩⟩

theorem not_isQuote_of_isTokenChar {c : Char} (h : IsTokenChar c) : isQuote c = false := by
  rw [← isTokenChar_iff] at h
  rw [Bool.eq_false_iff]
  intro hquote
  simp only [isQuote, Bool.or_eq_true, decide_eq_true_eq] at hquote
  rcases hquote with rfl | rfl
  · exact absurd h (by decide)
  · exact absurd h (by decide)

/-- What is recognised is long and, without the quotes at its ends, holds no quote. -/
theorem stripQuotes_of_looksLikeToken {minLength : Int} {text : List Char}
    (h : looksLikeToken minLength text = true) :
    20 ≤ (stripQuotes text).length ∧ ∀ c ∈ stripQuotes text, isQuote c = false := by
  rcases looksLikeToken_eq_true_iff.1 h with htoken | ⟨run, hcs, -, hlen, hplain⟩
  · exact ⟨htoken.atLeast, fun c hc => not_isQuote_of_isTokenChar (htoken.plain c hc)⟩
  · rw [hcs]
    refine ⟨by simp only [List.length_append]; omega, ?_⟩
    intro c hc
    rcases List.mem_append.1 hc with hc | hc
    · exact not_isQuote_of_isTokenChar (hplain c hc)
    · obtain rfl := List.mem_singleton.1 hc
      decide

/-- A quote behind other characters, fewer than twenty, is not taken away, so the text is no token. -/
theorem not_looksLikeToken_of_quote {minLength : Int} {front rest : List Char} {q : Char}
    (hne : front ≠ []) (hfront : ∀ c ∈ front, isQuote c = false) (hlen : front.length < 20)
    (hq : isQuote q = true) : looksLikeToken minLength (front ++ q :: rest) = false := by
  rw [Bool.eq_false_iff]
  intro h
  obtain ⟨hlong, hplain⟩ := stripQuotes_of_looksLikeToken h
  have hhead : ∀ c, (front ++ q :: rest).head? = some c → isQuote c = false := by
    intro c hc
    rw [List.head?_append_of_ne_nil front hne] at hc
    exact hfront c (List.mem_of_head? hc)
  have hstripped : stripQuotes (front ++ q :: rest) <+: front ++ q :: rest :=
    Text.trimBoth_prefix hhead
  -- what is left has twenty characters, so it reaches to the quote
  have hcut : front ++ [q] <+: front ++ q :: rest := ⟨rest, by simp⟩
  have hin : front ++ [q] <+: stripQuotes (front ++ q :: rest) := by
    refine List.prefix_of_prefix_length_le hcut hstripped ?_
    rw [List.length_append, List.length_singleton]
    omega
  have hnot := hplain q (hin.subset (by simp))
  rw [hq] at hnot
  exact absurd hnot (by decide)

theorem looksLikeToken_congr {minLength : Int} {as bs : List Char}
    (h : stripQuotes as = stripQuotes bs) : looksLikeToken minLength as = looksLikeToken minLength bs := by
  rw [looksLikeToken, looksLikeToken, h]

theorem IsTokenLine.not_isToken {minLength : Int} {cs : List Char} (h : IsTokenLine minLength cs) :
    ¬ IsToken minLength cs := by
  obtain ⟨run, rfl, -⟩ := h
  intro htoken
  exact not_isTokenChar_feed (htoken.plain '\n' (by simp))

/-- What is recognised are the tokens and the lines that hold one, between any quotes at the ends of the
text. So the recognition of tokens is exact unless the text without these quotes is such a line. -/
theorem looksLikeToken_iff (minLength : Int) (text : List Char) :
    Text.Trimmed isQuote text (stripQuotes text) ∧
      (looksLikeToken minLength text = true ↔
        IsToken minLength (stripQuotes text) ∨ IsTokenLine minLength (stripQuotes text)) ∧
      ((looksLikeToken minLength text = true ↔ IsToken minLength (stripQuotes text)) ↔
        ¬ IsTokenLine minLength (stripQuotes text)) := by
  refine ⟨Text.trimmed_trimBoth isQuote text, looksLikeToken_eq_true_iff, ?_⟩
  rw [looksLikeToken_eq_true_iff]
  constructor
  · intro h hline
    exact hline.not_isToken (h.1 (Or.inr hline))
  · intro hline
    rw [or_iff_left hline]

/-- Twenty letters and a line feed are recognised. -/
theorem looksLikeToken_line_sample :
    looksLikeToken 20 (List.replicate 20 'a' ++ ['\n']) = true ∧
      ¬ IsToken 20 (stripQuotes (List.replicate 20 'a' ++ ['\n'])) := by
  have hstrip : stripQuotes (List.replicate 20 'a' ++ ['\n']) = List.replicate 20 'a' ++ ['\n'] := by
    decide
  refine ⟨by decide, ?_⟩
  rw [hstrip]
  intro htoken
  exact not_isTokenChar_feed (htoken.plain '\n' (by simp))

end Redact.Secret
