import Redact.Proofs.Text.Trim
import Redact.Proofs.Text.WellFormed
import Redact.Text.Lower

/-! # Lowercase characters

What lowercase leaves is in lowercase: no lowercase form has another one (`isLower_of_mem_lowerIn`), and
none is blank unless its character was (`isBlank_of_mem_lowerIn`). Only the sigma looks at its neighbours. -/

namespace Redact.Text

/-! ### Single characters -/

/-- A character that lowercase leaves as it is, wherever it stands. -/
structure IsLower (c : Char) : Prop where
  ne_sigma : c ≠ 'Σ'
  ne_dotted : c ≠ 'İ'
  own : lowerChar c = c

instance (c : Char) : Decidable (IsLower c) :=
  decidable_of_iff (c ≠ 'Σ' ∧ c ≠ 'İ' ∧ lowerChar c = c)
    ⟨fun h => ⟨h.1, h.2.1, h.2.2⟩, fun h => ⟨h.ne_sigma, h.ne_dotted, h.own⟩⟩

/-- The rows of all characters with a lowercase form that is a single character. -/
def caseRows : List CaseRow := ⟨0x41, 0x5A, 1, 32⟩ :: lowerRows

/-- What no lowercase form may be besides a character of `caseRows`: the two characters with forms of
their own, the blank characters, and what is no character. -/
def reservedRows : List CaseRow := [
  ⟨0x3A3, 0x3A3, 1, 0⟩, ⟨0x130, 0x130, 1, 0⟩, ⟨0x09, 0x0D, 1, 0⟩, ⟨0x1C, 0x20, 1, 0⟩,
  ⟨0x85, 0x85, 1, 0⟩, ⟨0xA0, 0xA0, 1, 0⟩, ⟨0x1680, 0x1680, 1, 0⟩, ⟨0x2000, 0x200A, 1, 0⟩,
  ⟨0x2028, 0x2029, 1, 0⟩, ⟨0x202F, 0x202F, 1, 0⟩, ⟨0x205F, 0x205F, 1, 0⟩, ⟨0x3000, 0x3000, 1, 0⟩,
  ⟨0xD800, 0xDFFF, 1, 0⟩
]

def CaseRow.form (r : CaseRow) (n : Nat) : Nat := ((n : Int) + r.shift).toNat

/-- Row `s` has no code point from `low` to `high`; if `alternate`, only every second one from `low` on
counts. -/
def CaseRow.misses (s : CaseRow) (low high : Nat) (alternate : Bool) : Bool :=
  match Nat.ble s.first high, Nat.ble low s.last with
  | true, true => alternate && s.step == 2 && (low + s.first) % 2 == 1
  | _, _ => true

/-- The lowercase forms of the row are code points and have no lowercase forms. -/
def CaseRow.isFinal (r : CaseRow) : Bool :=
  0 ≤ r.first + r.shift && r.last + r.shift < 0x110000 &&
    (reservedRows ++ caseRows).all
      (·.misses (r.form r.first) (r.form r.last) (r.step == 2 || r.first == r.last))

theorem caseRows_isFinal : caseRows.all CaseRow.isFinal = true := by decide +kernel

theorem CaseRow.covers_iff {r : CaseRow} {n : Nat} :
    r.covers n = true ↔ (r.first ≤ n ∧ n ≤ r.last) ∧ (n - r.first) % r.step = 0 := by
  simp only [covers, Bool.and_eq_true, decide_eq_true_eq, beq_iff_eq]

theorem CaseRow.not_covers_of_misses {s : CaseRow} {low high m : Nat} {alternate : Bool}
    (h : s.misses low high alternate = true) (hlow : low ≤ m) (hhigh : m ≤ high)
    (halt : alternate = true → (m - low) % 2 = 0) : s.covers m = false := by
  rw [Bool.eq_false_iff, Ne, CaseRow.covers_iff]
  rintro ⟨⟨hfirst, hlast⟩, hstep⟩
  have h1 : Nat.ble s.first high = true := Nat.ble_eq_true_of_le (by omega)
  have h2 : Nat.ble low s.last = true := Nat.ble_eq_true_of_le (by omega)
  simp only [misses, h1, h2, Bool.and_eq_true, beq_iff_eq] at h
  obtain ⟨⟨ha, htwo⟩, hodd⟩ := h
  have hm := halt ha
  rw [htwo] at hstep
  omega

/-- A lowercase form is a code point that is not reserved and has no lowercase form. -/
theorem CaseRow.form_free {r s : CaseRow} {n : Nat} (hr : r ∈ caseRows) (hn : r.covers n = true)
    (hs : s ∈ reservedRows ++ caseRows) : s.covers (r.form n) = false := by
  have hfinal := List.all_eq_true.1 caseRows_isFinal r hr
  simp only [isFinal, Bool.and_eq_true, decide_eq_true_eq, List.all_eq_true] at hfinal
  obtain ⟨⟨hleast, -⟩, hmisses⟩ := hfinal
  obtain ⟨⟨hfirst, hlast⟩, hstep⟩ := CaseRow.covers_iff.1 hn
  refine CaseRow.not_covers_of_misses (hmisses s hs) ?_ ?_ ?_
  · simp only [form]
    omega
  · simp only [form]
    omega
  · intro halt
    simp only [Bool.or_eq_true, beq_iff_eq] at halt
    have heven : (n - r.first) % 2 = 0 := by
      rcases halt with htwo | hone
      · rwa [htwo] at hstep
      · omega
    simp only [form]
    omega

theorem CaseRow.form_lt {r : CaseRow} {n : Nat} (hr : r ∈ caseRows) (hn : r.covers n = true) :
    r.form n < 0x110000 := by
  have hfinal := List.all_eq_true.1 caseRows_isFinal r hr
  simp only [isFinal, Bool.and_eq_true, decide_eq_true_eq] at hfinal
  have hlast := (CaseRow.covers_iff.1 hn).1.2
  simp only [form]
  omega

theorem CaseRow.toNat_form {r : CaseRow} {n : Nat} (hr : r ∈ caseRows) (hn : r.covers n = true) :
    (Char.ofNat (r.form n)).toNat = r.form n := by
  have hlt := CaseRow.form_lt hr hn
  have hfree := CaseRow.form_free hr hn (s := ⟨0xD800, 0xDFFF, 1, 0⟩)
    (List.mem_append_left _ (by simp [reservedRows]))
  rw [Bool.eq_false_iff, Ne, CaseRow.covers_iff] at hfree
  refine Utf8.toNat_ofNat ?_
  simp only [Nat.mod_one, and_true, not_and_or, Nat.not_le] at hfree
  omega

/-- A character is its own lowercase form, or a row that holds it has its form. -/
theorem lowerChar_cases (c : Char) :
    lowerChar c = c ∨
      ∃ r ∈ caseRows, r.covers c.toNat = true ∧ lowerChar c = Char.ofNat (r.form c.toNat) := by
  unfold lowerChar
  split
  · split
    · rename_i hcase
      have hcov : CaseRow.covers ⟨0x41, 0x5A, 1, 32⟩ c.toNat = true :=
        CaseRow.covers_iff.2 ⟨hcase, Nat.mod_one _⟩
      exact Or.inr ⟨_, List.mem_cons_self .., hcov, rfl⟩
    · exact Or.inl rfl
  · split
    · rename_i r hfind
      have hr := List.mem_of_find?_eq_some hfind
      have hcov := List.find?_some (p := fun r : CaseRow => r.covers c.toNat) hfind
      exact Or.inr ⟨r, List.mem_cons_of_mem _ hr, hcov, rfl⟩
    · exact Or.inl rfl

theorem isLower_form {r : CaseRow} {n : Nat} (hr : r ∈ caseRows) (hn : r.covers n = true) :
    IsLower (Char.ofNat (r.form n)) ∧ isBlank (Char.ofNat (r.form n)) = false := by
  have htoNat := CaseRow.toNat_form hr hn
  have hfree : ∀ s ∈ reservedRows ++ caseRows, s.covers (Char.ofNat (r.form n)).toNat = false := by
    intro s hs
    rw [htoNat]
    exact CaseRow.form_free hr hn hs
  generalize Char.ofNat (r.form n) = c at hfree
  have hreserved : ∀ s ∈ reservedRows, ¬ s.covers c.toNat = true :=
    fun s hs => Bool.eq_false_iff.1 (hfree s (List.mem_append_left _ hs))
  refine ⟨⟨?_, ?_, ?_⟩, ?_⟩
  · rintro rfl
    exact hreserved ⟨0x3A3, 0x3A3, 1, 0⟩ (by simp [reservedRows]) (by decide +kernel)
  · rintro rfl
    exact hreserved ⟨0x130, 0x130, 1, 0⟩ (by simp [reservedRows]) (by decide +kernel)
  · rcases lowerChar_cases c with hown | ⟨s, hs, hcov, -⟩
    · exact hown
    · rw [hfree s (List.mem_append_right _ hs)] at hcov
      exact absurd hcov Bool.false_ne_true
  · simp only [reservedRows, List.forall_mem_cons, CaseRow.covers_iff, Nat.mod_one, and_true] at hreserved
    rw [Bool.eq_false_iff]
    intro hblank
    simp only [isBlank, Bool.or_eq_true, Bool.and_eq_true, decide_eq_true_eq, beq_iff_eq] at hblank
    omega

theorem isLower_lowerChar {c : Char} (hsigma : c ≠ 'Σ') (hdotted : c ≠ 'İ') :
    IsLower (lowerChar c) := by
  rcases lowerChar_cases c with hown | ⟨r, hr, hn, hform⟩
  · rw [hown]
    exact ⟨hsigma, hdotted, hown⟩
  · rw [hform]
    exact (isLower_form hr hn).1

theorem isBlank_lowerChar {c : Char} (h : isBlank c = false) : isBlank (lowerChar c) = false := by
  rcases lowerChar_cases c with hown | ⟨r, hr, hn, hform⟩
  · rw [hown]
    exact h
  · rw [hform]
    exact (isLower_form hr hn).2

/-! ### Characters in a text -/

theorem lowerIn_ne_nil (before : List Char) (c : Char) (after : List Char) :
    lowerIn before c after ≠ [] := by
  unfold lowerIn
  split_ifs <;> simp

/-- The characters that lowercase puts in the place of a sigma and of a dotted capital. -/
def ownForms : List Char := ['ς', 'σ', 'i', '\u0307']

theorem mem_lowerIn_cases {before after : List Char} {c d : Char}
    (hd : d ∈ lowerIn before c after) :
    d ∈ ownForms ∨ (c ≠ 'Σ' ∧ c ≠ 'İ' ∧ d = lowerChar c) := by
  unfold lowerIn at hd
  split at hd
  · left
    rw [List.mem_singleton] at hd
    subst hd
    split <;> simp [ownForms]
  · rename_i hsigma
    split at hd
    · left
      simp only [List.mem_cons, List.not_mem_nil, or_false] at hd
      rcases hd with rfl | rfl <;> simp [ownForms]
    · rename_i hdotted
      exact Or.inr ⟨hsigma, hdotted, List.mem_singleton.1 hd⟩

theorem isLower_of_mem_lowerIn {before after : List Char} {c d : Char}
    (hd : d ∈ lowerIn before c after) : IsLower d := by
  have hown : (ownForms.all fun d => decide (IsLower d)) = true := by decide +kernel
  rcases mem_lowerIn_cases hd with hd | ⟨hsigma, hdotted, rfl⟩
  · exact of_decide_eq_true (List.all_eq_true.1 hown d hd)
  · exact isLower_lowerChar hsigma hdotted

theorem isBlank_of_mem_lowerIn {before after : List Char} {c d : Char} (hc : isBlank c = false)
    (hd : d ∈ lowerIn before c after) : isBlank d = false := by
  have hown : (ownForms.all fun d => !isBlank d) = true := by decide
  rcases mem_lowerIn_cases hd with hd | ⟨-, -, rfl⟩
  · simpa using List.all_eq_true.1 hown d hd
  · exact isBlank_lowerChar hc

theorem lowerIn_of_isLower {c : Char} (h : IsLower c) (before after : List Char) :
    lowerIn before c after = [c] := by
  rw [lowerIn, if_neg h.ne_sigma, if_neg h.ne_dotted, h.own]

theorem lowerIn_of_ne {c : Char} (h : c ≠ 'Σ') (before after : List Char) :
    lowerIn before c after = lowerIn [] c [] := by
  rw [lowerIn, lowerIn, if_neg h, if_neg h]

end Redact.Text
