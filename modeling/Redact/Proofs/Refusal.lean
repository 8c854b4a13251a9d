import Redact.Proofs.Sorting
import Redact.Proofs.Splice

/-! # Edits that are refused

Each edit is checked when its turn comes, while the ones before it have changed the source already. The
check is against the size of the source as it was given, so what they made of it does not count. But an edit
is also refused for its replacement, if that has no bytes: edits are refused exactly if one of them is at
fault in either way, and of those at fault it is the one that starts last that tells how
(`apply_refuses_iff`). A bad span that starts earlier is not named then (`not_named_beside_lone`). -/

namespace Redact.Splice

/-- The span of the edit lies inside a source of `size` bytes. -/
def Inside (size : Nat) (e : Edit) : Prop := 0 ≤ e.start ∧ e.start ≤ e.stop ∧ e.stop ≤ size

instance (size : Nat) (e : Edit) : Decidable (Inside size e) := inferInstanceAs (Decidable (_ ∧ _ ∧ _))

/-- The span of the edit does not lie inside the source, or its replacement has no bytes. -/
def Faulty (size : Nat) (e : Edit) : Prop := ¬ Inside size e ∨ e.replacement.isPlain = false

/-- Of the edits at fault, `e` starts last, and it is the first one in the list of those that start where it
does. -/
def LastFaulty (size : Nat) (edits : List Edit) (e : Edit) : Prop :=
  ∃ front back, edits = front ++ e :: back ∧ Faulty size e ∧
    (∀ x ∈ front, Faulty size x → x.start < e.start) ∧
    ∀ x ∈ back, Faulty size x → x.start ≤ e.start

/-! ### The edit that is refused -/

def passes (size : Nat) (e : Edit) : Bool := fits size e && e.replacement.isPlain

theorem not_passes_iff {size : Nat} {e : Edit} : (!passes size e) = true ↔ Faulty size e := by
  rw [passes, Bool.not_eq_true', Bool.and_eq_false_iff, ← Bool.not_eq_true (fits size e), fits_iff,
    Faulty, Inside]

/-- What is said of an edit at fault; the span is looked at first. -/
def refusalOf (size : Nat) (e : Edit) : Refusal :=
  if fits size e then .unencodable else .badSpan ⟨e.start, e.stop, size⟩

theorem run_eq_error_iff {size : Nat} {bytes : List UInt8} {edits : List Edit} {refusal : Refusal} :
    run size bytes edits = .error refusal ↔
      ∃ e, edits.find? (fun x => !passes size x) = some e ∧ refusal = refusalOf size e := by
  -- an edit that can be applied changes the bytes, and the size that the rest is checked against stays
  induction edits generalizing bytes with
  | nil => simp [run]
  | cons e rest ih =>
    by_cases hpass : passes size e = true
    · obtain ⟨hfit, hplain⟩ := Bool.and_eq_true_iff.1 hpass
      rw [run_cons_of_applicable ⟨fits_iff.1 hfit, hplain⟩, ih,
        List.find?_cons_of_neg (by simp [hpass])]
    · have hrun : run size bytes (e :: rest) = .error (refusalOf size e) := by
        rw [run, refusalOf]
        by_cases hfit : fits size e = true
        · have hlone : e.replacement.isPlain = false := by simpa [passes, hfit] using hpass
          rw [if_pos hfit, if_pos hfit, RawText.encode?_eq_none_iff.2 hlone]
        · rw [if_neg hfit, if_neg hfit]
      rw [hrun, List.find?_cons_of_pos (by simp [hpass])]
      simp [eq_comm]

theorem find?_sort_eq_some {size : Nat} {edits : List Edit} {e : Edit} :
    (edits.mergeSort fun a b => b.start ≤ a.start).find? (fun x => !passes size x) = some e ↔
      LastFaulty size edits e := by
  rw [find?_mergeSort_eq_some later_total later_trans]
  simp only [Foremost, LastFaulty, not_passes_iff, decide_eq_false_iff_not, decide_eq_true_eq, not_le]

theorem apply_eq_error_iff {source : List UInt8} {edits : List Edit} {refusal : Refusal} :
    apply source edits = .error refusal ↔
      ∃ e, LastFaulty source.length edits e ∧ refusal = refusalOf source.length e := by
  rw [apply, run_eq_error_iff]
  simp only [find?_sort_eq_some]

theorem exists_lastFaulty_iff {size : Nat} {edits : List Edit} :
    (∃ e, LastFaulty size edits e) ↔ ∃ e ∈ edits, Faulty size e := by
  constructor
  · rintro ⟨e, front, back, rfl, hfault, -⟩
    exact ⟨e, by simp, hfault⟩
  · rintro ⟨e, he, hfault⟩
    have hmem : e ∈ edits.mergeSort fun a b => b.start ≤ a.start := List.mem_mergeSort.2 he
    have hfound : ((edits.mergeSort fun a b => b.start ≤ a.start).find?
        fun x => !passes size x).isSome = true :=
      List.find?_isSome.2 ⟨e, hmem, not_passes_iff.2 hfault⟩
    obtain ⟨last, hlast⟩ := Option.isSome_iff_exists.1 hfound
    exact ⟨last, find?_sort_eq_some.1 hlast⟩

/-! ### How edits are refused -/

theorem apply_eq_badSpan_iff {source : List UInt8} {edits : List Edit} {bad : BadSpan} :
    apply source edits = .error (.badSpan bad) ↔
      ∃ e, LastFaulty source.length edits e ∧ ¬ Inside source.length e ∧
        bad = ⟨e.start, e.stop, source.length⟩ := by
  rw [apply_eq_error_iff]
  refine exists_congr fun e => and_congr_right fun _ => ?_
  rw [Inside, ← fits_iff, refusalOf]
  split <;> simp_all

theorem apply_eq_unencodable_iff {source : List UInt8} {edits : List Edit} :
    apply source edits = .error .unencodable ↔
      ∃ e, LastFaulty source.length edits e ∧ Inside source.length e := by
  rw [apply_eq_error_iff]
  refine exists_congr fun e => and_congr_right fun _ => ?_
  rw [Inside, ← fits_iff, refusalOf]
  split <;> simp_all

theorem apply_eq_unencodable_of_inside {source : List UInt8} {edits : List Edit}
    (hin : ∀ e ∈ edits, Inside source.length e) {e : Edit} (he : e ∈ edits)
    (hlone : e.replacement.isPlain = false) : apply source edits = .error .unencodable := by
  obtain ⟨last, hlast⟩ := exists_lastFaulty_iff.2 ⟨e, he, Or.inr hlone⟩
  refine apply_eq_unencodable_iff.2 ⟨last, hlast, hin last ?_⟩
  obtain ⟨front, back, rfl, -⟩ := hlast
  simp

/-- Edits in any order, also ones that overlap, are refused exactly if the span of one of them does not lie
inside the source as it was given, or the replacement of one of them has no bytes. Of these edits, it is the
one that starts last for which they are refused; the message names its span if that is not inside. -/
theorem apply_refuses_iff (source : List UInt8) (edits : List Edit) :
    ((∃ refusal, apply source edits = .error refusal) ↔
        ∃ e ∈ edits, ¬ Inside source.length e ∨ e.replacement.isPlain = false) ∧
      (∀ bad, apply source edits = .error (.badSpan bad) ↔
        ∃ e, LastFaulty source.length edits e ∧ ¬ Inside source.length e ∧
          bad = ⟨e.start, e.stop, source.length⟩ ∧
          bad.message = "Edit span [" ++ toString e.start ++ ", " ++ toString e.stop ++
            ") is outside source of " ++ toString source.length ++ " bytes") ∧
      (apply source edits = .error .unencodable ↔
        ∃ e, LastFaulty source.length edits e ∧ Inside source.length e) := by
  refine ⟨?_, ?_, apply_eq_unencodable_iff⟩
  · have hfaulty : (∃ e, LastFaulty source.length edits e) ↔ ∃ e ∈ edits, Faulty source.length e :=
      exists_lastFaulty_iff
    simp only [Faulty] at hfaulty
    rw [← hfaulty]
    constructor
    · rintro ⟨refusal, hrefusal⟩
      obtain ⟨e, he, -⟩ := apply_eq_error_iff.1 hrefusal
      exact ⟨e, he⟩
    · rintro ⟨e, he⟩
      exact ⟨_, apply_eq_error_iff.2 ⟨e, he, rfl⟩⟩
  · intro bad
    rw [apply_eq_badSpan_iff]
    constructor
    · rintro ⟨e, he, hout, rfl⟩
      exact ⟨e, he, hout, rfl, rfl⟩
    · rintro ⟨e, he, hout, hbad, -⟩
      exact ⟨e, he, hout, hbad⟩

/-- The span that starts first would lie inside what the other edit makes of the source. -/
example : apply [97, 98, 99] [⟨1, 5, "", .secretToken⟩, ⟨2, 3, "longer", .secretToken⟩] =
    .error (.badSpan ⟨1, 5, 3⟩) := by
  cbv

/-- An edit with a lone surrogate in its replacement. -/
def loneEdit : Edit := ⟨1, 2, [.lone .first], .secretToken⟩

/-- A span that does not lie inside three bytes. -/
def wideEdit : Edit := ⟨0, 9, "x", .secretToken⟩

/-- An edit is refused whose span lies inside the source, and a span next to it that does not is not
named. -/
theorem not_named_beside_lone :
    Inside 3 loneEdit ∧ apply [97, 98, 99] [loneEdit] = .error .unencodable ∧
      ¬ Inside 3 wideEdit ∧ apply [97, 98, 99] [loneEdit, wideEdit] = .error .unencodable := by
  have hinside : Inside 3 loneEdit := by decide
  refine ⟨hinside, apply_eq_unencodable_iff.2 ⟨loneEdit, ?_, hinside⟩, by decide,
    apply_eq_unencodable_iff.2 ⟨loneEdit, ?_, hinside⟩⟩
  · exact ⟨[], [], rfl, Or.inr rfl, nofun, nofun⟩
  · refine ⟨[], [wideEdit], rfl, Or.inr rfl, nofun, ?_⟩
    intro x hx _
    rw [List.mem_singleton.1 hx]
    decide

end Redact.Splice
