import Mathlib.Data.List.Basic
import Redact.Text.Search

/-! # Parts of texts

A text holds another one if that is a run of its members (`hasPart_iff`). The parts of a text between
its commas are those of the library's `List.splitOn`. -/

namespace Redact.Text

variable {α : Type}

theorem hasPart_iff [BEq α] [LawfulBEq α] {part cs : List α} : hasPart part cs = true ↔ part <:+: cs := by
  induction cs with
  | nil => simp [hasPart]
  | cons c rest ih =>
    rw [hasPart, Bool.or_eq_true, List.isPrefixOf_iff_prefix, ih, List.infix_cons_iff]

theorem splitAt_eq_splitOn [DecidableEq α] (separator : α) (cs : List α) :
    splitAt separator cs = cs.splitOn separator := by
  induction cs with
  | nil => rw [List.splitOn_nil]; rfl
  | cons c rest ih =>
    rw [splitAt, List.splitOn_eq_splitOnP, List.splitOnP_cons_eq_if_modifyHead, ih,
      List.splitOn_eq_splitOnP]
    simp only [beq_iff_eq]
    split
    · rfl
    · have hne := List.splitOnP_ne_nil (· == separator) rest
      cases hparts : rest.splitOnP (· == separator) with
      | nil => exact absurd hparts hne
      | cons part parts => rfl

end Redact.Text
