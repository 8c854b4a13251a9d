import Redact.Text.Numeral
import Redact.Text.Utf8
import Redact.Value.Basic

/-! # Values as whole numbers

The whole number that a setting stands for: a fraction loses its fractional part, truth values
count as 0 and 1, texts and byte strings are read as numbers. Infinity is told apart from the other
values that are no number. -/

namespace Redact.Value

inductive NoWhole where
  | infinite
  | unusable
  deriving DecidableEq, Repr

def usable (n : Option Int) : Except NoWhole Int :=
  match n with
  | some i => .ok i
  | none => .error .unusable

/-- The whole number that a value stands for. The bytes of a byte string count as characters, and
only those of ASCII can be digits. -/
def toWhole : Value → Except NoWhole Int
  | bool b => .ok (if b then 1 else 0)
  | int i => .ok i
  | float (.infinity _) => .error .infinite
  | float x => usable x.truncate?
  | text s => usable (s.string?.bind Text.wholeNumber?)
  | bytes bs =>
    if bs.all (·.toNat < 0x80) then
      usable (Text.wholeNumber? (String.ofList (bs.map fun b => Char.ofNat b.toNat)))
    else .error .unusable
  | _ => .error .unusable

end Redact.Value
