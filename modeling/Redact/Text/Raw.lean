import Redact.Text.Blank
import Redact.Text.Lower
import Redact.Text.Search
import Redact.Text.Utf8

/-! # Texts with lone surrogates

A text as it may come: besides characters it can have surrogates that stand alone. UTF-8 has no bytes
for these, so a text that has one cannot be encoded. Nor has a lone surrogate a case, and it is not
blank. -/

namespace Redact

/-- A surrogate, by its distance from the first one. -/
abbrev Surrogate := Fin 0x800

def Surrogate.first : Surrogate := 0

inductive Letter where
  | char (c : Char)
  | lone (s : Surrogate)
  deriving DecidableEq, Repr

namespace Letter

def code : Letter → Nat
  | char c => c.toNat
  | lone s => 0xD800 + s

def char? : Letter → Option Char
  | char c => some c
  | lone _ => none

def isBlank : Letter → Bool
  | char c => Text.isBlank c
  | lone _ => false

theorem code_inj {a b : Letter} (h : a.code = b.code) : a = b := by
  -- no character has the code point of a surrogate
  have hchar : ∀ c : Char, c.toNat < 0xD800 ∨ 0xDFFF < c.toNat := fun c => c.valid.imp id And.left
  cases a with
  | char c =>
    cases b with
    | char d => exact congrArg char (Char.toNat_inj.1 h)
    | lone s =>
      have hc := hchar c
      simp only [code] at h
      omega
  | lone s =>
    cases b with
    | char d =>
      have hd := hchar d
      simp only [code] at h
      omega
    | lone r =>
      simp only [code] at h
      exact congrArg lone (Fin.ext (by omega))

/-- Letters are ordered by their code points. -/
instance : LT Letter := ⟨fun a b => a.code < b.code⟩

instance (a b : Letter) : Decidable (a < b) := inferInstanceAs (Decidable (a.code < b.code))

instance : Std.Irrefl (α := Letter) (· < ·) := ⟨fun a => Nat.lt_irrefl a.code⟩

instance : Trans (α := Letter) (· < ·) (· < ·) (· < ·) := ⟨fun h h' => Nat.lt_trans h h'⟩

instance : Std.Trichotomous (α := Letter) (· < ·) where
  trichotomous _ _ h h' := code_inj (Nat.le_antisymm (Nat.not_lt.1 h') (Nat.not_lt.1 h))

end Letter

abbrev RawText := List Letter

namespace RawText

instance : LawfulBEq RawText := List.instLawfulBEq

def ofList (cs : List Char) : RawText := cs.map .char

def ofString (s : String) : RawText := ofList s.toList

instance : Coe String RawText := ⟨ofString⟩

theorem ofList_inj {cs ds : List Char} : ofList cs = ofList ds ↔ cs = ds :=
  List.map_inj_right fun _ _ h => Letter.char.inj h

theorem ofString_inj {s t : String} : ofString s = ofString t ↔ s = t := by
  rw [ofString, ofString, ofList_inj, String.toList_inj]

/-- The characters of a text, without its lone surrogates. -/
def chars (t : RawText) : List Char := t.filterMap Letter.char?

/-- The text has no lone surrogate. -/
def isPlain (t : RawText) : Bool := t.all (·.char?.isSome)

/-- The text as a string, if it has no lone surrogate. -/
def string? (t : RawText) : Option String := if t.isPlain then some (String.ofList t.chars) else none

def bytes (t : RawText) : List UInt8 := Text.Utf8.encode t.chars

/-- The UTF-8 of a text, if it has one. -/
def encode? (t : RawText) : Option (List UInt8) := if t.isPlain then some t.bytes else none

/-- The text in characters only: a lone surrogate is written as an escape with four digits. -/
def escaped (t : RawText) : String :=
  String.ofList (t.flatMap fun l => match l with
    | .char c => [c]
    | .lone _ => '\\' :: 'u' :: (Nat.toDigits 16 l.code))

def trim (t : RawText) : RawText := Text.trimBoth Letter.isBlank t

/-- The characters in front of the first lone surrogate. -/
def firstChars : RawText → List Char
  | .char c :: rest => c :: firstChars rest
  | _ => []

/-- `t` in lowercase, given the characters before it (nearest first). No word goes on behind a lone
surrogate. -/
def lowerAfter (before : List Char) : RawText → RawText
  | [] => []
  | .char c :: after =>
    ofList (Text.lowerIn before c (firstChars after)) ++ lowerAfter (c :: before) after
  | .lone s :: after => .lone s :: lowerAfter [] after

def lower (t : RawText) : RawText := lowerAfter [] t

def commaParts (t : RawText) : List RawText := Text.splitAt (.char ',') t

end RawText

end Redact
