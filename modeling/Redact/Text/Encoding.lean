import Redact.Text.Raw

/-! # Text encodings

The encodings that source files come in: seven of their own, and others that are given by name.
Decoding never fails: what is ill-formed reads as U+FFFD. Encoding fails on a character that the
encoding has no bytes for, and on a lone surrogate. -/

namespace Redact.Text

/-- How the bytes of a file are read, and which texts have bytes. -/
structure Codec where
  decode : List UInt8 → RawText
  encode? : RawText → Option (List UInt8)

/-- Codecs by the names of their encodings. -/
abbrev Codecs := String → Option Codec

/-- An encoding of source files. `utf8Marked` is UTF-8 with a byte order mark in front. -/
inductive Encoding where
  | utf8
  | utf8Marked
  | utf16le
  | utf16be
  | ascii
  | latin1
  | windows1252
  deriving DecidableEq, Repr

namespace Encoding

def mark : List UInt8 := [0xEF, 0xBB, 0xBF]

/-- A name of an encoding in comparable form: ASCII lowercase, and one `_` for each run of other
characters than letters, digits and dots. -/
def foldName (name : List Char) : List Char :=
  let step (acc : List Char × Bool) (c : Char) : List Char × Bool :=
    if c.isAlphanum || c == '.' then
      (c.toLower :: (if acc.2 && !acc.1.isEmpty then '_' :: acc.1 else acc.1), false)
    else (acc.1, true)
  (name.foldl step ([], false)).1.reverse

def ofName? (name : String) : Option Encoding :=
  let key := String.ofList (foldName name.toList)
  if ["utf_8", "utf8", "u8", "utf", "utf8_ucs2", "utf8_ucs4", "cp65001"].contains key then some utf8
  else if key == "utf_8_sig" then some utf8Marked
  else if ["utf_16_le", "utf_16le", "unicodelittleunmarked"].contains key then some utf16le
  else if ["utf_16_be", "utf_16be", "unicodebigunmarked"].contains key then some utf16be
  else if ["ascii", "us_ascii", "646", "us", "ansi_x3.4_1968", "ansi_x3.4_1986", "ansi_x3_4_1968",
      "iso646_us", "iso_646.irv_1991", "iso_ir_6", "cp367", "csascii", "ibm367"].contains key then
    some ascii
  else if ["latin_1", "latin1", "latin", "l1", "iso_8859_1", "iso8859_1", "iso8859", "8859", "cp819",
      "iso_8859_1_1987", "iso_ir_100", "ibm819", "csisolatin1"].contains key then some latin1
  else if ["cp1252", "1252", "windows_1252"].contains key then some windows1252
  else none

/-- The characters of windows-1252 for the bytes 0x80 to 0x9F; 0 where it has none. -/
def windowsTable : List Nat :=
  [0x20AC, 0, 0x201A, 0x192, 0x201E, 0x2026, 0x2020, 0x2021, 0x2C6, 0x2030, 0x160, 0x2039, 0x152, 0,
    0x17D, 0, 0, 0x2018, 0x2019, 0x201C, 0x201D, 0x2022, 0x2013, 0x2014, 0x2DC, 0x2122, 0x161,
    0x203A, 0x153, 0, 0x17E, 0x178]

def windowsChar (b : UInt8) : Char :=
  if 0x80 ≤ b.toNat ∧ b.toNat < 0xA0 then
    match windowsTable[b.toNat - 0x80]? with
    | some n => if n = 0 then '\uFFFD' else Char.ofNat n
    | none => '\uFFFD'
  else Char.ofNat b.toNat

def windowsByte? (c : Char) : Option UInt8 :=
  let n := c.toNat
  if n < 0x80 ∨ (0xA0 ≤ n ∧ n < 0x100) then some n.toUInt8
  else (windowsTable.findIdx? (· == n)).map fun i => (0x80 + i).toUInt8

/-- The code units of a UTF-16 byte string, and whether a byte is left over. -/
def units16 (big : Bool) : List UInt8 → List Nat × Bool
  | a :: b :: rest =>
    let (units, odd) := units16 big rest
    ((if big then a.toNat * 256 + b.toNat else b.toNat * 256 + a.toNat) :: units, odd)
  | [_] => ([], true)
  | [] => ([], false)

/-- The text of UTF-16 code units. A surrogate without its partner reads as U+FFFD, as does a
byte that is left over (`odd`); a high surrogate before a left-over byte takes that byte along. -/
def decodeUnits (odd : Bool) : List Nat → List Char
  | [] => if odd then ['\uFFFD'] else []
  | u :: rest =>
    if 0xD800 ≤ u ∧ u < 0xDC00 then
      match rest with
      | [] => ['\uFFFD']
      | v :: rest' =>
        if 0xDC00 ≤ v ∧ v < 0xE000 then
          Char.ofNat (0x10000 + (u - 0xD800) * 1024 + (v - 0xDC00)) :: decodeUnits odd rest'
        else '\uFFFD' :: decodeUnits odd (v :: rest')
    else (if 0xDC00 ≤ u ∧ u < 0xE000 then '\uFFFD' else Char.ofNat u) :: decodeUnits odd rest

def unitBytes (big : Bool) (u : Nat) : List UInt8 :=
  if big then [(u / 256).toUInt8, (u % 256).toUInt8] else [(u % 256).toUInt8, (u / 256).toUInt8]

def encodeChar16 (big : Bool) (c : Char) : List UInt8 :=
  let n := c.toNat
  if n < 0x10000 then unitBytes big n
  else
    unitBytes big (0xD800 + (n - 0x10000) / 1024) ++ unitBytes big (0xDC00 + (n - 0x10000) % 1024)

/-- The text of a byte string in encoding `e`. A mark in front is dropped by `utf8Marked` only,
and a file that ends inside a mark is empty for it. -/
def decode (e : Encoding) (bytes : List UInt8) : List Char :=
  match e with
  | utf8 => Utf8.decodeLossy bytes
  | utf8Marked =>
    if mark.isPrefixOf bytes then Utf8.decodeLossy (bytes.drop 3)
    else if bytes.isPrefixOf mark then []
    else Utf8.decodeLossy bytes
  | utf16le => let (units, odd) := units16 false bytes; decodeUnits odd units
  | utf16be => let (units, odd) := units16 true bytes; decodeUnits odd units
  | ascii => bytes.map fun b => if b.toNat < 0x80 then Char.ofNat b.toNat else '\uFFFD'
  | latin1 => bytes.map fun b => Char.ofNat b.toNat
  | windows1252 => bytes.map windowsChar

/-- The bytes of a text in encoding `e`, or `none` if it has a character outside the encoding. -/
def encode? (e : Encoding) (cs : List Char) : Option (List UInt8) :=
  match e with
  | utf8 => some (Utf8.encode cs)
  | utf8Marked => some (mark ++ Utf8.encode cs)
  | utf16le => some (cs.flatMap (encodeChar16 false))
  | utf16be => some (cs.flatMap (encodeChar16 true))
  | ascii => cs.mapM fun c => if c.toNat < 0x80 then some c.toNat.toUInt8 else none
  | latin1 => cs.mapM fun c => if c.toNat < 0x100 then some c.toNat.toUInt8 else none
  | windows1252 => cs.mapM windowsByte?

def codec (e : Encoding) : Codec where
  decode bytes := .ofList (e.decode bytes)
  encode? t := if t.isPlain then e.encode? t.chars else none

end Encoding

/-- The codec of a name, with others besides those of the seven encodings. -/
def Codecs.find? (others : Codecs) (name : String) : Option Codec :=
  ((Encoding.ofName? name).map Encoding.codec).or (others name)

end Redact.Text
