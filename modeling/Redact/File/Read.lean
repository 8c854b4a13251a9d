import Redact.Text.Encoding
import Redact.Text.Lower

/-! # Reading source files

The encoding of a file is the one that is given, or the one that its first bytes tell: a byte order
mark counts first, then whether they are UTF-8, then the guess of a detector. A name of an encoding
that is not known counts as none. -/

namespace Redact

abbrev Guess := List UInt8 → Option String

namespace Text.Encoding

/-- The first bytes of a file: `size` of them, all of them for -1. There is no other negative
size. -/
def sample? (size : Int) (bytes : List UInt8) : Option (List UInt8) :=
  if 0 ≤ size then some (bytes.take size.toNat)
  else if size = -1 then some bytes
  else none

def sampleSize : Int := 8192

def ofMark? (sample : List UInt8) : Option String :=
  if mark.isPrefixOf sample then some "utf-8-sig"
  else if [0xFF, 0xFE].isPrefixOf sample then some "utf-16-le"
  else if [0xFE, 0xFF].isPrefixOf sample then some "utf-16-be"
  else none

/-- The encoding that a guess stands for: in lowercase, and UTF-8 for ASCII, of which it is an
extension, as well as for no guess. -/
def ofGuess (guessed : Option String) : String :=
  match guessed.map lower with
  | none => "utf-8"
  | some name => if ["ascii", "utf-8", "utf8"].contains name then "utf-8" else name

/-- The name of the encoding that the first bytes of a file tell. -/
def ofSample (guess : Guess) (sample : List UInt8) : String :=
  if sample.isEmpty then "utf-8"
  else
    match ofMark? sample with
    | some name => name
    | none => if Utf8.isValid sample then "utf-8" else ofGuess (guess sample)

/-- The name of the encoding of a file, told by its first `size` bytes. -/
def detect? (guess : Guess) (size : Int) (bytes : List UInt8) : Option String :=
  (sample? size bytes).map (ofSample guess)

/-- The name of the encoding of what may be a file. Where no file can be read, it is UTF-8. -/
def detectFile? (guess : Guess) (size : Int) : Option (List UInt8) → Option String
  | none => some "utf-8"
  | some bytes => detect? guess size bytes

/-- The name of the encoding of a file that is told by the usual number of bytes. -/
def detect (guess : Guess) (bytes : List UInt8) : String :=
  ofSample guess (bytes.take sampleSize.toNat)

end Text.Encoding

/-- The text of a file and the name of the encoding that it was read in. -/
structure SourceText where
  text : RawText
  encoding : String
  deriving DecidableEq, Repr

namespace SourceText

/-- The text of bytes in an encoding, under the name that was asked for. -/
def decodeAs? (codecs : Text.Codecs) (name : String) (bytes : List UInt8) : Option SourceText :=
  (codecs.find? name).map fun c => ⟨c.decode bytes, name⟩

/-- The text of a file: in the given encoding if it is known, else in the detected one if that is
known, else in UTF-8. -/
def read (codecs : Text.Codecs) (guess : Guess) (given : Option String) (bytes : List UInt8) :
    SourceText :=
  match given.bind (decodeAs? codecs · bytes) with
  | some t => t
  | none =>
    (decodeAs? codecs (Text.Encoding.detect guess bytes) bytes).getD
      ⟨.ofList (Text.Utf8.decodeLossy bytes), "utf-8"⟩

/-- The bytes of a text in the encoding of a name, if it is known and has them. -/
def encode? (codecs : Text.Codecs) (encoding : String) (t : RawText) : Option (List UInt8) :=
  (codecs.find? encoding).bind (·.encode? t)

end SourceText

end Redact
