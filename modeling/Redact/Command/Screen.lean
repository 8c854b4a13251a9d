import Redact.Text.Blank
import Redact.Text.Lower
import Redact.Text.Width

/-! # Text on a screen

What a screen shows of a text: control characters that move the cursor back or ring a bell are left
out, and a tab goes on to the next column that is a multiple of eight. Messages may have tags in
brackets that set the style of a part. Styles are not shown, but a tag that ends a style must have
one to end. -/

namespace Redact.Command

def isSilent (c : Char) : Bool := [0x7, 0x8, 0xB, 0xC, 0xD].contains c.toNat

def tabWidth : Nat := 8

def expandTabs (column : Nat) : List Char → List Char
  | [] => []
  | c :: rest =>
    if c = '\t' then
      let n := tabWidth - column % tabWidth
      List.replicate n ' ' ++ expandTabs (column + n) rest
    else if c = '\n' then c :: expandTabs 0 rest
    else c :: expandTabs (column + Text.width c) rest

def shown (cs : List Char) : List Char := expandTabs 0 (cs.filter (!isSilent ·))

/-- A part of a message: text, or a tag with what stands in its brackets. -/
inductive Piece where
  | text (cs : List Char)
  | tag (cs : List Char)
  deriving DecidableEq, Repr

/-- The tag in front of a text, and what follows it. A tag begins with a lowercase letter, `/`, `#`
or `@`. -/
def tagAt? : List Char → Option (List Char × List Char)
  | '[' :: c :: rest =>
    if ('a' ≤ c ∧ c ≤ 'z') ∨ c = '/' ∨ c = '#' ∨ c = '@' then
      let body := rest.takeWhile fun c => c != ']' && c != '['
      match rest.drop body.length with
      | ']' :: after => some (c :: body, after)
      | _ => none
    else none
  | _ => none

/-- The pieces of a message; every round takes a character or a tag. Two backslashes in front of a
tag are one, and a single one makes text of it; in front of any other bracket one backslash is left
out. -/
def pieceRounds : Nat → List Char → List Piece
  | 0, _ | _, [] => []
  | fuel + 1, c :: rest =>
    let slashes := ((c :: rest).takeWhile (· = '\\')).length
    let behind := (c :: rest).drop slashes
    match tagAt? behind with
    | some (body, after) =>
      .text (List.replicate (slashes / 2) '\\') ::
        (if slashes % 2 = 1 then .text ('[' :: body ++ [']']) else .tag body) :: pieceRounds fuel after
    | none =>
      if slashes = 0 then .text [c] :: pieceRounds fuel rest
      else
        let kept := if behind.head? = some '[' then slashes - 1 else slashes
        .text (List.replicate kept '\\' ++ behind.take 1) :: pieceRounds fuel (behind.drop 1)

def shortStyles : List (String × String) :=
  [("b", "bold"), ("c", "conceal"), ("d", "dim"), ("i", "italic"), ("o", "overline"),
    ("r", "reverse"), ("s", "strike"), ("u", "underline"), ("uu", "underline2")]

def styleName (cs : List Char) : String :=
  let name := Text.lower (String.ofList (Text.trimBoth Text.isBlank cs))
  (shortStyles.lookup name).getD name

/-- The text of pieces, given the styles under way, innermost first; `none` if a tag ends a style
that is not under way. -/
def plainText? (styles : List String) : List Piece → Option (List Char)
  | [] => some []
  | .text cs :: rest => (plainText? styles rest).map (cs ++ ·)
  | .tag body :: rest =>
    let name := body.takeWhile (· != '=')
    match name with
    | '/' :: ended =>
      let ended := styleName ended
      if ended.isEmpty then
        match styles with
        | [] => none
        | _ :: styles => plainText? styles rest
      else if styles.contains ended then plainText? (styles.erase ended) rest
      else none
    | name => plainText? (styleName name :: styles) rest

/-- The lines that are shown for messages; `none` if the tags of a message are not in order. -/
abbrev Markup := String → Option (List Char)

/-- The line that is shown for a message, if its tags are in order. -/
def messageLine? (s : String) : Option (List Char) :=
  let cs := s.toList
  (plainText? [] (pieceRounds (cs.length + 1) cs)).map fun cs => shown cs ++ ['\n']

end Redact.Command
