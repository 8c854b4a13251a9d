import Redact.Text.Lower
import Redact.Text.Search

/-! # Paths

A path is a root, if it is absolute, and names. Empty names and points count for nothing, so that
`a//b/.` and `a/b` are one path; two points stay, since what they lead to depends on the files that
are there. -/

namespace Redact

/-- A path: the slashes of its root (none, one or two) and the names on the way. -/
structure Path where
  root : String := ""
  names : List String
  deriving DecidableEq, Repr

namespace Path

def slashParts (s : String) : List String :=
  (Text.splitAt '/' s.toList).map String.ofList

/-- The path of a text. Two slashes in front are a root of their own, three or more count as one. -/
def ofText (s : String) : Path where
  root :=
    let slashes := (s.toList.takeWhile (· = '/')).length
    if slashes = 0 then "" else if slashes = 2 then "//" else "/"
  names := (slashParts s).filter fun n => n != "" && n != "."

def toText (p : Path) : String :=
  if p.root.isEmpty && p.names.isEmpty then "." else p.root ++ "/".intercalate p.names

def name (p : Path) : String := p.names.getLast?.getD ""

/-- The last point of a name and what follows it, if there are characters on both of its sides. -/
def suffixOf (name : List Char) : List Char :=
  let tail := name.reverse.takeWhile (· != '.')
  if tail.isEmpty || name.length ≤ tail.length + 1 then []
  else '.' :: tail.reverse

def suffix (p : Path) : String :=
  Text.lower (String.ofList (suffixOf p.name.toList))

end Path

end Redact
