import Redact.Text.Raw

/-! # Words of a command line

A command line is a list of words: options, with the values that they take, and other words. A long
option has its value behind a `=` or in the next word. Short options of one letter may stand
together in one word; the rest of the word, or the next word, is the value of the first one that
takes a value. Behind the word `--` there are no options. -/

namespace Redact.Command

/-- What can be chosen: its long name, its letter if it has one, and whether it takes a value. -/
structure Choice where
  name : String
  letter : Option Char := none
  takesValue : Bool := false
  deriving DecidableEq, Repr

/-- The choices made by the words of a command line in their order, with the values of those that
take one, and the other words. -/
structure Words where
  chosen : List (String × Option RawText) := []
  others : List RawText := []
  deriving DecidableEq, Repr

/-- A reader of command lines, given what can be chosen and whether there may be options behind the
first other word. It reads nothing if the words cannot be understood. -/
abbrev WordReader := List Choice → Bool → List RawText → Option Words

/-- The choices that one word makes, and the choice that takes the next word as its value. -/
abbrev WordChoices := List (String × Option RawText) × Option String

/-- The choice of a long name, with the value behind a `=`. -/
def longWord? (choices : List Choice) (word : RawText) : Option (Option WordChoices) :=
  let name : RawText := word.takeWhile (· != .char '=')
  let value : Option RawText := match word.dropWhile (· != .char '=') with
    | _ :: rest => some rest
    | [] => none
  (choices.find? (.ofString ·.name == name)).map fun c =>
    match c.takesValue, value with
    | true, some v => some ([(c.name, some v)], none)
    | true, none => some ([], some c.name)
    | false, some _ => none
    | false, none => some ([(c.name, none)], none)

def letters? (choices : List Choice) : RawText → Option WordChoices
  | [] => some ([], none)
  | l :: rest => do
    let c ← choices.find? (·.letter.map Letter.char == some l)
    if c.takesValue then
      if rest.isEmpty then return ([], some c.name) else return ([(c.name, some rest)], none)
    else
      let (chosen, waiting) ← letters? choices rest
      return ((c.name, none) :: chosen, waiting)

def optionWord? (choices : List Choice) (word : RawText) : Option WordChoices :=
  match longWord? choices word with
  | some read => read
  | none => if word.take 2 == RawText.ofString "--" then none else letters? choices (word.drop 1)

def Words.choose (chosen : List (String × Option RawText)) (w : Words) : Words :=
  { w with chosen := chosen ++ w.chosen }

/-- Reads the words of a command line; `none` if there is a choice that is not known, lacks its value
or has one that it does not take. Unless `mixed`, the first word that is no option ends the
options. -/
def Words.read? (choices : List Choice) (mixed : Bool) : List RawText → Option Words
  | [] => some {}
  | word :: rest =>
    if word == .ofString "--" then some { others := rest }
    else if word.head? == some (.char '-') && word != .ofString "-" then
      match optionWord? choices word with
      | none => none
      | some (chosen, none) => (Words.read? choices mixed rest).map (·.choose chosen)
      | some (chosen, some name) =>
        match rest with
        | [] => none
        | value :: rest => (Words.read? choices mixed rest).map (·.choose (chosen ++ [(name, some value)]))
    else if mixed then
      (Words.read? choices mixed rest).map fun w => { w with others := word :: w.others }
    else some { others := word :: rest }

namespace Words

def has (w : Words) (name : String) : Bool := w.chosen.any (·.1 == name)

def value? (w : Words) (name : String) : Option RawText :=
  (w.chosen.reverse.find? (·.1 == name)).bind (·.2)

end Words

end Redact.Command
