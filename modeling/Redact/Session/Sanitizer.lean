import Redact.Secret.Search
import Redact.Session.Engine
import Redact.Session.Parser
import Redact.Session.Registry
import Redact.Splice

/-! # Sanitizers

A sanitizer redacts sources under its settings and counts what it redacted. It works with the engine
and the registry of the process unless it has its own; an engine that it has once got it keeps. A
source that cannot be parsed, or whose language is not known, is returned as it is. What is parsed and
put together are bytes, so a source or a replacement that cannot be encoded ends the call. -/

namespace Redact

/-- What all sanitizers of a process share: the engines, the grammars, the parser, and the grammar that
is set in the engine of each number. -/
structure Environment (G : Type) where
  host : Host := {}
  registry : Registry G
  parser : Parser G
  active : Nat → Option G := fun _ => none

/-- The engine that a sanitizer holds: one of the process, or one of its own whose parser is
given, with the grammar that is set in it. -/
inductive Engine (G : Type) where
  | shared (number : Nat)
  | own (parser : Parser G) (active : Option G)

/-- Parses with an engine: what comes of it, and the engine and the process afterwards. -/
def Environment.parse {G : Type} (p : Environment G) (engine : Engine G) (grammar : G)
    (source : List UInt8) : Parsed × Engine G × Environment G :=
  match engine with
  | .shared n =>
    let (parsed, set) := p.parser.parse (p.active n) grammar source
    (parsed, .shared n, { p with active := fun m => if m = n then set else p.active m })
  | .own parser active =>
    let (parsed, set) := parser.parse active grammar source
    (parsed, .own parser set, p)

/-- How often each rule was applied, by the first time that it was. -/
abbrev Counts := List (Rule × Nat)

def Counts.add (rule : Rule) : Counts → Counts
  | [] => [(rule, 1)]
  | (r, n) :: rest => if r = rule then (r, n + 1) :: rest else (r, n) :: Counts.add rule rest

/-- A sanitizer: its settings, its own registry if it has one, the engine it holds, its counts. -/
structure Sanitizer (G : Type) where
  settings : Settings := {}
  registry : Option (Registry G) := none
  engine : Option (Engine G) := none
  counts : Counts := []

inductive Failure where
  | unavailable (e : Unavailable)
  | load (fault : Fault)
  | badGrammar
  | unencodable
  | badSpan (e : Splice.BadSpan)
  | brokenText
  deriving DecidableEq, Repr

namespace Sanitizer

variable {G : Type}

/-- The counts in descending order, equal ones by the first time. -/
def stats (s : Sanitizer G) : Counts := s.counts.mergeSort fun a b => b.2 ≤ a.2

def resetStats (s : Sanitizer G) : Sanitizer G := { s with counts := [] }

def spliceText (source : List UInt8) (edits : List Edit) : Except Failure RawText :=
  match Splice.apply source edits with
  | .error (.badSpan e) => .error (.badSpan e)
  | .error .unencodable => .error .unencodable
  | .ok bytes =>
    match Text.Utf8.decode? bytes with
    | none => .error .brokenText
    | some cs => .ok (.ofList cs)

def redactTree (s : Sanitizer G) (shape : Shape) (code : RawText) (source : List UInt8) (root : Node) :
    Except Failure RawText × Sanitizer G :=
  let edits := Secret.plan shape s.settings source root
  if edits.isEmpty then (.ok code, s)
  else
    (spliceText source edits, { s with counts := edits.foldl (fun c e => Counts.add e.rule c) s.counts })

/-- Redacts a text of which the parser made this of its bytes. -/
def redactParsed (s : Sanitizer G) (parsed : Parsed) (language : String) (code : RawText)
    (source : List UInt8) : Except Failure RawText × Sanitizer G :=
  match parsed with
  | .badGrammar => (.error .badGrammar, s)
  | .nothing => (.ok code, s)
  | .tree root =>
    match Language.ofName? language with
    | none => (.ok code, s)
    | some l => s.redactTree (Shape.ofLanguage l) code source root

/-- The sanitizer with an engine, which is the one of the process if it holds none. -/
def withEngine (s : Sanitizer G) (p : Environment G) :
    Except Unavailable (Engine G) × Sanitizer G × Environment G :=
  match s.engine with
  | some e => (.ok e, s, p)
  | none =>
    match p.host.obtain with
    | (.error e, host) => (.error e, s, { p with host })
    | (.ok n, host) => (.ok (.shared n), { s with engine := some (.shared n) }, { p with host })

/-- The grammar of a language from the registry of the sanitizer or of the process. -/
def grammar (s : Sanitizer G) (p : Environment G) (language : String) :
    Registry.Outcome G × Sanitizer G × Environment G × List String :=
  match s.registry with
  | some r =>
    let (outcome, r, warnings) := r.resolve language
    (outcome, { s with registry := some r }, p, warnings)
  | none =>
    let (outcome, r, warnings) := p.registry.resolve language
    (outcome, s, { p with registry := r }, warnings)

/-- What one call brings: the text or a failure, the sanitizer and the process after it, and
warnings. -/
structure Reply (G : Type) where
  outcome : Except Failure RawText
  sanitizer : Sanitizer G
  environment : Environment G
  warnings : List String := []

def sanitize (s : Sanitizer G) (p : Environment G) (code : RawText) (language : String) : Reply G :=
  if !s.settings.enabled then ⟨.ok code, s, p, []⟩
  else
    match s.withEngine p with
    | (.error e, s, p) => ⟨.error (.unavailable e), s, p, []⟩
    | (.ok engine, s, p) =>
      match s.grammar p language with
      | (.error fault, s, p, warnings) => ⟨.error (.load fault), s, p, warnings⟩
      | (.ok none, s, p, warnings) => ⟨.ok code, s, p, warnings⟩
      | (.ok (some g), s, p, warnings) =>
        match code.encode? with
        | none => ⟨.error .unencodable, s, p, warnings⟩
        | some source =>
          let (parsed, engine, p) := p.parse engine g source
          let (outcome, s) := s.redactParsed parsed language code source
          ⟨outcome, { s with engine := some engine }, p, warnings⟩

end Sanitizer

end Redact
