/-! # Faults of grammar sources

What can go wrong when a grammar is loaded. Kinds of faults form a hierarchy; a fault of one of five
kinds, or of a kind below them, is tolerated: the grammar counts as not available. -/

namespace Redact

/-- A kind of fault. A kind that is not named here counts as the nearest one that it is below;
`otherwise` is any kind outside the hierarchy, by its name. -/
inductive FaultKind where
  | missingImport
  | missingModule
  | system
  | missingFile
  | permission
  | badValue
  | badUnicode
  | badType
  | badAttribute
  | runtime
  | notImplemented
  | recursion
  | lookup
  | badKey
  | badIndex
  | otherwise (name : String)
  deriving DecidableEq, Repr

namespace FaultKind

def parent? : FaultKind → Option FaultKind
  | missingModule => some missingImport
  | missingFile | permission => some system
  | badUnicode => some badValue
  | notImplemented | recursion => some runtime
  | badKey | badIndex => some lookup
  | _ => none

def tolerated : List FaultKind := [missingImport, system, badValue, badType, badAttribute]

def isTolerated (k : FaultKind) : Bool :=
  tolerated.contains k || k.parent?.any tolerated.contains

end FaultKind

structure Fault where
  kind : FaultKind
  message : String
  deriving DecidableEq, Repr

end Redact
