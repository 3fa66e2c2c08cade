/-
  Corrections: replacement texts for pieces of a source.

  Corrections are queued one by one.  The queue never holds two equal corrections nor two that
  overlap: a correction that is already queued changes nothing, one that overlaps a different one is
  refused and leaves the queue as it was.  The queue is searched in order, and the first entry that
  is equal or overlaps decides.

  A queue is applied from the back of the source to its front, so that the offsets of the pieces
  still to come stay valid.  Among pieces that begin at the same offset the order of the queue
  counts.
-/
import NegationLint.Source

namespace NegationLint

/-- A replacement for a piece of the source. -/
structure Correction where
  span : Span
  replacement : Text
deriving DecidableEq

namespace Correction

/-- The two replace overlapping pieces. -/
def overlaps (c d : Correction) : Bool := c.span.overlaps d.span

/-- The source with this one piece replaced. -/
def splice (source : Text) (c : Correction) : Text :=
  source.take c.span.begin.toNat ++ (c.replacement ++ source.drop c.span.stop.toNat)

end Correction

/-- Corrections in the order in which they were accepted. -/
abbrev CorrectionQueue := List Correction

namespace CorrectionQueue

/-- The message of a refusal. -/
def clobberMessage : Text := "Corrections overlap with different text."

/-- What becomes of a new correction. -/
inductive Verdict
  | known
  | clobbers
  | fresh
deriving DecidableEq

/-- The first queued correction that is equal or overlaps decides. -/
def judge (c : Correction) : CorrectionQueue → Verdict
  | [] => .fresh
  | queued :: rest =>
    if queued = c then .known
    else if queued.overlaps c then .clobbers
    else judge c rest

/-- The queue with a correction taken in; none if it is refused. -/
def replace (queue : CorrectionQueue) (c : Correction) : Option CorrectionQueue :=
  match judge c queue with
  | .known => some queue
  | .clobbers => none
  | .fresh => some (queue ++ [c])

/-- The queue with all of these taken in, in order; none if one is refused. -/
def replaceAll (queue : CorrectionQueue) (cs : List Correction) : Option CorrectionQueue :=
  cs.foldlM replace queue

/-- The queue after a correction has been offered, refused or not: a fresh one is put in, and that is all
    that ever happens to the queue. -/
def offer (queue : CorrectionQueue) (c : Correction) : CorrectionQueue :=
  match judge c queue with
  | .fresh => queue ++ [c]
  | _ => queue

/-- The queue after these have been offered, in order, whatever becomes of each. -/
def offerAll (queue : CorrectionQueue) (cs : List Correction) : CorrectionQueue :=
  cs.foldl offer queue

/-- A correction put in its place among corrections sorted from the last beginning to the first:
    behind all that begin where it begins or later. -/
def insertByBegin (c : Correction) : List Correction → List Correction
  | [] => [c]
  | d :: rest =>
    if d.span.begin < c.span.begin then c :: d :: rest else d :: insertByBegin c rest

/-- The queue from the last beginning to the first, equal beginnings in the order of the queue. -/
def backToFront (queue : CorrectionQueue) : List Correction :=
  queue.foldl (fun sorted c => insertByBegin c sorted) []

/-- The source with every queued correction applied. -/
def apply (queue : CorrectionQueue) (source : Text) : Text :=
  (backToFront queue).foldl Correction.splice source

end CorrectionQueue

end NegationLint
