import RulerCompass.Ghost.Basic
import RulerCompass.Ledger.Basic
import RulerCompass.Scene

/-!
# Histories

A history is the stack of snapshots of a session, the oldest first; each is taken before its step is
committed.  Undoing and rewinding cut the stack and keep at least the first snapshot.  The ledger of
a restored snapshot is built anew from its facts.
-/

namespace RulerCompass

/-- What a session was before the step `stepIndex`. -/
structure Snapshot (K : Type) where
  scene : Scene K
  facts : List Fact
  ghosts : List (GhostLayer K)
  stepIndex : Int

/-- The ledger that belongs to a snapshot. -/
def Snapshot.ledger {K : Type} (s : Snapshot K) : Ledger := Ledger.ofFacts s.facts

/-- The snapshots, the oldest first. -/
abbrev History (K : Type) := List (Snapshot K)

namespace History

variable {K : Type}

/-- Takes a new snapshot. -/
def push (h : History K) (s : Snapshot K) : History K := h ++ [s]

/-- The first `count` snapshots, at least one, with the last of them; `fault` if there are none. -/
def cut (h : History K) (count : Nat) (fault : Fault) : Except Fault (History K × Snapshot K) :=
  let kept : History K := h.take (max 1 count)
  match kept.getLast? with
  | some s => .ok (kept, s)
  | none => .error fault

/-- Drops the newest snapshot, but never the first one. -/
def undo (h : History K) : Except Fault (History K × Snapshot K) :=
  h.cut (h.length - 1) .nothingToUndo

/-- Goes back to the snapshot taken before a step; steps beyond the ends mean the ends. -/
def rewind (h : History K) (step : Int) : Except Fault (History K × Snapshot K) :=
  h.cut (step + 1).toNat .nothingToRewind

end History

end RulerCompass
