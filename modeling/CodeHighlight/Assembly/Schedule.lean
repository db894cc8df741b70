import CodeHighlight.Assembly.Assembler

/-!
# Schedules

What hosts do with an assembler, step by step. Every step but `status` and `cancel` runs in a loop
of its own, which it leaves or closes at its end; the loop makes one more turn before that. A phase
names a moment of a request: before it begins, while packages are loading, and when its build is
over.
-/

namespace CodeHighlight

/-- A moment of a request. -/
inductive Phase where
  | before
  | loading
  | finished
  deriving DecidableEq, Repr

namespace Assembler

/-- The number of turns in which everything that is under way comes to its end. -/
def turnsLeft (a : Assembler) : Nat :=
  match a.task with
  | .running _ .scheduled => Load.longest (Load.askAll a.loader a.asked a.config.packages) + 3
  | .running _ (.loading elapsed loads) => Load.longest loads - elapsed + 2
  | .running _ (.failing _) => 3
  | .running _ (.settled _) => 2
  | _ => Load.longest (Load.askAll a.loader a.asked a.config.packages) + 4

/-- Turns until a condition holds, but not more than given. -/
def turnsUntil (stop : Assembler → Bool) : Nat → Assembler → Assembler
  | 0, a => a
  | n + 1, a => if stop a then a else turnsUntil stop n a.turn

/-- No request is open. -/
def isIdle (a : Assembler) : Bool := a.requests.all fun r => !r.isOpen

/-- Turns until all requests have ended, and two more until the host has seen it. -/
def finish (a : Assembler) : Assembler := (turnsUntil isIdle a.turnsLeft a).turn.turn

/-- Turns until a phase is reached. A host takes packages to be loading after four turns: in the
second all of them have been asked for. -/
def reach (a : Assembler) : Phase → Assembler
  | .before => a
  | .loading => a.turn.turn.turn.turn
  | .finished => a.finish

/-- Several new requests. -/
def requestMany (a : Assembler) : Nat → Assembler
  | 0 => a
  | n + 1 => a.request.requestMany n

/-- The outcomes of the requests; one that has none is cancelled with its loop. -/
def outcomes (a : Assembler) : List Outcome :=
  a.requests.map fun r => r.outcome?.getD .cancelled

end Assembler

/-- Something that a host does. -/
inductive HostStep where
  | status
  | cancel
  | get (n : Nat)
  | getThenCancel (phase : Phase) (again : Bool)
  | cancelOne (n which : Nat) (phase : Phase)
  | abandon (phase : Phase)
  | close (phase : Phase)

/-- What a host sees of a step: the outcomes of its requests and, where it looks, whether a build
is remembered. -/
structure Sight where
  outcomes : List Outcome := []
  started : Option Bool := none

namespace Assembler

/-- Do one step. -/
def perform (a : Assembler) : HostStep → Sight × Assembler
  | .status => ({}, a)
  | .cancel => ({}, a.cancel)
  | .get n =>
    let a := (a.requestMany n).finish
    (⟨a.outcomes, none⟩, a.turn.leaveLoop)
  | .getThenCancel phase again =>
    let a := (a.request.reach phase).cancel
    let started := a.started
    let a := a.finish
    let a := if again then a.request.finish else a
    (⟨a.outcomes, some started⟩, a.turn.leaveLoop)
  | .cancelOne n which phase =>
    let a := (((a.requestMany n).reach phase).cancelRequest which).finish
    (⟨a.outcomes, none⟩, a.turn.leaveLoop)
  | .abandon phase =>
    let a := a.request.reach phase
    (⟨[], some a.started⟩, a.turn.leaveLoop)
  | .close phase =>
    let a := a.request.reach phase
    (⟨[], some a.started⟩, a.turn.closeLoop)

/-- Do several steps. -/
def performAll (a : Assembler) : List HostStep → List Sight × Assembler
  | [] => ([], a)
  | s :: rest =>
    let (sight, a) := a.perform s
    let (sights, a) := a.performAll rest
    (sight :: sights, a)

end Assembler

end CodeHighlight
