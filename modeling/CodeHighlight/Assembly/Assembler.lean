import CodeHighlight.Assembly.Load
import CodeHighlight.Config

/-!
# The assembler of the registry

An assembler builds the registry of a run once and shares it with all requests. The first request
that begins starts a build, and later ones wait for the same build. The packages are loaded side by
side; the first failure decides. A registry or a failure that was published is kept for ever.

Time passes in turns of a loop. A build is `scheduled`, then `loading`, then `settled` for one turn
in which its result is known and nothing is published yet, and then it is over. When a load fails
while others go on, the build is `failing` for one turn before it is `settled`: the others are still
to be stopped.

A build that is cancelled, or whose loop is left, is stopped: it publishes nothing, and the next
request starts over. But stopping only reaches the loads that go on. When a load has failed already,
or when the first that is stopped answers with a failure, this failure is still published
(`Stage.late?`): late, after a cancelled build is forgotten, or before its loop is left. Closing a
loop stops nothing; all that is in it comes to a standstill.

Failures that do not concern a package are not kept: they are given to the requests that wait for
the build and to later ones, until the build is cancelled.
-/

namespace CodeHighlight

/-- How far a build is. -/
inductive Stage where
  | scheduled
  | loading (elapsed : Nat) (loads : List Load)
  | failing (t : Trace)
  | settled (result : Except Trace (List Registry))

/-- The failure that a build publishes although it is stopped at a stage. -/
def Stage.late? : Stage → Option Trace
  | .failing t => some t
  | .loading elapsed loads => Load.stopped? (loads.filter fun l => elapsed < l.delivery.ticks)
  | .scheduled | .settled _ => none

/-- What a request ends with. A registry or a failure comes with the number of its build. -/
inductive Outcome where
  | registry (build : Nat) (r : Registry)
  | failure (build : Nat) (t : Trace)
  | cancelled

/-- A request in the current loop: it has not begun, waits for a build, or has ended. -/
inductive Request where
  | scheduled
  | waiting (build : Nat)
  | ended (o : Outcome)

/-- The request has not ended. -/
def Request.isOpen : Request → Bool
  | .ended _ => false
  | _ => true

/-- The outcome of a request that has ended. -/
def Request.outcome? : Request → Option Outcome
  | .ended o => some o
  | _ => none

/-- The build that an assembler remembers: none, one under way, one that its loop left behind, or
one that ended with a failure that is not kept. -/
inductive Task where
  | none
  | running (build : Nat) (stage : Stage)
  | abandoned
  | broken (build : Nat) (t : Trace)

/-- An assembler. The failure of a cancelled build that is on its way is `late`. -/
structure Assembler where
  config : Config
  loader : Loader
  registry : Option (Nat × Registry) := Option.none
  error : Option (Nat × Trace) := Option.none
  task : Task := .none
  late : Option (Nat × Trace) := Option.none
  requests : List Request := []
  builds : Nat := 0
  asked : List String := []
  log : List Event := []

namespace Assembler

/-- A registry or a failure has been published. -/
def done (a : Assembler) : Bool := a.registry.isSome || a.error.isSome

/-- A build is remembered. -/
def started (a : Assembler) : Bool :=
  match a.task with
  | .none => a.done
  | _ => true

/-- A new request; it begins in the next turn. -/
def request (a : Assembler) : Assembler := { a with requests := a.requests ++ [.scheduled] }

/-- A request that begins, in the light of what is published and remembered. -/
def begun (a : Assembler) : Request :=
  match a.registry, a.error, a.task with
  | some (n, r), _, _ => .ended (.registry n r)
  | _, some (n, t), _ => .ended (.failure n t)
  | _, _, .broken n t => .ended (.failure n t)
  | _, _, .running n _ => .waiting n
  | _, _, _ => .scheduled

/-- A build is needed: nothing is published and no build is there to wait for. -/
def needsBuild (a : Assembler) : Bool :=
  !a.done &&
    match a.task with
    | .none | .abandoned => true
    | .running _ _ | .broken _ _ => false

/-- A request is scheduled. -/
def hasScheduled (a : Assembler) : Bool :=
  a.requests.any fun r =>
    match r with
    | .scheduled => true
    | _ => false

/-- Let the scheduled requests begin; the first of them starts a build when one is needed. -/
def beginRequests (a : Assembler) : Assembler :=
  if a.hasScheduled then
    let a := if a.needsBuild then
        { a with task := .running a.builds .scheduled, builds := a.builds + 1 }
      else a
    let begun := a.begun
    { a with requests := a.requests.map fun r =>
        match r with
        | .scheduled => begun
        | r => r }
  else a

/-- Give an outcome to all requests that wait for a build. -/
def answerAll (a : Assembler) (build : Nat) (o : Outcome) : Assembler :=
  { a with requests := a.requests.map fun r =>
      match r with
      | .waiting n => if n = build then .ended o else .waiting n
      | r => r }

/-- Publish the result of a build that was not cancelled. A failure of a package is kept, others are
only remembered. -/
def publish (a : Assembler) (build : Nat) : Except Trace (List Registry) → Assembler
  | .error t =>
    let a := if t.kind = .initialization then
        { a with error := some (build, t), task := .none }
      else { a with task := .broken build t }
    a.answerAll build (.failure build t)
  | .ok loaded =>
    let r := Registry.build a.config.explicit loaded a.config.precedence
    let a := { a with registry := some (build, r), task := .none }
    match Registry.languages r with
    | .ok keys =>
      { a with log := a.log ++ [Event.registryReady keys] }.answerAll build
        (.registry build r)
    | .error t => a.answerAll build (.failure build t)

/-- Publish the failure that is on its way, if any. -/
def publishLate (a : Assembler) : Assembler :=
  match a.late with
  | none => a
  | some (build, t) =>
    let a := if t.kind = .initialization then { a with error := some (build, t) } else a
    { a with late := none }.answerAll build (.failure build t)

/-- Finish the loads that take exactly `elapsed` ticks. -/
def finishLoads (a : Assembler) (build elapsed : Nat) (loads : List Load) : Assembler :=
  let finishing := loads.filter fun l => l.delivery.ticks == elapsed
  let finished := loads.all fun l => l.delivery.ticks ≤ elapsed
  let stage := match Load.firstFailure? finishing with
    | some t => if finished then Stage.settled (.error t) else .failing t
    | none => if finished then .settled (.ok (Load.registries loads)) else .loading elapsed loads
  { a with log := a.log ++ Load.events finishing, task := .running build stage }

/-- Let a build go on for one turn. -/
def advance (a : Assembler) (build : Nat) : Stage → Assembler
  | .scheduled =>
    if a.config.packages.isEmpty then a.publish build (.ok [])
    else
      let loads := Load.askAll a.loader a.asked a.config.packages
      { a with asked := a.asked ++ a.config.packages }.finishLoads build 0 loads
  | .loading elapsed loads => a.finishLoads build (elapsed + 1) loads
  | .failing t => { a with task := .running build (.settled (.error t)) }
  | .settled result => a.publish build result

/-- One turn of the loop: scheduled requests begin, a failure that is on its way is published, and a
build that was there before goes on. -/
def turn (a : Assembler) : Assembler :=
  let before := a.task
  let a := a.beginRequests.publishLate
  match before with
  | .running build stage => a.advance build stage
  | _ => a

/-- Cancel the request with the given index, unless it has ended. -/
def cancelRequest (a : Assembler) (i : Nat) : Assembler :=
  { a with requests := a.requests.modify i fun r =>
      if r.isOpen then .ended .cancelled else r }

/-- Abandon a build under way: it is stopped and forgotten, and the next request starts over. Its
requests are cancelled unless a failure is on its way to them. -/
def cancel (a : Assembler) : Assembler :=
  match a.task with
  | .running build stage =>
    match stage.late? with
    | some t => { a with task := .none, late := some (build, t) }
    | none => { a with task := .none }.answerAll build .cancelled
  | _ => { a with task := .none }

/-- Leave the loop: all that is in it is stopped and comes to its end, and its requests are gone. A
build under way is left behind, unless it publishes a failure. -/
def leaveLoop (a : Assembler) : Assembler :=
  let ended :=
    match a.task with
    | .running build stage =>
      match stage.late? with
      | some t => a.publish build (.error t)
      | none => { a with task := .abandoned }
    | _ => a.publishLate
  { ended with requests := [], late := none }

/-- Close the loop: nothing in it goes on, and a build under way is left behind. -/
def closeLoop (a : Assembler) : Assembler :=
  { a with
    requests := []
    late := none
    task := match a.task with
      | .running _ _ => .abandoned
      | t => t }

end Assembler

end CodeHighlight
