import CodeHighlight.Failure

/-!
# The state of a command

How much a command says and whether it shows tracebacks. The state belongs to the innermost of the
nested contexts of a command that holds one; outside of a command it is ambient. A look-up that
finds a state, or that makes one because there is none, leaves it as the ambient one.
-/

namespace CodeHighlight.CommandLine

/-- How much a command says, and whether it shows tracebacks. -/
structure State where
  verbosity : Int := 0
  showTracebacks : Bool := false
  deriving DecidableEq, Repr

/-- Apply flags to a state; the verbosity is never negative. -/
def State.withFlags (s : State) (verbosity : Option Int) (debug : Option Bool) : State where
  verbosity := (verbosity.map (max 0)).getD s.verbosity
  showTracebacks := debug.getD s.showTracebacks

/-- The states that are in reach: those of the nested contexts, outermost first, and the ambient
one. -/
structure Surroundings where
  contexts : List (Option State) := []
  ambient : Option State := none

namespace Surroundings

/-- The failure to find a state. -/
def uninitialised : Trace :=
  .plain .runtime "CLI state is not initialised for this context."

/-- The innermost of several contexts that holds a state, with its place. -/
def holder? : List (Option State) → Option (Nat × State)
  | [] => none
  | level :: inner =>
    match holder? inner with
    | some (i, s) => some (i + 1, s)
    | none => level.map fun s => (0, s)

/-- Where the state lies that a look-up finds: in a context, or only in the ambience. -/
def find? (w : Surroundings) : Option (Option Nat × State) :=
  match holder? w.contexts with
  | some (i, s) => some (some i, s)
  | none => w.ambient.map fun s => (none, s)

/-- Put a state into a context and into the ambience. -/
def hold (w : Surroundings) (place : Option Nat) (s : State) : Surroundings where
  contexts := match place with
    | some i => w.contexts.set i (some s)
    | none => w.contexts
  ambient := some s

/-- The place where a new state goes: the innermost context. -/
def innermost (w : Surroundings) : Option Nat :=
  if w.contexts.isEmpty then none else some (w.contexts.length - 1)

/-- The state that is in reach and its place. With `create`, and when no context holds one, the
innermost context gets a new one; outside of a context an ambient one is taken first. -/
def current (w : Surroundings) (create : Bool) :
    Except Trace (Option Nat × State) × Surroundings :=
  match holder? w.contexts, w.ambient with
  | some (i, s), _ => (.ok (some i, s), w.hold (some i) s)
  | none, ambient =>
    if create && !w.contexts.isEmpty then (.ok (w.innermost, {}), w.hold w.innermost {})
    else
      match ambient with
      | some s => (.ok (none, s), w)
      | none =>
        if create then (.ok (none, {}), w.hold none {}) else (.error uninitialised, w)

/-- Apply flags to the state in reach. -/
def setFlags (w : Surroundings) (verbosity : Option Int) (debug : Option Bool) :
    Except Trace (Option Nat × State) × Surroundings :=
  match w.current true with
  | (.ok (place, s), w) =>
    let s := s.withFlags verbosity debug
    (.ok (place, s), w.hold place s)
  | (.error t, w) => (.error t, w)

/-- Forget the ambient state. -/
def reset (w : Surroundings) : Surroundings := { w with ambient := none }

/-- Tracebacks are shown by the state in reach, if there is one. -/
def debugging (w : Surroundings) : Bool :=
  match (w.current false).1 with
  | .ok (_, s) => s.showTracebacks
  | .error _ => false

end Surroundings

end CodeHighlight.CommandLine
