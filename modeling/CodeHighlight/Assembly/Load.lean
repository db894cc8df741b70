import CodeHighlight.Data.Value
import CodeHighlight.Diagnostics
import CodeHighlight.Registry

/-!
# Loads

A loader is asked for a package and delivers after some ticks. What it delivers is either a mapping
of language keys to grammars, or the load fails: because the loader failed, because it delivered
something else, or because the keys of the mapping cannot be put in order. A load that is stopped
before its time ends as stopped, unless the loader answers with a failure of its own.
-/

namespace CodeHighlight

/-- An ordinary failure. -/
abbrev OrdinaryTrace := { t : Trace // t.kind.isOrdinary = true }

/-- What a loader will deliver, and after how many ticks; and the failure with which it answers, if
any, when it is stopped before. -/
structure Delivery where
  ticks : Nat := 0
  result : Except Trace Value
  answer : Option OrdinaryTrace := none

/-- A loader: what it delivers for a package that was asked for so many times before. -/
abbrev Loader := String → Nat → Delivery

/-- A package that was asked for, and what will be delivered. -/
structure Load where
  package : String
  delivery : Delivery

namespace Load

/-- The failure of a package whose loader failed; an interruption stays as it is. -/
def loaderFailure (package : String) (t : Trace) : Trace :=
  if t.kind.isOrdinary then
    t.raiseFrom (.inInitialization package
      ("Failed to load grammar package '" ++ package ++ "': " ++ t.message))
  else t

/-- The failure of a package that delivered something other than a mapping. -/
def noMapping (package : String) : Trace :=
  .ofFailure (.inInitialization package
    ("Grammar package '" ++ package ++ "' did not provide a mapping of grammars"))

/-- The grammars of a mapping. -/
def registryOf (entries : Entries Key Value) : Registry := Entries.mapValues Value.toGrammar entries

/-- What a finished load gives: the grammars and the event that reports them, or its failure. -/
def outcome (l : Load) : Except Trace (Registry × Event) :=
  match l.delivery.result with
  | .error t => .error (loaderFailure l.package t)
  | .ok (.map entries) => do
    let keys ← Key.sort (Entries.keys entries)
    pure (registryOf entries, .packageLoaded l.package keys)
  | .ok _ => .error (noMapping l.package)

/-- The loads for packages in listed order; `asked` are the packages asked for before. -/
def askAll (loader : Loader) (asked : List String) : List String → List Load
  | [] => []
  | p :: rest => ⟨p, loader p (asked.count p)⟩ :: askAll loader (asked ++ [p]) rest

/-- The greatest number of ticks of several loads. -/
def longest (loads : List Load) : Nat := loads.foldl (fun n l => max n l.delivery.ticks) 0

/-- The events of the loads that succeed, in order. -/
def events (loads : List Load) : List Event :=
  loads.filterMap fun l =>
    match l.outcome with
    | .ok (_, e) => some e
    | .error _ => none

/-- The failure of the first load that fails. -/
def firstFailure? (loads : List Load) : Option Trace :=
  loads.findSome? fun l =>
    match l.outcome with
    | .ok _ => none
    | .error t => some t

/-- What a load fails with that is stopped, if it does not simply end. -/
def answer? (l : Load) : Option Trace :=
  l.delivery.answer.map fun t => loaderFailure l.package t.val

/-- What is left to fail with when several loads are stopped: the first of them decides. -/
def stopped? (loads : List Load) : Option Trace := loads.head?.bind answer?

/-- The grammars of all loads in order, the failed ones left out. -/
def registries (loads : List Load) : List Registry :=
  loads.filterMap fun l =>
    match l.outcome with
    | .ok (r, _) => some r
    | .error _ => none

end Load

end CodeHighlight
