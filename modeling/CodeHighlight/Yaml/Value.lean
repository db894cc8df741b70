import CodeHighlight.Data.Value
import CodeHighlight.Yaml.Number

/-!
# Values of YAML

The value of a tree. A mapping can merge the entries of others, which then stand in front of its
own. Of equal keys the first spelling and the last value count, and a key must be a scalar.

The values of a tree are made level by level, so that of several failures the outermost decides, and
of those on one level the first.
-/

namespace CodeHighlight.Yaml

/-- A value with the failures on the way to it, each with its level. -/
structure Built where
  value : Value := .null
  faults : List (Nat × Trace) := []

namespace Built

/-- A failure in place of a value. -/
def failed (level : Nat) (t : Trace) : Built := ⟨.null, [(level, t)]⟩

/-- The failure of a node whose tag does not fit. -/
def misfit (level : Nat) : Built := failed level (fault "ConstructorError")

/-- The failure of the lowest level, the first of several. -/
def firstFault (faults : List (Nat × Trace)) : Option Trace :=
  (faults.mergeSort fun a b => a.1 ≤ b.1).head?.map Prod.snd

/-- The value, or the failure that decides. -/
def result (b : Built) : Except Trace Value :=
  match firstFault b.faults with
  | some t => .error t
  | none => .ok b.value

end Built

/-- The entries of a mapping: those merged into it, its own, and the failures of merging. -/
structure BuiltEntries where
  merged : List (Built × Built) := []
  own : List (Built × Built) := []
  faults : List (Nat × Trace) := []

namespace BuiltEntries

/-- All entries in order. -/
def all (es : BuiltEntries) : List (Built × Built) := es.merged ++ es.own

/-- The faults of an entry: its key's, that of a key that is no scalar, and its value's. -/
def entryFaults (level : Nat) (e : Built × Built) : List (Nat × Trace) :=
  let unusable := match e.1.value with
    | .scalar _ => []
    | _ => [(level, fault "ConstructorError")]
  e.1.faults ++ unusable ++ e.2.faults

/-- The mapping of the entries. -/
def toBuilt (level : Nat) (es : BuiltEntries) : Built where
  value := .map (Entries.ofList (es.all.filterMap fun e =>
    match e.1.value with
    | .scalar k => some (k, e.2.value)
    | _ => none))
  faults := es.faults ++ es.all.flatMap (entryFaults level)

end BuiltEntries

/-- The value of a scalar. -/
def buildScalar (level : Nat) (tag text : String) : Built :=
  match scalarOf tag text with
  | some (.ok k) => { value := .scalar k }
  | some (.error t) => .failed level t
  | none =>
    if tag = standardTag "seq" || tag = standardTag "map" then .misfit (level + 1)
    else .misfit level

mutual

/-- The value of a node on a level. -/
def build (level : Nat) : Node → Built
  | .scalar tag text => buildScalar level tag text
  | .sequence tag items =>
    if tag = standardTag "seq" then
      let built := buildAll (level + 1) items
      { value := .list (built.map (·.value)), faults := built.flatMap (·.faults) }
    else if tag = standardTag "map" then .misfit (level + 1)
    else .misfit level
  | .mapping tag entries =>
    if tag = standardTag "map" then (buildEntries (level + 1) entries).toBuilt (level + 1)
    else if tag = standardTag "seq" then .misfit (level + 1)
    else .misfit level

/-- The values of nodes on a level. -/
def buildAll (level : Nat) : List Node → List Built
  | [] => []
  | n :: rest => build level n :: buildAll level rest

/-- The entries of a mapping on a level. -/
def buildEntries (level : Nat) : List (Node × Node) → BuiltEntries
  | [] => {}
  | (k, v) :: rest =>
    let es := buildEntries level rest
    if k.tag = standardTag "merge" then
      match merge level v with
      | .ok entries => { es with merged := entries ++ es.merged }
      | .error t => { es with faults := (level, t) :: es.faults }
    else
      let key := match k with
        | .scalar tag text =>
          buildScalar level (if tag = standardTag "value" then standardTag "str" else tag) text
        | k => build level k
      { es with own := (key, build level v) :: es.own }

/-- The entries that a node merges into a mapping: those of a mapping, or of several in a sequence,
the last ones first. -/
def merge (level : Nat) : Node → Except Trace (List (Built × Built))
  | .mapping _ entries =>
    let es := buildEntries level entries
    match es.faults with
    | (_, t) :: _ => .error t
    | [] => .ok es.all
  | .sequence _ items => mergeAll level items
  | .scalar _ _ => .error (fault "ConstructorError")

/-- The entries that the items of a sequence merge into a mapping, the last items first. -/
def mergeAll (level : Nat) : List Node → Except Trace (List (Built × Built))
  | [] => .ok []
  | .mapping _ entries :: rest =>
    let es := buildEntries level entries
    match es.faults, mergeAll level rest with
    | (_, t) :: _, _ => .error t
    | [], .error t => .error t
    | [], .ok more => .ok (more ++ es.all)
  | _ :: _ => .error (fault "ConstructorError")

end

/-- The value of a text; a text without a document has the value null. -/
def read (text : String) : Except Trace Value := do
  match ← Node.ofText text with
  | some n => (build 0 n).result
  | none => pure .null

/-- The failures of texts that are no YAML; other failures are of values that are written well. -/
def isYamlFault (t : Trace) : Bool :=
  match t.kind with
  | .yaml _ => true
  | _ => false

end CodeHighlight.Yaml
