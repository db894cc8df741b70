import CodeHighlight.Packages.Descriptor
import CodeHighlight.Text.File
import CodeHighlight.Yaml.Value

/-!
# Directories of descriptors

A directory holds one descriptor a file. The files are read in the order of their names, and a later
file replaces the grammars of earlier ones under the keys they share. The name of a file without its
suffix is the key of a descriptor that declares none. Every file makes a grammar of its own, which
is known by the place of the file.
-/

namespace CodeHighlight.Directory

/-- What is done with a descriptor file: the value in it is read, the value is checked, and the
declared grammar is made. Each of these can fail. -/
structure Tools where
  read : Resource → Except Trace Value
  check : Value → Except Trace Descriptor
  build : Descriptor → Except Trace Grammar

/-- The suffixes of files that hold descriptors. -/
def suffixes : List String := [".yml", ".yaml"]

/-- The name up to its last dot, or the whole of it. -/
def stem (name : String) : String :=
  let parts := Text.cutAt '.' name.toList
  if parts.length ≤ 1 then name else String.ofList (Text.joinWith ['.'] parts.dropLast)

/-- An entry that holds a descriptor. -/
def isDescriptor (entry : String × Resource) : Bool :=
  match entry.2 with
  | .folder => false
  | _ => suffixes.any fun s => entry.1.endsWith s

/-- The entries that hold descriptors, in the order of their names. -/
def descriptors (entries : List (String × Resource)) : List (String × Resource) :=
  (entries.filter isDescriptor).mergeSort fun a b => a.1 ≤ b.1

/-- Failures that make a descriptor invalid: defects of its text and of its values. -/
def isDefect (t : Trace) : Bool := Yaml.isYamlFault t || t.kind.isValue

/-- The failure of an invalid descriptor names its file; other failures stay as they are. -/
def named (name : String) (t : Trace) : Trace :=
  if isDefect t then
    t.raiseFrom (.plain .value ("invalid grammar descriptor '" ++ name ++ "': " ++ t.message))
  else t

namespace Tools

/-- The value in a file. -/
def readYaml : Resource → Except Trace Value
  | .file bytes => do Yaml.read (← Text.ofFile bytes)
  | .data v => .ok v
  | .folder => .ok .null

/-- Files hold YAML, and grammars are made from a supply. -/
def ofSupply (supply : Supply) : Tools where
  read := readYaml
  check := Descriptor.ofValue
  build := Descriptor.build supply

/-- The grammar that a value describes, and its keys. -/
def describe (tools : Tools) (defaultKey : String) (v : Value) : Except Trace Described := do
  let d ← tools.check v
  let g ← tools.build d
  pure ⟨if d.keys.isEmpty then [defaultKey] else d.keys, g⟩

/-- What a file declares. -/
def declare (tools : Tools) (entry : String × Resource) : Except Trace Described :=
  ((tools.read entry.2).bind (tools.describe (stem entry.1))).mapError (named entry.1)

end Tools

/-- Add the grammars of files to those of the files before them; the first file has the given
number. -/
def merge (tools : Tools) (grammars : Entries String Grammar) (serial : Nat) :
    List (String × Resource) → Except Trace (Entries String Grammar)
  | [] => .ok grammars
  | entry :: rest => do
    let d ← tools.declare entry
    merge tools (Entries.update grammars (d.numbered serial).entries) (serial + 1) rest

/-- The grammars that a directory declares. -/
def grammars (tools : Tools) (entries : List (String × Resource)) :
    Except Trace (Entries String Grammar) :=
  merge tools [] 0 (descriptors entries)

end CodeHighlight.Directory
