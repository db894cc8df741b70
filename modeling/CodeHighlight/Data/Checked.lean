import CodeHighlight.Data.Value

/-!
# Checked fields

Reading a record from a mapping reports every fault, not only the first. A `Checked` value is a
value together with the faults found on the way to it; with faults the value is a placeholder.

A fault has a place: the name of the field, then the index of the item or the key inside it.
-/

namespace CodeHighlight

/-- What is wrong with a field. Faults of `own` rules are told apart from those of form. -/
structure FieldFault where
  place : List String
  message : String
  own : Bool := false
  deriving DecidableEq, Repr

namespace FieldFault

/-- The place and the message, without the place when there is none. -/
def located (f : FieldFault) (message : String) : String :=
  let place := ".".intercalate f.place
  if place.isEmpty then message else place ++ ": " ++ message

/-- A fault for users. -/
def text (f : FieldFault) : String := f.located f.message

/-- A fault with a mark on those of own rules. -/
def markedText (f : FieldFault) : String :=
  f.located (if f.own then "Value error, " ++ f.message else f.message)

/-- Several faults for users. -/
def texts (fs : List FieldFault) : String := "; ".intercalate (fs.map text)

/-- Several faults with marks. -/
def markedTexts (fs : List FieldFault) : String := "; ".intercalate (fs.map markedText)

end FieldFault

/-- A value and the faults found on the way to it. -/
structure Checked (α : Type) where
  value : α
  faults : List FieldFault := []

namespace Checked
variable {α β : Type}

instance : Monad Checked where
  pure a := ⟨a, []⟩
  bind c f := ⟨(f c.value).value, c.faults ++ (f c.value).faults⟩

/-- A placeholder with one fault. -/
def fault (placeholder : α) (place : List String) (message : String) : Checked α :=
  ⟨placeholder, [{ place, message }]⟩

/-- Apply a rule to a value without faults; the rule gives its message when it is broken. -/
def obeys (c : Checked α) (place : List String) (rule : α → Option String) : Checked α :=
  if c.faults.isEmpty then
    match rule c.value with
    | some message => ⟨c.value, [{ place, message, own := true }]⟩
    | none => c
  else c

/-- The value, or all faults. -/
def result (c : Checked α) : Except (List FieldFault) α :=
  if c.faults.isEmpty then .ok c.value else .error c.faults

/-- A field of a mapping, or a default when it is missing. -/
def field (entries : Entries Key Value) (name : String) (default : α)
    (check : List String → Value → Checked α) : Checked α :=
  match Entries.get? entries (.str name) with
  | some v => check [name] v
  | none => pure default

/-- A field that must be present, with a placeholder for when it is not. -/
def required (entries : Entries Key Value) (name : String) (placeholder : α)
    (check : List String → Value → Checked α) : Checked α :=
  match Entries.get? entries (.str name) with
  | some v => check [name] v
  | none => fault placeholder [name] "Field required"

/-- A string; bytes that are well-formed text count as one. -/
def string (place : List String) (v : Value) : Checked String :=
  match v with
  | .scalar (.str s) => pure s
  | .scalar (.bytes bs) =>
    match Text.Utf8.decode bs with
    | .ok s => pure s
    | .error _ => fault "" place
        "Input should be a valid string, unable to parse raw data as a unicode string"
  | _ => fault "" place "Input should be a valid string"

/-- A string, or nothing. -/
def stringOrNull (place : List String) (v : Value) : Checked (Option String) :=
  if v.isNull then pure none else do
    let s ← string place v
    pure (some s)

/-- One of some names. -/
def choice (options : List (String × α)) (default : α) (place : List String) (v : Value) :
    Checked α :=
  match v.str?.bind fun s => options.lookup s with
  | some a => pure a
  | none =>
    let names := options.map fun o => "'" ++ o.1 ++ "'"
    fault default place ("Input should be " ++ " or ".intercalate names)

/-- Items that are strings, the first of which has the index `i`. -/
def stringItems (place : List String) (i : Nat) : List Value → Checked (List String)
  | [] => pure []
  | v :: rest => do
    let s ← string (place ++ [toString i]) v
    let more ← stringItems place (i + 1) rest
    pure (s :: more)

/-- A list of strings, `kind` being what a list is called. -/
def strings (kind : String) (place : List String) (v : Value) : Checked (List String) :=
  match v with
  | .list items | .tuple items => stringItems place 0 items
  | _ => fault [] place ("Input should be a valid " ++ kind)

/-- A key as part of a place: truth values are shown as numbers. -/
def keyPlace : Key → String
  | .bool b => if b then "1" else "0"
  | .str s => s
  | k => k.literal

/-- A key of an inner mapping. -/
def key (place : List String) (k : Key) : Checked String :=
  string (place ++ [keyPlace k, "[key]"]) (.scalar k)

/-- Entries of an inner mapping; of keys that are the same as strings the last value counts. -/
def entries (place : List String) (v : Value) : Checked (Entries String Value) :=
  match v with
  | .map es => do
    let pairs ← es.mapM fun e => do
      let k ← key place e.1
      pure (k, e.2)
    pure (Entries.ofList pairs)
  | _ => fault [] place "Input should be a valid dictionary"

/-- The keys that are none of the known fields. -/
def unknownKeys (known : List String) (es : Entries Key Value) : List FieldFault :=
  es.filterMap fun e =>
    match e.1 with
    | .str s =>
      if known.contains s then none
      else some { place := [s], message := "Extra inputs are not permitted" }
    | k => some { place := [keyPlace k], message := "Keys should be strings" }

end Checked

end CodeHighlight
