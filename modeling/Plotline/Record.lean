import Plotline.Data.Basic
import Plotline.Number.Decimal
import Plotline.Text.Utf8

/-!
# Records from untyped data

* `Fault`: what can be wrong with a field.
* `Checked`: a value, or every fault that stands in its way.
* `Checked.with`: puts two checked values together and keeps the faults of both.
* `Record.field`: a field of a map, read in a given way.
-/

namespace Plotline

/-- What can be wrong with a field. -/
inductive Fault where
  | missing
  | notText
  | unreadableText
  | emptyText
  | notNumber
  | unreadableNumber
  | notWhole
  | notTruth
  | notChoice
  | notRecord
deriving DecidableEq, Repr

namespace Fault

def code : Fault → String
  | missing => "missing"
  | notText => "string_type"
  | unreadableText => "string_unicode"
  | emptyText => "string_too_short"
  | notNumber => "float_type"
  | unreadableNumber => "float_parsing"
  | notWhole => "int_type"
  | notTruth => "bool_type"
  | notChoice => "literal_error"
  | notRecord => "model_type"

end Fault

/-- The faults of a record, each with the name of its field; the record as a whole has the empty name. -/
structure RecordError where
  faults : List (String × Fault)
deriving DecidableEq, Repr

def RecordError.message (e : RecordError) : String :=
  "; ".intercalate (e.faults.map fun f => f.1 ++ ": " ++ f.2.code)

/-- A value, or every fault that stands in its way. -/
abbrev Checked (α : Type) := Except RecordError α

/-- Applies a checked function to a checked value and keeps the faults of both. -/
def Checked.with {α β : Type} (f : Checked (α → β)) (x : Checked α) : Checked β :=
  match f, x with
  | .ok f, .ok a => .ok (f a)
  | .error e, .ok _ => .error e
  | .ok _, .error e => .error e
  | .error e, .error e' => .error ⟨e.faults ++ e'.faults⟩

namespace Record

def get? (name : String) : List (Data × Data) → Option Data
  | [] => none
  | (.text k, v) :: es => if k = name then some v else get? name es
  | _ :: es => get? name es

def named {α : Type} (name : String) (x : Except Fault α) : Checked α := x.mapError fun f => ⟨[(name, f)]⟩

/-- A field that must be there. -/
def field {α : Type} (read : Data → Except Fault α) (es : List (Data × Data)) (name : String) : Checked α :=
  named name (match get? name es with
    | some v => read v
    | none => .error .missing)

/-- A field that has a value by itself. -/
def fieldD {α : Type} (read : Data → Except Fault α) (d : α) (es : List (Data × Data)) (name : String) : Checked α :=
  named name (match get? name es with
    | some v => read v
    | none => .ok d)

def fields (d : Data) : Checked (List (Data × Data)) :=
  match d with
  | .map es => .ok es
  | _ => .error ⟨[("", .notRecord)]⟩

/-- A text, also as bytes in UTF-8. -/
def text : Data → Except Fault String
  | .text s => .ok s
  | .bytes bs =>
    match Text.Utf8.decode bs with
    | .ok s => .ok (String.ofList s)
    | .error _ => .error .unreadableText
  | _ => .error .notText

def filledText (d : Data) : Except Fault String :=
  match text d with
  | .ok s => if s.isEmpty then .error .emptyText else .ok s
  | .error f => .error f

/-- What may be absent. -/
def optional {α : Type} (read : Data → Except Fault α) : Data → Except Fault (Option α)
  | .null => .ok none
  | d => (read d).map some

/-- A float in ASCII text, also with single underscores inside it. -/
def floatText? (s : List Char) : Option Float :=
  let plain (s : List Char) : Option Float :=
    if s.all (fun c => c.toNat < 128 && c ≠ '_') && !(s.any Text.isBlank) then Number.float? s else none
  match plain (Number.trimMargins s) with
  | some x => some x
  | none =>
    let doubled := (s.zip (s.drop 1)).any fun p => p.1 = '_' && p.2 = '_'
    if s.head? = some '_' || s.getLast? = some '_' || doubled then none else plain (s.filter (· ≠ '_'))

def spelledNumber (s : List Char) : Except Fault Float :=
  match floatText? s with
  | some x => .ok x
  | none => .error .unreadableNumber

/-- A number: a number proper, a truth value as zero or one, or a text that spells a number, also as bytes in UTF-8. -/
def number : Data → Except Fault Float
  | .float x => .ok x.value
  | .bool b => .ok (if b then 1.0 else 0.0)
  | .int n =>
    match Number.ofInt? n with
    | some x => .ok x
    | none => .error .notNumber
  | .text s => spelledNumber s.toList
  | .bytes bs =>
    match Text.Utf8.decode bs with
    | .ok s => spelledNumber s
    | .error _ => .error .unreadableNumber
  | _ => .error .notNumber

/-- A number as an object; a float stays the object that it is. -/
def float : Data → Except Fault FloatObject
  | .float x => .ok x
  | d => (number d).map fun x => { value := x }

def whole : Data → Except Fault Int
  | .int n => .ok n
  | .bool b => .ok (if b then 1 else 0)
  | _ => .error .notWhole

def truth : Data → Except Fault Bool
  | .bool b => .ok b
  | _ => .error .notTruth

/-- One of the texts that `choose` knows. -/
def choice {α : Type} (choose : String → Option α) : Data → Except Fault α
  | .text s =>
    match choose s with
    | some a => .ok a
    | none => .error .notChoice
  | _ => .error .notChoice

end Record
end Plotline
