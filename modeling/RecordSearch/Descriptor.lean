import RecordSearch.Operator.Basic
import RecordSearch.Query.Grammar
import RecordSearch.Record.Fields
import RecordSearch.Text.Segments

/-!
# Descriptors

All that distinguishes one searchable kind of record from another: its scope, its query language, the
operators it takes, public names for fields, conversions of values and operators with another meaning
on some fields.
-/

namespace RecordSearch

/-- A conversion of the value of a criterion before its operator sees it. -/
abbrev Converter := Value → Except Cause Value

/-- Turns the name of an application's state into a member of that enumeration; other names are
refused. -/
def Converter.status : Converter
  | .text raw =>
      match ApplicationStatus.ofName? raw with
      | some s => .ok (.enum s.name)
      | none => .error (.notValid raw "ApplicationStatus")
  | value => .ok value

structure Descriptor where
  name : String
  root : Scope
  grammar : Grammar
  /-- The literals of the operators that are accepted. -/
  operators : List String
  /-- Public keys with the field each of them stands for. -/
  renames : Dictionary String String := {}
  /-- Conversions by the field whose values they convert. -/
  converters : Dictionary String Converter := {}
  /-- Narrows the scope in which fields are looked up. -/
  narrow : Scope → Scope := id
  /-- Operators by field and literal that take precedence over the registry. -/
  overrides : Dictionary (String × String) Operator := {}

namespace Descriptor

variable (d : Descriptor)

def rename (key field : String) : Descriptor := { d with renames := d.renames.insert key field }

def convert (field : String) (converter : Converter) : Descriptor :=
  { d with converters := d.converters.insert field converter }

def narrowTo (v : ApplicationVariant) : Descriptor := { d with narrow := Scope.narrow v }

def override (field : String) (operator : Operator) : Descriptor :=
  { d with overrides := d.overrides.insert (field, operator.literal) operator }

/-- The field that a key stands for; a key without a rename stands for itself. -/
def mappedKey (key : String) : String := (d.renames.get? key).getD key

/-- The path that a mapped key denotes: its segments, each of which may again be a public key. -/
def pathOf (mapped : String) : List String :=
  match Text.segments '.' mapped.toList with
  | [_] => [mapped]
  | segments => segments.map fun s => d.mappedKey (String.ofList s)

def convertValue (mapped : String) (value : Value) : Except Cause Value :=
  match d.converters.get? mapped with
  | some converter => converter value
  | none => .ok value

def supports (literal : String) : Bool := d.operators.contains literal

def scope : Scope := d.narrow d.root

/-- The operator for a mapped key and a literal: the override, or else the one in the registry. -/
def operatorFor? (mapped literal : String) (registry : Registry) : Option Operator :=
  (d.overrides.get? (mapped, literal)).or (registry.get? literal)

def acceptedLiterals : List String := Text.ascending d.operators.eraseDups

/-- The renames in ascending order of the public keys. -/
def sortedRenames : List (String × String) :=
  d.renames.entries.mergeSort fun a b => Text.atMost a.1 b.1

def convertedKeys : List String := Text.ascending d.converters.keys

def sortedOverrides : List (String × String) :=
  d.overrides.keys.mergeSort fun a b =>
    if a.1 = b.1 then Text.atMost a.2 b.2 else Text.atMost a.1 b.1

end Descriptor

end RecordSearch
