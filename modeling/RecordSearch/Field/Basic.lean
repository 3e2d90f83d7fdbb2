/-!
# Fields

The declared types of searchable fields, tables of fields by name, and paths through nested tables.
Main statements: a path that resolves is kept as given (`FieldTable.path_of_resolve`), and it resolves
segment by segment (`FieldTable.resolveUnder`).
-/

namespace RecordSearch

/-- What a field holds. An object has fields of its own, a list has elements of one type. -/
inductive FieldType where
  | text
  | integer
  | boolean
  | enum (names : List String)
  | timestamp
  | object (fields : List (String × FieldType))
  | list (element : FieldType)
  deriving Repr, Inhabited

abbrev FieldTable := List (String × FieldType)

/-- A path from the top of a record together with the type found there. -/
structure Field where
  path : List String
  type : FieldType
  deriving Repr, Inhabited

inductive FieldError where
  | emptyPath
  /-- The table reached by the segments `under` has no such field. -/
  | unknown (segment : String) (under : List String)
  /-- The segments `path` lead to a type without fields, but the path goes on. -/
  | notNested (path : List String) (type : FieldType) (segment : String)
  /-- A field of the elements was asked of a field that is not a list of objects. -/
  | notCollection (path : List String)
  deriving Repr, Inhabited

/-- A path as it is written in a query. -/
def dotted (path : List String) : String := ".".intercalate path

namespace FieldType

def kind : FieldType → String
  | .text => "text"
  | .integer => "integer"
  | .boolean => "boolean"
  | .enum _ => "enum"
  | .timestamp => "timestamp"
  | .object _ => "object"
  | .list _ => "list"

def isText : FieldType → Bool
  | .text => true
  | _ => false

def isTimestamp : FieldType → Bool
  | .timestamp => true
  | _ => false

def element? : FieldType → Option FieldType
  | .list element => some element
  | _ => none

end FieldType

def FieldError.message : FieldError → String
  | .emptyPath => "empty field path"
  | .unknown segment [] => s!"unknown field `{segment}`"
  | .unknown segment under => s!"unknown field `{segment}` under `{dotted under}`"
  | .notNested path type segment =>
      s!"field `{dotted path}` of type {type.kind} has no nested field `{segment}`"
  | .notCollection path => s!"field `{dotted path}` is not a collection of objects"

namespace FieldTable

/-- The type of the first field of that name. -/
def find? (fields : FieldTable) (name : String) : Option FieldType := fields.lookup name

/-- Resolves a path in the table that the segments `under` lead to. -/
def resolveUnder (under : List String) (fields : FieldTable) : List String → Except FieldError Field
  | [] => .error .emptyPath
  | [segment] =>
      match find? fields segment with
      | some type => .ok ⟨under ++ [segment], type⟩
      | none => .error (.unknown segment under)
  | segment :: next :: rest =>
      match find? fields segment with
      | some (.object nested) => resolveUnder (under ++ [segment]) nested (next :: rest)
      | some type => .error (.notNested (under ++ [segment]) type next)
      | none => .error (.unknown segment under)

def resolve (fields : FieldTable) (path : List String) : Except FieldError Field :=
  resolveUnder [] fields path

end FieldTable

/-- The field of the elements of a collection, by its path inside an element. -/
def Field.elementField (field : Field) (path : List String) : Except FieldError Field :=
  match field.type with
  | .list (.object fields) => FieldTable.resolve fields path
  | _ => .error (.notCollection field.path)

namespace FieldTable

variable {fields : FieldTable} {path under : List String} {field : Field}

theorem path_of_resolveUnder (h : resolveUnder under fields path = .ok field) :
    field.path = under ++ path := by
  fun_induction resolveUnder under fields path with
  | case1 => cases h
  | case2 => cases h; rfl
  | case3 => cases h
  | case4 _ _ _ _ _ _ _ ih => rw [ih h]; simp
  | case5 => cases h
  | case6 => cases h

theorem path_of_resolve (h : resolve fields path = .ok field) : field.path = path :=
  path_of_resolveUnder h

end FieldTable

end RecordSearch
