import RecordSearch.Entity
import RecordSearch.Service.Message

/-!
# Reports

What the commands print: records as lines or as a table, the description of a store and the list of
entities. Columns are as wide as their widest cell, within limits; texts that do not fit are cut and end
with an ellipsis.
-/

namespace RecordSearch.CommandLine

/-- The lines of a report as one text, each with its line feed. -/
def textOfLines (lines : List (List Char)) : String := String.ofList (lines.flatMap (· ++ ['\n']))

/-! ## Cells -/

/-- The text with blanks after it up to a width. -/
def padded (width : Nat) (s : List Char) : List Char := s ++ List.replicate (width - s.length) ' '

/-- The text, or its beginning with an ellipsis if it is longer than a width. -/
def truncated (width : Nat) (s : List Char) : List Char :=
  if s.length ≤ width then s else s.take (width - 1) ++ ['…']

/-! ## Records -/

structure Row where
  entity : List Char
  id : List Char
  summary : List Char
  deriving DecidableEq, Repr

/-- The name of the table of a record, with its variant if it has one. -/
def entityLabel (r : Record) : String :=
  match r.variant? with
  | some variant => r.table.name ++ "/" ++ variant.name
  | none => r.table.name

def Row.ofRecord (r : Record) : Row := ⟨(entityLabel r).toList, r.identifier.toList, r.summary.toList⟩

def Row.line (row : Row) : List Char := row.entity ++ ' ' :: row.id ++ ':' :: ' ' :: row.summary

def recordLines (rs : List Record) : List (List Char) := rs.map fun r => (Row.ofRecord r).line

structure Widths where
  entity : Nat
  id : Nat
  summary : Nat
  deriving DecidableEq, Repr

def titles : Row := ⟨"ENTITY".toList, "ID".toList, "SUMMARY".toList⟩

def greatestLength (texts : List (List Char)) : Nat := (texts.map List.length).foldl max 0

/-- The widths of a table with these rows. Identifiers are at most 30 wide, summaries at
most 60. -/
def Widths.ofRows (rows : List Row) : Widths where
  entity := greatestLength (titles.entity :: rows.map (·.entity))
  id := min (greatestLength (titles.id :: rows.map (·.id))) 30
  summary := min (greatestLength (titles.summary :: rows.map (·.summary))) 60

/-- The row as a line of a table. The entity always fits. -/
def Row.tableLine (widths : Widths) (row : Row) : List Char :=
  padded widths.entity row.entity ++ ' ' ::
    (padded widths.id (truncated widths.id row.id) ++ ' ' ::
      padded widths.summary (truncated widths.summary row.summary))

/-- The records as a table with titles; nothing if there are none. -/
def tableLines (rs : List Record) : List (List Char) :=
  match rs with
  | [] => []
  | rs =>
      let rows := rs.map Row.ofRecord
      (titles :: rows).map (Row.tableLine (Widths.ofRows rows))

theorem length_padded {width : Nat} {s : List Char} (h : s.length ≤ width) :
    (padded width s).length = width := by
  simp only [padded, List.length_append, List.length_replicate]
  omega

theorem length_truncated_le {width : Nat} (s : List Char) (h : 0 < width) :
    (truncated width s).length ≤ width := by
  unfold truncated
  split
  · assumption
  · simp only [List.length_append, List.length_take, List.length_singleton]
    omega

/-! ## Stores and entities -/

/-- A line with a label, as wide as the widest one, and a value. -/
def labelled (label value : String) : List Char := padded 13 label.toList ++ ':' :: ' ' :: value.toList

def countText (n : Nat) : String := String.ofList (Text.Decimal.ofNat n)

/-- The description of a store, without what is absent. -/
def storeLines (s : StoreSummary) : List (List Char) :=
  let optional (label : String) (value : Option String) : List (List Char) :=
    (value.map (labelled label)).toList
  [labelled "backend" s.backend.name, labelled "store_path" s.path] ++
    optional "schema" s.schemaVersion ++ optional "tool_version" s.toolVersion ++
    optional "created_at" s.createdAt ++ optional "updated_at" s.updatedAt ++
    optional "loaded" (s.loaded.map countText) ++
    s.counts.map fun (table, n) => labelled table (countText n)

/-- The description of an entity, without the lists that are empty. -/
def entityLines (s : Entity.Summary) : List (List Char) :=
  let indented (label value : String) : List Char := ("    " ++ label ++ ": " ++ value).toList
  let listed (label : String) (values : List String) : List (List Char) :=
    if values = [] then [] else [indented label (", ".intercalate values)]
  (s.name ++ " (" ++ s.scope ++ ")").toList ::
    indented "operators " (" ".intercalate s.operators) ::
      (listed "renames   " (s.renames.map fun (key, field) => key ++ "->" ++ field) ++
        listed "converted " s.converted ++ listed "overrides " s.overrides)

def catalogueLines (summaries : List Entity.Summary) : List (List Char) := summaries.flatMap entityLines

end RecordSearch.CommandLine
