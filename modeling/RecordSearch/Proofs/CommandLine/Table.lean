import RecordSearch.CommandLine.Run

/-!
# Tables of records

A table has a line of titles and one line for each record, all equally long. The kinds of the records are
shown in full; identifiers and summaries are cut, with an ellipsis, if they have more characters than their
column may show.
-/

namespace RecordSearch.CommandLine

/-- The cell is the text, perhaps with blanks behind it. -/
def ShowsAll (text cell : List Char) : Prop := ∃ blanks, cell = text ++ List.replicate blanks ' '

/-- The cell shows all of a text that has at most so many characters, else its beginning with an
ellipsis. -/
inductive Shows (limit : Nat) (text : List Char) : List Char → Prop
  | all {cell : List Char} (hl : text.length ≤ limit) (h : ShowsAll text cell) : Shows limit text cell
  | beginning (hl : limit < text.length) : Shows limit text (text.take (limit - 1) ++ ['…'])

/-- The line shows the row in cells of the given widths with a blank between them. -/
def Widths.Lines (widths : Widths) (row : Row) (line : List Char) : Prop :=
  ∃ entity id summary, line = entity ++ ' ' :: (id ++ ' ' :: summary) ∧
    (entity.length = widths.entity ∧ ShowsAll row.entity entity) ∧
    (id.length = widths.id ∧ Shows 30 row.id id) ∧
    (summary.length = widths.summary ∧ Shows 60 row.summary summary)

variable {limit longest : Nat} {text : List Char} {row : Row} {rows : List Row}

theorem Widths.Lines.length {widths : Widths} {line : List Char} (h : widths.Lines row line) :
    line.length = widths.entity + widths.id + widths.summary + 2 := by
  obtain ⟨entity, id, summary, rfl, ⟨hentity, _⟩, ⟨hid, _⟩, ⟨hsummary, _⟩⟩ := h
  simp only [List.length_append, List.length_cons]
  omega

/-! ## Cells -/

theorem length_padded_truncated {width : Nat} (h : 0 < width) (text : List Char) :
    (padded width (truncated width text)).length = width :=
  length_padded (length_truncated_le text h)

/-- A column is as wide as its longest text, but not wider than it may be. A text that is longer than this
makes it as wide as it may be, and every other one fits. -/
theorem shows_padded_truncated (hlimit : 0 < limit) (h : text.length ≤ longest) :
    Shows limit text (padded (min longest limit) (truncated (min longest limit) text)) := by
  by_cases hl : text.length ≤ limit
  · rw [truncated, if_pos (by omega)]
    exact .all hl ⟨_, rfl⟩
  · have hwidth : min longest limit = limit := by omega
    have hcut : (text.take (limit - 1) ++ ['…']).length = limit := by
      simp only [List.length_append, List.length_take, List.length_singleton]
      omega
    rw [hwidth, truncated, if_neg hl, padded, hcut, Nat.sub_self, List.replicate_zero, List.append_nil]
    exact .beginning (by omega)

/-! ## Widths -/

theorem foldl_max_le_iff {ns : List Nat} {n bound : Nat} :
    ns.foldl max n ≤ bound ↔ n ≤ bound ∧ ∀ m ∈ ns, m ≤ bound := by
  induction ns generalizing n with
  | nil => simp
  | cons m ns ih => rw [List.foldl_cons, ih, Nat.max_le, List.forall_mem_cons, and_assoc]

theorem length_le_greatestLength {texts : List (List Char)} (h : text ∈ texts) :
    text.length ≤ greatestLength texts :=
  (foldl_max_le_iff.mp (Nat.le_refl _)).2 _ (List.mem_map_of_mem h)

/-- Every row of a table, the titles with the others, is shown in its columns. -/
theorem Widths.lines_tableLine (h : row ∈ titles :: rows) :
    (Widths.ofRows rows).Lines row (row.tableLine (Widths.ofRows rows)) := by
  have hlongest : ∀ cell : Row → List Char,
      (cell row).length ≤ greatestLength ((titles :: rows).map cell) := fun cell =>
    length_le_greatestLength (List.mem_map_of_mem h)
  -- The titles make every column wide enough for an ellipsis.
  have hid := length_le_greatestLength (List.mem_cons_self (a := titles.id) (l := rows.map (·.id)))
  have hsummary :=
    length_le_greatestLength (List.mem_cons_self (a := titles.summary) (l := rows.map (·.summary)))
  have hid' : 0 < (Widths.ofRows rows).id := Nat.lt_min.mpr ⟨Nat.lt_of_lt_of_le (by decide) hid, by decide⟩
  have hsummary' : 0 < (Widths.ofRows rows).summary :=
    Nat.lt_min.mpr ⟨Nat.lt_of_lt_of_le (by decide) hsummary, by decide⟩
  exact ⟨_, _, _, rfl, ⟨length_padded (hlongest (·.entity)), _, rfl⟩,
    ⟨length_padded_truncated hid' _, shows_padded_truncated (by decide) (hlongest (·.id))⟩,
    length_padded_truncated hsummary' _, shows_padded_truncated (by decide) (hlongest (·.summary))⟩

theorem entityLabel_mem (r : Record) :
    entityLabel r ∈ ["account", "user", "application/draft", "application/submitted",
      "application/referred"] := by
  cases r with
  | application a =>
      cases a <;> simp [entityLabel, Record.variant?, Record.table, Application.variant, RecordTable.name,
        ApplicationVariant.name]
  | _ => simp [entityLabel, Record.variant?, Record.table, RecordTable.name]

/-- The kinds of records have as many bytes as characters. -/
theorem utf8ByteSize_entityLabel (r : Record) :
    (entityLabel r).utf8ByteSize = (entityLabel r).toList.length := by
  have hlabels : ∀ label ∈ ["account", "user", "application/draft", "application/submitted",
      "application/referred"], label.utf8ByteSize = label.toList.length := by decide
  exact hlabels _ (entityLabel_mem r)

theorem Widths.entity_ofRecords (rs : List Record) :
    (Widths.ofRows (rs.map Row.ofRecord)).entity =
      (("ENTITY" :: rs.map entityLabel).map String.utf8ByteSize).foldl max 0 := by
  simp only [Widths.ofRows, greatestLength, List.map_cons, List.map_map, Function.comp_def, Row.ofRecord,
    utf8ByteSize_entityLabel]
  rfl

/-- A table of records is a line of titles and a line for each record in order, all of them equally long:
the kind of the record in full, then its identifier and its summary, cut if they have more than 30 and 60
characters. -/
theorem showReply_table {reply : SearchReply} (h : reply.results ≠ []) :
    ∃ (widths : Widths) (header : List Char) (line : Record → List Char),
      showReply .table reply = textOfLines (header :: reply.results.map line) ∧
      widths.Lines titles header ∧
      (∀ r ∈ reply.results,
        widths.Lines (Row.ofRecord r) (line r) ∧ (line r).length = header.length) ∧
      widths.entity = (("ENTITY" :: reply.results.map entityLabel).map String.utf8ByteSize).foldl max 0 := by
  let widths := Widths.ofRows (reply.results.map Row.ofRecord)
  have hheader : widths.Lines titles (titles.tableLine widths) := Widths.lines_tableLine List.mem_cons_self
  refine ⟨widths, titles.tableLine widths, fun r => (Row.ofRecord r).tableLine widths, ?_, hheader,
    fun r hr => ?_, Widths.entity_ofRecords _⟩
  · rw [showReply, tableLines.eq_def]
    split
    · next hnil => exact absurd hnil h
    · simp only [List.map_cons, List.map_map, Function.comp_def, widths]
  · have hline : widths.Lines (Row.ofRecord r) ((Row.ofRecord r).tableLine widths) :=
      Widths.lines_tableLine (List.mem_cons_of_mem _ (List.mem_map_of_mem hr))
    exact ⟨hline, hline.length.trans hheader.length.symm⟩

theorem showReply_table_cut :
    let long : Record := .account ⟨String.ofList (List.replicate 31 'é'), "e@x", true⟩
    let short : Record := .user ⟨"al", "Al", "", none, ⟨1, "admin", "", false⟩⟩
    let reply : SearchReply := .found [long, short]
    reply.results ≠ [] ∧
      ∃ (widths : Widths) (header : List Char) (line : Record → List Char),
        showReply .table reply = textOfLines [header, line long, line short] ∧
        (line long).length = header.length ∧ (line short).length = header.length ∧ widths.entity = 7 ∧
        ∃ entity summary,
          line long = entity ++ ' ' :: ((List.replicate 29 'é' ++ ['…']) ++ ' ' :: summary) := by
  intro long short reply
  have hne : reply.results ≠ [] := List.cons_ne_nil _ _
  obtain ⟨widths, header, line, htext, _, hlines, hentity⟩ := showReply_table hne
  obtain ⟨hlong, hlength⟩ := hlines long List.mem_cons_self
  obtain ⟨_, hlength'⟩ := hlines short (List.mem_cons_of_mem _ List.mem_cons_self)
  refine ⟨hne, widths, header, line, htext, hlength, hlength', hentity.trans (by decide), ?_⟩
  obtain ⟨entity, id, summary, hline, _, ⟨_, hid⟩, _⟩ := hlong
  simp only [Row.ofRecord, Record.identifier, long, String.toList_ofList] at hid
  cases hid with
  | all hl => exact absurd hl (by decide)
  | beginning => exact ⟨entity, summary, hline⟩

end RecordSearch.CommandLine
