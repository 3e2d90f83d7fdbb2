import RecordSearch.Proofs.Json.Shape
import RecordSearch.Store.Database.Store

/-!
# Metadata read back

Metadata is read from the text in which a file keeps it, and from the rows in which a database keeps it.
-/

namespace RecordSearch

namespace StoreMeta

-- Stated for any numbers, since the kernel must not compute with the bound of given ones.
theorem ofJson?_object (version tool : String) {n k : Json.Number} {created updated : UInt64}
    (hn : n.toUInt64? = some created) (hk : k.toUInt64? = some updated) :
    ofJson? (.object [("schema_version", .string version), ("tool_version", .string tool),
      ("created_at", .number n), ("updated_at", .number k)]) = some ⟨version, tool, created, updated⟩ := by
  simp [ofJson?, Json.member?, Json.findMember, Json.isNull, Json.text?, Json.uint64?, hn, hk]

theorem ofJson?_toJson (m : StoreMeta) : ofJson? m.toJson = some m :=
  ofJson?_object m.schemaVersion m.toolVersion (Json.toUInt64?_ofNat m.createdAt)
    (Json.toUInt64?_ofNat m.updatedAt)

theorem parse?_print (m : StoreMeta) : parse? m.print = some m := by
  have hfields : Json.ReadAll
      [("schema_version", true, .text), ("tool_version", true, .text), ("created_at", true, .natural),
        ("updated_at", true, .natural)] 1
      [("schema_version", .string m.schemaVersion), ("tool_version", .string m.toolVersion),
        ("created_at", .ofInt m.createdAt.toNat), ("updated_at", .ofInt m.updatedAt.toNat)] := by
    intro f hf
    simp only [List.mem_cons, List.not_mem_nil, or_false] at hf
    rcases hf with rfl | rfl | rfl | rfl
    · exact ⟨_, _, rfl, Json.reads_text _⟩
    · exact ⟨_, _, rfl, Json.reads_text _⟩
    · exact ⟨_, _, rfl, Json.reads_natural _⟩
    · exact ⟨_, _, rfl, Json.reads_natural _⟩
  have hnames : ["schema_version", "tool_version", "created_at", "updated_at"].Nodup := by decide
  have hread : shape.parse? m.print = some m.toJson :=
    Json.Shape.parse?_of_read (hfields.read_print (List.cons_ne_nil _ _) hnames rfl (by decide))
  rw [parse?, hread, Option.bind_some, ofJson?_toJson]

/-- Metadata of the version that the program knows is taken as it is. -/
theorem supported_eq_ok {m : StoreMeta} (h : m.schemaVersion = RecordSearch.schemaVersion) :
    m.supported = .ok m :=
  if_pos h

theorem supported_eq_error {m : StoreMeta} (h : m.schemaVersion ≠ RecordSearch.schemaVersion) :
    m.supported = .error (.unsupportedSchema m.schemaVersion) :=
  if_neg h

end StoreMeta

theorem Text.Decimal.uint64?_ofNat (n : UInt64) : uint64? (ofNat n.toNat) = some n := by
  obtain ⟨c, s, hc, hd⟩ := head_ofNat n.toNat
  have hsign : c ≠ '+' := by
    rintro rfl
    cases hd
  rw [uint64?, natural?_ofNat, Option.bind_some, if_pos n.toNat_lt_size, UInt64.ofNat_toNat]
  intro s e
  rw [hc] at e
  cases e
  exact hsign rfl

namespace DatabaseStore

theorem metadataOfRows_rowsOfMetadata (now : UInt64) (m : StoreMeta) :
    metadataOfRows now (rowsOfMetadata m) = m.supported := by
  simp [metadataOfRows, rowsOfMetadata, number?, List.lookup_cons, Text.Decimal.uint64?_ofNat]

end DatabaseStore

end RecordSearch
