import RecordSearch.Proofs.Json.Shape
import RecordSearch.Proofs.Record.RoundTrip
import RecordSearch.Service.Client

/-!
# Messages read back

What a request asks for is read from its body by the service, and what the service answers is read from the
body of the response by the client.
-/

namespace RecordSearch

open Json (Plain)

/-! ## Members that may be missing -/

section

variable {α : Type} {name key : String} {v : Json}

theorem findMember_append (ms ns : List Json.Member) :
    Json.findMember name (ms ++ ns) = (Json.findMember name ms).or (Json.findMember name ns) := by
  induction ms with
  | nil => rfl
  | cons m ms ih =>
      rw [List.cons_append, Json.findMember, Json.findMember]
      split
      · rfl
      · exact ih

theorem findMember_optionalMember {toJson : α → Json} (h : ∀ a, (toJson a).isNull = false) (o : Option α) :
    Json.findMember name (optionalMember name toJson o) = o.map toJson := by
  cases o with
  | none => rfl
  | some a => simp [optionalMember, Json.findMember, h]

theorem findMember_optionalMember_of_ne {toJson : α → Json} (h : key ≠ name) (o : Option α) :
    Json.findMember name (optionalMember key toJson o) = none := by
  cases o with
  | none => rfl
  | some a => simp [optionalMember, Json.findMember, h]

theorem optionalField?_eq {toJson : α → Json} {read : Json → Option α} {o : Option α}
    (h : v.member? name = o.map toJson) (hread : ∀ a, o = some a → read (toJson a) = some a) :
    optionalField? read name v = some o := by
  cases o with
  | none =>
      rw [optionalField?, h]
      rfl
  | some a =>
      rw [optionalField?, h]
      simp [hread a rfl]

theorem plain_optionalMember {d : Nat} {toJson : α → Json} {o : Option α}
    (h : ∀ a, o = some a → Plain d (toJson a)) : ∀ m ∈ optionalMember name toJson o, Plain d m.2 := by
  cases o with
  | none => exact List.forall_mem_nil _
  | some a => exact List.forall_mem_singleton.mpr (h a rfl)

end

/-! ## Requests -/

theorem Backend.ofName?_name (b : Backend) : ofName? b.name = some b := by
  cases b <;> rfl

theorem Backend.name_mem (b : Backend) : b.name ∈ Backend.all.map (·.name) := by
  cases b <;> decide

namespace StoreConfig

theorem ofJson?_toJson (c : StoreConfig) : ofJson? c.toJson = some c := by
  simp [ofJson?, toJson, Json.member?, Json.findMember, Json.isNull, Json.text?, Backend.ofName?_name]

theorem readAll (c : StoreConfig) :
    Json.ReadAll [("backend", true, .word (Backend.all.map (·.name))), ("store_path", true, .text)] 1
      [("backend", .string c.backend.name), ("store_path", .string c.path)] := by
  intro m hm
  simp only [List.mem_cons, List.not_mem_nil, or_false] at hm
  rcases hm with rfl | rfl
  · exact ⟨_, _, rfl, Json.reads_word c.backend.name_mem⟩
  · exact ⟨_, _, rfl, Json.reads_text _⟩

theorem names_nodup : ["backend", "store_path"].Nodup := by decide

theorem reads (c : StoreConfig) : shape.Reads 6 c.toJson :=
  c.readAll.reads (List.cons_ne_nil _ _) names_nodup rfl

theorem read_print (c : StoreConfig) : shape.read c.toJson.print = .ok (c.toJson, []) :=
  c.readAll.read_print (List.cons_ne_nil _ _) names_nodup rfl (by decide)

end StoreConfig

namespace SearchRequest

theorem ofJson?_toJson (r : SearchRequest) : ofJson? r.toJson = some r := by
  obtain ⟨entity, query, byOr, store⟩ := r
  cases store with
  | none => rfl
  | some c =>
      have hstore : (Json.member? "store" (toJson ⟨entity, query, byOr, some c⟩)).bind StoreConfig.ofJson? =
          some c := c.ofJson?_toJson
      rw [ofJson?, hstore]
      rfl

theorem read_print (r : SearchRequest) : shape.read r.toJson.print = .ok (r.toJson, []) := by
  obtain ⟨entity, query, byOr, store⟩ := r
  have hall : Json.ReadAll
      [("entity", true, .text), ("query", false, .text), ("or", false, .bool),
        ("store", false, .optional StoreConfig.shape)] 7
      ([("entity", .string entity), ("query", .string query), ("or", .bool byOr)] ++
        optionalMember "store" StoreConfig.toJson store) := by
    refine List.forall_mem_append.mpr ⟨?_, ?_⟩
    · intro m hm
      simp only [List.mem_cons, List.not_mem_nil, or_false] at hm
      rcases hm with rfl | rfl | rfl
      · exact ⟨_, _, rfl, (Json.reads_text _).mono (by decide)⟩
      · exact ⟨_, _, rfl, (Json.reads_text _).mono (by decide)⟩
      · exact ⟨_, _, rfl, (Json.reads_bool _).mono (by decide)⟩
    · cases store with
      | none => exact List.forall_mem_nil _
      | some c =>
          -- the text of a store begins with a brace
          exact List.forall_mem_singleton.mpr
            ⟨_, _, rfl, c.reads.optional ⟨'\x7b', _, rfl, rfl, by decide⟩⟩
  have hnames : ((([("entity", .string entity), ("query", .string query), ("or", .bool byOr)] :
      List Json.Member) ++ optionalMember "store" StoreConfig.toJson store).map (·.1)).Nodup := by
    cases store <;> simp [optionalMember]
  exact hall.read_print (List.cons_ne_nil _ _) hnames rfl (by decide)

end SearchRequest

/-! ## Responses -/

namespace SearchReply

theorem mapM_decode (rs : List Record) : (rs.map Record.toJson).mapM Record.decode = .ok rs := by
  induction rs with
  | nil => rfl
  | cons r rs ih =>
      rw [List.map_cons, List.mapM_cons, r.decode_toJson, ok_bind, ih]
      rfl

theorem ofJson?_toJson (r : SearchReply) : ofJson? r.toJson = some r := by
  obtain ⟨rs, error⟩ := r
  have hresults : Decoder.list Record.decode (.array (rs.map Record.toJson)) = .ok rs := mapM_decode rs
  cases error <;>
    simp [ofJson?, toJson, Fields.ofMembers, Fields.ofJson, Slot.scan, slot, hresults, Fields.required,
      Fields.withDefault, List.lookup_cons, Decoder.optional, Decoder.text, Except.map, ok_bind,
      Except.toOption]

theorem plain (r : SearchReply) : Plain 7 r.toJson := by
  obtain ⟨rs, error⟩ := r
  refine .object fun m hm => ?_
  simp only [List.mem_cons, List.not_mem_nil, or_false] at hm
  rcases hm with rfl | rfl
  · refine .array fun v hv => ?_
    obtain ⟨record, _, rfl⟩ := List.mem_map.mp hv
    exact record.plain
  · cases error with
    | none => exact .null
    | some message => exact .string message

end SearchReply

namespace StoreSummary

/-- All numbers fit in 64 bits. -/
structure Fits (s : StoreSummary) : Prop where
  loaded : ∀ n, s.loaded = some n → n < UInt64.size
  counts : ∀ c ∈ s.counts, c.2 < UInt64.size

theorem uint64?_ofNat {n : Nat} (h : n < UInt64.size) : (Json.ofInt n).uint64?.map UInt64.toNat = some n := by
  have hn : (UInt64.ofNat n).toNat = n := UInt64.toNat_ofNat_of_lt' h
  have hread := Json.toUInt64?_ofNat (UInt64.ofNat n)
  rw [hn] at hread
  rw [Json.ofInt, Json.uint64?, hread, Option.map_some, hn]

theorem plain_ofNat {d n : Nat} (h : n < UInt64.size) : Plain d (.ofInt n) :=
  .integer ⟨by omega, Int.ofNat_lt.mpr h⟩

theorem mapM_counts {counts : List (String × Nat)} (h : ∀ c ∈ counts, c.2 < UInt64.size) :
    (counts.map fun (table, n) => (table, Json.ofInt (n : Nat))).mapM
      (fun (table, n) => n.uint64?.map fun n => (table, n.toNat)) = some counts := by
  induction counts with
  | nil => rfl
  | cons c counts ih =>
      obtain ⟨table, n⟩ := c
      obtain ⟨hn, hrest⟩ := List.forall_mem_cons.mp h
      obtain ⟨k, hk, hkn⟩ := Option.map_eq_some_iff.mp (uint64?_ofNat hn)
      rw [List.map_cons, List.mapM_cons, ih hrest]
      simp [hk, hkn]

variable {s : StoreSummary}

theorem member?_toJson (s : StoreSummary) :
    s.toJson.member? "backend" = some (.string s.backend.name) ∧
      s.toJson.member? "store_path" = some (.string s.path) ∧
      s.toJson.member? "records_loaded" = s.loaded.map (fun n => .ofInt (n : Nat)) ∧
      s.toJson.member? "counts" = some (.object (s.counts.map fun (table, n) => (table, .ofInt n))) ∧
      s.toJson.member? "schema_version" = s.schemaVersion.map .string ∧
      s.toJson.member? "tool_version" = s.toolVersion.map .string ∧
      s.toJson.member? "created_at" = s.createdAt.map .string ∧
      s.toJson.member? "updated_at" = s.updatedAt.map .string := by
  have htext : ∀ t, (Json.string t).isNull = false := fun _ => rfl
  have hnumber : ∀ n : Nat, (Json.ofInt n).isNull = false := fun _ => rfl
  have hcounts : ∀ ms, (Json.object ms).isNull = false := fun _ => rfl
  refine ⟨?_, ?_, ?_, ?_, ?_, ?_, ?_, ?_⟩ <;>
    simp [toJson, Json.member?, Json.findMember, findMember_append, findMember_optionalMember,
      findMember_optionalMember_of_ne, htext, hnumber, hcounts]

theorem ofJson?_toJson (h : s.Fits) : ofJson? s.toJson = some s := by
  obtain ⟨hbackend, hpath, hloaded, hcounts, hschema, htool, hcreated, hupdated⟩ := s.member?_toJson
  have htext {o : Option String} : ∀ t, o = some t → Json.text? (.string t) = some t := fun _ _ => rfl
  have hloaded : optionalField? (fun x => x.uint64?.map UInt64.toNat) "records_loaded" s.toJson =
      some s.loaded := optionalField?_eq hloaded fun n hn => uint64?_ofNat (h.loaded n hn)
  have hmap := mapM_counts h.counts
  rw [ofJson?, hbackend, hpath]
  simp [hloaded, hcounts, hmap, optionalField?_eq hschema htext,
    optionalField?_eq htool htext, optionalField?_eq hcreated htext, optionalField?_eq hupdated htext,
    Json.text?, Backend.ofName?_name]

theorem plain (h : s.Fits) : Plain 2 s.toJson := by
  have htext (name : String) (o : Option String) : ∀ m ∈ optionalMember name .string o, Plain 1 m.2 :=
    plain_optionalMember fun t _ => .string t
  have hloaded : ∀ m ∈ optionalMember "records_loaded" (fun (n : Nat) => .ofInt n) s.loaded, Plain 1 m.2 :=
    plain_optionalMember fun n hn => plain_ofNat (h.loaded n hn)
  have hcounts : Plain 1 (.object (s.counts.map fun (table, n) => (table, .ofInt n))) := by
    refine .object fun m hm => ?_
    obtain ⟨c, hc, rfl⟩ := List.mem_map.mp hm
    exact plain_ofNat (h.counts c hc)
  refine .object ?_
  simp only [List.forall_mem_append, List.forall_mem_cons]
  exact ⟨⟨⟨⟨⟨⟨⟨.string _, .string _, List.forall_mem_nil _⟩, hloaded⟩, hcounts, List.forall_mem_nil _⟩,
    htext _ _⟩, htext _ _⟩, htext _ _⟩, htext _ _⟩

end StoreSummary

end RecordSearch
