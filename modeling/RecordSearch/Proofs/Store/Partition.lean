import RecordSearch.Proofs.Query.Variants
import RecordSearch.Proofs.Store.Contents

/-!
# Applications found by variant

A search of all applications finds what the searches of the variants find, each record in one of them and all
in the order in which they were inserted.
-/

namespace RecordSearch

namespace Record

variable {r : Record} {v : ApplicationVariant}

/-- The record is an application of this variant. -/
def isOf (v : ApplicationVariant) (r : Record) : Bool := r.variant? == some v

theorem isOf_iff : r.isOf v = true ↔ r.variant? = some v := beq_iff_eq

theorem exists_variant (h : r.inScope .applications = true) : ∃ v, r.variant? = some v := by
  cases r with
  | application a => exact ⟨a.variant, rfl⟩
  | account _ | user _ => cases h

/-- The records of a variant are the applications that are of it. -/
theorem inScope_variant (v : ApplicationVariant) (r : Record) :
    r.inScope (.variant v) = (r.inScope .applications && r.isOf v) := by
  cases r <;> rfl

end Record

/-- Lists of records, one for each variant, that come from one list: each record of it is in the list of its
own variant and in no other, and the order of the records is kept. -/
structure Partition (whole : List Record) (part : ApplicationVariant → List Record) : Prop where
  variant {r : Record} (h : r ∈ whole) : ∃ v, r.variant? = some v
  part_eq (v : ApplicationVariant) : part v = whole.filter (Record.isOf v)

namespace Partition

variable {whole : List Record} {part : ApplicationVariant → List Record} {r : Record}
  {v w : ApplicationVariant}

theorem mem_part_iff (h : Partition whole part) : r ∈ part v ↔ r ∈ whole ∧ r.variant? = some v := by
  rw [h.part_eq, List.mem_filter, Record.isOf_iff]

theorem disjoint (h : Partition whole part) (hv : v ≠ w) : (part v).Disjoint (part w) := by
  intro r hr hw
  have hsame := (h.mem_part_iff.mp hr).2.symm.trans (h.mem_part_iff.mp hw).2
  exact hv (Option.some.inj hsame)

/-- Of all records those that are applications and pass a test. -/
theorem filter (held : List Record) (test : Record → Bool) :
    Partition (held.filter fun r => r.inScope .applications && test r) fun v =>
      (held.filter fun r => r.inScope .applications && test r).filter (Record.isOf v) where
  variant h := Record.exists_variant (Bool.and_eq_true_iff.mp (List.mem_filter.mp h).2).1
  part_eq _ := rfl

end Partition

namespace Store

variable {store : Store} {disk : Disk} {held : List Record} {query : String} {byOr : Bool} {scope : Scope}
  {filter : Filter}

/-- What a store finds of a variant is what it finds of all applications, without the other variants. -/
theorem Holds.find_variant (h : store.Holds disk held)
    (hc : Entity.applications.compile query byOr = .ok (scope, filter)) (v : ApplicationVariant) :
    store.find (.variant v) filter disk =
      (.ok ((held.filter fun r => r.inScope .applications &&
        filter.acceptsBy store.matching r.toJson).filter (Record.isOf v)), disk) := by
  obtain ⟨_, hf⟩ := Entity.compile_eq_ok_iff.mp (Entity.compile_variant v hc)
  have htyped := v.entity.operatorsTyped.build hf
  rw [v.scope_entity] at htyped
  rw [h.find htyped, List.filter_filter]
  congr 2
  refine List.filter_congr fun r _ => ?_
  rw [Record.inScope_variant, Bool.and_comm (Record.isOf v r), Bool.and_right_comm]

/-- A query that is accepted for all applications is accepted for each variant. Any store then finds of the
variants, taken together in their order, the same as of all applications: no record of two variants, and an
application just if it is found of its own variant. -/
theorem find_applications (hc : Entity.applications.compile query byOr = .ok (scope, filter)) :
    (∀ v : ApplicationVariant, v.entity.compile query byOr = .ok (.variant v, filter)) ∧
    ∀ {store : Store} {disk : Disk} {held : List Record}, store.Holds disk held →
      ∃ (keep : Record → Bool) (part : ApplicationVariant → List Record),
        store.find scope filter disk = (.ok (held.filter keep), disk) ∧
        (∀ v, store.find (.variant v) filter disk = (.ok (part v), disk)) ∧
        Partition (held.filter keep) part ∧
        (∀ v w, v ≠ w → (part v).Disjoint (part w)) ∧
        ∀ r ∈ held, ∀ v, r.variant? = some v → (r ∈ held.filter keep ↔ r ∈ part v) := by
  refine ⟨fun v => Entity.compile_variant v hc, fun {store disk held} hh => ?_⟩
  obtain ⟨rfl, hf⟩ := Entity.compile_eq_ok_iff.mp hc
  have hpartition := Partition.filter held fun r => filter.acceptsBy store.matching r.toJson
  refine ⟨_, _, hh.find (Entity.applications.operatorsTyped.build hf), hh.find_variant hc, hpartition,
    fun v w => hpartition.disjoint, fun r _ v hr => ?_⟩
  exact (hpartition.mem_part_iff.trans (and_iff_left hr)).symm

/-- Drafts and an application that was sent in, found among other records in a store of files and in a
database. -/
theorem find_applications_drafts :
    let al : User := ⟨"al", "Al", "", none, ⟨7, "member", "", false⟩⟩
    let noon : Timestamp := .midnight ⟨2024, 3, 15, by decide, by decide, by decide⟩
    let first : Record := .application (.draft ⟨1, "A-1", al, .draft, none, noon⟩)
    let sent : Record :=
      .application (.submitted ⟨2, "A-2", al, .review, none, noon⟩ ⟨[], [], none, none, none⟩)
    let last : Record := .application (.draft ⟨3, "A-3", al, .draft, none, noon⟩)
    let held := [first, .user al, sent, last]
    let files : Store := .directory ⟨⟨"f", ["f"], [[]]⟩, none, held⟩
    let database : Store := .database ⟨⟨"d", ["d"], [[]]⟩, none⟩
    let disk : Disk := ⟨[(["d"], .database (Database.addRecords held {}))]⟩
    ∃ filter, Entity.applications.compile "user.username=al" false = .ok (.applications, filter) ∧
      Entity.draftApplications.compile "user.username=al" false = .ok (.variant .draft, filter) ∧
      ∀ store ∈ [files, database],
        store.find .applications filter disk = (.ok [first, sent, last], disk) ∧
        store.find (.variant .draft) filter disk = (.ok [first, last], disk) ∧
        store.find (.variant .submitted) filter disk = (.ok [sent], disk) ∧
        store.find (.variant .referred) filter disk = (.ok [], disk) := by
  intro al noon first sent last held files database disk
  let filter : Filter := .restricted (.equals ⟨["user", "username"], .text⟩ (.text "al"))
  have hp : Query.parse .application "user.username=al" false =
      [⟨"user.username", "=", .text "al", false⟩] := by cbv
  have hc : Entity.applications.compile "user.username=al" false = .ok (.applications, filter) :=
    Entity.compile_of_parse hp rfl
  have htyped := Entity.applications.operatorsTyped.build (Entity.compile_eq_ok_iff.mp hc).2
  obtain ⟨hvariant, hfind⟩ := find_applications hc
  have haccepted : (held.filter fun r => r.inScope .applications && filter.accepts r.toJson) =
      [first, sent, last] := rfl
  refine ⟨filter, hc, hvariant .draft, ?_⟩
  have hfound {store : Store} (hh : store.Holds disk held) :
      store.find .applications filter disk = (.ok [first, sent, last], disk) ∧
        ∀ v, store.find (.variant v) filter disk =
          (.ok ([first, sent, last].filter (Record.isOf v)), disk) := by
    obtain ⟨keep, part, hall, hpart, hpartition, _⟩ := hfind hh
    have hwhole : store.find .applications filter disk = (.ok [first, sent, last], disk) :=
      (hh.find htyped).trans (congrArg (Except.ok ·, disk) haccepted)
    have hkeep : held.filter keep = [first, sent, last] :=
      Except.ok.inj (congrArg Prod.fst (hall.symm.trans hwhole))
    refine ⟨hwhole, fun v => ?_⟩
    rw [hpart, hpartition.part_eq, hkeep]
  have hfiles := @hfound files rfl
  have hdatabase := @hfound database (holds_addRecords rfl)
  simp only [List.forall_mem_cons]
  exact ⟨⟨hfiles.1, hfiles.2 .draft, hfiles.2 .submitted, hfiles.2 .referred⟩,
    ⟨hdatabase.1, hdatabase.2 .draft, hdatabase.2 .submitted, hdatabase.2 .referred⟩, List.forall_mem_nil _⟩

end Store

end RecordSearch
