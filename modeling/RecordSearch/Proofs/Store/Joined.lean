import RecordSearch.Proofs.Query.Criteria
import RecordSearch.Proofs.Query.Groups
import RecordSearch.Proofs.Store.Agreement

/-!
# Joined queries

A query that is made of two query strings with a comma between them finds what both of them find, or
what one of them finds.
-/

namespace RecordSearch

theorem Entity.grammar_commaFree (entity : Entity) : entity.descriptor.grammar.CommaFree :=
  Grammar.commaFree entity.grammar_cases

namespace Store

variable {store : Store} {disk : Disk} {held : List Record} {entity : Entity} {query : String}
  {byOr : Bool} {scope : Scope} {filter : Filter}

/-- Whether a store finds a record by criteria. -/
def keeps (store : Store) (entity : Entity) (byOr : Bool) (criteria : List Criterion) (r : Record) : Bool :=
  r.inScope entity.descriptor.scope &&
    Query.criteriaHold entity.descriptor .standard store.matching byOr criteria r.toJson

theorem keeps_append (first second : List Criterion) (r : Record) :
    store.keeps entity byOr (first ++ second) r =
      if byOr then store.keeps entity byOr first r || store.keeps entity byOr second r
      else store.keeps entity byOr first r && store.keeps entity byOr second r := by
  rw [keeps, keeps, keeps, Query.criteriaHold_append]
  cases byOr with
  | true => exact Bool.and_or_distrib_left _ _ _
  | false => cases r.inScope entity.descriptor.scope <;> rfl

/-- A store finds by a query what it finds by the criteria of the query. -/
theorem Holds.find_compiled (h : store.Holds disk held)
    (hne : Query.parse entity.descriptor.grammar query byOr ≠ [])
    (hc : entity.compile query byOr = .ok (scope, filter)) :
    store.find scope filter disk =
      (.ok (held.filter (store.keeps entity byOr (Query.parse entity.descriptor.grammar query byOr))),
        disk) := by
  obtain ⟨rfl, hf⟩ := Entity.compile_eq_ok_iff.mp hc
  rw [h.find (entity.operatorsTyped.build hf)]
  congr 2
  refine List.filter_congr fun r _ => ?_
  rw [keeps, Entity.acceptsBy_of_compile hne hc]

/-- Two query strings with a comma between them compile if both do, and then every store finds by them
the records that it finds by both, or by one of them. -/
theorem find_join {q₁ q₂ : String} (h₁ : Query.parse entity.descriptor.grammar q₁ byOr ≠ [])
    (h₂ : Query.parse entity.descriptor.grammar q₂ byOr ≠ [])
    (hq : ¬ entity.descriptor.grammar.Unfinished q₁.toList) :
    ((∃ compiled, entity.compile (q₁ ++ "," ++ q₂) byOr = .ok compiled) ↔
      (∃ compiled, entity.compile q₁ byOr = .ok compiled) ∧
        ∃ compiled, entity.compile q₂ byOr = .ok compiled) ∧
    ∀ {scope scope₁ scope₂ : Scope} {filter filter₁ filter₂ : Filter},
      entity.compile (q₁ ++ "," ++ q₂) byOr = .ok (scope, filter) →
      entity.compile q₁ byOr = .ok (scope₁, filter₁) →
      entity.compile q₂ byOr = .ok (scope₂, filter₂) →
      ∀ {store : Store} {disk : Disk} {held : List Record}, store.Holds disk held →
        ∃ keep₁ keep₂ : Record → Bool,
          store.find scope₁ filter₁ disk = (.ok (held.filter keep₁), disk) ∧
          store.find scope₂ filter₂ disk = (.ok (held.filter keep₂), disk) ∧
          store.find scope filter disk =
            (.ok (held.filter fun r => if byOr then keep₁ r || keep₂ r else keep₁ r && keep₂ r),
              disk) := by
  have hparse := Query.parse_join entity.grammar_commaFree hq q₂ byOr
  refine ⟨?_, ?_⟩
  · rw [Entity.exists_compile_iff, Entity.exists_compile_iff, Entity.exists_compile_iff, hparse,
      List.forall_mem_append]
  · intro scope scope₁ scope₂ filter filter₁ filter₂ hc hc₁ hc₂ store disk held hh
    refine ⟨_, _, hh.find_compiled h₁ hc₁, hh.find_compiled h₂ hc₂, ?_⟩
    have hne : Query.parse entity.descriptor.grammar (q₁ ++ "," ++ q₂) byOr ≠ [] := by
      rw [hparse]
      exact List.append_ne_nil_of_left_ne_nil h₁ _
    rw [hh.find_compiled hne hc, hparse]
    congr 2
    exact List.filter_congr fun r _ => keeps_append _ _ r

/-- A store of files and a database with the same users. -/
theorem find_join_users :
    let green : Record := .user ⟨"al", "Al Green", "Physics", none, ⟨7, "admin", "", true⟩⟩
    let black : Record := .user ⟨"bo", "Bo Black", "", none, ⟨8, "member", "", false⟩⟩
    let white : Record := .user ⟨"cy", "Cy White", "", none, ⟨7, "admin", "", true⟩⟩
    let files : Store := .directory ⟨⟨"f", ["f"], [[]]⟩, none, [green, black, white]⟩
    let database : Store := .database ⟨⟨"d", ["d"], [[]]⟩, none⟩
    let disk : Disk := ⟨[(["d"], .database (Database.addRecords [green, black, white] {}))]⟩
    ∃ filter, Entity.users.compile "name:~BLACK,username=al" true = .ok (.users, filter) ∧
      files.find .users filter disk = (.ok [green, black], disk) ∧
      database.find .users filter disk = (.ok [green, black], disk) := by
  intro green black white files database disk
  have hp₁ : Query.parse .user "name:~BLACK" true = [⟨"name", ":~", .text "BLACK", true⟩] := by cbv
  have hp₂ : Query.parse .user "username=al" true = [⟨"username", "=", .text "al", true⟩] := by cbv
  have hc₁ : Entity.users.compile "name:~BLACK" true =
      .ok (.users, .restricted (.like ⟨["name"], .text⟩ "%black%" true)) :=
    Entity.compile_of_parse hp₁ rfl
  have hc₂ : Entity.users.compile "username=al" true =
      .ok (.users, .restricted (.equals ⟨["username"], .text⟩ (.text "al"))) :=
    Entity.compile_of_parse hp₂ rfl
  have hfinished : ¬ Grammar.user.Unfinished "name:~BLACK".toList := by
    rintro ⟨before, c, literal, h, _, hm⟩
    have hends : ∀ literal ∈ Grammar.user.operators, ¬ literal <:+ "name:~BLACK".toList := by decide
    exact hends literal hm ⟨before ++ [c], by rw [h, List.append_assoc]; rfl⟩
  have hne₁ : Query.parse Entity.users.descriptor.grammar "name:~BLACK" true ≠ [] :=
    hp₁ ▸ List.cons_ne_nil _ _
  have hne₂ : Query.parse Entity.users.descriptor.grammar "username=al" true ≠ [] :=
    hp₂ ▸ List.cons_ne_nil _ _
  obtain ⟨hcompile, hfind⟩ := find_join hne₁ hne₂ hfinished
  obtain ⟨⟨scope, filter⟩, hc⟩ := hcompile.mpr ⟨⟨_, hc₁⟩, ⟨_, hc₂⟩⟩
  obtain ⟨rfl, hf⟩ := Entity.compile_eq_ok_iff.mp hc
  have htyped₁ := Entity.users.operatorsTyped.build (Entity.compile_eq_ok_iff.mp hc₁).2
  have htyped₂ := Entity.users.operatorsTyped.build (Entity.compile_eq_ok_iff.mp hc₂).2
  have hpattern : '\x00' ∉ "%black%".toList := by decide
  have hnull : ∀ r ∈ [green, black, white], r.toJson.nullFree = true := by decide
  have hblack : ([green, black, white].filter fun r =>
      r.inScope .users && (Filter.restricted (.like ⟨["name"], .text⟩ "%black%" true)).accepts r.toJson) =
        [black] := by
    decide
  have hgreen : ([green, black, white].filter fun r => r.inScope .users &&
      (Filter.restricted (.equals ⟨["username"], .text⟩ (.text "al"))).accepts r.toJson) = [green] := by
    decide
  -- Both stores find one user by each part, since there are no null characters.
  have hfound {store : Store} (hh : store.Holds disk [green, black, white]) :
      store.find .users filter disk = (.ok [green, black], disk) := by
    obtain ⟨keep₁, keep₂, h₁, h₂, h⟩ := hfind hc hc₁ hc₂ hh
    have hfind₁ := h₁.symm.trans (hh.find_nullFree htyped₁ (List.forall_mem_singleton.mpr hpattern) hnull)
    have hkeep₁ : [green, black, white].filter keep₁ = [black] :=
      (Except.ok.inj (congrArg Prod.fst hfind₁)).trans hblack
    have hfind₂ := h₂.symm.trans (hh.find_nullFree htyped₂ (List.forall_mem_nil _) hnull)
    have hkeep₂ : [green, black, white].filter keep₂ = [green] :=
      (Except.ok.inj (congrArg Prod.fst hfind₂)).trans hgreen
    have hkeep : ∀ r ∈ [green, black, white], (keep₁ r || keep₂ r) = decide (r ≠ white) := by
      intro r hr
      have h₁ : keep₁ r = true ↔ r = black := by
        rw [← List.mem_singleton (b := black), ← hkeep₁, List.mem_filter]
        exact (and_iff_right hr).symm
      have h₂ : keep₂ r = true ↔ r = green := by
        rw [← List.mem_singleton (b := green), ← hkeep₂, List.mem_filter]
        exact (and_iff_right hr).symm
      rw [Bool.eq_iff_iff, Bool.or_eq_true, h₁, h₂, decide_eq_true_iff]
      simp only [List.mem_cons, List.not_mem_nil, or_false] at hr
      rcases hr with rfl | rfl | rfl <;> decide
    refine h.trans ?_
    congr 2
    exact (List.filter_congr hkeep).trans (by decide)
  have hfiles : files.Holds disk [green, black, white] := rfl
  have hdatabase : database.Holds disk [green, black, white] := holds_addRecords rfl
  exact ⟨filter, hc, hfound hfiles, hfound hdatabase⟩

end Store

end RecordSearch
