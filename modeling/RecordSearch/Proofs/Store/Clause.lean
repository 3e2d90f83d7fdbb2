import RecordSearch.Proofs.Predicate.Meaning
import RecordSearch.Proofs.Record.RoundTrip
import RecordSearch.Proofs.Store.Path

/-!
# Clauses mean their predicates

The clause of a typed predicate never fails on the row of a record of the scope, and selects it just in
case the record satisfies the predicate, patterns being matched up to the first null character.
-/

namespace RecordSearch

open Content Text

/-! ## Filling in parameters -/

namespace Clause

/-- The condition with its parameters in place. -/
def filled (c : Clause) : Sql.Condition := (c.condition.bind c.parameters).1

/-- The parameters are as many as the placeholders. -/
def Exact (c : Clause) : Prop := ∀ ps, c.condition.bind (c.parameters ++ ps) = (c.filled, ps)

variable {a b c : Clause}

theorem exact_of_bind {condition : Sql.Condition}
    (h : ∀ ps, c.condition.bind (c.parameters ++ ps) = (condition, ps)) :
    c.Exact ∧ c.filled = condition := by
  have hf : c.filled = condition := by
    have h := h []
    rw [List.append_nil] at h
    rw [filled, h]
  exact ⟨fun ps => by rw [h ps, hf], hf⟩

theorem Exact.and (ha : a.Exact) (hb : b.Exact) :
    (a.and b).Exact ∧ (a.and b).filled = .and a.filled b.filled := by
  refine exact_of_bind fun ps => ?_
  simp only [Clause.and, Sql.Condition.bind, List.append_assoc, ha (b.parameters ++ ps), hb ps]

theorem Exact.or (ha : a.Exact) (hb : b.Exact) :
    Exact ⟨.or a.condition b.condition, a.parameters ++ b.parameters⟩ ∧
      filled ⟨.or a.condition b.condition, a.parameters ++ b.parameters⟩ = .or a.filled b.filled := by
  refine exact_of_bind fun ps => ?_
  simp only [Sql.Condition.bind, List.append_assoc, ha (b.parameters ++ ps), hb ps]

theorem bound_exact (op : Sql.Comparison) (field : Field) (value : Value) : (bound op field value).Exact := by
  cases value <;> exact fun _ => rfl

theorem ofPredicate_exact (p : Predicate) : (ofPredicate p).Exact := by
  induction p with
  | like field pattern ignoreCase => cases ignoreCase <;> exact fun _ => rfl
  | atLeast field value => exact bound_exact .atLeast field value
  | atMost field value => exact bound_exact .atMost field value
  | and left right ihl ihr => exact (ihl.and ihr).1
  | or left right ihl ihr => exact (ihl.or ihr).1
  | _ => exact fun _ => rfl

theorem columnEquals_exact (c : Sql.Column) (s : String) : (columnEquals c s).Exact := fun _ => rfl

end Clause

/-! ## Truth in a row -/

namespace Sql

/-- The condition has a truth value in the row, which is true just in case `b`. -/
def Condition.Decides (c : Condition) (row : Row) (element : Value) (b : Bool) : Prop :=
  ∃ truth, c.eval row element = .ok truth ∧ (truth == some true) = b

variable {row : Row} {element : Value} {a b : Condition} {x y : Bool}

theorem Condition.Decides.and (ha : a.Decides row element x) (hb : b.Decides row element y) :
    (Condition.and a b).Decides row element (x && y) := by
  obtain ⟨ta, hta, rfl⟩ := ha
  obtain ⟨tb, htb, rfl⟩ := hb
  simp only [Decides, Condition.eval, hta, ok_bind, htb]
  rcases ta with _ | _ | _
  · exact ⟨none, rfl, rfl⟩
  · exact ⟨some false, rfl, rfl⟩
  · exact ⟨tb, rfl, rfl⟩

theorem Condition.Decides.or (ha : a.Decides row element x) (hb : b.Decides row element y) :
    (Condition.or a b).Decides row element (x || y) := by
  obtain ⟨ta, hta, rfl⟩ := ha
  obtain ⟨tb, htb, rfl⟩ := hb
  simp only [Decides, Condition.eval, hta, ok_bind, htb]
  rcases ta with _ | _ | _
  · rcases tb with _ | _ | _
    · exact ⟨none, rfl, rfl⟩
    · exact ⟨none, rfl, rfl⟩
    · exact ⟨some true, rfl, rfl⟩
  · exact ⟨tb, rfl, rfl⟩
  · exact ⟨some true, rfl, rfl⟩

theorem anyHolds_eq {holds : Value → Except Error (Option Bool)} {test : Json → Bool} {xs : List Json}
    (h : ∀ x ∈ xs, ∃ truth, holds (Value.ofJson x) = .ok truth ∧ (truth == some true) = test x) :
    anyHolds holds xs = .ok (xs.any test) := by
  induction xs with
  | nil => rfl
  | cons x xs ih =>
      obtain ⟨truth, ht, hx⟩ := h x (List.mem_cons_self ..)
      rw [anyHolds, ht, ok_bind, List.any_cons, ← hx, ih fun y hy => h y (List.mem_cons_of_mem _ hy)]
      cases hb : truth == some true with
      | true => rw [if_pos (eq_of_beq hb), Bool.true_or]
      | false => rw [if_neg (by simpa using hb), Bool.false_or]

end Sql

/-! ## Values -/

namespace Value

variable {v w : Value} {type : FieldType}

/-- A stored value, extracted, is the parameter that stands for it. -/
theorem ofJson_toJson (v : Value) : Sql.Value.ofJson v.toJson = v.parameter := by
  cases v with
  | integer n =>
      have h : -0x8000000000000000 ≤ n.toInt ∧ n.toInt < 0x8000000000000000 :=
        ⟨Int64.le_toInt n, Int64.toInt_lt n⟩
      simp only [toJson, int64Json, Json.ofInt, Sql.Value.ofJson, if_pos h, Int64.ofInt_toInt, parameter]
  | boolean b => cases b <;> rfl
  | timestamp t => simp [toJson, timestampJson, Sql.Value.ofJson, parameter, Timestamp.render]
  | _ => rfl

theorem orderRatios_one (m n : Int) : Sql.orderRatios m 1 n 1 = compare m n := by
  change compareOfLessAndEq (m * 1) (n * 1) = compareOfLessAndEq m n
  rw [Int.mul_one, Int.mul_one]

/-- The text of a parameter is the text by which the stored value is compared. -/
theorem text?_parameter (v : Value) : v.parameter.text? = v.toJson.scalarText? := by
  cases v with
  | boolean b =>
      cases b
      · change some (Decimal.ofInt (.ofNat 0)) = some ['0']
        rw [Decimal.ofInt, Decimal.ofNat]
        rfl
      · change some (Decimal.ofInt (.ofNat 1)) = some ['1']
        rw [Decimal.ofInt, Decimal.ofNat]
        rfl
  | timestamp t => simp [parameter, Sql.Value.text?, toJson, timestampJson, Json.scalarText?, Timestamp.render]
  | _ => rfl

theorem typeName_toJson (v : Value) : ["object", "array"].contains (Sql.typeName v.toJson) = false := by
  cases v with
  | boolean b => cases b <;> rfl
  | _ => rfl

/-- Equality of parameters is equality as the stored form. -/
theorem equal_parameter (hv : v.HasType type) (hw : w.HasType type) :
    ((v.parameter.order? w.parameter).map Sql.Comparison.equal.holds == some true) =
      w.isStoredAs v.toJson := by
  have htext : ∀ s t : String,
      ((Sql.Value.order? (.text s.toList) (.text t.toList)).map Sql.Comparison.equal.holds == some true) =
        (some s == some t) := by
    intro s t
    rw [Bool.eq_iff_iff]
    simp [Sql.Value.order?, Sql.Comparison.holds, order_eq_eq_iff, String.toList_inj]
  have hint : ∀ m n : Int64,
      ((Sql.Value.order? (.integer m) (.integer n)).map Sql.Comparison.equal.holds == some true) =
        (some m == some n) := by
    intro m n
    rw [Bool.eq_iff_iff]
    simp [Sql.Value.order?, Sql.Comparison.holds, Sql.ratio, orderRatios_one, Int64.toInt_inj]
  cases v with
  | text s =>
      cases w <;> cases type <;> simp only [HasType] at hv hw
      exact htext _ _
  | integer m =>
      cases w <;> cases type <;> simp only [HasType] at hv hw
      simp only [isStoredAs, toJson, int64Json, Json.ofInt, Json.int64?, Json.Number.toInt64?_toInt]
      exact hint _ _
  | boolean b =>
      cases w <;> cases type <;> simp only [HasType] at hv hw
      rename_i c
      cases b <;> cases c <;> rfl
  | enum name =>
      cases w <;> cases type <;> simp only [HasType] at hv hw
      exact htext _ _
  | timestamp t =>
      cases w <;> cases type <;> simp only [HasType] at hv hw
      rename_i u
      have h := htext t.render u.render
      simp only [Timestamp.render, String.toList_ofList] at h
      simp only [parameter, isStoredAs, toJson, timestampJson, Json.text?, Timestamp.render]
      exact h

end Value

theorem Json.Plain.of_descend {d : Nat} {v w : Json} {path : List String} (h : Plain d v)
    (hs : Sql.descend path v = some w) : Plain d w := by
  induction path generalizing d v with
  | nil =>
      cases hs
      exact h
  | cons name path ih =>
      rw [Sql.descend] at hs
      obtain ⟨m, hm, hrest⟩ := Option.bind_eq_some_iff.mp hs
      cases h with
      | object hms =>
          obtain ⟨before, after, e, _⟩ := List.lookup_eq_some_iff.mp hm
          have hmem := hms (name, m) (by rw [e]; simp)
          exact (ih hmem hrest).mono (Nat.le_succ _)
      | _ => cases hm

/-! ## Predicates on the row of a record -/

section Row

variable {r : Record} {scope : Scope} {field : Field} {row : Sql.Row} {element : Sql.Value}

/-- What a declared field of a record leads to, in both readings of the stored form. -/
theorem Record.locate_body (hd : scope.Declares field) :
    Sql.locate (.text r.print) (Clause.path field) = .ok (Sql.descend field.path r.toJson) := by
  have hleads : scope.fields.LeadsTo field.path field.type := FieldTable.leadsTo_of_resolveUnder hd
  exact locate_print (r.plain.mono (by decide)) hleads.ne_nil (hleads.undotted scope.fields_undotted)

namespace Clause

/-- The part of the body at the path of a field. -/
def part (field : Field) : Sql.Term := .jsonExtract (.column .body) (.literal (path field))

theorem eval_part (hb : row.body = .text r.print) (hd : scope.Declares field) :
    (part field).eval row element =
      .ok (((Sql.descend field.path r.toJson).map Sql.Value.ofJson).getD .null) := by
  simp only [part, Sql.Term.eval, hb, ok_bind, Record.locate_body hd]

/-- The type of the part of the body at the path of a field. -/
def partType (field : Field) : Sql.Term := .jsonType (.column .body) (.literal (path field))

theorem eval_partType (hb : row.body = .text r.print) (hd : scope.Declares field) :
    (partType field).eval row element =
      .ok (((Sql.descend field.path r.toJson).map fun v => Sql.Value.text (Sql.typeName v).toList).getD
        .null) := by
  simp only [partType, Sql.Term.eval, hb, ok_bind, Record.locate_body hd]

theorem compare_decides (hb : row.body = .text r.print) (hr : r.inScope scope = true)
    (hd : scope.Declares field) {op : Sql.Comparison} {value : Value} (hv : value.HasType field.type)
    {test : Json → Bool}
    (h : ∀ v : Value, v.HasType field.type →
      ((v.parameter.order? value.parameter).map op.holds == some true) = test v.toJson) :
    (Sql.Condition.compare op (part field) (.literal value.parameter)).Decides row element
      ((r.toJson.lookup field.path).any test) := by
  simp only [Sql.Condition.Decides, Sql.Condition.eval, eval_part hb hd, ok_bind, Sql.Term.eval]
  rcases Record.found_of_resolve hr hd with ⟨c, _, ht, hj, hs⟩ | ⟨hj, hs, _⟩
  · obtain ⟨v, rfl, hw⟩ := ht.exists_scalar hv
    rw [hj, hs]
    refine ⟨_, rfl, ?_⟩
    rw [toJson_scalar, Option.map_some, Option.getD_some, Value.ofJson_toJson, Option.any_some]
    exact h v hw
  · rw [hj, hs]
    exact ⟨none, rfl, rfl⟩

theorem equals_decides (hb : row.body = .text r.print) (hr : r.inScope scope = true)
    (hd : scope.Declares field) {value : Value} (hv : value.HasType field.type) :
    (ofPredicate (.equals field value)).filled.Decides row element
      ((Predicate.equals field value).eval r.toJson) :=
  compare_decides hb hr hd hv fun _ hw => Value.equal_parameter hw hv

theorem filled_like (field : Field) (pattern : String) (ignoreCase : Bool) :
    (ofPredicate (.like field pattern ignoreCase)).filled =
      .like (if ignoreCase then .lower (part field) else part field) (.literal (.text pattern.toList)) := by
  cases ignoreCase <;> rfl

theorem eval_subject {o : Option String}
    (h : (part field).eval row element = .ok ((o.map fun s => Sql.Value.text s.toList).getD .null))
    (ignoreCase : Bool) :
    (if ignoreCase then Sql.Term.lower (part field) else part field).eval row element =
      .ok ((o.map fun s =>
        Sql.Value.text (if ignoreCase then lowercase s.toList else s.toList)).getD .null) := by
  cases ignoreCase with
  | false => exact h
  | true =>
      simp only [if_true, Sql.Term.eval, h, ok_bind]
      cases o <;> rfl

theorem like_decides (hb : row.body = .text r.print) (hr : r.inScope scope = true)
    (hd : scope.Declares field) (ht : field.type = .text) (pattern : String) (ignoreCase : Bool) :
    (ofPredicate (.like field pattern ignoreCase)).filled.Decides row element
      ((Predicate.like field pattern ignoreCase).evalBy matchesUntilNull r.toJson) := by
  have hpart : (part field).eval row element = _ := eval_part hb hd
  obtain ⟨o, hj, hs⟩ : ∃ o : Option String, Json.lookup field.path r.toJson = o.map .string ∧
      Sql.descend field.path r.toJson = o.map .string := by
    rcases Record.found_of_resolve hr hd with ⟨c, _, hc, hj, hs⟩ | ⟨hj, hs, _⟩
    · rw [ht] at hc
      obtain ⟨v, rfl, hv⟩ := hc.exists_scalar (w := .text "") trivial
      cases v with
      | text s => exact ⟨some s, hj, hs⟩
      | _ => exact hv.elim
    · exact ⟨none, hj, hs⟩
  rw [hs, Option.map_map] at hpart
  rw [filled_like, Sql.Condition.Decides, Sql.Condition.eval, eval_subject hpart, Predicate.evalBy, hj]
  cases o with
  | none => exact ⟨none, rfl, rfl⟩
  | some s =>
      refine ⟨some (matchesUntilNull pattern ignoreCase s), rfl, ?_⟩
      cases h : matchesUntilNull pattern ignoreCase s <;> simp [Json.text?, h]

/-- A bound by a point in time compares canonical forms. -/
theorem bound_timestamp_decides (hb : row.body = .text r.print) (hr : r.inScope scope = true)
    (hd : scope.Declares field) (ht : field.type = .timestamp) (op : Sql.Comparison) (t : Timestamp) :
    (bound op field (.timestamp t)).filled.Decides row element
      (((r.toJson.lookup field.path).bind (Value.timestamp t).orderOf?).any op.holds) := by
  have htype : (Value.timestamp t).HasType field.type := by rw [ht]; trivial
  rw [Option.any_bind]
  refine compare_decides hb hr hd htype fun v hv => ?_
  rw [ht] at hv
  cases v with
  | timestamp u =>
      simp only [Value.parameter, Sql.Value.order?, Value.orderOf?, Value.toJson, timestampJson,
        Json.text?, Timestamp.render, String.toList_ofList, Option.map_some, Option.any_some, Function.comp]
      cases op.holds (order u.print t.print) <;> rfl
  | _ => exact hv.elim

/-- Objects and lists are known by the name of their type and have no text. -/
theorem collection_has_no_text {c : Content} (hv : ∀ v, c ≠ .scalar v) (hm : c ≠ .missing) :
    ["object", "array"].contains (Sql.typeName c.toJson) = true ∧ c.toJson.scalarText? = none := by
  cases c with
  | scalar v => exact absurd rfl (hv v)
  | object fields => exact ⟨by simp [Content.toJson, Sql.typeName], by rw [Content.toJson]; rfl⟩
  | list cs => exact ⟨by simp [Content.toJson, Sql.typeName], by rw [Content.toJson]; rfl⟩
  | missing => exact absurd rfl hm

/-- A bound by a text compares the texts of values; objects and lists have none. -/
theorem bound_text_decides (hb : row.body = .text r.print) (hr : r.inScope scope = true)
    (hd : scope.Declares field) (op : Sql.Comparison) (s : String) :
    (bound op field (.text s)).filled.Decides row element
      (((r.toJson.lookup field.path).bind (Value.text s).orderOf?).any op.holds) := by
  change Sql.Condition.Decides
    (.and (.notIn (partType field) ["object", "array"])
      (.compare op (.castText (part field)) (.literal (.text s.toList)))) row element _
  have htype : (partType field).eval row element = _ := eval_partType hb hd
  have hpart : (part field).eval row element = _ := eval_part hb hd
  rcases Record.found_of_resolve hr hd with ⟨c, _, hc, hj, hs⟩ | ⟨hj, hs, _⟩
  · rw [hs] at htype hpart
    rw [hj]
    obtain ⟨v, rfl⟩ | hv : (∃ v, c = .scalar v) ∨ ∀ v, c ≠ .scalar v := by cases c <;> simp
    · rw [toJson_scalar] at htype hpart ⊢
      simp only [Sql.Condition.Decides, Sql.Condition.eval, htype, hpart, ok_bind, Sql.Term.eval,
        Option.map_some, Option.getD_some, String.ofList_toList, v.typeName_toJson, Value.ofJson_toJson,
        v.text?_parameter]
      refine ⟨_, rfl, ?_⟩
      simp only [Option.bind_some, Value.orderOf?, Value.display]
      cases v.toJson.scalarText? with
      | none => rfl
      | some t =>
          simp only [Option.map_some, Option.getD_some, Sql.Value.order?, Option.any_some]
          cases op.holds (order t s.toList) <;> rfl
    · obtain ⟨hname, hnone⟩ := collection_has_no_text hv hc.ne_missing
      have horder : (Value.text s).orderOf? c.toJson = none := by
        simp only [Value.orderOf?, hnone, Option.map_none]
      refine ⟨some false, ?_, by rw [Option.bind_some, horder]; rfl⟩
      simp only [Sql.Condition.eval, htype, ok_bind, Option.map_some, Option.getD_some,
        String.ofList_toList, hname]
      rfl
  · rw [hs] at htype
    rw [hj]
    refine ⟨none, ?_, rfl⟩
    simp only [Sql.Condition.eval, htype, ok_bind]
    rfl

theorem plain_of_mem {path : List String} {cs : List Content} {e : Content} (he : e ∈ cs)
    (hs : Sql.descend path r.toJson = some (Content.list cs).toJson) : Json.Plain Json.maxDepth e.toJson := by
  have hlist := r.plain.of_descend hs
  rw [toJson_list] at hlist
  cases hlist with
  | array hxs => exact (hxs _ (List.mem_map_of_mem he)).mono (by decide)

theorem existsEach_decides (hb : row.body = .text r.print) (hr : r.inScope scope = true)
    (hd : scope.Declares field) {type : FieldType} (ht : field.type = .list type)
    {condition : Sql.Condition} {test : Json → Bool}
    (h : ∀ e : Content, e.HasType type → Json.Plain Json.maxDepth e.toJson →
      condition.Decides row (Sql.Value.ofJson e.toJson) (test e.toJson)) :
    (Sql.Condition.existsEach (.column .body) (.literal (path field)) condition).Decides row element
      (((r.toJson.lookup field.path).bind Json.elements?).any (·.any test)) := by
  simp only [Sql.Condition.Decides, Sql.Condition.eval, Sql.Term.eval, hb, ok_bind, Record.locate_body hd]
  rcases Record.found_of_resolve hr hd with ⟨c, _, hc, hj, hs⟩ | ⟨hj, hs, _⟩
  · rw [ht] at hc
    obtain ⟨cs, rfl, hcs⟩ := hc.exists_list
    have hany : Sql.anyHolds (fun x => condition.eval row x) (cs.map Content.toJson) =
        .ok ((cs.map Content.toJson).any test) := by
      refine Sql.anyHolds_eq fun x hx => ?_
      obtain ⟨e, he, rfl⟩ := List.mem_map.mp hx
      exact h e (hcs e he) (plain_of_mem he hs)
    rw [hj, hs, toJson_list]
    refine ⟨some ((cs.map Content.toJson).any test), ?_, ?_⟩
    · simp only [Sql.each, hany, ok_bind]
    · rw [Option.bind_some, Json.elements?, Option.any_some]
      cases (cs.map Content.toJson).any test <;> rfl
  · rw [hj, hs]
    exact ⟨some false, rfl, rfl⟩

theorem includes_decides (hb : row.body = .text r.print) (hr : r.inScope scope = true)
    (hd : scope.Declares field) {type : FieldType} (ht : field.type = .list type) {value : Value}
    (hv : value.HasType type) :
    (ofPredicate (.includes field value)).filled.Decides row element
      ((Predicate.includes field value).eval r.toJson) := by
  refine existsEach_decides hb hr hd ht fun e he _ => ?_
  obtain ⟨v, rfl, hw⟩ := he.exists_scalar hv
  refine ⟨_, rfl, ?_⟩
  rw [toJson_scalar, Value.ofJson_toJson]
  exact Value.equal_parameter hw hv

/-- An object in a list is extracted as its text, in which the path of a member finds the same. -/
theorem locate_element {e : Content} (ht : e.HasType (.object committeeMemberFields))
    (hp : Json.Plain Json.maxDepth e.toJson) :
    Sql.locate (Sql.Value.ofJson e.toJson) (path memberName) =
      .ok (Sql.descend memberName.path e.toJson) := by
  cases ht with
  | scalar hv => exact absurd hv Value.not_hasType_object
  | object =>
      rw [Content.toJson] at hp ⊢
      exact locate_print hp (List.cons_ne_nil _ _) (by decide)

theorem anyRelated_decides (hb : row.body = .text r.print) (hr : r.inScope scope = true)
    (hd : scope.Declares field) (hp : field.path = assignedPath) (s : String) :
    (ofPredicate (.anyRelated field memberName (.text s))).filled.Decides row element
      ((Predicate.anyRelated field memberName (.text s)).eval r.toJson) := by
  refine existsEach_decides hb hr hd (Operator.type_of_assignedPath hd hp) fun e he hplain => ?_
  have hmember : FieldTable.resolveUnder [] committeeMemberFields memberName.path = .ok memberName := rfl
  simp only [Sql.Condition.Decides, Sql.Condition.eval, Sql.Term.eval, locate_element he hplain, ok_bind]
  refine ⟨_, rfl, ?_⟩
  rcases he.follows hmember with ⟨c, _, hc, hj, hs⟩ | ⟨hj, hs, _⟩
  · obtain ⟨v, rfl, hv⟩ := hc.exists_scalar (w := .text s) trivial
    rw [hj, hs, toJson_scalar, Option.map_some, Option.getD_some, Value.ofJson_toJson, Option.any_some]
    exact Value.equal_parameter (w := .text s) hv trivial
  · rw [hj, hs]
    rfl

/-- The clause of a typed predicate on the row of a record of the scope. -/
theorem ofPredicate_decides (hb : row.body = .text r.print) (hr : r.inScope scope = true) {p : Predicate}
    (hp : p.WellTyped scope) :
    (ofPredicate p).filled.Decides row element (p.evalBy matchesUntilNull r.toJson) := by
  induction p with
  | equals field value => exact equals_decides hb hr hp.1 hp.2
  | like field pattern ignoreCase => exact like_decides hb hr hp.1 hp.2 pattern ignoreCase
  | atLeast field value =>
      obtain ⟨hd, ht, t, rfl⟩ := hp
      exact bound_timestamp_decides hb hr hd ht .atLeast t
  | atMost field value =>
      obtain ⟨hd, htime, htext⟩ := hp
      by_cases ht : field.type = .timestamp
      · obtain ⟨t, rfl⟩ := htime ht
        exact bound_timestamp_decides hb hr hd ht .atMost t
      · obtain ⟨s, rfl⟩ := htext ht
        exact bound_text_decides hb hr hd .atMost s
  | includes field value =>
      obtain ⟨hd, type, ht, hv⟩ := hp
      exact includes_decides hb hr hd ht hv
  | anyRelated collection member value =>
      obtain ⟨hd, hpath, rfl, _, s, rfl⟩ := hp
      exact anyRelated_decides hb hr hd hpath s
  | and left right ihl ihr =>
      have hand := (ofPredicate_exact left).and (ofPredicate_exact right)
      change (Clause.and (ofPredicate left) (ofPredicate right)).filled.Decides _ _ _
      rw [hand.2]
      exact (ihl hp.1).and (ihr hp.2)
  | or left right ihl ihr =>
      have hor := (ofPredicate_exact left).or (ofPredicate_exact right)
      change (Clause.filled ⟨.or (ofPredicate left).condition (ofPredicate right).condition,
        (ofPredicate left).parameters ++ (ofPredicate right).parameters⟩).Decides _ _ _
      rw [hor.2]
      exact (ihl hp.1).or (ihr hp.2)

end Clause

end Row

end RecordSearch
