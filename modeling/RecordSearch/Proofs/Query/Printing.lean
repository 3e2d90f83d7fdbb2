import Mathlib
import RecordSearch.Proofs.Query.Compile
import RecordSearch.Proofs.Query.Segmentation
import RecordSearch.Text.Segments

/-!
# Written queries read back

Groups that are written one after another, with commas between them and perhaps one at the end, are read
back as they are, as long as no value after a colon would make a longer operator of it.
-/

namespace RecordSearch

namespace Query

variable {grammar : Grammar} {g : Group} {gs : List Group} {rest : List Char}

def Group.written (g : Group) : List Char := g.key ++ (g.operator ++ g.value)

/-- The groups as a query string. -/
def print (gs : List Group) : String := String.ofList (Text.join ',' (gs.map Group.written))

/-- The group can be written as it is: its parts are what a query string can hold, and its value does not
begin with what would belong to the operator. -/
structure Group.Writable (grammar : Grammar) (g : Group) : Prop where
  key_ne_nil : g.key ≠ []
  key : ∀ c ∈ g.key, isKeyChar c = true
  operator : g.operator ∈ grammar.operators
  value_ne_nil : g.value ≠ []
  comma : ',' ∉ g.value
  newline : '\n' ∉ g.value
  tilde : g.operator = [':'] → g.value.head? ≠ some '~'
  equals : grammar = .application → g.operator = [':'] → g.value.head? ≠ some '='

theorem Group.writable_iff : g.Writable grammar ↔
    g.key ≠ [] ∧ g.key.all isKeyChar = true ∧ g.operator ∈ grammar.operators ∧ g.value ≠ [] ∧
      ',' ∉ g.value ∧ '\n' ∉ g.value ∧ (g.operator = [':'] → g.value.head? ≠ some '~') ∧
      (grammar = .application → g.operator = [':'] → g.value.head? ≠ some '=') :=
  ⟨fun ⟨hkey, hchars, ho, hvalue, hcomma, hnewline, htilde, hequals⟩ =>
    ⟨hkey, List.all_eq_true.mpr hchars, ho, hvalue, hcomma, hnewline, htilde, hequals⟩,
  fun ⟨hkey, hchars, ho, hvalue, hcomma, hnewline, htilde, hequals⟩ =>
    ⟨hkey, List.all_eq_true.mp hchars, ho, hvalue, hcomma, hnewline, htilde, hequals⟩⟩

instance (grammar : Grammar) (g : Group) : Decidable (g.Writable grammar) :=
  decidable_of_iff' _ Group.writable_iff

theorem Group.Writable.wellFormed (h : g.Writable grammar) : g.WellFormed grammar :=
  ⟨h.key_ne_nil, h.key, h.operator,
    ⟨h.value_ne_nil, h.newline, fun hc => h.comma (List.mem_of_mem_tail hc)⟩⟩

/-- The operator of a group is the first that can be read, unless it is a colon and the value would make a
longer one of it. -/
theorem Group.WellFormed.operation_eq (hg : grammar = .user ∨ grammar = .application)
    (h : g.WellFormed grammar)
    (hhead : g.operator = [':'] → ∀ c, g.value.head? = some c → [':', c] ∉ grammar.operators)
    (rest : List Char) :
    grammar.operators.findSome? (operation? · (g.operator ++ (g.value ++ ',' :: rest))) =
      some (g.operator, g.value, rest) := by
  obtain ⟨key, operator, value⟩ := g
  obtain ⟨c, body, rfl⟩ := List.exists_cons_of_ne_nil h.value.ne_nil
  have hvalue : value? (c :: (body ++ ',' :: rest)) = some (c :: body, rest) :=
    value?_eq_some_iff.mpr ⟨rfl, h.value⟩
  have hoperator := h.operator
  have hcolon : operator = [':'] → [':', c] ∉ grammar.operators := fun ho => hhead ho c rfl
  rcases hg with rfl | rfl
  · simp only [Grammar.user, List.mem_cons, List.not_mem_nil, or_false] at hoperator hcolon
    rcases hoperator with rfl | rfl | rfl
    · simp [Grammar.user, operation?, afterLiteral?, hvalue]
    · have htilde : '~' ≠ c := fun e => hcolon rfl (.inl (e ▸ rfl))
      simp [Grammar.user, operation?, afterLiteral?, hvalue, htilde]
    · simp [Grammar.user, operation?, afterLiteral?, hvalue]
  · simp only [Grammar.application, List.mem_cons, List.not_mem_nil, or_false] at hoperator hcolon
    rcases hoperator with rfl | rfl | rfl | rfl | rfl | rfl
    · simp [Grammar.application, operation?, afterLiteral?, hvalue]
    · simp [Grammar.application, operation?, afterLiteral?, hvalue]
    · have hequals : '=' ≠ c := fun e => hcolon rfl (.inl (e ▸ rfl))
      have htilde : '~' ≠ c := fun e => hcolon rfl (.inr (.inl (e ▸ rfl)))
      simp [Grammar.application, operation?, afterLiteral?, hvalue, htilde, hequals]
    all_goals simp [Grammar.application, operation?, afterLiteral?, hvalue]

theorem Group.Writable.operation (hg : grammar = .user ∨ grammar = .application) (h : g.Writable grammar)
    (rest : List Char) :
    grammar.operators.findSome? (operation? · (g.operator ++ (g.value ++ ',' :: rest))) =
      some (g.operator, g.value, rest) := by
  refine h.wellFormed.operation_eq hg (fun ho c hc hlonger => ?_) rest
  have htilde := h.tilde ho
  rw [hc] at htilde
  rcases hg with rfl | rfl
  · simp [Grammar.user] at hlonger
    exact htilde (congrArg some hlonger)
  · have hequals := h.equals rfl ho
    rw [hc] at hequals
    simp [Grammar.application] at hlonger
    exact hlonger.elim (fun e => hequals (congrArg some e)) fun e => htilde (congrArg some e)

/-- Written groups, each ended by a comma, are read before anything. -/
theorem groups_texts (hg : grammar = .user ∨ grammar = .application) (h : ∀ g ∈ gs, g.Writable grammar)
    (rest : List Char) : groups grammar (gs.flatMap Group.text ++ rest) = gs ++ groups grammar rest := by
  induction gs with
  | nil => rfl
  | cons g gs ih =>
      rw [List.forall_mem_cons] at h
      rw [List.flatMap_cons, List.append_assoc,
        h.1.wellFormed.groups_text (Grammar.separated hg) (h.1.operation hg _), ih h.2, List.cons_append]

theorem join_written (hne : gs ≠ []) :
    Text.join ',' (gs.map Group.written) ++ [','] = gs.flatMap Group.text := by
  induction gs with
  | nil => exact absurd rfl hne
  | cons g gs ih =>
      cases gs with
      | nil => simp [Text.join, Group.written, Group.text]
      | cons next gs =>
          have hne : (next :: gs).map Group.written ≠ [] := List.cons_ne_nil _ _
          rw [List.map_cons, Text.join_cons_of_ne_nil _ _ hne, List.append_assoc, List.cons_append,
            ih (List.cons_ne_nil _ _)]
          simp [Group.written, Group.text]

/-- Groups are read back, with a comma behind the last of them and with two. -/
theorem groups_print (hg : grammar = .user ∨ grammar = .application) (h : ∀ g ∈ gs, g.Writable grammar) :
    groups grammar ((print gs).toList ++ [',']) = gs ∧
      groups grammar ((print gs).toList ++ [','] ++ [',']) = gs := by
  rw [print, String.toList_ofList]
  cases gs with
  | nil => exact ⟨groups_comma, (groups_of_no_key rfl).trans groups_comma⟩
  | cons g gs =>
      have htexts := groups_texts hg h
      rw [join_written (List.cons_ne_nil g gs)]
      refine ⟨?_, ?_⟩
      · have hread := htexts []
        rwa [groups, List.append_nil, List.append_nil] at hread
      · rw [htexts, groups_comma, List.append_nil]

/-- A group that can be written makes a query string of its own. -/
theorem parse_single (hg : grammar = .user ∨ grammar = .application) {key literal raw : String}
    (h : Group.Writable grammar ⟨key.toList, literal.toList, raw.toList⟩) (byOr : Bool) :
    parse grammar (key ++ literal ++ raw) byOr = [⟨key, literal, .text raw, byOr⟩] := by
  have htext : print [⟨key.toList, literal.toList, raw.toList⟩] = key ++ literal ++ raw := by
    simp [print, Text.join, Group.written, String.append_assoc]
  rw [← htext, parse, (groups_print hg (List.forall_mem_singleton.mpr h)).1]
  simp [Group.criterion]

/-- A query string that was written from groups is read as these groups, in order, whether a comma stands at
its end or not, and each criterion is joined in the way that is asked for. -/
theorem parse_written (hg : grammar = .user ∨ grammar = .application) (h : ∀ g ∈ gs, g.Writable grammar)
    (byOr : Bool) :
    parse grammar (print gs) byOr = gs.map (·.criterion byOr) ∧
      parse grammar (print gs ++ ",") byOr = gs.map (·.criterion byOr) := by
  obtain ⟨hplain, hcomma⟩ := groups_print hg h
  refine ⟨congrArg _ hplain, ?_⟩
  rw [parse, String.toList_append]
  exact congrArg _ hcomma

/-- Values with operators in them, and one that looks like another group. -/
theorem parse_written_lookalikes :
    let gs : List Group :=
      [⟨"a.b".toList, ":=".toList, "=:~".toList⟩, ⟨"c".toList, ":".toList, "<x=1 d>2".toList⟩]
    (∀ g ∈ gs, g.Writable .application) ∧
      parse .application "a.b:==:~,c:<x=1 d>2," true =
        [⟨"a.b", ":=", .text "=:~", true⟩, ⟨"c", ":", .text "<x=1 d>2", true⟩] := by
  intro gs
  have hgs : ∀ g ∈ gs, g.Writable .application := by
    simp only [gs, List.forall_mem_cons]
    exact ⟨⟨by decide, List.all_eq_true.mp (by decide), by decide, by decide, by decide, by decide, by decide,
        by decide⟩,
      ⟨by decide, List.all_eq_true.mp (by decide), by decide, by decide, by decide, by decide, by decide,
        by decide⟩,
      List.forall_mem_nil _⟩
  exact ⟨hgs, (parse_written (.inr rfl) hgs true).2⟩

end Query

namespace Entity

variable {entity : Entity} {key literal raw : String}

/-- A query string that is written from one group compiles as its criterion does. -/
theorem compile_single
    (h : Query.Group.Writable entity.descriptor.grammar ⟨key.toList, literal.toList, raw.toList⟩)
    (byOr : Bool) :
    entity.compile (key ++ literal ++ raw) byOr =
      (Criterion.compile ⟨key, literal, .text raw, byOr⟩ entity.descriptor .standard).map
        (entity.descriptor.scope, ·) := by
  rw [compile, compileWith, Query.parse_single entity.grammar_cases h, Query.build, Query.buildFrom_cons]
  cases Criterion.compile ⟨key, literal, .text raw, byOr⟩ entity.descriptor .standard <;> rfl

theorem compile_single_iff {f : Filter}
    (h : Query.Group.Writable entity.descriptor.grammar ⟨key.toList, literal.toList, raw.toList⟩)
    (byOr : Bool) :
    entity.compile (key ++ literal ++ raw) byOr = .ok (entity.descriptor.scope, f) ↔
      Criterion.compile ⟨key, literal, .text raw, byOr⟩ entity.descriptor .standard = .ok f := by
  rw [compile_single h, map_eq_ok_iff]
  simp

end Entity

end RecordSearch
