import Mathlib
import RecordSearch.Proofs.Query.Printing

/-!
# Groups in their places

Each group that a text is read as has its place there: what stands before it is read as the groups before,
what stands behind it as those after. The operator and the value of a group are seen from the text at its
place. A value takes in a comma that stands right after the operator, and an operator is the longest after
which a value can be read, which may leave the end of a longer one to the value.
-/

namespace RecordSearch

open Query

/-- An operator after a key is directly followed by a comma. -/
def Grammar.LeavesEmpty (grammar : Grammar) (s : List Char) : Prop :=
  ∃ before c literal after, s = before ++ c :: (literal ++ ',' :: after) ∧ isKeyChar c = true ∧
    literal ∈ grammar.operators

/-- The longest operator of the language that has the property. -/
structure Grammar.Longest (grammar : Grammar) (P : List Char → Prop) (operator : List Char) : Prop where
  mem : operator ∈ grammar.operators
  holds : P operator
  length_le : ∀ literal ∈ grammar.operators, P literal → literal.length ≤ operator.length

namespace Query

variable {grammar : Grammar} {g : Group} {before after : List Group} {gap literal s t rest value : List Char}

/-! ## Places -/

theorem Begins.mono (h : Begins grammar s) (hs : s <+: t) : Begins grammar t := by
  obtain ⟨g, hw, hg⟩ := h
  exact ⟨g, hw, hg.trans hs⟩

theorem BeginsWith.mono (h : BeginsWith grammar literal s) (hs : s <+: t) : BeginsWith grammar literal t := by
  obtain ⟨g, hw, ho, hg⟩ := h
  exact ⟨g, hw, ho, hg.trans hs⟩

theorem IsGap.of_append (h : IsGap grammar gap (rest ++ t)) : IsGap grammar gap rest := by
  intro s hs hne hb
  refine h s hs hne (hb.mono ?_)
  rw [← List.append_assoc]
  exact List.prefix_append _ _

theorem Leads.of_append (h : Leads grammar g (rest ++ t)) : Leads grammar g rest := by
  obtain ⟨first, others, hoperators, hfirst⟩ := h.first
  refine ⟨h.wellFormed, first, others, hoperators, fun operator ho hb => hfirst operator ho (hb.mono ?_)⟩
  rw [← List.append_assoc]
  exact List.prefix_append _ _

theorem Segmented.split (h : Segmented grammar s (before ++ g :: after)) :
    ∃ start rest, s = start ++ (g.text ++ rest) ∧ Segmented grammar start before ∧ Leads grammar g rest ∧
      Segmented grammar rest after := by
  induction before generalizing s with
  | nil =>
      cases h with
      | @group gap rest _ _ hgap hlead hrest =>
        exact ⟨gap, rest, rfl, .last (IsGap.of_append (t := g.text ++ rest) hgap), hlead, hrest⟩
  | cons first before ih =>
      cases h with
      | @group gap rest _ _ hgap hlead hrest =>
        obtain ⟨start, rest, rfl, hstart, hg, hafter⟩ := ih hrest
        rw [← List.append_assoc] at hgap
        exact ⟨gap ++ (first.text ++ start), rest, by simp, .group hgap.of_append hlead.of_append hstart, hg,
          hafter⟩

/-- A group in a text, with what stands before it and behind it. -/
structure Place where
  start : List Char
  group : Group
  rest : List Char

namespace Place

/-- What stands behind the key. -/
def afterKey (p : Place) : List Char := p.group.operator ++ (p.group.value ++ ',' :: p.rest)

/-- The query string is read as the criteria `before` up to the place, as the criterion there, and from
there on as those `after`. -/
structure Yields (p : Place) (grammar : Grammar) (raw : String) (byOr : Bool) (before : List Criterion)
    (c : Criterion) (after : List Criterion) : Prop where
  text : raw.toList ++ [','] = p.start ++ (p.group.key ++ p.afterKey)
  before : (groups grammar p.start).map (·.criterion byOr) = before
  criterion : p.group.criterion byOr = c
  after : (groups grammar p.rest).map (·.criterion byOr) = after

end Place

theorem exists_place (hg : grammar.Separated) {raw : String} {byOr : Bool} {before after : List Criterion}
    {c : Criterion} (h : parse grammar raw byOr = before ++ c :: after) :
    ∃ p : Place, p.Yields grammar raw byOr before c after ∧ Leads grammar p.group p.rest := by
  obtain ⟨first, others, hgroups, hbefore, hothers⟩ := List.map_eq_append_iff.mp h
  obtain ⟨g, last, rfl, hc, hafter⟩ := List.map_eq_cons_iff.mp hothers
  have hcut := segmented_groups hg (raw.toList ++ [','])
  rw [hgroups] at hcut
  obtain ⟨start, rest, htext, hstart, hlead, hrest⟩ := hcut.split
  refine ⟨⟨start, g, rest⟩, ⟨?_, ?_, hc, ?_⟩, hlead⟩
  · rw [htext]
    simp [Place.afterKey, Group.text]
  · rw [groups_of_segmented hg hstart, hbefore]
  · rw [groups_of_segmented hg hrest, hafter]

variable {p : Place} {raw : String} {byOr : Bool} {c : Criterion} {criteria others : List Criterion}

/-- Behind a place the text is over, or it ends with the comma that was added to it. -/
theorem Place.Yields.rest_cases (h : p.Yields grammar raw byOr criteria c others) :
    p.rest = [] ∨ ∃ init, p.rest = init ++ [','] := by
  have hsuffix : p.rest <:+ raw.toList ++ [','] :=
    ⟨p.start ++ (p.group.key ++ (p.group.operator ++ (p.group.value ++ [',']))), by simp [h.text, afterKey]⟩
  rcases List.suffix_concat_iff.mp hsuffix with hrest | ⟨init, hrest, _⟩
  · exact .inl hrest
  · exact .inr ⟨init, hrest⟩

/-! ## Commas in values -/

theorem IsValue.comma_cases (h : IsValue value) :
    ',' ∉ value ∨ ∃ piece, value = ',' :: piece ∧ ',' ∉ piece := by
  obtain ⟨first, piece, rfl⟩ := List.exists_cons_of_ne_nil h.ne_nil
  by_cases hfirst : first = ','
  · exact .inr ⟨piece, by rw [hfirst], h.comma⟩
  · refine .inl fun hc => ?_
    rcases List.mem_cons.mp hc with hc | hc
    · exact hfirst hc.symm
    · exact h.comma hc

/-- The comma of a value stands in the query string itself: behind it there is at least the comma that ends
the value. -/
theorem Place.Yields.leavesEmpty {piece : List Char} (h : p.Yields grammar raw byOr criteria c others)
    (hw : p.group.WellFormed grammar) (hv : p.group.value = ',' :: piece) :
    grammar.LeavesEmpty raw.toList := by
  obtain ⟨key, last, hkey⟩ := (List.eq_nil_or_concat p.group.key).resolve_left hw.key_ne_nil
  obtain ⟨behind, final, hbehind⟩ :=
    (List.eq_nil_or_concat (piece ++ ',' :: p.rest)).resolve_left (by simp)
  rw [List.concat_eq_append] at hkey hbehind
  have htext := h.text
  have hsplit : p.start ++ (p.group.key ++ p.afterKey) =
      ((p.start ++ key) ++ last :: (p.group.operator ++ ',' :: behind)) ++ [final] := by
    rw [afterKey, hv, hkey, List.cons_append, hbehind]
    simp
  rw [hsplit] at htext
  refine ⟨p.start ++ key, last, p.group.operator, behind, (List.append_inj' htext rfl).1, ?_, hw.operator⟩
  exact hw.key last (by rw [hkey]; simp)

/-- An operator that is directly followed by a comma has for value all up to the next one. -/
theorem groups_of_empty_value (hg : grammar = .user ∨ grammar = .application) {key operator piece : List Char}
    (hne : key ≠ []) (hkey : ∀ c ∈ key, isKeyChar c = true) (ho : operator ∈ grammar.operators)
    (hcomma : ',' ∉ piece) (hnewline : '\n' ∉ piece) (rest : List Char) :
    groups grammar (key ++ (operator ++ ',' :: (piece ++ ',' :: rest))) =
      ⟨key, operator, ',' :: piece⟩ :: groups grammar rest := by
  have hvalue : IsValue (',' :: piece) := ⟨List.cons_ne_nil _ _, by simpa using hnewline, hcomma⟩
  have hw : Group.WellFormed grammar ⟨key, operator, ',' :: piece⟩ := ⟨hne, hkey, ho, hvalue⟩
  have hread := hw.groups_text (Grammar.separated hg) (hw.operation_eq hg (fun _ c hc hlonger => ?_) rest)
  · simpa [Group.text] using hread
  · cases hc
    rcases hg with rfl | rfl
    · revert hlonger; decide
    · revert hlonger; decide

/-- A value has no comma, except perhaps for its first character, when the operator is directly followed by
a comma in the query string. The value is then the piece between that comma and the next, and reading
goes on behind it. -/
theorem parse_commas (hg : grammar = .user ∨ grammar = .application) (byOr : Bool) :
    (∀ raw before c after, parse grammar raw byOr = before ++ c :: after →
      ∃ p : Place, p.Yields grammar raw byOr before c after ∧
        (',' ∉ p.group.value ∨ ∃ piece, p.group.value = ',' :: piece ∧ ',' ∉ piece)) ∧
    (∀ raw, ¬ grammar.LeavesEmpty raw.toList → ∀ c ∈ parse grammar raw byOr,
      ∃ value, c.value = .text value ∧ ',' ∉ value.toList) ∧
    ∀ key operator piece : String, key ≠ "" → (∀ c ∈ key.toList, isKeyChar c = true) →
      operator.toList ∈ grammar.operators → ',' ∉ piece.toList → '\n' ∉ piece.toList →
      let c : Criterion := ⟨key, operator, .text ("," ++ piece), byOr⟩
      parse grammar (key ++ operator ++ "," ++ piece) byOr = [c] ∧
        ∀ raw, parse grammar (key ++ operator ++ "," ++ piece ++ "," ++ raw) byOr =
          c :: parse grammar raw byOr := by
  refine ⟨fun raw before c after h => ?_, fun raw hno c hc => ?_, ?_⟩
  · obtain ⟨p, hp, hlead⟩ := exists_place (Grammar.separated hg) h
    exact ⟨p, hp, hlead.wellFormed.value.comma_cases⟩
  · obtain ⟨before, after, h⟩ := List.append_of_mem hc
    obtain ⟨p, hp, hlead⟩ := exists_place (Grammar.separated hg) h
    refine ⟨String.ofList p.group.value, hp.criterion ▸ rfl, ?_⟩
    rcases hlead.wellFormed.value.comma_cases with hcomma | ⟨piece, hpiece, _⟩
    · rwa [String.toList_ofList]
    · exact absurd (hp.leavesEmpty hlead.wellFormed hpiece) hno
  · intro key operator piece hne hkey ho hcomma hnewline c
    have hread := groups_of_empty_value hg (by simpa using hne) hkey ho hcomma hnewline
    have hc : Group.criterion ⟨key.toList, operator.toList, ',' :: piece.toList⟩ byOr = c := by
      simp [Group.criterion, c]
    refine ⟨?_, fun raw => ?_⟩
    · have htext : (key ++ operator ++ "," ++ piece).toList ++ [','] =
          key.toList ++ (operator.toList ++ ',' :: (piece.toList ++ ',' :: [])) := by simp
      rw [parse, htext, hread, groups, List.map_singleton, hc]
    · have htext : (key ++ operator ++ "," ++ piece ++ "," ++ raw).toList ++ [','] =
          key.toList ++ (operator.toList ++ ',' :: (piece.toList ++ ',' :: (raw.toList ++ [',']))) := by simp
      rw [parse, htext, hread, List.map_cons, hc]
      rfl

/-- The value of the first criterion takes in the group after it; the rest is read as if it stood alone. -/
theorem parse_commas_next :
    parse .user "a:,b:c,d=e" true = [⟨"a", ":", .text ",b:c", true⟩, ⟨"d", "=", .text "e", true⟩] ∧
      ∃ p : Place, p.Yields .user "a:,b:c,d=e" true [] ⟨"a", ":", .text ",b:c", true⟩
        [⟨"d", "=", .text "e", true⟩] := by
  obtain ⟨hplace, _, hnext⟩ := parse_commas (.inl rfl) true
  have hread := (hnext "a" ":" "b:c" (by decide) (List.all_eq_true.mp (by decide)) (by decide) (by decide)
    (by decide)).2 "d=e"
  have hrest : parse .user "d=e" true = [⟨"d", "=", .text "e", true⟩] := by cbv
  rw [hrest] at hread
  obtain ⟨p, hp, _⟩ := hplace "a:,b:c,d=e" [] _ _ hread
  exact ⟨hread, p, hp⟩

/-- A group without a value takes the group after it for its value. -/
theorem parse_takes_next_group :
    parse .user "a:,b:c" false = [⟨"a", ":", .text ",b:c", false⟩] ∧ ',' ∈ ",b:c".toList := by
  refine ⟨?_, by decide⟩
  cbv

/-! ## The longest operator -/

/-- The text begins with the operator, a value and a comma. -/
def Operates (operator s : List Char) : Prop :=
  ∃ value rest, s = operator ++ (value ++ ',' :: rest) ∧ IsValue value

theorem pairwise_length (hg : grammar = .user ∨ grammar = .application) :
    grammar.operators.Pairwise fun first second => second.length ≤ first.length := by
  rcases hg with rfl | rfl <;> decide

/-- An operator that another one begins with is a colon, and the other has one more character. -/
theorem operator_cases (hg : grammar = .user ∨ grammar = .application) {operator longer : List Char}
    (ho : operator ∈ grammar.operators) (hl : longer ∈ grammar.operators) (hp : operator <+: longer)
    (hlength : operator.length < longer.length) : operator = [':'] ∧ ∃ c, longer = [':', c] := by
  rcases hg with rfl | rfl
  · simp only [Grammar.user, List.mem_cons, List.not_mem_nil, or_false] at ho hl
    rcases ho with rfl | rfl | rfl <;> rcases hl with rfl | rfl | rfl <;> simp_all
  · simp only [Grammar.application, List.mem_cons, List.not_mem_nil, or_false] at ho hl
    rcases ho with rfl | rfl | rfl | rfl | rfl | rfl <;> rcases hl with rfl | rfl | rfl | rfl | rfl | rfl <;>
      simp_all

theorem Leads.longest (hg : grammar = .user ∨ grammar = .application) (h : Leads grammar g rest) :
    grammar.Longest (Operates · (g.operator ++ (g.value ++ ',' :: rest))) g.operator := by
  obtain ⟨first, others, hoperators, hfirst⟩ := h.first
  refine ⟨h.wellFormed.operator, ⟨g.value, rest, rfl, h.wellFormed.value⟩, fun literal hl ho => ?_⟩
  have hlengths := pairwise_length hg
  have hmem := hl
  rw [hoperators] at hlengths hmem
  rcases List.mem_append.mp hmem with hbefore | hbehind
  · -- An operator that is tried before that of the group makes no group there.
    obtain ⟨value, behind, htext, hvalue⟩ := ho
    refine absurd ?_ (hfirst literal hbefore)
    refine ⟨⟨g.key, literal, value⟩, ⟨h.wellFormed.key_ne_nil, h.wellFormed.key, hl, hvalue⟩, rfl, behind, ?_⟩
    simp [Group.text, htext]
  · rcases List.mem_cons.mp hbehind with rfl | hlater
    · exact Nat.le_refl _
    · exact List.rel_of_pairwise_cons (List.pairwise_append.mp hlengths).2.1 hlater

/-- The operator of a group is the longest that stands there unless it is a colon whose value begins with
the rest of a longer one. -/
theorem Leads.longest_iff (hg : grammar = .user ∨ grammar = .application) (h : Leads grammar g rest) :
    grammar.Longest (· <+: g.operator ++ (g.value ++ ',' :: rest)) g.operator ↔
      ¬ (g.operator = [':'] ∧ ∃ c piece, g.value = c :: piece ∧ [':', c] ∈ grammar.operators) := by
  constructor
  · rintro hlongest ⟨ho, c, piece, hv, hl⟩
    have hlength := hlongest.length_le _ hl (by simp [ho, hv])
    rw [ho] at hlength
    simp at hlength
  · intro hno
    refine ⟨h.wellFormed.operator, List.prefix_append _ _, fun literal hl hp => ?_⟩
    by_contra hlonger
    rw [Nat.not_le] at hlonger
    have hbegins := List.prefix_of_prefix_length_le (List.prefix_append _ _) hp hlonger.le
    obtain ⟨ho, c, rfl⟩ := operator_cases hg h.wellFormed.operator hl hbegins hlonger
    obtain ⟨first, piece, hv⟩ := List.exists_cons_of_ne_nil h.wellFormed.value.ne_nil
    rw [ho, hv] at hp
    obtain rfl : c = first := by simpa using hp
    exact hno ⟨ho, c, piece, hv, hl⟩

/-- No value can be read right behind the longer operator of which the value begins with the rest. -/
theorem Place.Yields.shortened (hg : grammar = .user ∨ grammar = .application)
    (h : p.Yields grammar raw byOr criteria c others) (hlead : Leads grammar p.group p.rest)
    (ho : p.group.operator = [':']) {d : Char} {piece : List Char} (hv : p.group.value = d :: piece)
    (hl : [':', d] ∈ grammar.operators) :
    piece = [] ∧ (p.rest = [] ∨ '\n' ∈ p.rest.takeWhile (· ≠ ',')) := by
  have hvalue := hlead.wellFormed.value
  have hlongest := hlead.longest hg
  rw [hv] at hvalue
  rw [ho, hv] at hlongest
  have hno : ∀ value rest, piece ++ ',' :: p.rest = value ++ ',' :: rest → ¬ IsValue value := by
    intro value rest htext hvalue
    have hlength := hlongest.length_le [':', d] hl ⟨value, rest, by simp [htext], hvalue⟩
    simp at hlength
  have hpiece : piece = [] := by
    by_contra hne
    refine hno piece p.rest rfl ⟨hne, ?_, ?_⟩
    · exact fun hc => hvalue.newline (List.mem_cons_of_mem _ hc)
    · exact fun hc => hvalue.comma (List.mem_of_mem_tail hc)
  subst hpiece
  refine ⟨rfl, h.rest_cases.imp_right ?_⟩
  rintro ⟨init, hinit⟩
  -- Otherwise the comma would be a value together with all up to the next comma.
  by_contra hnewline
  have hmem : ',' ∈ p.rest := by rw [hinit]; simp
  obtain ⟨last, behind, hdrop⟩ :=
    List.exists_cons_of_ne_nil (dropWhile_ne_nil_of_mem (p := (· ≠ ',')) hmem rfl)
  refine hno (',' :: p.rest.takeWhile (· ≠ ',')) behind ?_ ⟨List.cons_ne_nil _ _, ?_, ?_⟩
  · rw [List.nil_append, List.cons_append, ← split_of_dropWhile hdrop]
  · simpa using hnewline
  · intro hc
    cases List.all_eq_true.mp List.all_takeWhile _ hc

/-- A criterion has the longest operator behind its key that a value can follow. That is the longest that
stands there, unless the operator is a colon and its value begins with the rest of a longer one; then the
value is that character alone, and behind it the query string ends, or has a line feed before the next
comma. -/
theorem parse_longest (hg : grammar = .user ∨ grammar = .application) {before after : List Criterion}
    (h : parse grammar raw byOr = before ++ c :: after) :
    ∃ p : Place, p.Yields grammar raw byOr before c after ∧
      grammar.Longest (Operates · p.afterKey) p.group.operator ∧
      (grammar.Longest (· <+: p.afterKey) p.group.operator ↔
        ¬ (p.group.operator = [':'] ∧
          ∃ d piece, p.group.value = d :: piece ∧ [':', d] ∈ grammar.operators)) ∧
      ∀ d piece, p.group.operator = [':'] → p.group.value = d :: piece → [':', d] ∈ grammar.operators →
        piece = [] ∧ (p.rest = [] ∨ '\n' ∈ p.rest.takeWhile (· ≠ ',')) := by
  obtain ⟨p, hp, hlead⟩ := exists_place (Grammar.separated hg) h
  exact ⟨p, hp, hlead.longest hg, hlead.longest_iff hg, fun d piece ho hv => hp.shortened hg hlead ho hv⟩

/-- A line feed takes the value from the longer operator. -/
theorem parse_longest_newline :
    parse .user "a:~,x\n,b:~c" false = [] ++ ⟨"a", ":", .text "~", false⟩ ::
        [⟨"b", ":~", .text "c", false⟩] ∧
      ∃ p : Place, p.Yields .user "a:~,x\n,b:~c" false [] ⟨"a", ":", .text "~", false⟩
          [⟨"b", ":~", .text "c", false⟩] ∧
        Grammar.user.Longest (Operates · p.afterKey) p.group.operator := by
  have hparse : parse .user "a:~,x\n,b:~c" false = [] ++ ⟨"a", ":", .text "~", false⟩ ::
      [⟨"b", ":~", .text "c", false⟩] := by cbv
  obtain ⟨p, hp, hlongest, _⟩ := parse_longest (.inl rfl) hparse
  exact ⟨hparse, p, hp, hlongest⟩

/-- Without a value the longer operator is read as a colon and a value. -/
theorem parse_shortens_operator :
    parse .user "name:~" false = [⟨"name", ":", .text "~", false⟩] ∧ [':', '~'] ∈ Grammar.user.operators := by
  refine ⟨?_, by decide⟩
  cbv

end Query

end RecordSearch
