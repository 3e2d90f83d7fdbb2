import Mathlib
import RecordSearch.Proofs.Query.Groups

/-!
# Leftmost segmentation

A text is cut from the left: a gap inside which no group begins, then a group with the first operator of
the language that makes one there, and so on up to the last gap. Every text has just one such cut, and its
groups are those that the text is read as.
-/

namespace RecordSearch

open Query

/-- Every operator of the language begins with a character that no key has. -/
def Grammar.Separated (grammar : Grammar) : Prop :=
  ∀ literal ∈ grammar.operators, ∃ c rest, literal = c :: rest ∧ isKeyChar c = false

theorem Grammar.user_separated : Grammar.user.Separated := by
  simp [Separated, Grammar.user, isKeyChar]

theorem Grammar.application_separated : Grammar.application.Separated := by
  simp [Separated, Grammar.application, isKeyChar]

theorem Grammar.separated {grammar : Grammar} (h : grammar = .user ∨ grammar = .application) :
    grammar.Separated := by
  rcases h with rfl | rfl
  · exact user_separated
  · exact application_separated

namespace Query

variable {grammar : Grammar} {g : Group} {gs : List Group} {literal operator value s t rest : List Char}

/-! ## What a group looks like -/

/-- A value has a character and no line feed, and no comma after its first character. -/
structure IsValue (value : List Char) : Prop where
  ne_nil : value ≠ []
  newline : '\n' ∉ value
  comma : ',' ∉ value.tail

structure Group.WellFormed (grammar : Grammar) (g : Group) : Prop where
  key_ne_nil : g.key ≠ []
  key : ∀ c ∈ g.key, isKeyChar c = true
  operator : g.operator ∈ grammar.operators
  value : IsValue g.value

/-- The text of a group and the comma that ends it. -/
def Group.text (g : Group) : List Char := g.key ++ (g.operator ++ (g.value ++ [',']))

/-- The text begins with a group that has this operator. -/
def BeginsWith (grammar : Grammar) (operator s : List Char) : Prop :=
  ∃ g : Group, g.WellFormed grammar ∧ g.operator = operator ∧ g.text <+: s

/-- The text begins with a group. -/
def Begins (grammar : Grammar) (s : List Char) : Prop :=
  ∃ g : Group, g.WellFormed grammar ∧ g.text <+: s

/-! ## Reading one group -/

theorem afterLiteral?_append_self (literal s : List Char) :
    afterLiteral? literal (literal ++ s) = some s := by
  induction literal with
  | nil => rfl
  | cons c literal ih => rw [List.cons_append, afterLiteral?, if_pos rfl, ih]

theorem split_of_dropWhile {c : Char} {after : List Char} (h : s.dropWhile (· ≠ ',') = c :: after) :
    s = s.takeWhile (· ≠ ',') ++ ',' :: after := by
  have hsplit := List.takeWhile_append_dropWhile (p := (· ≠ ',')) (l := s)
  have hc := List.head?_dropWhile_not (· ≠ ',') s
  rw [h] at hc hsplit
  obtain rfl : c = ',' := by simpa using hc
  exact hsplit.symm

theorem value?_eq_some_iff : value? s = some (value, rest) ↔ s = value ++ ',' :: rest ∧ IsValue value := by
  constructor
  · intro h
    unfold value? at h
    split at h
    · cases h
    · next c s =>
      dsimp only at h
      split at h
      · cases h
      · next d after hdrop =>
        split at h
        · cases h
        · next hnewline =>
          cases h
          rw [not_or] at hnewline
          refine ⟨by rw [List.cons_append, ← split_of_dropWhile hdrop], List.cons_ne_nil _ _, ?_, ?_⟩
          · rw [List.mem_cons, not_or]
            exact ⟨Ne.symm hnewline.1, hnewline.2⟩
          · intro hcomma
            cases List.all_eq_true.mp List.all_takeWhile _ hcomma
  · rintro ⟨rfl, hne, hnewline, hcomma⟩
    obtain ⟨c, body, rfl⟩ := List.exists_cons_of_ne_nil hne
    have hbody : ∀ d ∈ body, decide (d ≠ ',') = true := fun d hd =>
      decide_eq_true fun e => hcomma (e ▸ hd)
    simp only [List.mem_cons, not_or] at hnewline
    rw [List.cons_append, value?, List.takeWhile_append_of_pos hbody, List.dropWhile_append_of_pos hbody]
    simp [Ne.symm hnewline.1, hnewline.2]

theorem operation?_eq_some_iff :
    operation? literal s = some (operator, value, rest) ↔
      operator = literal ∧ s = literal ++ (value ++ ',' :: rest) ∧ IsValue value := by
  simp only [operation?, Option.bind_eq_bind, Option.bind_eq_some_iff, Option.some.injEq, Prod.mk.injEq]
  constructor
  · rintro ⟨after, hafter, ⟨v, r⟩, hvalue, rfl, rfl, rfl⟩
    obtain ⟨rfl, hv⟩ := value?_eq_some_iff.mp hvalue
    exact ⟨rfl, afterLiteral?_eq_some hafter, hv⟩
  · rintro ⟨rfl, rfl, hv⟩
    exact ⟨_, afterLiteral?_append_self _ _, (value, rest), value?_eq_some_iff.mpr ⟨rfl, hv⟩, rfl, rfl, rfl⟩

/-- Where a group is, its key is all that keys can have, and its operator and value are read after it. -/
theorem Group.WellFormed.read (hg : grammar.Separated) (h : g.WellFormed grammar) (rest : List Char) :
    ∃ c key, g.key = c :: key ∧ isKeyChar c = true ∧
      g.text ++ rest = c :: (key ++ (g.operator ++ (g.value ++ ',' :: rest))) ∧
      (key ++ (g.operator ++ (g.value ++ ',' :: rest))).takeWhile isKeyChar = key ∧
      (key ++ (g.operator ++ (g.value ++ ',' :: rest))).dropWhile isKeyChar =
        g.operator ++ (g.value ++ ',' :: rest) := by
  obtain ⟨c, key, hkey⟩ := List.exists_cons_of_ne_nil h.key_ne_nil
  obtain ⟨d, operator, hoperator, hd⟩ := hg g.operator h.operator
  have hchars := h.key
  rw [hkey, List.forall_mem_cons] at hchars
  have hstop : ¬ isKeyChar d = true := by rw [hd]; exact Bool.false_ne_true
  refine ⟨c, key, hkey, hchars.1, ?_, ?_, ?_⟩
  · simp [Group.text, hkey]
  · rw [List.takeWhile_append_of_pos hchars.2, hoperator, List.cons_append,
      List.takeWhile_cons_of_neg hstop, List.append_nil]
  · rw [List.dropWhile_append_of_pos hchars.2, hoperator, List.cons_append, List.dropWhile_cons_of_neg hstop]

/-- A group is read where its operator is the first that can be read after its key. -/
theorem Group.WellFormed.groups_text (hg : grammar.Separated) (h : g.WellFormed grammar)
    (hfirst : grammar.operators.findSome? (operation? · (g.operator ++ (g.value ++ ',' :: rest))) =
      some (g.operator, g.value, rest)) :
    groups grammar (g.text ++ rest) = g :: groups grammar rest := by
  obtain ⟨c, key, hkey, hc, htext, htake, hdrop⟩ := h.read hg rest
  rw [← hdrop] at hfirst
  rw [htext, groups_of_operation hc hfirst, htake, ← hkey]

theorem wellFormed_of_operation {c : Char} (hc : isKeyChar c = true) (hl : literal ∈ grammar.operators)
    (h : operation? literal (s.dropWhile isKeyChar) = some (operator, value, rest)) :
    Group.WellFormed grammar ⟨c :: s.takeWhile isKeyChar, literal, value⟩ ∧
      c :: s = Group.text ⟨c :: s.takeWhile isKeyChar, literal, value⟩ ++ rest := by
  obtain ⟨rfl, hs, hv⟩ := operation?_eq_some_iff.mp h
  have hkey : ∀ d ∈ c :: s.takeWhile isKeyChar, isKeyChar d = true :=
    List.forall_mem_cons.mpr ⟨hc, fun d hd => List.all_eq_true.mp List.all_takeWhile d hd⟩
  refine ⟨⟨List.cons_ne_nil _ _, hkey, hl, hv⟩, ?_⟩
  have hsplit := List.takeWhile_append_dropWhile (p := isKeyChar) (l := s)
  rw [hs] at hsplit
  simp [Group.text, hsplit]

theorem beginsWith_iff {c : Char} (hg : grammar.Separated) (hc : isKeyChar c = true) :
    BeginsWith grammar literal (c :: s) ↔
      literal ∈ grammar.operators ∧ operation? literal (s.dropWhile isKeyChar) ≠ none := by
  constructor
  · rintro ⟨g, hw, rfl, rest, ht⟩
    obtain ⟨d, key, _, _, htext, _, hdrop⟩ := hw.read hg rest
    obtain ⟨rfl, rfl⟩ := List.cons.inj (ht.symm.trans htext)
    refine ⟨hw.operator, ?_⟩
    rw [hdrop, operation?_eq_some_iff.mpr ⟨rfl, rfl, hw.value⟩]
    exact Option.some_ne_none _
  · rintro ⟨hl, h⟩
    obtain ⟨⟨operator, value, rest⟩, h⟩ := Option.ne_none_iff_exists'.mp h
    obtain ⟨hw, htext⟩ := wellFormed_of_operation hc hl h
    exact ⟨_, hw, rfl, rest, htext.symm⟩

/-! ## Reading a text from the left -/

/-- The text is the group followed by the rest, and no operator that is tried before that of the group makes
a group there. -/
structure Leads (grammar : Grammar) (g : Group) (rest : List Char) : Prop where
  wellFormed : g.WellFormed grammar
  first : ∃ before after, grammar.operators = before ++ g.operator :: after ∧
    ∀ operator ∈ before, ¬ BeginsWith grammar operator (g.text ++ rest)

theorem groups_of_leads (hg : grammar.Separated) (h : Leads grammar g rest) :
    groups grammar (g.text ++ rest) = g :: groups grammar rest := by
  obtain ⟨c, key, _, hc, htext, _, hdrop⟩ := h.wellFormed.read hg rest
  obtain ⟨before, after, hoperators, hbefore⟩ := h.first
  refine h.wellFormed.groups_text hg (List.findSome?_eq_some_iff.mpr ⟨before, g.operator, after, hoperators,
    operation?_eq_some_iff.mpr ⟨rfl, rfl, h.wellFormed.value⟩, fun operator ho => ?_⟩)
  have hno := hbefore operator ho
  have hm : operator ∈ grammar.operators := by rw [hoperators]; exact List.mem_append_left _ ho
  rw [htext, beginsWith_iff hg hc, hdrop] at hno
  by_contra hne
  exact hno ⟨hm, hne⟩

theorem exists_leads (hg : grammar.Separated) (h : Begins grammar s) :
    ∃ g rest, s = g.text ++ rest ∧ Leads grammar g rest := by
  obtain ⟨g, hw, rest, rfl⟩ := h
  obtain ⟨c, key, _, hc, htext, _, hdrop⟩ := hw.read hg rest
  have hsome : (grammar.operators.findSome?
      (operation? · ((key ++ (g.operator ++ (g.value ++ ',' :: rest))).dropWhile isKeyChar))).isSome := by
    rw [List.findSome?_isSome_iff]
    refine ⟨g.operator, hw.operator, ?_⟩
    rw [hdrop, operation?_eq_some_iff.mpr ⟨rfl, rfl, hw.value⟩]
    rfl
  obtain ⟨⟨operator, value, rest'⟩, hfirst⟩ := Option.isSome_iff_exists.mp hsome
  obtain ⟨before, literal, after, hoperators, hoperation, hbefore⟩ := List.findSome?_eq_some_iff.mp hfirst
  have hm : literal ∈ grammar.operators := by rw [hoperators]; simp
  obtain ⟨hw', htext'⟩ := wellFormed_of_operation hc hm hoperation
  refine ⟨_, rest', htext.trans htext', hw', before, after, hoperators, fun o ho => ?_⟩
  rw [← htext', beginsWith_iff hg hc, not_and_not_right]
  exact fun _ => hbefore o ho

theorem groups_of_not_begins (hg : grammar.Separated) {c : Char} (h : ¬ Begins grammar (c :: s)) :
    groups grammar (c :: s) = groups grammar s := by
  by_cases hc : isKeyChar c = true
  · have hnone : grammar.operators.findSome? (operation? · (s.dropWhile isKeyChar)) = none := by
      rw [List.findSome?_eq_none_iff]
      intro literal hl
      by_contra hne
      obtain ⟨g, hw, _, hp⟩ := (beginsWith_iff hg hc).mpr ⟨hl, hne⟩
      exact h ⟨g, hw, hp⟩
    rw [groups_of_no_operation hc hnone]
    -- The next character, too, is in the key that has no operation after it.
    cases s with
    | nil => rfl
    | cons d s =>
        by_cases hd : isKeyChar d = true
        · rw [List.dropWhile_cons_of_pos hd] at hnone ⊢
          rw [groups_of_no_operation hd hnone]
        · rw [List.dropWhile_cons_of_neg hd]
  · exact groups_of_no_key (by simpa using hc)

/-! ## Segmentation -/

/-- No group begins inside the gap when the text goes on with `rest` behind it. -/
def IsGap (grammar : Grammar) (gap rest : List Char) : Prop :=
  ∀ s, s <:+ gap → s ≠ [] → ¬ Begins grammar (s ++ rest)

/-- The text is cut into gaps and these groups, each with the first operator that makes one. -/
inductive Segmented (grammar : Grammar) : List Char → List Group → Prop
  | last {gap : List Char} (hgap : IsGap grammar gap []) : Segmented grammar gap []
  | group {gap rest : List Char} {g : Group} {gs : List Group} (hgap : IsGap grammar gap (g.text ++ rest))
      (hg : Leads grammar g rest) (hrest : Segmented grammar rest gs) :
      Segmented grammar (gap ++ (g.text ++ rest)) (g :: gs)

theorem isGap_nil : IsGap grammar [] rest := fun _ hs hne => absurd (List.suffix_nil.mp hs) hne

theorem IsGap.cons {gap : List Char} {c : Char} (h : IsGap grammar gap rest)
    (hc : ¬ Begins grammar (c :: (gap ++ rest))) : IsGap grammar (c :: gap) rest := by
  intro s hs hne
  rcases List.suffix_cons_iff.mp hs with rfl | hs
  · exact hc
  · exact h s hs hne

theorem Segmented.cons {c : Char} (h : Segmented grammar s gs) (hc : ¬ Begins grammar (c :: s)) :
    Segmented grammar (c :: s) gs := by
  cases h with
  | last hgap => exact .last (hgap.cons (by rwa [List.append_nil]))
  | group hgap hg hrest => exact .group (hgap.cons hc) hg hrest

theorem groups_of_isGap (hg : grammar.Separated) {gap : List Char} (h : IsGap grammar gap rest) :
    groups grammar (gap ++ rest) = groups grammar rest := by
  induction gap with
  | nil => rfl
  | cons c gap ih =>
      have hc : ¬ Begins grammar (c :: (gap ++ rest)) := h _ List.suffix_rfl (List.cons_ne_nil _ _)
      rw [List.cons_append, groups_of_not_begins hg hc, ih fun s hs => h s (hs.trans (List.suffix_cons _ _))]

/-- A text is read as the groups of any cut. -/
theorem groups_of_segmented (hg : grammar.Separated) (h : Segmented grammar s gs) :
    groups grammar s = gs := by
  induction h with
  | last hgap =>
      have hskip := groups_of_isGap hg hgap
      rwa [List.append_nil, groups] at hskip
  | group hgap hlead _ ih => rw [groups_of_isGap hg hgap, groups_of_leads hg hlead, ih]

/-- The groups that a text is read as come from a cut. -/
theorem segmented_groups (hg : grammar.Separated) (s : List Char) :
    Segmented grammar s (groups grammar s) := by
  induction hn : s.length using Nat.strong_induction_on generalizing s with
  | _ n ih =>
  subst hn
  by_cases hb : Begins grammar s
  · obtain ⟨g, rest, rfl, hlead⟩ := exists_leads hg hb
    rw [groups_of_leads hg hlead]
    have hshorter : rest.length < (g.text ++ rest).length := by
      simp only [Group.text, List.length_append, List.length_singleton]
      omega
    exact .group isGap_nil hlead (ih _ hshorter rest rfl)
  · cases s with
    | nil =>
        rw [groups]
        exact .last isGap_nil
    | cons c s =>
        rw [groups_of_not_begins hg hb]
        exact (ih _ (Nat.lt_succ_self _) s rfl).cons hb

/-- A query string, with a comma behind it, has just one cut, and it is read as the groups of that cut. -/
theorem parse_segmented (hg : grammar = .user ∨ grammar = .application) (raw : String) (byOr : Bool) :
    ∃ gs, Segmented grammar (raw.toList ++ [',']) gs ∧
      parse grammar raw byOr = gs.map (·.criterion byOr) ∧
      ∀ gs', Segmented grammar (raw.toList ++ [',']) gs' → gs' = gs := by
  have hs := Grammar.separated hg
  exact ⟨_, segmented_groups hs _, rfl, fun _ h => (groups_of_segmented hs h).symm⟩

/-- Text that is no group is passed over: a word before a group, a value with a line feed in it. A value may
begin with a comma. -/
theorem parse_segmented_gaps :
    ∃ gs, Segmented .application ("x b:=,=,c<1\n2,k>v".toList ++ [',']) gs ∧
      gs.map (·.criterion false) = [⟨"b", ":=", .text ",=", false⟩, ⟨"k", ">", .text "v", false⟩] := by
  obtain ⟨gs, hs, hp, _⟩ := parse_segmented (.inr rfl) "x b:=,=,c<1\n2,k>v" false
  refine ⟨gs, hs, hp.symm.trans ?_⟩
  cbv

end Query

end RecordSearch
