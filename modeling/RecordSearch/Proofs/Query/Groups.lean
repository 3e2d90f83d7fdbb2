import Mathlib
import RecordSearch.Query.Grammar

/-!
# Groups of joined query strings

The groups of two query strings with a comma between them are those of the first and those of the second,
unless the first ends right after an operator, which would take the comma into its value.
-/

namespace RecordSearch

open Query

/-- The query string ends with an operator after a key. -/
def Grammar.Unfinished (g : Grammar) (s : List Char) : Prop :=
  ∃ before c literal, s = before ++ c :: literal ∧ isKeyChar c = true ∧ literal ∈ g.operators

theorem Grammar.unfinished_iff {g : Grammar} {s : List Char} :
    g.Unfinished s ↔ ∃ literal ∈ g.operators, literal <:+ s ∧
      (s.take (s.length - literal.length)).getLast?.any isKeyChar = true := by
  constructor
  · rintro ⟨before, c, literal, rfl, hc, hm⟩
    have htext : before ++ c :: literal = (before ++ [c]) ++ literal := by simp
    refine ⟨literal, hm, ⟨before ++ [c], htext.symm⟩, ?_⟩
    rw [htext, List.length_append, Nat.add_sub_cancel, List.take_left]
    simpa using hc
  · rintro ⟨literal, hm, ⟨init, rfl⟩, h⟩
    rw [List.length_append, Nat.add_sub_cancel, List.take_left] at h
    obtain ⟨c, hlast, hc⟩ := (Option.any_eq_true _ _).mp h
    obtain ⟨before, rfl⟩ := List.getLast?_eq_some_iff.mp hlast
    exact ⟨before, c, literal, by simp, hc, hm⟩

instance (g : Grammar) (s : List Char) : Decidable (g.Unfinished s) :=
  decidable_of_iff _ Grammar.unfinished_iff.symm

/-- No operator of the language has a comma in it. -/
def Grammar.CommaFree (g : Grammar) : Prop := ∀ literal ∈ g.operators, ',' ∉ literal

theorem Grammar.user_commaFree : Grammar.user.CommaFree := by unfold CommaFree; decide

theorem Grammar.application_commaFree : Grammar.application.CommaFree := by unfold CommaFree; decide

theorem Grammar.commaFree {g : Grammar} (h : g = .user ∨ g = .application) : g.CommaFree := by
  rcases h with rfl | rfl
  · exact user_commaFree
  · exact application_commaFree

namespace Query

variable {literal s u w rest t value : List Char}

/-! ## Suffixes -/

theorem afterLiteral?_eq_some (h : afterLiteral? literal s = some rest) : s = literal ++ rest := by
  fun_induction afterLiteral? literal s with
  | case1 => cases h; rfl
  | case2 => cases h
  | case3 c literal s ih => rw [ih h]; rfl
  | case4 => cases h

theorem value?_suffix (h : value? s = some (value, rest)) : rest <:+ s := by
  unfold value? at h
  split at h
  · cases h
  · next c s =>
    dsimp only at h
    split at h
    · cases h
    · next d after e =>
      split at h
      · cases h
      · cases h
        have hdrop := List.dropWhile_suffix (l := s) (· ≠ ',')
        rw [e] at hdrop
        exact (List.suffix_cons d rest).trans (hdrop.trans (List.suffix_cons c s))

theorem operation?_suffix {o : List Char} (h : operation? literal s = some (o, value, rest)) :
    rest <:+ s := by
  simp only [operation?, Option.bind_eq_bind, Option.bind_eq_some_iff, Option.some.injEq,
    Prod.mk.injEq] at h
  obtain ⟨after, ha, ⟨v, r⟩, hv, _, _, rfl⟩ := h
  rw [afterLiteral?_eq_some ha]
  exact (value?_suffix hv).trans (List.suffix_append literal after)

/-! ## Texts that go on after a comma -/

theorem takeWhile_append_of_mem {p : Char → Bool} {c : Char} (hc : c ∈ s) (hp : p c = false) :
    (s ++ t).takeWhile p = s.takeWhile p := by
  induction s with
  | nil => cases hc
  | cons d s ih =>
      rw [List.cons_append, List.takeWhile_cons, List.takeWhile_cons]
      split
      · next hd =>
        rcases List.mem_cons.mp hc with rfl | hc
        · rw [hp] at hd; cases hd
        · rw [ih hc]
      · rfl

theorem dropWhile_append_of_mem {p : Char → Bool} {c : Char} (hc : c ∈ s) (hp : p c = false) :
    (s ++ t).dropWhile p = s.dropWhile p ++ t := by
  induction s with
  | nil => cases hc
  | cons d s ih =>
      rw [List.cons_append, List.dropWhile_cons, List.dropWhile_cons]
      split
      · next hd =>
        rcases List.mem_cons.mp hc with rfl | hc
        · rw [hp] at hd; cases hd
        · rw [ih hc]
      · rfl

theorem dropWhile_ne_nil_of_mem {p : Char → Bool} {c : Char} (hc : c ∈ s) (hp : p c = false) :
    s.dropWhile p ≠ [] := by
  intro h
  have hsplit := List.takeWhile_append_dropWhile (p := p) (l := s)
  rw [h, List.append_nil] at hsplit
  rw [← hsplit] at hc
  have hall := List.all_eq_true.mp List.all_takeWhile c hc
  rw [hp] at hall
  cases hall

theorem afterLiteral?_append (hl : ',' ∉ literal) :
    afterLiteral? literal (u ++ ',' :: t) = (afterLiteral? literal u).map (· ++ ',' :: t) := by
  fun_induction afterLiteral? literal u with
  | case1 => rfl
  | case2 c literal =>
      simp only [List.mem_cons, not_or] at hl
      rw [List.nil_append, afterLiteral?, if_neg (Ne.symm hl.1)]
      rfl
  | case3 c literal u ih =>
      simp only [List.mem_cons, not_or] at hl
      rw [List.cons_append, afterLiteral?, if_pos rfl, ih hl.2]
  | case4 c literal d u hne => rw [List.cons_append, afterLiteral?, if_neg hne]; rfl

/-- A value that is ended by a comma is read up to there, whatever comes after. -/
theorem value?_append (hw : w ≠ []) (t : List Char) :
    value? ((w ++ [',']) ++ t) = (value? (w ++ [','])).map fun (v, rest) => (v, rest ++ t) := by
  cases w with
  | nil => exact absurd rfl hw
  | cons c w =>
      have hmem : ',' ∈ w ++ [','] := by simp
      have hcomma : decide (',' ≠ ',') = false := rfl
      simp only [List.cons_append, value?, takeWhile_append_of_mem (t := t) (p := (· ≠ ',')) hmem hcomma,
        dropWhile_append_of_mem (t := t) (p := (· ≠ ',')) hmem hcomma]
      cases h : (w ++ [',']).dropWhile (· ≠ ',') with
      | nil => exact absurd h (dropWhile_ne_nil_of_mem hmem hcomma)
      | cons d rest =>
          simp only [List.cons_append]
          split <;> rfl

theorem operation?_append (hl : ',' ∉ literal) (hu : u ≠ literal) (t : List Char) :
    operation? literal ((u ++ [',']) ++ t) =
      (operation? literal (u ++ [','])).map fun (o, v, rest) => (o, v, rest ++ t) := by
  have happend : (u ++ [',']) ++ t = u ++ ',' :: t := by simp
  rw [operation?, operation?, happend, afterLiteral?_append hl, afterLiteral?_append hl]
  cases h : afterLiteral? literal u with
  | none => rfl
  | some w =>
      have hw : w ≠ [] := by
        rintro rfl
        rw [afterLiteral?_eq_some h, List.append_nil] at hu
        exact hu rfl
      have hvalue := value?_append hw t
      have happend : (w ++ [',']) ++ t = w ++ ',' :: t := by simp
      rw [happend] at hvalue
      simp only [Option.map_some, Option.bind_eq_bind, Option.bind_some, hvalue]
      cases value? (w ++ [',']) <;> rfl

/-! ## Groups -/

variable {g : Grammar}

/-- The text is over, or it ends with a comma that does not come right after an operator. -/
def Complete (g : Grammar) (s : List Char) : Prop := s = [] ∨ ∃ u, s = u ++ [','] ∧ ¬ g.Unfinished u

theorem Complete.of_suffix (h : Complete g s) (hs : rest <:+ s) : Complete g rest := by
  rcases h with rfl | ⟨u, rfl, hu⟩
  · exact .inl (List.suffix_nil.mp hs)
  · rcases List.eq_nil_or_concat rest with rfl | ⟨v, d, rfl⟩
    · exact .inl rfl
    · obtain ⟨before, e⟩ := hs
      rw [List.concat_eq_append, ← List.append_assoc] at e
      obtain ⟨rfl, hd⟩ := List.append_inj' e rfl
      cases hd
      refine .inr ⟨v, List.concat_eq_append, ?_⟩
      rintro ⟨first, c, literal, rfl, hc, hm⟩
      exact hu ⟨before ++ first, c, literal, by simp, hc, hm⟩

/-- What follows the key of a complete text is more than an operator before the last comma. -/
theorem Complete.after_key {c : Char} (h : Complete g (c :: s)) (hc : isKeyChar c = true) :
    ∃ u, s.dropWhile isKeyChar = u ++ [','] ∧ ∀ literal ∈ g.operators, u ≠ literal := by
  rcases h with h | ⟨u, hu, hfinished⟩
  · cases h
  · cases u with
    | nil =>
        cases hu
        cases hc
    | cons d u =>
        cases hu
        refine ⟨u.dropWhile isKeyChar, ?_, ?_⟩
        · change (u ++ [',']).dropWhile isKeyChar = _
          rw [List.dropWhile_append]
          split
          · next hempty => rw [List.isEmpty_iff.mp hempty]; rfl
          · rfl
        · rintro literal hm rfl
          obtain ⟨before, last, hlast⟩ :=
            (List.eq_nil_or_concat (c :: u.takeWhile isKeyChar)).resolve_left nofun
          rw [List.concat_eq_append] at hlast
          have hkey : isKeyChar last = true := by
            have hmem : last ∈ c :: u.takeWhile isKeyChar := by rw [hlast]; simp
            rcases List.mem_cons.mp hmem with rfl | hmem
            · exact hc
            · exact List.all_eq_true.mp List.all_takeWhile last hmem
          refine hfinished ⟨before, last, _, ?_, hkey, hm⟩
          have hsplit : c :: u = (c :: u.takeWhile isKeyChar) ++ u.dropWhile isKeyChar := by
            rw [List.cons_append, List.takeWhile_append_dropWhile]
          rw [hsplit, hlast, List.append_assoc]
          rfl

theorem groups_of_operation {c : Char} (hc : isKeyChar c = true) {operator : List Char}
    (h : g.operators.findSome? (operation? · (s.dropWhile isKeyChar)) = some (operator, value, rest)) :
    groups g (c :: s) = ⟨c :: s.takeWhile isKeyChar, operator, value⟩ :: groups g rest := by
  rw [groups, if_pos hc]
  split
  · next h' =>
    rw [h] at h'
    cases h'
    rfl
  · next h' =>
    rw [h] at h'
    cases h'

theorem groups_of_no_operation {c : Char} (hc : isKeyChar c = true)
    (h : g.operators.findSome? (operation? · (s.dropWhile isKeyChar)) = none) :
    groups g (c :: s) = groups g (s.dropWhile isKeyChar) := by
  rw [groups, if_pos hc]
  split
  · next h' =>
    rw [h] at h'
    cases h'
  · rfl

theorem groups_of_no_key {c : Char} (hc : isKeyChar c = false) : groups g (c :: s) = groups g s := by
  rw [groups, if_neg (by rw [hc]; exact Bool.false_ne_true)]

theorem findSome?_operation?_append {operators : List (List Char)} (hg : ∀ literal ∈ operators, ',' ∉ literal)
    (hu : ∀ literal ∈ operators, u ≠ literal) (t : List Char) :
    operators.findSome? (operation? · ((u ++ [',']) ++ t)) =
      (operators.findSome? (operation? · (u ++ [',']))).map fun (o, v, rest) => (o, v, rest ++ t) := by
  induction operators with
  | nil => rfl
  | cons literal operators ih =>
      have hrest := ih (fun l hl => hg l (List.mem_cons_of_mem _ hl))
        (fun l hl => hu l (List.mem_cons_of_mem _ hl))
      rw [List.findSome?_cons, List.findSome?_cons,
        operation?_append (hg literal (List.mem_cons_self ..)) (hu literal (List.mem_cons_self ..)), hrest]
      cases operation? literal (u ++ [',']) <;> rfl

theorem Complete.comma_mem {c : Char} (hs : Complete g (c :: s)) (hc : isKeyChar c = true) : ',' ∈ s := by
  obtain ⟨u, hdrop, _⟩ := hs.after_key hc
  exact (List.dropWhile_sublist isKeyChar).subset (by rw [hdrop]; simp)

/-- The operation after a key is the same with more text behind the last comma. -/
theorem Complete.findSome?_append {c : Char} (hs : Complete g (c :: s)) (hc : isKeyChar c = true)
    (hg : g.CommaFree) (t : List Char) :
    g.operators.findSome? (operation? · ((s ++ t).dropWhile isKeyChar)) =
      (g.operators.findSome? (operation? · (s.dropWhile isKeyChar))).map
        fun (o, v, rest) => (o, v, rest ++ t) := by
  obtain ⟨u, hdrop, hu⟩ := hs.after_key hc
  rw [dropWhile_append_of_mem (hs.comma_mem hc) rfl, hdrop, findSome?_operation?_append hg hu]

theorem groups_append (hg : g.CommaFree) (hs : Complete g s) (t : List Char) :
    groups g (s ++ t) = groups g s ++ groups g t := by
  fun_induction groups g s with
  | case1 => rfl
  | case2 c s hc operator value rest hop ih =>
      have hop' := hs.findSome?_append hc hg t
      rw [hop] at hop'
      obtain ⟨literal, _, hl⟩ := List.exists_of_findSome?_eq_some hop
      have hrest : rest <:+ c :: s := (operation?_suffix hl).trans
        ((List.dropWhile_suffix isKeyChar).trans (List.suffix_cons c s))
      rw [List.cons_append, groups_of_operation hc hop', takeWhile_append_of_mem (hs.comma_mem hc) rfl,
        ih (hs.of_suffix hrest), List.cons_append]
  | case3 c s hc hop ih =>
      have hop' := hs.findSome?_append hc hg t
      rw [hop] at hop'
      have hrest : s.dropWhile isKeyChar <:+ c :: s :=
        (List.dropWhile_suffix isKeyChar).trans (List.suffix_cons c s)
      rw [List.cons_append, groups_of_no_operation hc hop', dropWhile_append_of_mem (hs.comma_mem hc) rfl,
        ih (hs.of_suffix hrest)]
  | case4 c s hc ih =>
      have hc : isKeyChar c = false := by simpa using hc
      rw [List.cons_append, groups_of_no_key hc, ih (hs.of_suffix (List.suffix_cons c s))]

theorem groups_comma : groups g [','] = [] := by
  rw [groups_of_no_key rfl, groups]

theorem parse_join (hg : g.CommaFree) {q₁ : String} (hq : ¬ g.Unfinished q₁.toList) (q₂ : String)
    (byOr : Bool) : parse g (q₁ ++ "," ++ q₂) byOr = parse g q₁ byOr ++ parse g q₂ byOr := by
  have hcomplete : Complete g (q₁.toList ++ [',']) := .inr ⟨q₁.toList, rfl, hq⟩
  have happend : (q₁ ++ "," ++ q₂).toList ++ [','] = (q₁.toList ++ [',']) ++ (q₂.toList ++ [',']) := by
    rw [String.toList_append, String.toList_append]
    simp
  rw [parse, happend, groups_append hg hcomplete, List.map_append]
  rfl

/-- Two query strings with a comma between them are read one after the other, if no operator after a key ends
the first; a comma at its end changes nothing then. -/
theorem parse_append_comma (hg : g = .user ∨ g = .application) {q₁ : String}
    (hq : ¬ g.Unfinished q₁.toList) (q₂ : String) (byOr : Bool) :
    parse g (q₁ ++ "," ++ q₂) byOr = parse g q₁ byOr ++ parse g q₂ byOr ∧
      parse g (q₁ ++ ",") byOr = parse g q₁ byOr := by
  have hnothing : parse g "" byOr = [] := by
    rw [parse, String.toList_empty, List.nil_append, groups_comma, List.map_nil]
  refine ⟨parse_join (Grammar.commaFree hg) hq q₂ byOr, ?_⟩
  have happend := parse_join (Grammar.commaFree hg) hq "" byOr
  rwa [String.append_empty, hnothing, List.append_nil] at happend

/-- The first query string ends with an operator that no key stands before, and the second begins with a
comma. -/
theorem parse_append_comma_gaps :
    ¬ Grammar.user.Unfinished "name:jo,x y\n=".toList ∧
      parse .user "name:jo,x y\n=,,role.id=7" false =
        [⟨"name", ":", .text "jo", false⟩] ++ [⟨"role.id", "=", .text "7", false⟩] := by
  have hfinished : ¬ Grammar.user.Unfinished "name:jo,x y\n=".toList := by decide
  have hfirst : parse .user "name:jo,x y\n=" false = [⟨"name", ":", .text "jo", false⟩] := by cbv
  have hsecond : parse .user ",role.id=7" false = [⟨"role.id", "=", .text "7", false⟩] := by cbv
  have happend := (parse_append_comma (.inl rfl) hfinished ",role.id=7" false).1
  rw [hfirst, hsecond] at happend
  exact ⟨hfinished, happend⟩

end Query

end RecordSearch
