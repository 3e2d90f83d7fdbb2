import Mathlib.Data.List.Forall2
import RecordSearch.Proofs.Json.Extension
import RecordSearch.Text.Segments

/-!
# Texts put together

Texts of values, put between brackets or, behind texts of names, between braces, are a text of the array or
the object of these values.
-/

namespace RecordSearch.Json

open RecordSearch.Text

/-- The text is the value with blanks around it, where so many levels may be opened. -/
def Denotes (d : Nat) (s : List Char) (v : Json) : Prop :=
  ∃ rest, readValue? d (2 * s.length + 2) s = some (v, rest) ∧ skipGaps rest = []

/-- The text is the quoted name with blanks around it. -/
def Names (s : List Char) (name : String) : Prop :=
  ∃ rest, string? (skipGaps s) = some (name, rest) ∧ skipGaps rest = []

theorem names_quoted (name : String) : Names (quoted name) name := by
  have hread := string?_quoted name []
  rw [List.append_nil] at hread
  exact ⟨[], hread, rfl⟩

/-- A member as it is written. -/
structure MemberText where
  key : List Char
  name : String
  value : List Char
  names : Names key name

namespace MemberText

def text (m : MemberText) : List Char := m.key ++ ':' :: m.value

/-- The text is the member, with a value in which so many levels may be opened. -/
def Denotes (d : Nat) (m : MemberText) (member : Member) : Prop :=
  m.name = member.1 ∧ Json.Denotes d m.value member.2

/-- A member with its name as it is printed. -/
def written (name : String) (value : List Char) : MemberText := ⟨quoted name, name, value, names_quoted name⟩

/-- A member as it is printed. -/
def ofMember (m : Member) : MemberText := written m.1 m.2.print

end MemberText

def arrayText (elements : List (List Char)) : List Char := '[' :: (join ',' elements ++ [']'])

/-- An object with its members as they are written. Blanks in front of the first are of use if there is none. -/
def objectText (space : List Char) (members : List MemberText) : List Char :=
  '\x7b' :: (space ++ join ',' (members.map MemberText.text) ++ ['\x7d'])

variable {d fuel : Nat} {s t before after space : List Char} {v w : Json} {name : String}

theorem parse?_eq_some_iff : parse? s = some v ↔ Denotes maxDepth s v := by
  unfold parse? Denotes
  constructor
  · intro h
    split at h
    · next w rest hread =>
      split at h
      · next hrest =>
        cases h
        exact ⟨rest, hread, hrest⟩
      · cases h
    · cases h
  · rintro ⟨rest, hread, hrest⟩
    simp only [hread, hrest, if_true]

theorem Denotes.inj (hv : Denotes d s v) (hw : Denotes d s w) : v = w := by
  obtain ⟨_, hv, _⟩ := hv
  obtain ⟨_, hw, _⟩ := hw
  rw [hv] at hw
  cases hw
  rfl

theorem Plain.denotes (h : Plain d v) : Denotes d v.print v := by
  have hread := h.readsBack (2 * v.print.length + 2) [] (by omega) (by rintro _ _ ⟨⟩)
  rw [List.append_nil] at hread
  exact ⟨[], hread, rfl⟩

/-- A value is read in front of what does not continue a numeral. -/
theorem Denotes.read (h : Denotes d s v) (ht : EndsNumeral t) (hf : 2 * s.length + 2 ≤ fuel) :
    ∃ rest, readValue? d fuel (s ++ t) = some (v, rest ++ t) ∧ skipGaps rest = [] := by
  obtain ⟨rest, hread, hrest⟩ := h
  exact ⟨rest, (readsOn _).value t hf (fun _ _ _ => ht) hread, hrest⟩

theorem endsNumeral_of_gaps (h : skipGaps s = []) : EndsNumeral s := by
  rintro c r rfl
  have hgap := skipGaps_eq_nil_iff.mp h c List.mem_cons_self
  simp only [isGap, Bool.or_eq_true, decide_eq_true_eq] at hgap
  rcases hgap with ((rfl | rfl) | rfl) | rfl <;> exact ⟨rfl, by decide⟩

theorem Denotes.gaps (h : Denotes d s v) (hb : skipGaps before = []) (ha : skipGaps after = []) :
    Denotes d (before ++ s ++ after) v := by
  have hf : 2 * s.length + 2 ≤ 2 * (before ++ s ++ after).length + 2 := by
    simp only [List.length_append]
    omega
  obtain ⟨rest, hread, hrest⟩ := h.read (endsNumeral_of_gaps ha) hf
  refine ⟨rest ++ after, ?_, by rw [skipGaps_gaps_append hrest, ha]⟩
  rw [← readValue?_skipGaps, List.append_assoc, skipGaps_gaps_append hb, readValue?_skipGaps,
    ← List.append_assoc, hread]

/-! ## Arrays -/

theorem readElements?_last (h : Denotes d s v) (hf : 2 * s.length + 2 ≤ fuel) (t : List Char) :
    readElements? d (fuel + 1) (s ++ ']' :: t) = some ([v], t) := by
  have hends : EndsNumeral (']' :: t) := endsNumeral_cons rfl (by decide) t
  obtain ⟨rest, hread, hrest⟩ := h.read hends hf
  rw [readElements?, hread]
  simp only [Option.bind_eq_bind, Option.bind_some, skipGaps_gaps_append hrest, skipGaps_cons (c := ']') rfl]

theorem readElements?_more {next : List Char} {xs : List Json} (h : Denotes d s v)
    (hf : 2 * s.length + 2 ≤ fuel) (hnext : readElements? d fuel next = some (xs, t)) :
    readElements? d (fuel + 1) (s ++ ',' :: next) = some (v :: xs, t) := by
  obtain ⟨rest, hread, hrest⟩ := h.read (endsNumeral_comma next) hf
  rw [readElements?, hread]
  simp only [Option.bind_eq_bind, Option.bind_some, skipGaps_gaps_append hrest, skipGaps_cons (c := ',') rfl,
    hnext, Option.map_some]

/-- Texts of elements with commas between them are read as the elements, up to the closing bracket. -/
theorem readElements?_join {texts : List (List Char)} {xs : List Json} (h : List.Forall₂ (Denotes d) texts xs)
    (hne : texts ≠ []) (hf : 2 * (join ',' texts).length + 3 ≤ fuel) (t : List Char) :
    readElements? d fuel (join ',' texts ++ ']' :: t) = some (xs, t) := by
  induction h generalizing fuel with
  | nil => exact absurd rfl hne
  | cons hx hxs ih =>
      obtain ⟨fuel, rfl⟩ : ∃ f, fuel = f + 1 := ⟨fuel - 1, by omega⟩
      cases hxs with
      | nil => exact readElements?_last hx (Nat.le_of_succ_le_succ hf) t
      | cons hy hys =>
          rw [join, List.length_append, List.length_cons] at hf
          rw [join, List.append_assoc, List.cons_append]
          exact readElements?_more hx (by omega) (ih (List.cons_ne_nil _ _) (by omega))

theorem readElements?_skipGaps (d fuel : Nat) (s : List Char) :
    readElements? d fuel (skipGaps s) = readElements? d fuel s := by
  cases fuel with
  | zero => rfl
  | succ fuel => rw [readElements?, readElements?, readValue?_skipGaps]

/-- No element stands in front of a closing bracket. -/
theorem readElements?_of_closed (hs : skipGaps s = ']' :: t) : readElements? d fuel s = none := by
  cases fuel with
  | zero => rfl
  | succ fuel =>
      rw [readElements?, readValue?_of_beginsNothing hs ⟨rfl, by decide⟩]
      rfl

/-- Elements behind an opening bracket are those of the array. -/
theorem readValue?_elements {xs : List Json} (h : readElements? d fuel s = some (xs, t)) :
    readValue? (d + 1) (fuel + 1) ('[' :: s) = some (.array xs, t) := by
  rw [readValue?_bracket, if_neg (Nat.succ_ne_zero d)]
  split
  · next rest hs =>
    rw [readElements?_of_closed hs] at h
    cases h
  · rw [Nat.add_sub_cancel, readElements?_skipGaps, h, Option.map_some]

theorem Denotes.array {texts : List (List Char)} {xs : List Json} (h : List.Forall₂ (Denotes d) texts xs) :
    Denotes (d + 1) (arrayText texts) (.array xs) := by
  refine ⟨[], ?_, rfl⟩
  by_cases hne : texts = []
  · subst hne
    cases h
    rfl
  · refine readValue?_elements (readElements?_join h hne ?_ [])
    rw [arrayText, List.length_cons, List.length_append]
    omega

/-! ## Objects -/

theorem Names.read (h : Names s name) (t : List Char) :
    ∃ rest, string? (skipGaps (s ++ t)) = some (name, rest ++ t) ∧ skipGaps rest = [] := by
  obtain ⟨rest, hread, hrest⟩ := h
  have hne : skipGaps s ≠ [] := by
    intro e
    rw [e] at hread
    cases hread
  exact ⟨rest, by rw [skipGaps_append hne, string?_append hread], hrest⟩

theorem colon?_gaps (h : skipGaps s = []) (t : List Char) : colon? (s ++ ':' :: t) = some t := by
  rw [colon?, skipGaps_gaps_append h, skipGaps_cons rfl]
  rfl

variable {m : MemberText} {member : Member} {ms : List Member}

/-- The steps in which a member is read in front of what does not continue a numeral. -/
theorem MemberText.Denotes.read (h : m.Denotes d member) (ht : EndsNumeral t) (hf : 2 * m.text.length ≤ fuel) :
    ∃ named valued rest, string? (skipGaps (m.text ++ t)) = some (member.1, named) ∧ colon? named = some valued ∧
      readValue? d fuel valued = some (member.2, rest ++ t) ∧ skipGaps rest = [] := by
  obtain ⟨hname, hv⟩ := h
  rw [text, List.length_append, List.length_cons] at hf
  have hfuel : 2 * m.value.length + 2 ≤ fuel := by omega
  obtain ⟨space, hstring, hspace⟩ := m.names.read (':' :: (m.value ++ t))
  obtain ⟨rest, hread, hrest⟩ := hv.read ht hfuel
  rw [text, List.append_assoc, List.cons_append, ← hname]
  exact ⟨_, _, rest, hstring, colon?_gaps hspace _, hread, hrest⟩

theorem readMembers?_last (h : m.Denotes d member) (hf : 2 * m.text.length ≤ fuel) (t : List Char) :
    readMembers? d (fuel + 1) (m.text ++ '\x7d' :: t) = some ([member], t) := by
  have hends : EndsNumeral ('\x7d' :: t) := endsNumeral_cons rfl (by decide) t
  obtain ⟨named, valued, rest, hname, hcolon, hvalue, hrest⟩ := h.read hends hf
  rw [readMembers?, hname]
  simp only [Option.bind_eq_bind, Option.bind_some, hcolon, hvalue, skipGaps_gaps_append hrest,
    skipGaps_cons (c := '\x7d') rfl]

theorem readMembers?_more {next : List Char} (h : m.Denotes d member) (hf : 2 * m.text.length ≤ fuel)
    (hnext : readMembers? d fuel next = some (ms, t)) :
    readMembers? d (fuel + 1) (m.text ++ ',' :: next) = some (member :: ms, t) := by
  obtain ⟨named, valued, rest, hname, hcolon, hvalue, hrest⟩ := h.read (endsNumeral_comma next) hf
  rw [readMembers?, hname]
  simp only [Option.bind_eq_bind, Option.bind_some, hcolon, hvalue, skipGaps_gaps_append hrest,
    skipGaps_cons (c := ',') rfl, hnext, Option.map_some]

/-- Texts of members with commas between them are read as the members, up to the closing brace. -/
theorem readMembers?_join {texts : List MemberText} (h : List.Forall₂ (MemberText.Denotes d) texts ms)
    (hne : texts ≠ []) (hf : 2 * (join ',' (texts.map MemberText.text)).length + 1 ≤ fuel) (t : List Char) :
    readMembers? d fuel (join ',' (texts.map MemberText.text) ++ '\x7d' :: t) = some (ms, t) := by
  induction h generalizing fuel with
  | nil => exact absurd rfl hne
  | cons hm hms ih =>
      obtain ⟨fuel, rfl⟩ : ∃ f, fuel = f + 1 := ⟨fuel - 1, by omega⟩
      cases hms with
      | nil => exact readMembers?_last hm (Nat.le_of_succ_le_succ hf) t
      | cons hn hns =>
          rw [List.map_cons, List.map_cons, join, ← List.map_cons, List.length_append, List.length_cons] at hf
          rw [List.map_cons, List.map_cons, join, ← List.map_cons, List.append_assoc, List.cons_append]
          exact readMembers?_more hm (by omega) (ih (List.cons_ne_nil _ _) (by omega))

theorem readMembers?_skipGaps (d fuel : Nat) (s : List Char) :
    readMembers? d fuel (skipGaps s) = readMembers? d fuel s := by
  cases fuel with
  | zero => rfl
  | succ fuel => rw [readMembers?, readMembers?, skipGaps_skipGaps]

/-- No member stands in front of a closing brace. -/
theorem readMembers?_of_closed (hs : skipGaps s = '\x7d' :: t) : readMembers? d fuel s = none := by
  cases fuel with
  | zero => rfl
  | succ fuel =>
      rw [readMembers?, hs]
      rfl

/-- Members behind an opening brace are those of the object. -/
theorem readValue?_members (h : readMembers? d fuel s = some (ms, t)) :
    readValue? (d + 1) (fuel + 1) ('\x7b' :: s) = some (.object ms, t) := by
  rw [readValue?_brace, if_neg (Nat.succ_ne_zero d)]
  split
  · next rest hs =>
    rw [readMembers?_of_closed hs] at h
    cases h
  · rw [Nat.add_sub_cancel, readMembers?_skipGaps, h, Option.map_some]

theorem readMembers?_gaps (h : skipGaps space = []) (d fuel : Nat) (s : List Char) :
    readMembers? d fuel (space ++ s) = readMembers? d fuel s := by
  rw [← readMembers?_skipGaps, skipGaps_gaps_append h, readMembers?_skipGaps]

theorem Denotes.object {texts : List MemberText} (hspace : skipGaps space = [])
    (h : List.Forall₂ (MemberText.Denotes d) texts ms) : Denotes (d + 1) (objectText space texts) (.object ms) := by
  refine ⟨[], ?_, rfl⟩
  rw [objectText, List.append_assoc]
  by_cases hne : texts = []
  · subst hne
    cases h
    rw [readValue?_brace, if_neg (Nat.succ_ne_zero d), skipGaps_gaps_append hspace]
    rfl
  · refine readValue?_members ?_
    rw [readMembers?_gaps hspace]
    refine readMembers?_join h hne ?_ []
    simp only [List.length_cons, List.length_append]
    omega

theorem join_ofMember (ms : List Member) :
    join ',' ((ms.map MemberText.ofMember).map MemberText.text) = printMembers ms := by
  induction ms with
  | nil => rfl
  | cons m ms ih =>
      cases ms with
      | nil => rfl
      | cons n ns =>
          rw [List.map_cons, List.map_cons] at ih
          rw [List.map_cons, List.map_cons, List.map_cons, List.map_cons, join, ih, printMembers,
            MemberText.text, List.append_assoc]
          rfl

theorem objectText_ofMember (ms : List Member) : objectText [] (ms.map MemberText.ofMember) = print (.object ms) := by
  rw [objectText, List.nil_append, join_ofMember]
  rfl

end RecordSearch.Json
