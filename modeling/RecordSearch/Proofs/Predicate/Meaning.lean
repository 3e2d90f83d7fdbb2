import RecordSearch.Predicate.Eval
import RecordSearch.Proofs.Predicate.Like
import RecordSearch.Proofs.Text

/-!
# Predicates by a way to match patterns

The two ways to match a pattern differ beyond a null character. The meaning of a predicate is taken here
with the way as a parameter; where there are no null characters the ways agree.
-/

namespace RecordSearch

open Text

namespace Predicate

/-- Whether a document satisfies a predicate, patterns being matched in the given way. -/
def evalBy (matching : String → Bool → String → Bool) (doc : Json) : Predicate → Bool
  | .like field pattern ignoreCase =>
      ((doc.lookup field.path).bind Json.text?).any (matching pattern ignoreCase)
  | .and left right => evalBy matching doc left && evalBy matching doc right
  | .or left right => evalBy matching doc left || evalBy matching doc right
  | p => p.eval doc

def patterns : Predicate → List String
  | .like _ pattern _ => [pattern]
  | .and left right | .or left right => left.patterns ++ right.patterns
  | _ => []

end Predicate

namespace Filter

def acceptsBy (matching : String → Bool → String → Bool) (doc : Json) : Filter → Bool
  | .unrestricted => true
  | .restricted p => p.evalBy matching doc

def patterns : Filter → List String
  | .unrestricted => []
  | .restricted p => p.patterns

variable {matching : String → Bool → String → Bool} {doc : Json}

theorem acceptsBy_and (f g : Filter) :
    (f.and g).acceptsBy matching doc = (f.acceptsBy matching doc && g.acceptsBy matching doc) := by
  cases f with
  | unrestricted => rfl
  | restricted p =>
      cases g with
      | unrestricted => exact (Bool.and_true _).symm
      | restricted q => rfl

theorem acceptsBy_or (f g : Filter) :
    (f.or g).acceptsBy matching doc = (f.acceptsBy matching doc || g.acceptsBy matching doc) := by
  cases f with
  | unrestricted => rfl
  | restricted p =>
      cases g with
      | unrestricted => exact (Bool.or_true _).symm
      | restricted q => rfl

end Filter

/-- Whether a text matches a pattern, both taken up to their first null character. -/
def matchesUntilNull (pattern : String) (ignoreCase : Bool) (text : String) : Bool :=
  Sql.matchesPattern (Sql.untilNull pattern.toList)
    (Sql.untilNull (if ignoreCase then lowercase text.toList else text.toList))

namespace Json

mutual

/-- Whether no text in the document has one of the characters. -/
def freeOf (excluded : List Char) : Json → Bool
  | .string s => s.toList.all (!excluded.contains ·)
  | .array xs => elementsFreeOf excluded xs
  | .object ms => membersFreeOf excluded ms
  | .null | .bool _ | .number _ => true

def elementsFreeOf (excluded : List Char) : List Json → Bool
  | [] => true
  | x :: xs => x.freeOf excluded && elementsFreeOf excluded xs

def membersFreeOf (excluded : List Char) : List Member → Bool
  | [] => true
  | (_, v) :: ms => v.freeOf excluded && membersFreeOf excluded ms

end

/-- Whether no text in the document has a null character. -/
def nullFree (doc : Json) : Bool := doc.freeOf ['\x00']

variable {excluded : List Char}

theorem freeOf_of_findMember {name : String} {ms : List Member} {v : Json}
    (h : membersFreeOf excluded ms = true) (hf : findMember name ms = some v) :
    v.freeOf excluded = true := by
  induction ms with
  | nil => cases hf
  | cons m ms ih =>
      obtain ⟨k, w⟩ := m
      simp only [membersFreeOf, Bool.and_eq_true] at h
      rw [findMember] at hf
      split at hf
      · cases hf
        exact h.1
      · exact ih h.2 hf

theorem freeOf_of_lookup {path : List String} {doc v : Json} (h : doc.freeOf excluded = true)
    (hl : doc.lookup path = some v) : v.freeOf excluded = true := by
  induction path generalizing doc with
  | nil =>
      rw [lookup] at hl
      split at hl
      · cases hl
      · cases hl
        exact h
  | cons name path ih =>
      obtain ⟨m, hm, hrest⟩ := Option.bind_eq_some_iff.mp hl
      cases doc with
      | object ms =>
          rw [freeOf] at h
          exact ih (freeOf_of_findMember h hm) hrest
      | _ => cases hm

theorem not_mem_of_freeOf {c : Char} {s : String} (h : (Json.string s).freeOf excluded = true)
    (hc : c ∈ excluded) : c ∉ s.toList := by
  intro hm
  have hfree := List.all_eq_true.mp h c hm
  simp [hc] at hfree

end Json

namespace Sql

theorem untilNull_eq_self {s : List Char} (h : '\x00' ∉ s) : untilNull s = s := by
  have hall : ∀ c ∈ s, decide (c ≠ '\x00') = true := by
    intro c hc
    refine decide_eq_true ?_
    rintro rfl
    exact h hc
  have htake : (s ++ []).takeWhile _ = s ++ [].takeWhile _ := List.takeWhile_append_of_pos hall
  rwa [List.append_nil, List.takeWhile_nil, List.append_nil] at htake

end Sql

/-- Without null characters both ways to match are the same. -/
theorem matchesUntilNull_eq {pattern : String} {ignoreCase : Bool} {text : String}
    (hp : '\x00' ∉ pattern.toList) (ht : '\x00' ∉ text.toList) :
    matchesUntilNull pattern ignoreCase text = matchesPattern pattern ignoreCase text := by
  have htext : '\x00' ∉ (if ignoreCase then lowercase text.toList else text.toList) := by
    split
    · exact fun h => ht (mem_of_mem_lowercase (by decide) h)
    · exact ht
  rw [matchesUntilNull, matchesPattern, Sql.untilNull_eq_self hp, Sql.untilNull_eq_self htext,
    like_eq_matchesPattern]

theorem Predicate.evalBy_matchesUntilNull {p : Predicate} {doc : Json} (hdoc : doc.nullFree = true)
    (hp : ∀ pattern ∈ p.patterns, '\x00' ∉ pattern.toList) :
    p.evalBy matchesUntilNull doc = p.eval doc := by
  induction p with
  | like field pattern ignoreCase =>
      have hpattern := hp pattern (List.mem_singleton_self _)
      rw [evalBy, eval]
      cases hl : doc.lookup field.path with
      | none => rfl
      | some found =>
          cases found with
          | string s =>
              exact matchesUntilNull_eq hpattern
                (Json.not_mem_of_freeOf (Json.freeOf_of_lookup hdoc hl) (List.mem_singleton_self _))
          | _ => rfl
  | and left right ihl ihr =>
      simp only [patterns, List.mem_append] at hp
      rw [evalBy, eval, ihl fun q hq => hp q (.inl hq), ihr fun q hq => hp q (.inr hq)]
  | or left right ihl ihr =>
      simp only [patterns, List.mem_append] at hp
      rw [evalBy, eval, ihl fun q hq => hp q (.inl hq), ihr fun q hq => hp q (.inr hq)]
  | _ => rfl

theorem Filter.acceptsBy_matchesUntilNull {f : Filter} {doc : Json} (hdoc : doc.nullFree = true)
    (hf : ∀ pattern ∈ f.patterns, '\x00' ∉ pattern.toList) :
    f.acceptsBy matchesUntilNull doc = f.accepts doc := by
  cases f with
  | unrestricted => rfl
  | restricted p => exact Predicate.evalBy_matchesUntilNull hdoc hf

theorem Predicate.evalBy_matchesPattern (p : Predicate) (doc : Json) :
    p.evalBy matchesPattern doc = p.eval doc := by
  induction p with
  | and left right ihl ihr => rw [evalBy, eval, ihl, ihr]
  | or left right ihl ihr => rw [evalBy, eval, ihl, ihr]
  | _ => rfl

theorem Filter.acceptsBy_matchesPattern (f : Filter) (doc : Json) :
    f.acceptsBy matchesPattern doc = f.accepts doc := by
  cases f with
  | unrestricted => rfl
  | restricted p => exact p.evalBy_matchesPattern doc

end RecordSearch
