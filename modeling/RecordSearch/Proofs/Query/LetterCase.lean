import RecordSearch.Proofs.Predicate.LetterCase
import RecordSearch.Proofs.Query.Substring

/-!
# Searches that ignore letter case

What a search for a part of a text finds is found with letter case ignored, too, unless lower-casing the value
and the text each as a whole makes different characters of what is the same in both.
-/

namespace RecordSearch

open Text

namespace Entity

variable {entity : Entity} {key raw : String} {field : Field}

/-- A text that matches does so with letter case ignored if it can be read by the pattern in a way that keeps
the case of all pieces, as it always can if the value has neither capital sigmas nor a wildcard that could
stand for a letter with two small characters. -/
theorem ignoring_case_keeps_matches (hn : entity.Names key field) (ht : field.type = .text) (byOr : Bool) :
    ∃ f g, entity.Compiles ⟨key, ":", .text raw, byOr⟩ f ∧ entity.Compiles ⟨key, ":~", .text raw, byOr⟩ g ∧
      (∀ r : Record, r.inScope entity.descriptor.scope = true →
        (f.accepts r.toJson = true ↔ r.HasText field fun s =>
          ∃ pieces : Like.Reading, pieces.Reads ('%' :: (raw.toList ++ ['%'])) s.toList) ∧
        ((r.HasText field fun s =>
            ∃ pieces : Like.Reading, pieces.Reads ('%' :: (raw.toList ++ ['%'])) s.toList ∧ pieces.KeepsCase) →
          g.accepts r.toJson = true) ∧
        (f.accepts r.toJson = true → capitalSigma ∉ raw.toList →
          ('_' ∉ raw.toList ∨ r.HasText field (dottedI ∉ ·.toList)) → g.accepts r.toJson = true)) ∧
      ∀ literal,
        Query.Group.Writable entity.descriptor.grammar ⟨key.toList, literal.toList, raw.toList⟩ →
          ∀ h, entity.compile (key ++ literal ++ raw) byOr = .ok (entity.descriptor.scope, h) ↔
            entity.Compiles ⟨key, literal, .text raw, byOr⟩ h := by
  have hlike : entity.Selects ⟨key, ":", .text raw, byOr⟩ _ := selects_like hn ht
  have hignoring : entity.Selects ⟨key, ":~", .text raw, byOr⟩ _ := selects_ignoreCase hn ht
  obtain ⟨f, hf, hfr⟩ := hlike
  obtain ⟨g, hg, hgr⟩ := hignoring
  refine ⟨f, g, hf, hg, fun r hr => ?_, fun literal h f => compile_single_iff h byOr⟩
  have hreads : f.accepts r.toJson = true ↔ r.HasText field fun s =>
      ∃ pieces : Like.Reading, pieces.Reads ('%' :: (raw.toList ++ ['%'])) s.toList :=
    (hfr r hr).trans (Record.hasText_congr fun s =>
      (matchesPattern_containing_iff false s).trans Like.matches_iff_exists_reads)
  have hkeeps (h : r.HasText field fun s =>
      ∃ pieces : Like.Reading, pieces.Reads ('%' :: (raw.toList ++ ['%'])) s.toList ∧ pieces.KeepsCase) :
      g.accepts r.toJson = true := by
    obtain ⟨s, hs, pieces, hpieces, hcase⟩ := h
    refine (hgr r hr).mpr ⟨s, hs, (matchesPattern_containing_iff true s).mpr ?_⟩
    rw [← lowercase_containing]
    exact hpieces.matches_lowercase hcase
  refine ⟨hreads, hkeeps, fun haccepts hsigma hdotted => hkeeps ?_⟩
  obtain ⟨s, hs, pieces, hpieces⟩ := hreads.mp haccepts
  refine ⟨s, hs, pieces, hpieces, hpieces.keepsCase ?_ ?_⟩
  · rwa [mem_containing_iff (by decide)]
  · rcases hdotted with hone | ⟨t, ht, hdotted⟩
    · exact .inl (by rwa [mem_containing_iff (by decide)])
    · obtain rfl : s = t := by simpa [hs] using ht
      exact .inr hdotted

/-- A sigma that ends no word, in the name and in the value, though the value has no letter before it. -/
theorem ignoring_case_keeps_matches_sigma :
    let r : Record := .user ⟨"al", "ΑΣΒΣ", "", none, ⟨7, "member", "", false⟩⟩
    ∃ f g, users.compile "name:_ΣΒ" false = .ok (.users, f) ∧
      users.compile "name:~_ΣΒ" false = .ok (.users, g) ∧
      f.accepts r.toJson = true ∧ g.accepts r.toJson = true := by
  intro r
  let field : Field := ⟨["name"], .text⟩
  have hn : users.Names "name" field := rfl
  let pieces : Like.Reading := [('%', []), ('_', ['Α']), ('Σ', ['Σ']), ('Β', ['Β']), ('%', ['Σ'])]
  have hreads : pieces.Reads ('%' :: ("_ΣΒ".toList ++ ['%'])) "ΑΣΒΣ".toList := by decide
  have hcase : pieces.KeepsCase := by decide +kernel
  obtain ⟨f, g, hf, hg, haccepts, hquery⟩ := @ignoring_case_keeps_matches .users "name" "_ΣΒ" field hn rfl false
  obtain ⟨hlike, hignoring, _⟩ := haccepts r rfl
  exact ⟨f, g, (hquery ":" (by decide) f).mpr hf, (hquery ":~" (by decide) g).mpr hg,
    hlike.mpr ⟨"ΑΣΒΣ", rfl, pieces, hreads⟩, hignoring ⟨"ΑΣΒΣ", rfl, pieces, hreads, hcase⟩⟩

/-- A name of a user that a value is a part of, but not in lower case. -/
theorem loses_match {name raw : String}
    (hlike : Query.Group.Writable users.descriptor.grammar ⟨"name".toList, ":".toList, raw.toList⟩)
    (hignoring : Query.Group.Writable users.descriptor.grammar ⟨"name".toList, ":~".toList, raw.toList⟩)
    (hmatches : matchesPattern (Operator.containing raw.toList) false name = true)
    (hloses : matchesPattern (Operator.containing (lowercase raw.toList)) true name = false) :
    ∃ f g, users.compile ("name" ++ ":" ++ raw) false = .ok (users.descriptor.scope, f) ∧
      users.compile ("name" ++ ":~" ++ raw) false = .ok (users.descriptor.scope, g) ∧
      f.accepts (Record.user ⟨"al", name, "", none, ⟨7, "member", "", false⟩⟩).toJson = true ∧
      g.accepts (Record.user ⟨"al", name, "", none, ⟨7, "member", "", false⟩⟩).toJson = false := by
  let field : Field := ⟨["name"], .text⟩
  have hn : users.Names "name" field := rfl
  obtain ⟨f, hf, hfr⟩ : users.Selects ⟨"name", ":", .text raw, false⟩ _ := selects_like hn rfl
  obtain ⟨g, hg, hgr⟩ : users.Selects ⟨"name", ":~", .text raw, false⟩ _ := selects_ignoreCase hn rfl
  refine ⟨f, g, (compile_single_iff hlike false).mpr hf, (compile_single_iff hignoring false).mpr hg,
    (hfr _ rfl).mpr ⟨name, rfl, hmatches⟩, Bool.eq_false_iff.mpr fun h => ?_⟩
  obtain ⟨s, hs, hmatches⟩ := (hgr _ rfl).mp h
  obtain rfl : name = s := by simpa using Option.some.inj hs
  rw [hloses] at hmatches
  cases hmatches

/-- A sigma that ends a word in the value only, and a letter with two small characters in place of a wildcard
for one. -/
theorem ignoring_case_loses_match :
    (∃ f g, users.compile "name:ΑΣ" false = .ok (.users, f) ∧
      users.compile "name:~ΑΣ" false = .ok (.users, g) ∧
      f.accepts (Record.user ⟨"al", "ΑΣΒ", "", none, ⟨7, "member", "", false⟩⟩).toJson = true ∧
      g.accepts (Record.user ⟨"al", "ΑΣΒ", "", none, ⟨7, "member", "", false⟩⟩).toJson = false) ∧
    ∃ f g, users.compile "name:a_b" false = .ok (.users, f) ∧
      users.compile "name:~a_b" false = .ok (.users, g) ∧
      f.accepts (Record.user ⟨"al", "aİb", "", none, ⟨7, "member", "", false⟩⟩).toJson = true ∧
      g.accepts (Record.user ⟨"al", "aİb", "", none, ⟨7, "member", "", false⟩⟩).toJson = false :=
  ⟨@loses_match "ΑΣΒ" "ΑΣ" (by decide) (by decide) (by decide +kernel) (by decide +kernel),
    @loses_match "aİb" "a_b" (by decide) (by decide) (by decide +kernel) (by decide +kernel)⟩

end Entity

end RecordSearch
