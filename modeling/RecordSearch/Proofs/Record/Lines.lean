import RecordSearch.Proofs.Json.Extension
import RecordSearch.Proofs.Json.Visible
import RecordSearch.Proofs.Record.RoundTrip
import RecordSearch.Proofs.Text
import RecordSearch.Store.Directory

/-!
# Records on lines

The lines of records that were written one after another hold these records. Behind a text whose last
line is not finished the first record goes on with that line, and is read if nothing but blanks stand
there.
-/

namespace RecordSearch

open Text

namespace Record

/-! ## Written records -/

theorem print_eq (r : Record) : ∃ body, r.print = '\x7b' :: (body ++ ['\x7d']) := by
  cases r <;> exact ⟨_, rfl⟩

theorem newline_not_mem_print (r : Record) : '\n' ∉ r.print :=
  fun h => absurd (r.plain.visible_print '\n' h) (by decide)

theorem skipGaps_print (r : Record) : Json.skipGaps r.print ≠ [] := by
  obtain ⟨body, h⟩ := r.print_eq
  rw [h, Json.skipGaps_cons rfl]
  exact List.cons_ne_nil _ _

theorem allBlank_append_print (s : List Char) (r : Record) : allBlank (s ++ r.print) = false := by
  obtain ⟨body, h⟩ := r.print_eq
  have hbrace : isBlank '\x7b' = false := by decide
  simp [allBlank, h, hbrace]

theorem dropReturn_append_print (s : List Char) (r : Record) :
    dropReturn (s ++ r.print) = s ++ r.print := by
  obtain ⟨body, h⟩ := r.print_eq
  have hlast : (s ++ r.print).getLast? = some '\x7d' := by
    rw [h, ← List.cons_append, ← List.append_assoc, List.getLast?_concat]
  rw [dropReturn, hlast, if_neg (by decide)]

/-! ## A record behind an unfinished line -/

theorem parse_gaps_append {gaps : List Char} (hg : Json.skipGaps gaps = []) (r : Record) :
    parse (gaps ++ r.print) = .ok r := by
  rw [parse, print, Json.parse?_gaps_append (r.plain.mono (by decide)) hg]
  exact mapError_eq_ok_iff.mpr r.decode_toJson

/-- A record is read from its text, and a line that holds one holds, once it is written anew, the same
record in the same text. -/
theorem parse_print_parse :
    (∀ r : Record, parse r.print = .ok r) ∧
      ∀ {line : List Char} {r : Record}, parse line = .ok r →
        ∃ again, parse r.print = .ok again ∧ again = r ∧ again.print = r.print :=
  ⟨parse_print, fun _ => ⟨_, parse_print _, rfl, rfl⟩⟩

theorem parse_print_parse_gaps :
    let member : User := ⟨"al", "Al \"Green\"\n", "", some ⟨"al", "al@green", true⟩, ⟨-7, "admin", "", true⟩⟩
    let ides : Timestamp :=
      { date := { year := -44, month := 3, day := 15 }
        hour := 12, minute := 0, second := 0, nanosecond := 500000000 }
    let r : Record := .application (.draft ⟨Int64.minValue, "A-1", member, .draft, none, ides⟩)
    let line := ['\t', ' '] ++ r.print
    parse line = .ok r ∧ parse r.print = .ok r ∧ r.print ≠ line := by
  intro member ides r line
  have hline : parse line = .ok r := parse_gaps_append rfl r
  obtain ⟨again, hagain, hsame, _⟩ := parse_print_parse.2 hline
  rw [hsame] at hagain
  refine ⟨hline, hagain, fun h => ?_⟩
  have hlength := congrArg List.length h
  simp only [line, List.length_append, List.length_cons] at hlength
  omega

theorem not_number_of_decode {v : Json} {r : Record} (h : decode v = .ok r) (n : Json.Number) :
    v ≠ .number n := by
  rintro rfl
  cases h

/-- A record does not go on with more than blanks. -/
theorem parse_append {s t : List Char} {q : Record} (h : parse s = .ok q) (ht : Json.skipGaps t ≠ []) :
    parse (s ++ t) = .error .notJson := by
  unfold parse at h
  split at h
  · cases h
  · next v hv =>
    have hdecode := mapError_eq_ok_iff.mp h
    rw [parse, Json.parse?_append hv (not_number_of_decode hdecode) ht]

/-- A written record that is cut holds none, whatever blanks stand before it. -/
theorem parse_cut {gaps kept cut : List Char} {r q : Record} (hg : Json.skipGaps gaps = [])
    (hr : r.print = kept ++ cut) (hcut : cut ≠ []) : parse (gaps ++ kept) ≠ .ok q := by
  intro h
  obtain ⟨body, hbody⟩ := r.print_eq
  -- What is cut off ends with the last brace of the record.
  have hlast : cut.getLast hcut = '\x7d' := by
    have hwhole : kept ++ cut = '\x7b' :: (body ++ ['\x7d']) := hr.symm.trans hbody
    have hends := congrArg List.getLast? hwhole
    rw [List.getLast?_append, List.getLast?_eq_some_getLast hcut, Option.some_or, ← List.cons_append,
      List.getLast?_concat] at hends
    exact Option.some.inj hends
  have hrest : Json.skipGaps cut ≠ [] := by
    intro e
    have hgap := Json.skipGaps_eq_nil_iff.mp e _ (List.getLast_mem hcut)
    rw [hlast] at hgap
    cases hgap
  have hwhole := parse_append h hrest
  rw [List.append_assoc, ← hr, r.parse_gaps_append hg] at hwhole
  cases hwhole

end Record

theorem beginsNothing_of_isBlank {c : Char} (h : isBlank c = true) : Json.BeginsNothing c := by
  refine ⟨?_, fun hc => ?_⟩
  · cases hd : Decimal.isDigit c with
    | false => rfl
    | true =>
        simp only [isBlank, Decimal.isDigit, Bool.or_eq_true, Bool.and_eq_true, decide_eq_true_eq,
          beq_iff_eq] at h hd
        omega
  · simp only [List.mem_cons, List.not_mem_nil, or_false] at hc
    rcases hc with rfl | rfl | rfl | rfl | rfl | rfl | rfl <;> cases h

/-- Of the blanks only those that JSON knows may stand before a record. -/
theorem Record.parse_blank_append {blank : List Char} (hb : allBlank blank = true)
    (hg : Json.skipGaps blank ≠ []) (t : List Char) : parse (blank ++ t) = .error .notJson := by
  obtain ⟨c, s, hc⟩ := List.exists_cons_of_ne_nil hg
  have hskip : Json.skipGaps (blank ++ t) = c :: (s ++ t) := by
    rw [Json.skipGaps_append hg, hc, List.cons_append]
  have hmem : c ∈ Json.skipGaps blank := by
    rw [hc]
    exact List.mem_cons_self
  have hblank := List.all_eq_true.mp hb c ((List.dropWhile_sublist Json.isGap).subset hmem)
  rw [parse, Json.parse?_of_beginsNothing hskip (beginsNothing_of_isBlank hblank)]

theorem allBlank_of_gaps {s : List Char} (h : Json.skipGaps s = []) : allBlank s = true := by
  refine List.all_eq_true.mpr fun c hc => ?_
  have hgap := Json.skipGaps_eq_nil_iff.mp h c hc
  simp only [Json.isGap, Bool.or_eq_true, decide_eq_true_eq] at hgap
  rcases hgap with ((rfl | rfl) | rfl) | rfl <;> decide

/-! ## Lines of records -/

theorem recordsOfLines_append (n : Nat) (xs ys : List (List Char)) :
    recordsOfLines n (xs ++ ys) =
      recordsOfLines n xs >>= fun rs => (recordsOfLines (n + xs.length) ys).map (rs ++ ·) := by
  induction xs generalizing n with
  | nil =>
      rw [recordsOfLines, ok_bind]
      change recordsOfLines n ys = (recordsOfLines n ys).map id
      cases recordsOfLines n ys <;> rfl
  | cons x xs ih =>
      have hlength : n + (x :: xs).length = n + 1 + xs.length := by
        rw [List.length_cons]
        omega
      rw [List.cons_append, recordsOfLines, recordsOfLines, ih, hlength]
      split
      · rfl
      · cases Record.parse x with
        | error e => rfl
        | ok r =>
            dsimp only
            cases recordsOfLines (n + 1) xs with
            | error line => rfl
            | ok rs => cases recordsOfLines (n + 1 + xs.length) ys <;> rfl

theorem recordsOfLines_print (n : Nat) (rs : List Record) :
    recordsOfLines n (rs.map Record.print) = .ok rs := by
  induction rs generalizing n with
  | nil => rfl
  | cons r rs ih =>
      have hblank : allBlank r.print = false := r.allBlank_append_print []
      rw [List.map_cons, recordsOfLines, hblank, Record.parse_print]
      simp [ih, Except.map]

/-- The line is not blank and holds no record. -/
def undecodable (line : List Char) : Bool := !allBlank line && (Record.parse line).toOption.isNone

/-- What is read is refused at the first line that is not blank and holds no record. -/
theorem recordsOfLines_of_findIdx? {ls : List (List Char)} {k : Nat} (n : Nat)
    (h : ls.findIdx? undecodable = some k) : recordsOfLines n ls = .error (n + k) := by
  fun_induction recordsOfLines n ls generalizing k with
  | case1 => cases h
  | case2 n line rest hblank ih =>
      rw [List.findIdx?_cons, undecodable, hblank] at h
      obtain ⟨i, hi, rfl⟩ := Option.map_eq_some_iff.mp h
      rw [ih hi, Nat.add_right_comm, Nat.add_assoc]
  | case3 n line rest hblank e hparse =>
      rw [List.findIdx?_cons, undecodable, Bool.eq_false_iff.mpr hblank, hparse] at h
      cases h
      rfl
  | case4 n line rest hblank r hparse ih =>
      rw [List.findIdx?_cons, undecodable, Bool.eq_false_iff.mpr hblank, hparse] at h
      obtain ⟨i, hi, rfl⟩ := Option.map_eq_some_iff.mp h
      rw [ih hi, Nat.add_right_comm, Nat.add_assoc]
      rfl

/-- The records that are read are those of the lines that are not blank, one after another. -/
theorem parse_of_recordsOfLines {ls : List (List Char)} {n : Nat} {rs : List Record}
    (h : recordsOfLines n ls = .ok rs) : (ls.filter (!allBlank ·)).map Record.parse = rs.map .ok := by
  fun_induction recordsOfLines n ls generalizing rs with
  | case1 =>
      cases h
      rfl
  | case2 n line rest hblank ih =>
      rw [List.filter_cons_of_neg (by simp [hblank])]
      exact ih h
  | case3 => cases h
  | case4 n line rest hblank r hparse ih =>
      obtain ⟨others, hothers, rfl⟩ := map_eq_ok_iff.mp h
      rw [List.filter_cons_of_pos (by simp [hblank]), List.map_cons, hparse, ih hothers]
      rfl

theorem lines_flatMap_line (rs : List Record) : lines (rs.flatMap Record.line) = rs.map Record.print := by
  induction rs with
  | nil => rfl
  | cons r rs ih =>
      have happend := lines_append_line [] r.newline_not_mem_print (rs.flatMap Record.line)
      rw [List.flatMap_cons, List.map_cons, ← ih, Record.line, List.append_assoc]
      refine happend.trans ?_
      change dropReturn ([] ++ r.print) :: _ = _
      rw [r.dropReturn_append_print]
      rfl

/-- What goes on with a line that was not finished and is not blank for JSON is no record. -/
theorem parse_unfinished {line t : List Char} {n : Nat} {old : List Record}
    (h : recordsOfLines n (if line = [] then [] else [line]) = .ok old) (hg : Json.skipGaps line ≠ [])
    (ht : Json.skipGaps t ≠ []) : Record.parse (line ++ t) = .error .notJson := by
  have hne : line ≠ [] := fun e => hg (by rw [e]; rfl)
  rw [if_neg hne, recordsOfLines] at h
  cases hb : allBlank line with
  | true => exact Record.parse_blank_append hb hg t
  | false =>
      rw [hb] at h
      cases hq : Record.parse line with
      | ok q => exact Record.parse_append hq ht
      | error e =>
          rw [hq] at h
          cases h

theorem recordsOfLines_gaps {line : List Char} (hg : Json.skipGaps line = []) (n : Nat) :
    recordsOfLines n (if line = [] then [] else [line]) = .ok [] := by
  split
  · rfl
  · rw [recordsOfLines, allBlank_of_gaps hg]
    rfl

/-- Nothing but blanks stands after the last line feed, so that a record can be appended. -/
def Appendable (content : List Char) : Prop := Json.skipGaps (unfinishedLine content) = []

instance (content : List Char) : Decidable (Appendable content) := inferInstanceAs (Decidable (_ = _))

/-- What stands before the last line feed and what stands after it, read one after the other. -/
theorem recordsOfLines_unfinished {content : List Char} {old : List Record}
    (h : recordsOfLines 1 (lines content) = .ok old) :
    ∃ finished unfinished, recordsOfLines 1 (finishedLines content) = .ok finished ∧
      recordsOfLines (1 + (finishedLines content).length)
        (if unfinishedLine content = [] then [] else [unfinishedLine content]) = .ok unfinished ∧
      old = finished ++ unfinished := by
  rw [lines_eq, recordsOfLines_append] at h
  obtain ⟨finished, hfinished, h⟩ := bind_eq_ok_iff.mp h
  obtain ⟨unfinished, hunfinished, rfl⟩ := map_eq_ok_iff.mp h
  exact ⟨finished, unfinished, hfinished, hunfinished, rfl⟩

/-- A text that was read as records goes on with the line of a record and more. The record is read if
nothing but blanks stood on the line that was not finished, else that line holds no record any more. -/
theorem recordsOfLines_append_line {content : List Char} {old : List Record}
    (h : recordsOfLines 1 (lines content) = .ok old) (r : Record) (t : List Char) :
    recordsOfLines 1 (lines (content ++ (r.line ++ t))) =
      if Appendable content then
        (recordsOfLines ((finishedLines content).length + 2) (lines t)).map (old ++ [r] ++ ·)
      else .error ((finishedLines content).length + 1) := by
  have hlines : lines (content ++ (r.line ++ t)) =
      finishedLines content ++ (unfinishedLine content ++ r.print) :: lines t := by
    have happend := lines_append_line content r.newline_not_mem_print t
    rw [r.dropReturn_append_print] at happend
    rw [← happend, Record.line, List.append_assoc]
    rfl
  have hblank := r.allBlank_append_print (unfinishedLine content)
  obtain ⟨finished, unfinished, hfinished, hu, rfl⟩ := recordsOfLines_unfinished h
  rw [hlines, recordsOfLines_append, hfinished, ok_bind, recordsOfLines, hblank,
    if_neg Bool.false_ne_true]
  by_cases hg : Appendable content
  · rw [if_pos hg, r.parse_gaps_append hg]
    cases (recordsOfLines_gaps hg _).symm.trans hu
    rw [Nat.add_comm 1, Nat.add_assoc]
    cases recordsOfLines ((finishedLines content).length + 2) (lines t) <;> simp [Except.map]
  · rw [if_neg hg, parse_unfinished hu hg r.skipGaps_print, Nat.add_comm]
    rfl

/-- A text that was read as records and to which the lines of records are appended is read as all of
them, if there are any to append only when the text can be appended to. Otherwise the line that was not
finished holds no record any more. -/
theorem recordsOfLines_append_records {content : List Char} {old : List Record}
    (h : recordsOfLines 1 (lines content) = .ok old) (rs : List Record) :
    recordsOfLines 1 (lines (content ++ rs.flatMap Record.line)) =
      if rs = [] ∨ Appendable content then .ok (old ++ rs)
      else .error ((finishedLines content).length + 1) := by
  cases rs with
  | nil => simpa using h
  | cons r rs =>
      rw [List.flatMap_cons, recordsOfLines_append_line h, lines_flatMap_line, recordsOfLines_print]
      simp [Except.map]

/-! ## Lines that are broken off -/

/-- The beginning of a printed record that is appended adds this record, if it is all of it, or none. -/
theorem recordsOfLines_append_cut {content kept cut : List Char} {old found : List Record} {r : Record}
    (h : recordsOfLines 1 (lines content) = .ok old) (hr : r.print = kept ++ cut)
    (hf : recordsOfLines 1 (lines (content ++ kept)) = .ok found) : found = old ∨ found = old ++ [r] := by
  cases kept with
  | nil =>
      rw [List.append_nil, h] at hf
      cases hf
      exact .inl rfl
  | cons c kept =>
      obtain ⟨body, hbody⟩ := r.print_eq
      have hc : c = '\x7b' := List.head_eq_of_cons_eq (hr.symm.trans hbody)
      have hbegins : Json.skipGaps (c :: kept) ≠ [] := by
        rw [hc, Json.skipGaps_cons rfl]
        exact List.cons_ne_nil _ _
      have hline : '\n' ∉ c :: kept := fun hm =>
        r.newline_not_mem_print (hr ▸ List.mem_append_left _ hm)
      have hblank : allBlank (unfinishedLine content ++ c :: kept) = false := by
        have hbrace : isBlank '\x7b' = false := by decide
        simp [allBlank, hc, hbrace]
      obtain ⟨finished, unfinished, hfinished, hu, rfl⟩ := recordsOfLines_unfinished h
      rw [lines_append_unfinished content hline (List.cons_ne_nil _ _), recordsOfLines_append, hfinished,
        ok_bind, recordsOfLines, hblank, if_neg Bool.false_ne_true] at hf
      by_cases hg : Appendable content
      · cases (recordsOfLines_gaps hg _).symm.trans hu
        cases cut with
        | nil =>
            rw [List.append_nil] at hr
            rw [← hr, r.parse_gaps_append hg] at hf
            cases hf
            exact .inr (by simp)
        | cons d cut =>
            cases hp : Record.parse (unfinishedLine content ++ c :: kept) with
            | ok q => exact absurd hp (Record.parse_cut hg hr (List.cons_ne_nil _ _))
            | error e =>
                rw [hp] at hf
                cases hf
      · rw [parse_unfinished hu hg hbegins] at hf
        cases hf

/-- When a beginning of the lines of records is appended and the text can still be read, there are some first
of these records behind the old ones. -/
theorem recordsOfLines_append_beginning {content kept : List Char} {old found rs : List Record}
    (h : recordsOfLines 1 (lines content) = .ok old) (hk : kept <+: rs.flatMap Record.line)
    (hf : recordsOfLines 1 (lines (content ++ kept)) = .ok found) : ∃ k, found = old ++ rs.take k := by
  induction rs generalizing content kept old with
  | nil =>
      rw [List.prefix_nil.mp hk, List.append_nil, h] at hf
      cases hf
      exact ⟨0, by simp⟩
  | cons r rs ih =>
      rw [List.flatMap_cons] at hk
      have hwhole : r.line <+: kept ∨ kept <+: r.print := by
        rcases List.prefix_or_prefix_of_prefix hk (List.prefix_append ..) with hcut | hwhole
        · rcases List.prefix_concat_iff.mp hcut with rfl | hcut
          · exact .inl List.prefix_rfl
          · exact .inr hcut
        · exact .inl hwhole
      rcases hwhole with ⟨rest, rfl⟩ | ⟨cut, hr⟩
      · rw [recordsOfLines_append_line h] at hf
        split at hf
        · next hg =>
          have hnext : recordsOfLines 1 (lines (content ++ r.line)) = .ok (old ++ [r]) := by
            have hadded := recordsOfLines_append_records h [r]
            rwa [List.flatMap_singleton, if_pos (.inr hg)] at hadded
          have hsame := recordsOfLines_append_line h r rest
          rw [if_pos hg, hf, ← List.append_assoc] at hsame
          obtain ⟨k, rfl⟩ := ih hnext ((List.prefix_append_right_inj _).mp hk) hsame
          exact ⟨k + 1, by simp⟩
        · cases hf
      · rcases recordsOfLines_append_cut h hr.symm hf with rfl | rfl
        · exact ⟨0, by simp⟩
        · exact ⟨1, by simp⟩

end RecordSearch
