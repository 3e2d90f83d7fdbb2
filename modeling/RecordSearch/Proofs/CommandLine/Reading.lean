import RecordSearch.CommandLine.Run
import RecordSearch.Proofs.Outcome
import RecordSearch.Proofs.Record.Shape
import RecordSearch.Proofs.Text

/-!
# Command lines that are read

How a command line is read that is read without a fault, argument after argument, and what is found in it: a
flag or an option that is written stays, whatever comes after it.
-/

namespace RecordSearch.CommandLine

variable {sig : Signature} {g g₁ g' : Given} {name value argument word : String}
  {rest left arguments : List String}

namespace Signature

/-- The arguments are read without a fault, up to those that are left. -/
inductive Reads (sig : Signature) : Given → List String → Given → List String → Prop where
  | done (g : Given) : Reads sig g [] g []
  | separator {argument : String} {rest : List String} {g g' : Given} (hf : Form.of argument = .separator)
      (hw : rest.foldlM sig.addWord g = .ok g') : Reads sig g (argument :: rest) g' []
  | joined {name value argument : String} {rest left : List String} {g g₁ g' : Given}
      (hf : Form.of argument = .long name (some value)) (ha : sig.addOption name value g = .ok g₁)
      (h : Reads sig g₁ rest g' left) : Reads sig g (argument :: rest) g' left
  | apart {name value argument : String} {rest left : List String} {g g₁ g' : Given}
      (hf : Form.of argument = .long name none) (hh : name ≠ "help") (hn : name ∈ sig.options.map (·.1))
      (hv : Form.of value = .word) (ha : sig.addOption name value g = .ok g₁)
      (h : Reads sig g₁ rest g' left) : Reads sig g (argument :: value :: rest) g' left
  | flag {name argument : String} {rest left : List String} {g g₁ g' : Given}
      (hf : Form.of argument = .long name none) (hh : name ≠ "help") (hn : name ∉ sig.options.map (·.1))
      (ha : sig.addFlag name g = .ok g₁) (h : Reads sig g₁ rest g' left) :
      Reads sig g (argument :: rest) g' left
  | command {argument : String} {rest : List String} {g : Given} (hf : Form.of argument = .word)
      (hc : sig.hasCommands = true) : Reads sig g (argument :: rest) g (argument :: rest)
  | word {argument : String} {rest left : List String} {g g₁ g' : Given} (hf : Form.of argument = .word)
      (hc : sig.hasCommands = false) (ha : sig.addWord g argument = .ok g₁) (h : Reads sig g₁ rest g' left) :
      Reads sig g (argument :: rest) g' left

theorem reads_of_read (h : sig.read g arguments = .ok (g', left)) : sig.Reads g arguments g' left := by
  fun_induction Signature.read sig g arguments with
  | case1 g =>
      cases h
      exact .done _
  | case2 g argument rest hf =>
      obtain ⟨_, hw, h⟩ := bind_eq_ok_iff.mp h
      cases h
      exact .separator hf hw
  | case3 => cases h
  | case4 => cases h
  | case5 g argument rest name value hf ih =>
      obtain ⟨g₁, ha, h⟩ := bind_eq_ok_iff.mp h
      exact .joined hf ha (ih g₁ h)
  | case6 => cases h
  | case7 g argument name hh hf hn value rest hv ih =>
      obtain ⟨g₁, ha, h⟩ := bind_eq_ok_iff.mp h
      exact .apart hf hh hn hv ha (ih g₁ h)
  | case8 => cases h
  | case9 g argument rest name hh hf hn ih =>
      obtain ⟨g₁, ha, h⟩ := bind_eq_ok_iff.mp h
      exact .flag hf hh hn ha (ih g₁ h)
  | case10 g argument rest hf hc =>
      cases h
      exact .command hf hc
  | case11 g argument rest hf hc ih =>
      obtain ⟨g₁, ha, h⟩ := bind_eq_ok_iff.mp h
      exact .word hf (Bool.eq_false_iff.mpr hc) ha (ih g₁ h)

theorem read_of_reads (h : sig.Reads g arguments g' left) : sig.read g arguments = .ok (g', left) := by
  induction h with
  | done => rfl
  | separator hf hw =>
      simp only [read, hf, hw]
      rfl
  | joined hf ha _ ih =>
      simp only [read, hf, ha]
      exact ih
  | apart hf hh hn hv ha _ ih =>
      simp only [read, hf, if_pos hn, if_pos hv, ha]
      exact ih
  | flag hf hh hn ha _ ih =>
      simp only [read, hf, if_neg hn, ha]
      exact ih
  | command hf hc =>
      simp only [read, hf, if_pos hc]
  | word hf hc ha _ ih =>
      simp only [read, hf, hc, ha]
      exact ih

theorem read_eq_ok_iff : sig.read g arguments = .ok (g', left) ↔ sig.Reads g arguments g' left :=
  ⟨reads_of_read, read_of_reads⟩

/-! ## What stays -/

theorem addFlag_eq_ok (h : sig.addFlag name g = .ok g') :
    name ∈ sig.flags ∧ name ∉ g.flags ∧ g' = { g with flags := g.flags ++ [name] } := by
  rw [addFlag] at h
  split at h
  · next hn =>
    cases h
    exact ⟨hn.1, hn.2, rfl⟩
  · cases h

theorem addOption_eq_ok (h : sig.addOption name value g = .ok g') :
    ∃ kind, sig.options.lookup name = some kind ∧ kind.accepts value = true ∧
      g.options.lookup name = none ∧ g' = { g with options := g.options ++ [(name, value)] } := by
  rw [addOption] at h
  split at h
  · next kind hk =>
    split at h
    · next hn =>
      cases h
      exact ⟨kind, hk, hn.1, Option.isNone_iff_eq_none.mp hn.2, rfl⟩
    · cases h
  · cases h

theorem addWord_eq_ok (h : sig.addWord g argument = .ok g') :
    g' = { g with words := g.words ++ [argument] } := by
  rw [addWord] at h
  split at h
  · split at h
    · cases h
      rfl
    · cases h
  · cases h

theorem addWords_eq_ok (h : arguments.foldlM sig.addWord g = .ok g') :
    g' = { g with words := g.words ++ arguments } := by
  induction arguments generalizing g with
  | nil =>
      cases h
      simp
  | cons argument rest ih =>
      rw [List.foldlM_cons] at h
      obtain ⟨g₁, ha, h⟩ := bind_eq_ok_iff.mp h
      rw [ih h, addWord_eq_ok ha]
      simp

theorem Reads.flags_subset (h : sig.Reads g arguments g' left) : g.flags ⊆ g'.flags := by
  induction h with
  | done => exact List.Subset.refl _
  | separator _ hw => rw [addWords_eq_ok hw]; exact List.Subset.refl _
  | joined _ ha _ ih | apart _ _ _ _ ha _ ih =>
      obtain ⟨_, _, _, _, rfl⟩ := addOption_eq_ok ha
      exact ih
  | flag _ _ _ ha _ ih =>
      obtain ⟨_, _, rfl⟩ := addFlag_eq_ok ha
      exact List.Subset.trans (List.subset_append_left _ _) ih
  | command => exact List.Subset.refl _
  | word _ _ ha _ ih => rw [addWord_eq_ok ha] at ih; exact ih

theorem lookup_append_of_some {options more : List (String × String)} (h : options.lookup name = some value) :
    (options ++ more).lookup name = some value := by
  rw [List.lookup_append, h]
  rfl

theorem Reads.lookup (h : sig.Reads g arguments g' left) (hv : g.options.lookup name = some value) :
    g'.options.lookup name = some value := by
  induction h with
  | done => exact hv
  | separator _ hw => rw [addWords_eq_ok hw]; exact hv
  | joined _ ha _ ih | apart _ _ _ _ ha _ ih =>
      obtain ⟨_, _, _, _, rfl⟩ := addOption_eq_ok ha
      exact ih (lookup_append_of_some hv)
  | flag _ _ _ ha _ ih =>
      obtain ⟨_, _, rfl⟩ := addFlag_eq_ok ha
      exact ih hv
  | command => exact hv
  | word _ _ ha _ ih =>
      rw [addWord_eq_ok ha] at ih
      exact ih hv

/-! ## Commands -/

/-- The word that begins a command is found where it stands, whatever comes after it. -/
theorem Reads.command_split (h : sig.Reads g arguments g' (name :: rest)) :
    ∃ before, arguments = before ++ name :: rest ∧
      ∀ rest', sig.Reads g (before ++ name :: rest') g' (name :: rest') := by
  generalize hl : name :: rest = left at h
  induction h with
  | done => cases hl
  | separator => cases hl
  | joined hf ha _ ih =>
      obtain ⟨before, rfl, hb⟩ := ih hl
      exact ⟨_ :: before, rfl, fun rest' => .joined hf ha (hb rest')⟩
  | apart hf hh hn hv ha _ ih =>
      obtain ⟨before, rfl, hb⟩ := ih hl
      exact ⟨_ :: _ :: before, rfl, fun rest' => .apart hf hh hn hv ha (hb rest')⟩
  | flag hf hh hn ha _ ih =>
      obtain ⟨before, rfl, hb⟩ := ih hl
      exact ⟨_ :: before, rfl, fun rest' => .flag hf hh hn ha (hb rest')⟩
  | command hf hc =>
      cases hl
      exact ⟨[], rfl, fun rest' => .command hf hc⟩
  | word hf hc ha _ ih =>
      obtain ⟨before, rfl, hb⟩ := ih hl
      exact ⟨_ :: before, rfl, fun rest' => .word hf hc ha (hb rest')⟩

end Signature

/-! ## Flags -/

/-- What is given, with a flag before all others. -/
def Given.withFlag (flag : String) (g : Given) : Given := { g with flags := flag :: g.flags }

namespace Signature

variable {flag : String}

theorem addFlag_withFlag (h : sig.addFlag name g = .ok g') (hne : name ≠ flag) :
    sig.addFlag name (g.withFlag flag) = .ok (g'.withFlag flag) := by
  obtain ⟨hknown, hnew, rfl⟩ := addFlag_eq_ok h
  have hnew' : name ∉ (g.withFlag flag).flags := List.not_mem_cons_of_ne_of_not_mem hne hnew
  exact if_pos ⟨hknown, hnew'⟩

theorem addOption_withFlag (h : sig.addOption name value g = .ok g') :
    sig.addOption name value (g.withFlag flag) = .ok (g'.withFlag flag) := by
  rw [addOption] at h ⊢
  split at h
  · split at h
    · next hn =>
      cases h
      exact if_pos hn
    · cases h
  · cases h

theorem addWord_withFlag (h : sig.addWord g argument = .ok g') :
    sig.addWord (g.withFlag flag) argument = .ok (g'.withFlag flag) := by
  rw [addWord] at h ⊢
  split at h
  · next kind hk =>
    have hk' : sig.words[(g.withFlag flag).words.length]? = some kind := hk
    rw [hk']
    split at h
    · next hn =>
      cases h
      exact if_pos hn
    · cases h
  · cases h

theorem addWords_withFlag (h : arguments.foldlM sig.addWord g = .ok g') :
    arguments.foldlM sig.addWord (g.withFlag flag) = .ok (g'.withFlag flag) := by
  induction arguments generalizing g with
  | nil =>
      cases h
      rfl
  | cons argument rest ih =>
      rw [List.foldlM_cons] at h ⊢
      obtain ⟨g₁, ha, h⟩ := bind_eq_ok_iff.mp h
      rw [addWord_withFlag ha]
      exact ih h

/-- A flag that is not given otherwise can be given first, and nothing else changes. -/
theorem Reads.withFlag (h : sig.Reads g arguments g' left) (hn : flag ∉ g'.flags) :
    sig.Reads (g.withFlag flag) arguments (g'.withFlag flag) left := by
  induction h with
  | done => exact .done _
  | separator hf hw => exact .separator hf (addWords_withFlag hw)
  | joined hf ha _ ih => exact .joined hf (addOption_withFlag ha) (ih hn)
  | apart hf hh ho hv ha _ ih => exact .apart hf hh ho hv (addOption_withFlag ha) (ih hn)
  | flag hf hh ho ha hrest ih =>
      obtain ⟨_, _, hflags⟩ := addFlag_eq_ok ha
      refine .flag hf hh ho (addFlag_withFlag ha ?_) (ih hn)
      rintro rfl
      refine hn (hrest.flags_subset ?_)
      rw [hflags]
      exact List.mem_append_right _ (List.mem_singleton_self _)
  | command hf hc => exact .command hf hc
  | word hf hc ha _ ih => exact .word hf hc (addWord_withFlag ha) (ih hn)

end Signature

/-! ## Options that are written -/

/-- The option is written with the value, before any two hyphens that stand alone. -/
inductive Written (name value : String) : List String → Prop where
  | joined (rest : List String) : Written name value (("--" ++ name ++ "=" ++ value) :: rest)
  | apart (rest : List String) : Written name value (("--" ++ name) :: value :: rest)
  | later {argument : String} {rest : List String} (hs : argument ≠ "--") (h : Written name value rest) :
      Written name value (argument :: rest)

/-- A name that can be told from the value after it. -/
def IsName (name : String) : Prop := name ≠ "" ∧ '=' ∉ name.toList

instance (name : String) : Decidable (IsName name) := inferInstanceAs (Decidable (_ ∧ _))

theorem form_joined (h : IsName name) (value : String) :
    Form.of ("--" ++ name ++ "=" ++ value) = .long name (some value) := by
  obtain ⟨c, n, hn⟩ := List.exists_cons_of_ne_nil fun e => h.1 (String.toList_eq_nil_iff.mp e)
  obtain ⟨first, parts, hv⟩ := List.exists_cons_of_ne_nil (Text.segments_ne_nil '=' value.toList)
  have hlist : ("--" ++ name ++ "=" ++ value).toList = '-' :: '-' :: c :: (n ++ '=' :: value.toList) := by
    simp [String.toList_append, hn]
  have hsegments : Text.segments '=' (c :: (n ++ '=' :: value.toList)) = name.toList :: first :: parts := by
    rw [← hv, ← Text.segments_append h.2, hn]
    rfl
  have hvalue := Text.join_segments '=' value.toList
  rw [hv] at hvalue
  rw [Form.of, hlist]
  simp only [hsegments, hvalue, String.ofList_toList]

theorem form_apart (h : IsName name) : Form.of ("--" ++ name) = .long name none := by
  obtain ⟨c, n, hn⟩ := List.exists_cons_of_ne_nil fun e => h.1 (String.toList_eq_nil_iff.mp e)
  have hlist : ("--" ++ name).toList = '-' :: '-' :: c :: n := by
    simp [String.toList_append, hn]
  have hsegments : Text.segments '=' (c :: n) = [name.toList] := by
    rw [← hn]
    exact Text.segments_of_not_mem h.2
  rw [Form.of, hlist]
  simp only [hsegments]
  rw [← hn, String.ofList_toList]

theorem eq_of_form_separator (h : Form.of argument = .separator) : argument = "--" := by
  rw [Form.of] at h
  split at h
  · next hlist => exact String.toList_inj.mp hlist
  · split at h <;> cases h
  · cases h
  · cases h

theorem eq_of_form_long (h : Form.of argument = .long name none) : argument = "--" ++ name := by
  have hargument {s : List Char} (hlist : argument.toList = '-' :: '-' :: s) :
      argument = "--" ++ String.ofList s := by
    simp [← String.toList_inj, hlist, String.toList_append]
  rw [Form.of] at h
  split at h
  · cases h
  · next s _ hlist =>
    split at h
    · cases h
      exact hargument hlist
    · cases h
      exact hargument hlist
    · cases h
  · cases h
  · cases h

theorem ne_separator {form : Form} (h : Form.of argument = form) (hne : form ≠ .separator) :
    argument ≠ "--" := by
  rintro rfl
  exact hne (h.symm.trans (by decide))

/-- An option that is written is added, unless a command begins before it. -/
theorem Written.read (hw : Written name value arguments) (hname : IsName name) (hf : name ∉ sig.flags)
    (h : sig.Reads g arguments g' left) :
    (∃ g₀ g₁ later, sig.addOption name value g₀ = .ok g₁ ∧ sig.Reads g₁ later g' left) ∨
      sig.hasCommands = true ∧ ∃ word rest, left = word :: rest ∧ Written name value rest := by
  -- In each case the option is written here, which settles what is read, or later.
  induction h with
  | done => cases hw
  | separator hform _ =>
      cases hw with
      | joined => cases (form_joined hname value).symm.trans hform
      | apart => cases (form_apart hname).symm.trans hform
      | later hs _ => exact absurd (eq_of_form_separator hform) hs
  | joined hform ha h ih =>
      cases hw with
      | joined =>
          cases (form_joined hname value).symm.trans hform
          exact .inl ⟨_, _, _, ha, h⟩
      | apart => cases (form_apart hname).symm.trans hform
      | later _ hw => exact ih hw
  | apart hform _ _ hv ha h ih =>
      cases hw with
      | joined => cases (form_joined hname value).symm.trans hform
      | apart =>
          cases (form_apart hname).symm.trans hform
          exact .inl ⟨_, _, _, ha, h⟩
      | later _ hw =>
          cases hw with
          | joined => cases (form_joined hname value).symm.trans hv
          | apart => cases (form_apart hname).symm.trans hv
          | later _ hw => exact ih hw
  | flag hform _ _ ha _ ih =>
      cases hw with
      | joined => cases (form_joined hname value).symm.trans hform
      | apart =>
          cases (form_apart hname).symm.trans hform
          exact absurd (Signature.addFlag_eq_ok ha).1 hf
      | later _ hw => exact ih hw
  | command hform hcommand =>
      cases hw with
      | joined => cases (form_joined hname value).symm.trans hform
      | apart => cases (form_apart hname).symm.trans hform
      | later _ hw => exact .inr ⟨hcommand, _, _, rfl, hw⟩
  | word hform _ _ _ ih =>
      cases hw with
      | joined => cases (form_joined hname value).symm.trans hform
      | apart => cases (form_apart hname).symm.trans hform
      | later _ hw => exact ih hw

/-- An option that is written and read without a fault has the value that is written. -/
theorem Written.lookup (hw : Written name value arguments) (hname : IsName name)
    (hc : sig.hasCommands = false) (hf : name ∉ sig.flags) (h : sig.Reads g arguments g' left) :
    ∃ kind, sig.options.lookup name = some kind ∧ kind.accepts value = true ∧
      g'.options.lookup name = some value := by
  obtain ⟨_, _, _, ha, hlater⟩ | ⟨hcommand, _⟩ := hw.read hname hf h
  · obtain ⟨kind, hk, haccepts, hnone, rfl⟩ := Signature.addOption_eq_ok ha
    refine ⟨kind, hk, haccepts, hlater.lookup ?_⟩
    simp [List.lookup_append, hnone]
  · exact absurd (hcommand.symm.trans hc) (by decide)

/-- An option that is not known before the command is written after it. -/
theorem Written.after_command (hw : Written name value arguments) (hname : IsName name)
    (ho : name ∉ sig.options.map (·.1)) (hf : name ∉ sig.flags)
    (h : sig.Reads g arguments g' (word :: rest)) : Written name value rest := by
  obtain ⟨_, _, _, ha, _⟩ | ⟨_, _, _, e, hw⟩ := hw.read hname hf h
  · obtain ⟨_, hk, _⟩ := Signature.addOption_eq_ok ha
    exact absurd (Content.mem_names_of_lookup hk) ho
  · cases e
    exact hw

/-- The flag is written, before any two hyphens that stand alone. -/
def Raised (flag : String) (arguments : List String) : Prop := "--" ++ flag ∈ arguments.takeWhile (· ≠ "--")

instance (flag : String) (arguments : List String) : Decidable (Raised flag arguments) :=
  inferInstanceAs (Decidable (_ ∈ _))

theorem Raised.later {flag : String} (h : Raised flag rest) (hs : argument ≠ "--") :
    Raised flag (argument :: rest) := by
  rw [Raised, List.takeWhile_cons_of_pos (by simpa using hs)]
  exact List.mem_cons_of_mem _ h

/-- A flag is only given if it is written. -/
theorem Signature.Reads.raised {flag : String} (h : sig.Reads g arguments g' left) (hn : flag ∈ g'.flags)
    (hg : flag ∉ g.flags) : Raised flag arguments := by
  induction h with
  | done => exact absurd hn hg
  | separator _ hw =>
      rw [addWords_eq_ok hw] at hn
      exact absurd hn hg
  | joined hf ha _ ih =>
      obtain ⟨_, _, _, _, rfl⟩ := addOption_eq_ok ha
      exact (ih hn hg).later (ne_separator hf (by rintro ⟨⟩))
  | apart hf _ _ hv ha _ ih =>
      obtain ⟨_, _, _, _, rfl⟩ := addOption_eq_ok ha
      exact ((ih hn hg).later (ne_separator hv (by rintro ⟨⟩))).later (ne_separator hf (by rintro ⟨⟩))
  | @flag name argument rest _ _ _ _ hf _ _ ha _ ih =>
      obtain ⟨_, _, rfl⟩ := addFlag_eq_ok ha
      have hs : argument ≠ "--" := ne_separator hf (by rintro ⟨⟩)
      by_cases hname : flag = name
      · rw [Raised, List.takeWhile_cons_of_pos (by simpa using hs), eq_of_form_long hf, hname]
        exact List.mem_cons_self
      · refine (ih hn fun hmem => ?_).later hs
        rcases List.mem_append.mp hmem with hmem | hmem
        · exact hg hmem
        · exact hname (List.mem_singleton.mp hmem)
  | command => exact absurd hn hg
  | word hf _ ha _ ih =>
      rw [addWord_eq_ok ha] at ih
      exact (ih hn hg).later (ne_separator hf (by rintro ⟨⟩))

theorem Raised.of_after_command {flag : String} (hr : Raised flag rest)
    (h : sig.Reads g arguments g' (word :: rest)) : Raised flag arguments := by
  generalize hl : word :: rest = left at h
  induction h with
  | done => cases hl
  | separator => cases hl
  | joined hf _ _ ih => exact (ih hl).later (ne_separator hf (by rintro ⟨⟩))
  | apart hf _ _ hv _ _ ih =>
      exact ((ih hl).later (ne_separator hv (by rintro ⟨⟩))).later (ne_separator hf (by rintro ⟨⟩))
  | flag hf _ _ _ _ ih => exact (ih hl).later (ne_separator hf (by rintro ⟨⟩))
  | command hf _ =>
      cases hl
      exact hr.later (ne_separator hf (by rintro ⟨⟩))
  | word hf _ _ _ ih => exact (ih hl).later (ne_separator hf (by rintro ⟨⟩))

/-! ## Commands that are prepared -/

section

variable {env : Surroundings} {namedServer : Option String} {disk : Disk} {command : Command}
  {settings : Settings}

def Given.search (g : Given) (namedServer : Option String) : SearchCommand :=
  ⟨g.words[0]?, g.words[1]?, decide ("or" ∈ g.flags), g.format, g.store, g.server namedServer⟩

def Given.storeInfo (g : Given) (namedServer : Option String) : StoreInfoCommand :=
  ⟨g.format, g.store, g.server namedServer⟩

def Given.serve (g : Given) : ServeCommand := ⟨(g.options.lookup "addr").getD defaultAddress, g.store⟩

/-- The command that a name and the arguments after it make, each from what is given in them. -/
inductive Command.ReadFrom (namedServer : Option String) (arguments : List String) : String → Command → Prop where
  | search {g : Given} (hg : searchSignature.readAll arguments = .ok g) :
      ReadFrom namedServer arguments "search" (.search (g.search namedServer))
  | load {g : Given} {input : String} {more : List String} (hg : loadSignature.readAll arguments = .ok g)
      (hw : g.words = input :: more) : ReadFrom namedServer arguments "load" (.load ⟨input, g.store⟩)
  | storeInfo {g : Given} (hg : storeInfoSignature.readAll arguments = .ok g) :
      ReadFrom namedServer arguments "store-info" (.storeInfo (g.storeInfo namedServer))
  | entities {g : Given} (hg : entitiesSignature.readAll arguments = .ok g) :
      ReadFrom namedServer arguments "entities" (.entities ⟨g.format⟩)
  | serve {g : Given} (hg : serveSignature.readAll arguments = .ok g) :
      ReadFrom namedServer arguments "serve" (.serve g.serve)

theorem Command.read_eq_ok_iff :
    Command.read namedServer name arguments = .ok command ↔ ReadFrom namedServer arguments name command := by
  constructor
  · intro h
    unfold Command.read at h
    split at h
    · obtain ⟨g, hg, h⟩ := bind_eq_ok_iff.mp h
      cases h
      exact .search hg
    · obtain ⟨g, hg, h⟩ := bind_eq_ok_iff.mp h
      split at h
      · next hw =>
        cases h
        exact .load hg hw
      · cases h
    · obtain ⟨g, hg, h⟩ := bind_eq_ok_iff.mp h
      cases h
      exact .storeInfo hg
    · obtain ⟨g, hg, h⟩ := bind_eq_ok_iff.mp h
      cases h
      exact .entities hg
    · obtain ⟨g, hg, h⟩ := bind_eq_ok_iff.mp h
      cases h
      exact .serve hg
    · cases h
  · intro h
    cases h with
    | load hg hw =>
        rw [Command.read, hg, ok_bind, hw]
    | search hg | storeInfo hg | entities hg | serve hg =>
        rw [Command.read, hg]
        rfl

def Command.server : Command → ServerChoice
  | .search command => command.server
  | .storeInfo command => command.server
  | _ => {}

def Command.store : Command → StoreChoice
  | .search command => command.store
  | .load command => command.store
  | .storeInfo command => command.store
  | .entities _ => {}
  | .serve command => command.store

/-- The entity of the settings changes nothing but the words of a search. -/
theorem SearchCommand.withEntity_fields (command : SearchCommand) (entity : Option String) :
    (command.withEntity entity).format = command.format ∧ (command.withEntity entity).store = command.store ∧
      (command.withEntity entity).server = command.server := by
  cases entity with
  | none => exact ⟨rfl, rfl, rfl⟩
  | some entity =>
      rw [withEntity]
      split <;> exact ⟨rfl, rfl, rfl⟩

theorem readArguments_eq_ok (h : readArguments namedServer arguments = .ok (some command)) :
    ∃ g name rest, programSignature.read {} arguments = .ok (g, name :: rest) ∧ name ≠ "help" ∧
      Command.ReadFrom namedServer rest name command := by
  obtain ⟨⟨g, left⟩, hread, h⟩ := bind_eq_ok_iff.mp h
  split at h
  · cases h
  · next g name rest hne e =>
    cases e
    obtain ⟨_, hc, e⟩ := map_eq_ok_iff.mp h
    cases e
    exact ⟨g, name, rest, hread, hne, Command.read_eq_ok_iff.mp hc⟩
  · cases h

theorem prepare_eq_ok_iff :
    prepare env namedServer arguments disk = .ok command ↔
      ∃ given settings, readArguments namedServer arguments = .ok (some given) ∧
        Settings.discover env.workingDirectory disk = .ok settings ∧ command = given.fill settings := by
  rw [prepare]
  rcases readArguments namedServer arguments with (_ | _) | given
  · exact iff_of_false (by rintro ⟨⟩) (by rintro ⟨_, _, ⟨⟩, _⟩)
  · exact iff_of_false (by rintro ⟨⟩) (by rintro ⟨_, _, ⟨⟩, _⟩)
  · cases Settings.discover env.workingDirectory disk with
    | error e => exact iff_of_false (by rintro ⟨⟩) (by rintro ⟨_, _, _, ⟨⟩, _⟩)
    | ok settings =>
        cases given with
        | none => exact iff_of_false (by rintro ⟨⟩) (by rintro ⟨_, _, ⟨⟩, _⟩)
        | some given =>
            constructor
            · intro h
              cases h
              exact ⟨given, settings, rfl, rfl, rfl⟩
            · rintro ⟨_, _, ⟨⟩, ⟨⟩, rfl⟩
              rfl

end

end RecordSearch.CommandLine
