import RecordSearch.Store.Action

/-!
# Laws of disks and of actions on them

When an action succeeds and what it leaves, what each operation changes on a disk, and where a path
leads when all that it passes through are directories.
-/

namespace RecordSearch

/-! ## Actions -/

namespace Action

variable {α β : Type} {x : Action α} {f : α → Action β} {a : α} {b : β} {disk disk' : Disk}

theorem bind_of_ok (h : x disk = (.ok a, disk')) : (x >>= f) disk = f a disk' := by
  simp only [bind, ExceptT.bind, ExceptT.mk, StateT.bind, h, ExceptT.bindCont]

theorem get_bind (f : Disk → Action β) : (get >>= f) disk = f disk disk := bind_of_ok rfl

theorem bind_eq_ok (h : (x >>= f) disk = (.ok b, disk')) :
    ∃ a d, x disk = (.ok a, d) ∧ f a d = (.ok b, disk') := by
  simp only [bind, ExceptT.bind, ExceptT.mk, StateT.bind] at h
  rcases hx : x disk with ⟨_ | a, d⟩
  · rw [hx] at h
    cases h
  · rw [hx] at h
    exact ⟨a, d, rfl, h⟩

theorem map_eq_ok {g : α → β} (h : (g <$> x) disk = (.ok b, disk')) :
    ∃ a, x disk = (.ok a, disk') ∧ b = g a := by
  rw [map_eq_pure_bind] at h
  obtain ⟨a, d, hx, h⟩ := bind_eq_ok h
  cases h
  exact ⟨a, hx, rfl⟩

theorem map_ne_ok {g : α → β} (h : ∀ a d, x disk ≠ (.ok a, d)) : (g <$> x) disk ≠ (.ok b, disk') := by
  intro hmap
  obtain ⟨a, hx, _⟩ := map_eq_ok hmap
  exact h a _ hx

theorem change_eq_ok {f : Disk → Option Disk} {u : Unit} (h : change f disk = (.ok u, disk')) :
    f disk = some disk' := by
  obtain ⟨d, _, hd, h⟩ := bind_eq_ok h
  cases hd
  cases hf : f disk with
  | none =>
      rw [hf] at h
      cases h
  | some d =>
      rw [hf] at h
      cases h
      rfl

theorem change_eq_error {f : Disk → Option Disk} {e : StoreError} (h : change f disk = (.error e, disk')) :
    disk' = disk := by
  rw [change] at h
  cases hf : f disk with
  | none =>
      rw [get_bind, hf] at h
      cases h
      rfl
  | some d =>
      rw [get_bind, hf] at h
      cases h

/-- A sequence fails where its first action fails, or where the second fails after it. -/
theorem bind_eq_error {e : StoreError} (h : (x >>= f) disk = (.error e, disk')) :
    x disk = (.error e, disk') ∨ ∃ a d, x disk = (.ok a, d) ∧ f a d = (.error e, disk') := by
  simp only [bind, ExceptT.bind, ExceptT.mk, StateT.bind] at h
  rcases hx : x disk with ⟨failed | a, d⟩
  · rw [hx] at h
    cases h
    exact .inl rfl
  · rw [hx] at h
    exact .inr ⟨a, d, rfl, h⟩

theorem map_eq_error {g : α → β} {e : StoreError} (h : (g <$> x) disk = (.error e, disk')) :
    x disk = (.error e, disk') := by
  rw [map_eq_pure_bind] at h
  obtain hx | ⟨a, d, _, ha⟩ := bind_eq_error h
  · exact hx
  · cases ha

theorem bind_of_error {e : StoreError} (h : x disk = (.error e, disk')) :
    (x >>= f) disk = (.error e, disk') := by
  simp only [bind, ExceptT.bind, ExceptT.mk, StateT.bind, h, ExceptT.bindCont]
  rfl

theorem map_of_ok (g : α → β) (h : x disk = (.ok a, disk')) : (g <$> x) disk = (.ok (g a), disk') := by
  rw [map_eq_pure_bind]
  exact bind_of_ok h

theorem map_of_error (g : α → β) {e : StoreError} (h : x disk = (.error e, disk')) :
    (g <$> x) disk = (.error e, disk') := by
  rw [map_eq_pure_bind]
  exact bind_of_error h

/-- What follows an action depends only on what the action gives and leaves. -/
theorem bind_congr (h : x disk = x disk') : (x >>= f) disk = (x >>= f) disk' := by
  simp only [bind, ExceptT.bind, ExceptT.mk, StateT.bind, h]

theorem map_again (g : α → β) (h : x (x disk).2 = x disk) :
    (g <$> x) ((g <$> x) disk).2 = (g <$> x) disk := by
  have hstate : ((g <$> x) disk).2 = (x disk).2 := by
    rcases hx : x disk with ⟨_ | _, d⟩
    · exact congrArg Prod.snd (map_of_error g hx)
    · exact congrArg Prod.snd (map_of_ok g hx)
  rw [hstate, map_eq_pure_bind, bind_congr h]

theorem change_of_some {f : Disk → Option Disk} (h : f disk = some disk') :
    change f disk = (.ok (), disk') := by
  rw [change, get_bind, h]
  rfl

theorem change_of_none {f : Disk → Option Disk} (h : f disk = none) :
    change f disk = (.error .fileSystem, disk) := by
  rw [change, get_bind, h]
  rfl

/-- An action for each element that only reads. -/
theorem mapM_of_ok {g : α → β} (h : ∀ a, f a disk = (.ok (g a), disk)) (as : List α) :
    as.mapM f disk = (.ok (as.map g), disk) := by
  induction as with
  | nil => rfl
  | cons a as ih =>
      rw [List.mapM_cons, bind_of_ok (h a), bind_of_ok ih]
      rfl

/-! ### Properties that actions keep -/

variable {P : Disk → Prop} {Q : α → Prop} {R : β → Prop}

/-- Whether the action succeeds or not, a disk with the property is left with it, and what the action gives
has another. -/
def Preserves (P : Disk → Prop) (Q : α → Prop) (x : Action α) : Prop :=
  ∀ disk, P disk → P (x disk).2 ∧ ∀ a, (x disk).1 = .ok a → Q a

namespace Preserves

theorem pure {a : α} (h : Q a) : Preserves P Q (Pure.pure a) := by
  intro disk hdisk
  refine ⟨hdisk, ?_⟩
  rintro _ ⟨⟩
  exact h

theorem throw (e : StoreError) : Preserves P Q (MonadExcept.throw e) := fun _ hdisk => ⟨hdisk, nofun⟩

theorem bind (hx : Preserves P Q x) (hf : ∀ a, Q a → Preserves P R (f a)) : Preserves P R (x >>= f) := by
  intro disk hdisk
  obtain ⟨hleft, hgiven⟩ := hx disk hdisk
  rcases hr : x disk with ⟨e | a, d⟩
  · rw [hr] at hleft
    rw [bind_of_error hr]
    exact ⟨hleft, nofun⟩
  · rw [hr] at hleft hgiven
    rw [bind_of_ok hr]
    exact hf a (hgiven a rfl) d hleft

theorem map (hx : Preserves P Q x) (g : α → β) (hg : ∀ a, Q a → R (g a)) : Preserves P R (g <$> x) := by
  rw [map_eq_pure_bind]
  exact hx.bind fun a ha => pure (hg a ha)

theorem ofExcept (r : Except StoreError α) : Preserves P (fun _ => True) (Action.ofExcept r) := by
  cases r with
  | error e => exact throw e
  | ok a => exact pure trivial

theorem of_left (h : ∀ disk, P disk → P (x disk).2) : Preserves P (fun _ => True) x :=
  fun disk hdisk => ⟨h disk hdisk, fun _ _ => trivial⟩

theorem of_same (h : ∀ disk, (x disk).2 = disk) : Preserves P (fun _ => True) x :=
  of_left fun disk hdisk => (h disk).symm ▸ hdisk

theorem mapM (h : ∀ a, Preserves P R (f a)) (as : List α) : Preserves P (fun _ => True) (as.mapM f) := by
  induction as with
  | nil => exact pure trivial
  | cons a as ih =>
      rw [List.mapM_cons]
      exact (h a).bind fun _ _ => ih.bind fun _ _ => pure trivial

end Preserves

/-- What keeps whatever the disk is like leaves it as it is. -/
theorem same_of_preserves {r : Except StoreError α} (h : ∀ {P : Disk → Prop}, Preserves P Q x)
    (hx : x disk = (r, disk')) : disk' = disk := by
  have hsame := (h (P := (· = disk)) disk rfl).1
  rwa [hx] at hsame

end Action

/-! ## Disks -/

namespace Disk

variable {disk disk' : Disk} {l k : Location} {e : Entry}

theorem content?_insert (hl : l ≠ []) : Disk.content? (disk.insert l e) l = some e := by
  rw [content?, if_neg hl, Dictionary.get?_insert_self]

theorem content?_insert_of_ne (h : k ≠ l) : Disk.content? (disk.insert l e) k = disk.content? k := by
  unfold content?
  rw [Dictionary.get?_insert_of_ne _ _ h]

theorem content?_erase_self (hl : l ≠ []) : Disk.content? (disk.erase l) l = none := by
  rw [content?, if_neg hl, Dictionary.get?_erase_self]

theorem content?_erase_of_ne (h : k ≠ l) : Disk.content? (disk.erase l) k = disk.content? k := by
  unfold content?
  rw [Dictionary.get?_erase_of_ne _ h]

/-- The root is a directory. -/
theorem ne_nil_of_not_directory (h : disk.content? l ≠ some .directory) : l ≠ [] := by
  rintro rfl
  exact h rfl

theorem isDirectory_iff : disk.isDirectory l = true ↔ disk.content? l = some .directory := by
  unfold isDirectory
  split
  · next h => simp [h]
  · next h => simpa using h

/-- What someone else does to a disk. -/
def put (l : Location) (entry : Option Entry) (disk : Disk) : Disk :=
  match entry with
  | some e => Dictionary.insert disk l e
  | none => Dictionary.erase disk l

theorem content?_put_of_ne (h : k ≠ l) (entry : Option Entry) :
    content? (disk.put l entry) k = disk.content? k := by
  cases entry with
  | none => exact content?_erase_of_ne h
  | some e => exact content?_insert_of_ne h

theorem content?_put_of_not_mem {own : List Location} (hl : l ∉ own) (entry : Option Entry) :
    ∀ k ∈ own, content? (disk.put l entry) k = disk.content? k := by
  intro k hk
  have hne : k ≠ l := fun h => hl (h ▸ hk)
  exact content?_put_of_ne hne entry

/-- What is put somewhere does not depend on what was there. -/
theorem content?_put_congr (h : disk'.content? k = disk.content? k) (l : Location) (entry : Option Entry) :
    content? (disk'.put l entry) k = content? (disk.put l entry) k := by
  by_cases hk : k = l
  · subst hk
    by_cases hl : k = []
    · subst hl
      rfl
    · cases entry with
      | none => exact (content?_erase_self hl).trans (content?_erase_self hl).symm
      | some e => exact (content?_insert hl).trans (content?_insert hl).symm
  · rw [content?_put_of_ne hk, content?_put_of_ne hk]
    exact h

/-- The disks have the same at every location but the given ones. -/
def AgreeOff (own : List Location) (disk disk' : Disk) : Prop :=
  ∀ l ∉ own, disk'.content? l = disk.content? l

namespace AgreeOff

variable {own own' : List Location} {disk'' : Disk}

theorem refl (own : List Location) (disk : Disk) : AgreeOff own disk disk := fun _ _ => rfl

theorem trans (h : AgreeOff own disk disk') (h' : AgreeOff own disk' disk'') : AgreeOff own disk disk'' :=
  fun l hl => (h' l hl).trans (h l hl)

theorem mono (h : AgreeOff own disk disk') (hs : own ⊆ own') : AgreeOff own' disk disk' :=
  fun l hl => h l fun hm => hl (hs hm)

theorem insert (disk : Disk) (hl : l ∈ own) (e : Entry) : AgreeOff own disk (Dictionary.insert disk l e) :=
  fun k hk => content?_insert_of_ne (by rintro rfl; exact hk hl)

theorem erase (disk : Disk) (hl : l ∈ own) : AgreeOff own disk (Dictionary.erase disk l) :=
  fun k hk => content?_erase_of_ne (by rintro rfl; exact hk hl)

end AgreeOff

/-! ### Directories -/

/-- Directories stand at the locations. -/
def Made (ls : List Location) (disk : Disk) : Prop := ∀ l ∈ ls, disk.content? l = some .directory

/-- No file stands at the locations. -/
def Passable (ls : List Location) (disk : Disk) : Prop :=
  ∀ l ∈ ls, disk.content? l = none ∨ disk.content? l = some .directory

theorem Made.passable {ls : List Location} (h : Made ls disk) : Passable ls disk := fun l hl => .inr (h l hl)

/-- Directories stay when something else is written. -/
theorem Made.insert {ls : List Location} (h : Made ls disk) (hl : disk.content? l ≠ some .directory)
    (e : Entry) : Made ls (Dictionary.insert disk l e) := by
  intro k hk
  have hne : k ≠ l := by
    rintro rfl
    exact hl (h k hk)
  rw [content?_insert_of_ne hne]
  exact h k hk

theorem Made.erase {ls : List Location} (h : Made ls disk) (hl : disk.content? l ≠ some .directory) :
    Made ls (Dictionary.erase disk l) := by
  intro k hk
  have hne : k ≠ l := by
    rintro rfl
    exact hl (h k hk)
  rw [content?_erase_of_ne hne]
  exact h k hk

/-- All that stood on the disk is there as it was, and what came anew are directories. -/
def Intact (disk disk' : Disk) : Prop :=
  ∀ l, disk'.content? l = disk.content? l ∨ disk.content? l = none ∧ disk'.content? l = some .directory

theorem Intact.refl (disk : Disk) : Intact disk disk := fun _ => .inl rfl

theorem Intact.of_content (h : Intact disk disk') (hc : disk.content? l = some e) :
    disk'.content? l = some e := by
  rcases h l with hl | ⟨hl, _⟩
  · exact hl.trans hc
  · cases hc.symm.trans hl

theorem intact_of_makeDirectories {ls : List Location} (h : disk.makeDirectories ls = some disk') :
    Intact disk disk' := by
  induction ls generalizing disk with
  | nil =>
      cases h
      exact .refl _
  | cons first ls ih =>
      rw [makeDirectories] at h
      split at h
      · exact ih h
      · next hc =>
        have hne : first ≠ [] := by
          rintro rfl
          cases hc
        intro l
        by_cases e : l = first
        · -- The directory that is made first stands there in the end.
          subst e
          have hmade : content? (disk.insert l .directory) l = some .directory := content?_insert hne
          rcases ih h l with hl | ⟨_, hl⟩
          · exact .inr ⟨hc, hl.trans hmade⟩
          · exact .inr ⟨hc, hl⟩
        · have hl := ih h l
          rwa [content?_insert_of_ne e] at hl
      · cases h

/-- Making directories leaves everything else as it was. -/
theorem content?_makeDirectories {ls : List Location} (h : disk.makeDirectories ls = some disk')
    (l : Location) : disk'.content? l = disk.content? l ∨ disk'.content? l = some .directory :=
  (intact_of_makeDirectories h l).imp_right And.right

theorem agreeOff_of_makeDirectories {ls : List Location} (h : disk.makeDirectories ls = some disk') :
    AgreeOff ls disk disk' := by
  induction ls generalizing disk with
  | nil =>
      cases h
      exact .refl _ _
  | cons first ls ih =>
      rw [makeDirectories] at h
      split at h
      · exact (ih h).mono (List.subset_cons_self ..)
      · exact (AgreeOff.insert disk (List.mem_cons_self ..) _).trans
          ((ih h).mono (List.subset_cons_self ..))
      · cases h

theorem made_of_makeDirectories {ls : List Location} (h : disk.makeDirectories ls = some disk') :
    Made ls disk' := by
  induction ls generalizing disk with
  | nil => exact fun _ hl => absurd hl (List.not_mem_nil)
  | cons first ls ih =>
      rw [makeDirectories] at h
      intro l hl
      -- What is a directory before the rest is made is one afterwards.
      split at h
      · next hc =>
        rcases List.mem_cons.mp hl with rfl | hl
        · exact (intact_of_makeDirectories h).of_content hc
        · exact ih h l hl
      · next hc =>
        have hne : first ≠ [] := by
          rintro rfl
          cases hc
        rcases List.mem_cons.mp hl with rfl | hl
        · exact (intact_of_makeDirectories h).of_content (content?_insert hne)
        · exact ih h l hl
      · cases h

theorem makeDirectories_of_made {ls : List Location} (h : Made ls disk) :
    disk.makeDirectories ls = some disk := by
  induction ls with
  | nil => rfl
  | cons first ls ih =>
      rw [makeDirectories, h first (List.mem_cons_self ..)]
      exact ih fun l hl => h l (List.mem_cons_of_mem _ hl)

/-- To make directories of which the first were made already is to make all of them. -/
theorem makeDirectories_of_take {ls : List Location} {steps : Nat}
    (h : disk.makeDirectories (ls.take steps) = some disk') :
    disk'.makeDirectories ls = disk.makeDirectories ls := by
  induction ls generalizing disk steps with
  | nil =>
      rw [List.take_nil] at h
      cases h
      rfl
  | cons first ls ih =>
      cases steps with
      | zero =>
          cases h
          rfl
      | succ steps =>
          rw [List.take_succ_cons, makeDirectories] at h
          rw [makeDirectories, makeDirectories]
          split at h
          · next hc =>
            have hmade := (intact_of_makeDirectories h).of_content hc
            rw [hmade, ih h]
          · next hc =>
            have hne : first ≠ [] := by
              rintro rfl
              cases hc
            have hmade := (intact_of_makeDirectories h).of_content (content?_insert hne)
            rw [hmade, ih h]
          · cases h

theorem exists_makeDirectories {ls : List Location} (h : Passable ls disk) :
    ∃ disk', disk.makeDirectories ls = some disk' := by
  induction ls generalizing disk with
  | nil => exact ⟨disk, rfl⟩
  | cons first ls ih =>
      have hrest : Passable ls disk := fun l hl => h l (List.mem_cons_of_mem _ hl)
      rw [makeDirectories]
      rcases h first (List.mem_cons_self ..) with hc | hc
      · rw [hc]
        have hne : first ≠ [] := by
          rintro rfl
          cases hc
        refine ih fun l hl => ?_
        by_cases e : l = first
        · subst e
          exact .inr (content?_insert hne)
        · rw [content?_insert_of_ne e]
          exact hrest l hl
      · rw [hc]
        exact ih hrest

/-! ### Files -/

theorem writeText?_eq (hd : disk.content? l.dropLast = some .directory)
    (hl : disk.content? l ≠ some .directory) (content : List Char) :
    disk.writeText? l content = some (Dictionary.insert disk l (.text content)) := by
  have hparent := isDirectory_iff.mpr hd
  have hfile : disk.isDirectory l ≠ true := fun h => hl (isDirectory_iff.mp h)
  rw [writeText?, if_neg (by simp [hparent, hfile])]

theorem writeText?_eq_some {content : List Char} (h : disk.writeText? l content = some disk') :
    disk.content? l.dropLast = some .directory ∧ disk.content? l ≠ some .directory ∧
      disk' = Dictionary.insert disk l (.text content) := by
  rw [writeText?] at h
  split at h
  · cases h
  · next hn =>
    obtain ⟨hfile, hparent⟩ := not_or.mp hn
    cases h
    exact ⟨isDirectory_iff.mp (Decidable.not_not.mp hparent), fun hd => hfile (isDirectory_iff.mpr hd), rfl⟩

/-- What is appended stands behind the text that was there, if any; an illegible file stays illegible. -/
theorem appendText?_eq_some {content : List Char} (h : disk.appendText? l content = some disk') :
    (∃ before : Option (List Char), disk.content? l = before.map .text ∧
      disk' = Dictionary.insert disk l (.text (before.getD [] ++ content))) ∨
    disk.content? l = some .illegible ∧ disk' = disk := by
  rw [appendText?] at h
  split at h
  · next before hc =>
    cases h
    exact .inl ⟨some before, hc, rfl⟩
  · next hc =>
    cases h
    exact .inr ⟨hc, rfl⟩
  · next hc => exact .inl ⟨none, hc, (writeText?_eq_some h).2.2⟩
  · cases h

/-- A text is appended to what the file has, which may not be there yet. -/
theorem appendText?_eq {before : Option (List Char)} (hd : disk.content? l.dropLast = some .directory)
    (hl : disk.content? l = before.map .text) (content : List Char) :
    disk.appendText? l content = some (Dictionary.insert disk l (.text (before.getD [] ++ content))) := by
  cases before with
  | none =>
      rw [appendText?, hl]
      exact writeText?_eq hd (by rw [hl]; nofun) content
  | some text => rw [appendText?, hl]; rfl

/-! ### Writes that are broken off -/

theorem firstBytes?_prefix {n : Nat} {s kept : List Char} (h : firstBytes? n s = some kept) : kept <+: s := by
  induction s generalizing n kept with
  | nil =>
      cases h
      exact List.prefix_rfl
  | cons c s ih =>
      rw [firstBytes?] at h
      split at h
      · cases h
        exact List.nil_prefix
      · split at h
        · obtain ⟨rest, hrest, rfl⟩ := Option.map_eq_some_iff.mp h
          exact List.cons_prefix_cons.mpr ⟨rfl, ih hrest⟩
        · cases h

/-- What is left is a beginning of the text, or a file that is broken off inside a character. -/
theorem writeBytes?_eq_some {write : List Char → Option Disk} {n : Nat} {content : List Char}
    (h : writeBytes? write l n content = some disk') :
    (∃ kept, kept <+: content ∧ write kept = some disk') ∨
      ∃ begun, write [] = some begun ∧ disk' = Dictionary.insert begun l .illegible := by
  rw [writeBytes?] at h
  split at h
  · next kept hk => exact .inl ⟨kept, firstBytes?_prefix hk, h⟩
  · obtain ⟨begun, hbegun, rfl⟩ := Option.map_eq_some_iff.mp h
    exact .inr ⟨begun, hbegun, rfl⟩

/-- A file that is written in part leaves everything else. -/
theorem agreeOff_of_writeBytes? {n : Nat} {content : List Char}
    (h : writeBytes? (disk.writeText? l) l n content = some disk') :
    AgreeOff [l] disk disk' ∧ ∀ ls, Made ls disk → Made ls disk' := by
  have hl := List.mem_singleton_self l
  rcases writeBytes?_eq_some h with ⟨kept, _, hwrite⟩ | ⟨begun, hbegun, rfl⟩
  · obtain ⟨_, hfile, rfl⟩ := writeText?_eq_some hwrite
    exact ⟨.insert disk hl _, fun ls hls => hls.insert hfile _⟩
  · obtain ⟨hparent, hfile, rfl⟩ := writeText?_eq_some hbegun
    have hne : l ≠ [] := ne_nil_of_not_directory hfile
    have hempty : Disk.content? (Dictionary.insert disk l (.text [])) l = some (.text []) :=
      content?_insert hne
    exact ⟨(AgreeOff.insert disk hl _).trans (.insert _ hl _),
      fun ls hls => (hls.insert hfile _).insert (by rw [hempty]; nofun) _⟩

theorem rename?_eq (hs : disk.content? l = some e) (ht : disk.content? k ≠ some .directory) :
    disk.rename? l k = some (Dictionary.insert (disk.erase l) k e) := by
  have hfile : disk.isDirectory k ≠ true := fun h => ht (isDirectory_iff.mp h)
  rw [rename?, hs]
  exact if_neg hfile

end Disk

end RecordSearch
