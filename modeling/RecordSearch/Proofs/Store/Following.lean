import RecordSearch.Proofs.Store.Disk
import RecordSearch.Store.Directory

/-!
# Following paths

Where a path leads depends on what stands at the locations that it visits. If all of them are
directories, save perhaps the last, it leads to the location that it denotes.
-/

namespace RecordSearch

namespace Location

/-- The name leads somewhere else than where one is. -/
def Moves (name : String) : Prop := name ≠ "" ∧ name ≠ "."

instance (name : String) : Decidable (Moves name) := inferInstanceAs (Decidable (_ ∧ _))

variable {l k : Location} {ns : List String}

theorem enter_of_not_moves {name : String} (h : ¬ Moves name) : l.enter name = l := by
  unfold Moves at h
  rw [enter, if_pos]
  by_cases hn : name = ""
  · exact .inl hn
  · exact .inr (Decidable.not_not.mp fun hp => h ⟨hn, hp⟩)

theorem steps_append (l : Location) (ns more : List String) :
    l.steps (ns ++ more) = l.steps ns ++ (ns.foldl enter l).steps more := by
  induction ns generalizing l with
  | nil => rfl
  | cons name ns ih => rw [List.cons_append, steps, ih]; rfl

theorem getLast_steps (l : Location) (ns : List String) :
    (l :: l.steps ns).getLast (List.cons_ne_nil _ _) = ns.foldl enter l := by
  induction ns generalizing l with
  | nil => rfl
  | cons name ns ih => exact ih (l.enter name)

theorem foldl_enter_filter (l : Location) (ns : List String) :
    (ns.filter fun name => Moves name).foldl enter l = ns.foldl enter l := by
  induction ns generalizing l with
  | nil => rfl
  | cons name ns ih =>
      by_cases h : Moves name
      · rw [List.filter_cons_of_pos (by simpa using h)]
        exact ih _
      · rw [List.filter_cons_of_neg (by simpa using h), ih, List.foldl_cons, enter_of_not_moves h]

theorem dropLast_steps (l : Location) (ns : List String) (name : String) :
    (l :: l.steps (ns ++ [name])).dropLast = l :: l.steps ns := by
  rw [steps_append, ← List.cons_append]
  exact List.dropLast_concat ..

/-- Names that lead nowhere else visit no other locations. -/
theorem steps_subset (l : Location) (ns : List String) :
    l :: l.steps ns ⊆ l :: l.steps (ns.filter fun name => Moves name) := by
  induction ns generalizing l with
  | nil => exact fun _ h => h
  | cons name ns ih =>
      by_cases h : Moves name
      · rw [List.filter_cons_of_pos (by simpa using h)]
        exact List.cons_subset_cons _ (ih (l.enter name))
      · rw [List.filter_cons_of_neg (by simpa using h), steps, enter_of_not_moves h]
        exact List.cons_subset.mpr ⟨List.mem_cons_self, ih l⟩

theorem dropLast_steps_filter_subset (l : Location) (ns : List String) :
    (l :: l.steps (ns.filter fun name => Moves name)).dropLast ⊆ (l :: l.steps ns).dropLast := by
  induction ns generalizing l with
  | nil => exact List.Subset.refl _
  | cons name ns ih =>
      by_cases h : Moves name
      · rw [List.filter_cons_of_pos (by simpa using h)]
        exact List.cons_subset_cons _ (ih (l.enter name))
      · have hrest := ih (l.enter name)
        rw [enter_of_not_moves h] at hrest
        rw [List.filter_cons_of_neg (by simpa using h)]
        refine List.subset_cons_of_subset _ ?_
        rw [enter_of_not_moves h]
        exact hrest

/-- The locations that a path visits, seen from a working directory. -/
def visited (workingDirectory : Location) (path : String) : List Location :=
  start workingDirectory path :: (start workingDirectory path).steps (names path)

/-- The location that a path denotes is the last that it visits. -/
theorem ofPath_mem_visited (workingDirectory : Location) (path : String) :
    ofPath workingDirectory path ∈ visited workingDirectory path := by
  rw [ofPath, ← getLast_steps]
  exact List.getLast_mem _

end Location

namespace Disk

open Location (Moves)

variable {disk disk' : Disk} {l k : Location} {names : List String} {workingDirectory : Location}
  {path : String}

theorem foldlM_enter?_congr (h : ∀ k ∈ l :: l.steps names, disk.content? k = disk'.content? k) :
    names.foldlM disk.enter? l = names.foldlM disk'.enter? l := by
  induction names generalizing l with
  | nil => rfl
  | cons name names ih =>
      have hl : disk.isDirectory l = disk'.isDirectory l := by
        rw [isDirectory, isDirectory, h l (List.mem_cons_self ..)]
      rw [List.foldlM_cons, List.foldlM_cons, enter?, enter?, hl]
      split
      · exact ih fun k hk => h k (List.mem_cons_of_mem _ hk)
      · rfl

theorem eq_of_foldlM_enter? (h : names.foldlM disk.enter? l = some k) :
    k = names.foldl Location.enter l := by
  induction names generalizing l with
  | nil =>
      cases h
      rfl
  | cons name names ih =>
      rw [List.foldlM_cons, enter?] at h
      split at h
      · exact ih h
      · cases h

theorem foldlM_enter?_eq (h : Made (l :: l.steps names).dropLast disk) :
    names.foldlM disk.enter? l = some (names.foldl Location.enter l) := by
  induction names generalizing l with
  | nil => rfl
  | cons name names ih =>
      have hl : disk.isDirectory l = true := isDirectory_iff.mpr (h l (List.mem_cons_self ..))
      rw [List.foldlM_cons, enter?, if_pos hl]
      exact ih fun k hk => h k (List.mem_cons_of_mem _ hk)

theorem made_of_foldlM_enter? (h : names.foldlM disk.enter? l = some k) :
    Made (l :: l.steps names).dropLast disk := by
  induction names generalizing l with
  | nil => exact List.forall_mem_nil _
  | cons name names ih =>
      rw [List.foldlM_cons, enter?] at h
      split at h
      · next hl => exact List.forall_mem_cons.mpr ⟨isDirectory_iff.mp hl, ih h⟩
      · cases h

/-- A path leads only to the location that it denotes, and only if something stands there. -/
theorem eq_of_follow? (h : disk.follow? workingDirectory path = some k) :
    k = Location.ofPath workingDirectory path ∧ disk.exists? k = true := by
  unfold follow? at h
  split at h
  · cases h
  · simp only [Option.bind_eq_bind, Option.bind_eq_some_iff] at h
    obtain ⟨k', hk, h⟩ := h
    split at h
    · next he =>
      cases h
      exact ⟨eq_of_foldlM_enter? hk, he⟩
    · cases h

/-- All that a path passes through is a directory if the path leads somewhere. -/
theorem made_way_of_follow? (h : disk.follow? workingDirectory path = some k) :
    Made (Place.ofPath workingDirectory path).way disk := by
  unfold follow? at h
  split at h
  · cases h
  · simp only [Option.bind_eq_bind, Option.bind_eq_some_iff] at h
    obtain ⟨_, hfold, _⟩ := h
    exact fun l hl => made_of_foldlM_enter? hfold l (Location.dropLast_steps_filter_subset _ _ hl)

/-- A path leads to the same location on disks that have the same where it passes. -/
theorem follow?_congr (h : ∀ k ∈ Location.visited workingDirectory path, disk.content? k = disk'.content? k) :
    disk.follow? workingDirectory path = disk'.follow? workingDirectory path := by
  rw [follow?, follow?, foldlM_enter?_congr h]
  cases hk : (Location.names path).foldlM disk'.enter? (Location.start workingDirectory path) with
  | none => rfl
  | some k =>
      have hmem : k ∈ Location.visited workingDirectory path :=
        eq_of_foldlM_enter? hk ▸ Location.ofPath_mem_visited workingDirectory path
      have he : disk.exists? k = disk'.exists? k := by rw [exists?, exists?, h k hmem]
      simp only [Option.bind_eq_bind, Option.bind_some, he]

/-- The locations through which a place is reached, and the place itself. -/
theorem way_concat (workingDirectory : Location) (path : String) :
    (Place.ofPath workingDirectory path).way ++ [Location.ofPath workingDirectory path] =
      Location.start workingDirectory path ::
        (Location.start workingDirectory path).steps
          ((Location.names path).filter fun name => Moves name) := by
  have hlast := Location.getLast_steps (Location.start workingDirectory path)
    ((Location.names path).filter fun name => Moves name)
  rw [Location.foldl_enter_filter] at hlast
  rw [Location.ofPath, ← hlast]
  exact List.dropLast_concat_getLast _

/-- The path does not end with a slash or a single point. -/
def EndsWithName (path : String) : Prop := ∀ name, (Location.names path).getLast? = some name → Moves name

instance (path : String) : Decidable (EndsWithName path) :=
  decidable_of_iff ((Location.names path).getLast?.all fun name => decide (Moves name)) (by
    simp only [EndsWithName, Option.all_eq_true, decide_eq_true_eq])

/-- A path leads to its place if all on the way are directories. One that does not end with a name leads
only to a directory. -/
theorem follow?_eq (hp : path ≠ "") (hway : Made (Place.ofPath workingDirectory path).way disk)
    (he : disk.exists? (Location.ofPath workingDirectory path) = true)
    (hend : disk.content? (Location.ofPath workingDirectory path) = some .directory ∨ EndsWithName path) :
    disk.follow? workingDirectory path = some (Location.ofPath workingDirectory path) := by
  have hmade : Made (Location.visited workingDirectory path).dropLast disk := by
    rcases hend with hdir | hend
    · intro k hk
      have hmem := Location.steps_subset _ _ (List.dropLast_subset _ hk)
      rw [← way_concat, List.mem_append, List.mem_singleton] at hmem
      rcases hmem with hmem | rfl
      · exact hway k hmem
      · exact hdir
    · have hne : Location.names path ≠ [] := by
        simpa [Location.names] using Text.segments_ne_nil '/' path.toList
      have hlast := hend _ (List.getLast?_eq_some_getLast hne)
      intro k hk
      rw [Location.visited, ← List.dropLast_concat_getLast hne, Location.dropLast_steps] at hk
      have hmem := Location.steps_subset _ _ hk
      have hfilter : (Location.names path).filter (fun name => decide (Moves name)) =
          (Location.names path).dropLast.filter (fun name => decide (Moves name)) ++
            [(Location.names path).getLast hne] := by
        conv => lhs; rw [← List.dropLast_concat_getLast hne, List.filter_append]
        rw [List.filter_cons_of_pos (by simpa using hlast), List.filter_nil]
      refine hway k ?_
      rw [← Location.dropLast_steps, ← hfilter] at hmem
      exact hmem
  have hfold := foldlM_enter?_eq hmade
  rw [follow?, if_neg hp, hfold]
  exact if_pos he

/-- A path that does not end with a name leads to nothing but directories. -/
theorem follow?_of_not_endsWithName
    (hd : disk.content? (Location.ofPath workingDirectory path) ≠ some .directory)
    (hend : ¬ EndsWithName path) : disk.follow? workingDirectory path = none := by
  obtain ⟨name, hlast, hstays⟩ : ∃ name, (Location.names path).getLast? = some name ∧ ¬ Moves name := by
    simpa [EndsWithName] using hend
  obtain ⟨names, hnames⟩ := List.getLast?_eq_some_iff.mp hlast
  have hlocation : Location.ofPath workingDirectory path =
      names.foldl Location.enter (Location.start workingDirectory path) := by
    rw [Location.ofPath, hnames, List.foldl_append]
    exact Location.enter_of_not_moves hstays
  rw [follow?]
  split
  · rfl
  · rw [hnames, List.foldlM_append]
    cases hfold : names.foldlM disk.enter? (Location.start workingDirectory path) with
    | none => rfl
    | some k =>
        have hk : disk.isDirectory k ≠ true := by
          rw [eq_of_foldlM_enter? hfold, ← hlocation]
          exact fun h => hd (isDirectory_iff.mp h)
        simp [enter?, hk]

end Disk

end RecordSearch
