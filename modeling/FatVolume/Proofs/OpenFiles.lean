import FatVolume.Session.OpenTable
import FatVolume.Proofs.NormalPaths

/-!
# The table of open files

What a table finds by a path, and what it holds after its slots were changed.
-/

namespace FatVolume.OpenTable

variable {table table' : OpenTable} {handle other : Handle} {file file' : OpenFile}
  {path : String}

/-- No two slots hold files with the same path. -/
def Distinct (table : OpenTable) : Prop :=
  ∀ handle other file file', table.get? handle = some file → table.get? other = some file' →
    file.path = file'.path → handle = other

/-! ### Slots -/

theorem lt_of_get? (h : table.get? handle = some file) :
  handle < maxOpen
  := by
  by_contra outside
  simp [get?, Vector.getElem?_eq_none (Nat.not_lt.mp outside)] at h

/-- A slot holds what was put into it last. -/
theorem get?_set (table : OpenTable) (hlt : handle < maxOpen) (held : Option OpenFile)
    (other : Handle) :
  (table.set handle held).get? other = if handle = other then held else table.get? other
  := by
  split_ifs with same
  · rw [← same, get?_set_self table hlt]
  · rw [get?_set_of_ne table same]

theorem get_eq_ok :
  table.get handle = .ok file ↔ table.get? handle = some file
  := by
  cases hfile : table.get? handle <;> simp [get, hfile]

/-- Only the slot of the root is occupied. -/
theorem get?_ofRoot_eq_some {root : OpenFile} :
  (ofRoot root).get? handle = some file ↔ handle = rootHandle ∧ file = root
  := by
  by_cases same : handle = rootHandle
  · subst same
    simp [eq_comm]
  · have : (ofRoot root).get? handle = none := by
      by_cases inside : handle < maxOpen
      · simp [get?, ofRoot, Vector.getElem?_eq_getElem inside,
          Vector.getElem_set_ne _ _ (Ne.symm same)]
      · simp [get?, Vector.getElem?_eq_none (Nat.not_lt.mp inside)]
    simp [this, same]

/-- The first free slot is the one after that of the root. -/
theorem insert_ofRoot (root file : OpenFile) :
  (ofRoot root).insert file = .ok (1, (ofRoot root).set 1 (some file))
  := rfl

theorem insert_set_ofRoot (root file file' : OpenFile) :
  ((ofRoot root).set 1 (some file)).insert file'
    = .ok (2, ((ofRoot root).set 1 (some file)).set 2 (some file'))
  := rfl

/-- A file can be put into a table exactly if a slot is free. -/
theorem exists_insert_iff :
  (∃ inserted, table.insert file = .ok inserted) ↔ ∃ handle < maxOpen, table.get? handle = none
  := by
  constructor
  · rintro ⟨⟨handle, table'⟩, hinsert⟩
    obtain ⟨hlt, free, -⟩ := insert_eq_ok hinsert
    exact ⟨handle, hlt, free⟩
  · rintro ⟨handle, hlt, free⟩
    unfold insert
    cases hfound : table.slots.toList.findIdx? Option.isNone with
    | some found => exact ⟨_, rfl⟩
    | none =>
        have occupied := List.findIdx?_eq_none_iff.mp hfound table.slots[handle] (by simp)
        simp [get?, hlt] at free
        simp [free] at occupied

/-! ### Paths -/

theorem find?_eq_none_iff :
  table.find? path = none ↔ ∀ handle file, table.get? handle = some file → file.path ≠ path
  := by
  rw [find?, Option.map_eq_none_iff, List.find?_eq_none]
  constructor
  · intro h handle file hfile
    simpa using h (handle, file) (mem_occupied.mpr hfile)
  · rintro h ⟨handle, file⟩ hmem
    simpa using h handle file (mem_occupied.mp hmem)

theorem exists_of_find? (h : table.find? path = some handle) :
  ∃ file, table.get? handle = some file ∧ file.path = path
  := by
  obtain ⟨⟨found, file⟩, hfound, rfl⟩ := Option.map_eq_some_iff.mp h
  refine ⟨file, mem_occupied.mp (List.mem_of_find?_eq_some hfound), ?_⟩
  simpa using List.find?_some hfound

/-- A file is found by its path. -/
theorem Distinct.find?_eq (distinct : table.Distinct) (h : table.get? handle = some file) :
  table.find? file.path = some handle
  := by
  cases hfound : table.find? file.path with
  | none => exact (find?_eq_none_iff.mp hfound handle file h rfl).elim
  | some found =>
      obtain ⟨file', hfile', same⟩ := exists_of_find? hfound
      rw [distinct _ _ _ _ hfile' h same]

/-- A path is busy when it or a path below it is open. -/
theorem isBusy_eq_false_iff {names : List String} (hnames : Path.Normal names)
    (normal : ∀ handle file, table.get? handle = some file →
      ∃ more, Path.Normal more ∧ file.path = Path.render more) :
  table.isBusy (Path.render names) = false
    ↔ ∀ handle file, table.get? handle = some file → ¬names <+: Path.segments file.path
  := by
  have below {handle : Handle} {file : OpenFile} (h : table.get? handle = some file) :
      (file.path == Path.render names || isBelow (Path.render names) file.path) = true
        ↔ names <+: Path.segments file.path := by
    obtain ⟨more, hmore, hpath⟩ := normal handle file h
    rw [hpath, hmore.segments_render]
    apply Path.beq_or_isBelow_render hnames hmore
  rw [isBusy, List.any_eq_false]
  constructor
  · intro h handle file hfile
    rw [← below hfile]
    apply h (handle, file) (mem_occupied.mpr hfile)
  · rintro h ⟨handle, file⟩ hmem
    rw [mem_occupied] at hmem
    rw [below hmem]
    apply h handle file hmem

/-! ### Operations -/

theorem remove_eq_ok (h : table.remove handle = .ok (file, table')) :
  handle ≠ rootHandle ∧ handle ≠ table.current ∧ table.get? handle = some file
    ∧ table' = table.set handle none
  := by
  unfold remove at h
  split at h
  · exact absurd h (by simp [bind, Except.bind, throw, throwThe, MonadExceptOf.throw])
  · next allowed =>
      cases hget : table.get handle with
      | error e =>
          rw [hget] at h
          exact absurd h (by simp [bind, Except.bind])
      | ok held =>
          rw [hget] at h
          simp only [bind, Except.bind, pure, Except.pure, Except.ok.injEq, Prod.mk.injEq] at h
          obtain ⟨rfl, rfl⟩ := h
          simp only [Bool.or_eq_true, beq_iff_eq, not_or] at allowed
          exact ⟨allowed.1, allowed.2, get_eq_ok.mp hget, rfl⟩

/-- A handle that is open is released unless it is that of the root or of the current directory. -/
theorem remove_of_get? (hfile : table.get? handle = some file) (hroot : handle ≠ rootHandle)
    (hcurrent : handle ≠ table.current) :
  table.remove handle = .ok (file, table.set handle none)
  := by
  simp [remove, hroot, hcurrent, get_eq_ok.mpr hfile, bind, Except.bind, pure, Except.pure]

/-- A handle that is not open is not released. -/
theorem remove_of_get?_eq_none (hfree : table.get? handle = none) (hroot : handle ≠ rootHandle)
    (hcurrent : handle ≠ table.current) :
  table.remove handle = .error (.invalidHandle handle)
  := by
  simp [remove, get, hroot, hcurrent, hfree, bind, Except.bind]

/-- An open directory is made the current one. -/
theorem setDirectory_of_get? (hfile : table.get? handle = some file)
    (hdir : file.record.isDirectory = true) :
  table.setDirectory handle = .ok { table with current := handle }
  := by
  simp [setDirectory, get_eq_ok.mpr hfile, hdir, bind, Except.bind, pure, Except.pure]

theorem setDirectory_eq_ok (h : table.setDirectory handle = .ok table') :
  (∃ file, table.get? handle = some file ∧ file.record.isDirectory = true)
    ∧ table' = { table with current := handle }
  := by
  unfold setDirectory at h
  cases hget : table.get handle with
  | error e =>
      rw [hget] at h
      exact absurd h (by simp [bind, Except.bind])
  | ok file =>
      rw [hget] at h
      cases hdir : file.record.isDirectory with
      | false =>
          simp [hdir, bind, Except.bind, throw, throwThe, MonadExceptOf.throw] at h
      | true =>
          simp only [bind, Except.bind, hdir, Bool.not_true, Bool.false_eq_true, ↓reduceIte, pure,
            Except.pure, Except.ok.injEq] at h
          exact ⟨⟨file, get_eq_ok.mp hget, hdir⟩, h.symm⟩

end FatVolume.OpenTable
