import FatVolume.Proofs.Handles
import FatVolume.Proofs.LostCopies

/-!
# Closing in any order

Closing a handle releases its slot and puts the record of a marked file at the place of its entry.
No two marked files have the same place, and writing records back moves no entry.  Therefore handles
are closed in whatever order with the same outcome, and shutting down after that does what it would
have done at once.
-/

namespace FatVolume

namespace Session

open SessionM

variable {session : Session} {image : Image} {handle : Handle} {file : OpenFile}
  {handles handles' : List Handle}

/-- The handle is open, and it is neither that of the root nor of the current directory. -/
structure Closable (session : Session) (handle : Handle) : Prop where
  opened : ∃ file, session.openFiles.get? handle = some file
  notRoot : handle ≠ OpenTable.rootHandle
  notCurrent : handle ≠ session.openFiles.current

/-- Closing any other handle fails and changes nothing. -/
theorem closable_or_refused (session : Session) (image : Image) (handle : Handle) :
  session.Closable handle
    ∨ ∃ error, (close handle).exec session image = (.error error, session, image)
  := by
  cases hremove : session.openFiles.remove handle with
  | ok removed =>
      obtain ⟨hroot, hcurrent, hfile, -⟩ := OpenTable.remove_eq_ok hremove
      exact .inl ⟨⟨_, hfile⟩, hroot, hcurrent⟩
  | error e =>
      right
      refine ⟨e, ?_⟩
      rw [close, exec_bind_of_ok exec_get, hremove]
      exact exec_bind_of_error (exec_ofExcept _)

/-- The session without some of its handles. -/
def released (session : Session) (handles : List Handle) : Session :=
  handles.foldl (fun session handle => session.withSlot handle none) session

/-- The records of marked files among some handles with the places to which they are written back. -/
def writtenBack (session : Session) (image : Image) (handles : List Handle) :
    List (Location × Record) :=
  ((handles.filterMap session.openFiles.get?).filter (·.dirty)).map (session.pending image)

/-! ### Order -/

theorem withSlot_none_comm (session : Session) (first second : Handle) :
  (session.withSlot first none).withSlot second none
    = (session.withSlot second none).withSlot first none
  := by
  have slots : (session.openFiles.slots.setIfInBounds first none).setIfInBounds second none
      = (session.openFiles.slots.setIfInBounds second none).setIfInBounds first none := by
    apply Vector.ext
    intro i hi
    simp only [Vector.getElem_setIfInBounds hi]
    split_ifs <;> rfl
  simp only [withSlot, OpenTable.set, slots]

theorem released_eq_of_perm (perm : handles.Perm handles') :
  session.released handles = session.released handles'
  := perm.foldl_eq' (fun _ _ _ _ session => session.withSlot_none_comm _ _) session

theorem writtenBack_cons (session : Session) (image : Image) (handle : Handle)
    (handles : List Handle) :
  session.writtenBack image (handle :: handles)
    = session.writtenBack image [handle] ++ session.writtenBack image handles
  := by
  rw [← List.singleton_append]
  simp only [writtenBack, List.filterMap_append, List.filter_append, List.map_append]

theorem writtenBack_perm (perm : handles.Perm handles') :
  (session.writtenBack image handles).Perm (session.writtenBack image handles')
  := ((perm.filterMap _).filter _).map _

theorem mem_writtenBack_singleton (hfile : session.openFiles.get? handle = some file)
    {w : Location × Record} :
  w ∈ session.writtenBack image [handle]
    ↔ file.dirty = true ∧ w = session.pending image file
  := by
  by_cases dirty : file.dirty = true <;> simp [writtenBack, hfile, dirty]

theorem writtenBack_subset (handles : List Handle) :
  session.writtenBack image handles ⊆ session.dirtyFiles.map (session.pending image)
  := by
  apply List.map_subset
  intro file hfile
  obtain ⟨hmem, dirty⟩ := List.mem_filter.mp hfile
  obtain ⟨handle, -, held⟩ := List.mem_filterMap.mp hmem
  exact mem_dirtyFiles.mpr ⟨dirty, handle, held⟩

section Coherent

variable (h : session.Coherent image)
include h

theorem Coherent.inside_pending :
  ∀ w ∈ session.dirtyFiles.map (session.pending image),
    w.1.block < numBlocks ∧ w.1.slot < slotsPerBlock
  := by
  intro w hw
  obtain ⟨file, hfile, rfl⟩ := List.mem_map.mp hw
  exact (h.exec_writeBack_pending hfile).1

/-- No two marked files are written back to the same place. -/
theorem Coherent.functional_pending :
  ∀ w ∈ session.dirtyFiles.map (session.pending image),
    ∀ w' ∈ session.dirtyFiles.map (session.pending image), w.1 = w'.1 → w = w'
  := by
  intro w hw w' hw' same
  obtain ⟨file, hfile, rfl⟩ := List.mem_map.mp hw
  obtain ⟨file', hfile', rfl⟩ := List.mem_map.mp hw'
  obtain ⟨dirty, handle, held⟩ := mem_dirtyFiles.mp hfile
  obtain ⟨dirty', handle', held'⟩ := mem_dirtyFiles.mp hfile'
  obtain ⟨names, name, e, normal, path, he, -⟩ := h.exists_path_of_dirty held dirty
  obtain ⟨names', name', e', normal', path', he', -⟩ := h.exists_path_of_dirty held' dirty'
  have location : e.location = e'.location :=
    (place_of_find? normal path he).symm.trans (same.trans (place_of_find? normal' path' he'))
  have paths := h.sound.path_eq_of_location_eq he he' location
  have handles : handle = handle' := by
    apply h.distinct _ _ _ _ held held'
    rw [path, path', paths]
  rw [handles, held'] at held
  rw [Option.some.inj held]

/-! ### Closing -/

/-- Closing a handle releases it and writes its record back if it is marked. -/
theorem Coherent.exec_close (closable : session.Closable handle) :
  (close handle).exec session image = (.ok (), session.withSlot handle none,
      image.withRecords (session.writtenBack image [handle]))
    ∧ session.Quiet image (session.withSlot handle none)
      (image.withRecords (session.writtenBack image [handle]))
  := by
  obtain ⟨⟨file, hfile⟩, hroot, hcurrent⟩ := closable
  have hexec : (close handle).exec session image = (.ok (), session.withSlot handle none,
      image.withRecords (session.writtenBack image [handle])) := by
    rw [close, exec_bind_of_ok exec_get, OpenTable.remove_of_get? hfile hroot hcurrent,
      exec_bind_of_ok (exec_ofExcept _)]
    dsimp only
    rw [exec_bind_of_ok (exec_set _)]
    by_cases dirty : file.dirty = true
    · have written : session.writtenBack image [handle] = [session.pending image file] := by
        simp [writtenBack, hfile, dirty]
      obtain ⟨-, hback, -⟩ := h.exec_writeBack_pending (mem_dirtyFiles.mpr ⟨dirty, handle, hfile⟩)
      rw [if_pos dirty, exec_bind_of_ok
        (hback { session with openFiles := session.openFiles.set handle none } rfl), exec_log,
        written]
      rfl
    · have nothing : session.writtenBack image [handle] = [] := by
        simp [writtenBack, hfile, dirty]
      rw [if_neg dirty, nothing]
      rfl
  refine ⟨hexec, ?_⟩
  rcases h.close_cases handle with ⟨error, failed⟩ | ⟨_, after, -, succeeded, quiet⟩
  · rw [hexec] at failed
    cases failed
  · rw [hexec, Prod.mk.injEq, Prod.mk.injEq] at succeeded
    obtain ⟨-, -, rfl⟩ := succeeded
    exact quiet

/-- Shutting down after a handle was closed does the same as without closing it. -/
theorem Coherent.exec_shutdown_of_closable (closable : session.Closable handle) :
  shutdown.exec (session.withSlot handle none)
      (image.withRecords (session.writtenBack image [handle]))
    = shutdown.exec session image
  := by
  obtain ⟨-, quiet⟩ := h.exec_close closable
  obtain ⟨⟨file, hfile⟩, hroot, -⟩ := closable
  obtain ⟨root, root_open, -⟩ := h.root_open
  rw [quiet.coherent.exec_shutdown_pending ((get?_withSlot_none hfile).mpr ⟨hroot, root_open⟩),
    h.exec_shutdown_pending root_open, quiet.pending_eq, ← Image.withRecords_append,
    Image.withRecords_eq_of_subset h.inside_pending h.functional_pending]
  · rfl
  · apply List.append_subset.mpr ⟨writtenBack_subset _, ?_⟩
    apply List.map_subset
    intro held hheld
    obtain ⟨dirty, other, -, hother⟩ := (mem_dirtyFiles_withSlot_none hfile).mp hheld
    exact mem_dirtyFiles.mpr ⟨dirty, other, hother⟩
  · -- A marked file is that of the handle, or it stays open.
    intro w hw
    obtain ⟨held, hheld, rfl⟩ := List.mem_map.mp hw
    obtain ⟨dirty, other, hother⟩ := mem_dirtyFiles.mp hheld
    apply List.mem_append.mpr
    by_cases same : handle = other
    · subst same
      obtain rfl := Option.some.inj (hfile.symm.trans hother)
      exact .inl ((mem_writtenBack_singleton hfile).mpr ⟨dirty, rfl⟩)
    · exact .inr (List.mem_map_of_mem
        ((mem_dirtyFiles_withSlot_none hfile).mpr ⟨dirty, other, same, hother⟩))

/-- Handles are closed one after the other, and shutting down after that does the same as without
closing them. -/
theorem Coherent.exec_forM_close (nodup : handles.Nodup)
    (closable : ∀ handle ∈ handles, session.Closable handle) :
  (handles.forM close).exec session image
      = (.ok (), session.released handles, image.withRecords (session.writtenBack image handles))
    ∧ shutdown.exec (session.released handles)
        (image.withRecords (session.writtenBack image handles)) = shutdown.exec session image
  := by
  induction handles generalizing session image with
  | nil => exact ⟨rfl, rfl⟩
  | cons handle rest ih =>
      obtain ⟨notMem, nodup⟩ := List.nodup_cons.mp nodup
      obtain ⟨first, closable⟩ := List.forall_mem_cons.mp closable
      obtain ⟨hexec, quiet⟩ := h.exec_close first
      have stays (other : Handle) (hother : other ∈ rest) :
          (session.withSlot handle none).openFiles.get? other = session.openFiles.get? other := by
        apply OpenTable.get?_set_of_ne
        rintro rfl
        exact notMem hother
      have later : (session.withSlot handle none).writtenBack
          (image.withRecords (session.writtenBack image [handle])) rest
            = session.writtenBack image rest := by
        have files := List.filterMap_congr stays
        unfold writtenBack at quiet ⊢
        rw [quiet.pending_eq, files]
      obtain ⟨hrest, hshut⟩ := ih quiet.coherent nodup fun other hother =>
        ⟨(stays other hother).symm ▸ (closable other hother).opened,
          (closable other hother).notRoot, (closable other hother).notCurrent⟩
      rw [later, ← Image.withRecords_append, ← writtenBack_cons] at hrest hshut
      refine ⟨?_, hshut.trans (h.exec_shutdown_of_closable first)⟩
      rw [List.forM_eq_forM, List.forM_cons, exec_bind_of_ok hexec]
      exact hrest

/-- The order in which handles are closed does not matter. -/
theorem Coherent.exec_forM_close_perm (nodup : handles.Nodup)
    (closable : ∀ handle ∈ handles, session.Closable handle) (perm : handles.Perm handles') :
  (handles.forM close).exec session image = (handles'.forM close).exec session image
  := by
  have closable' (handle : Handle) (hmem : handle ∈ handles') : session.Closable handle :=
    closable handle (perm.mem_iff.mpr hmem)
  have written : (session.writtenBack image handles).Perm (session.writtenBack image handles') :=
    writtenBack_perm perm
  rw [(h.exec_forM_close nodup closable).1,
    (h.exec_forM_close (perm.nodup_iff.mp nodup) closable').1, released_eq_of_perm perm,
    Image.withRecords_eq_of_subset
      (fun w hw => h.inside_pending w (writtenBack_subset handles' hw))
      (fun w hw w' hw' => h.functional_pending w (writtenBack_subset handles' hw) w'
        (writtenBack_subset handles' hw')) image written.subset written.symm.subset]

omit h

/-! ### Closing all -/

/-- The handles that may be closed, as they are closed all at once. -/
def closableHandles (session : Session) : List Handle :=
  (session.openFiles.occupied.map (·.1)).filter fun handle =>
    handle != OpenTable.rootHandle && handle != session.openFiles.current

theorem mem_closableHandles :
  handle ∈ session.closableHandles ↔ session.Closable handle
  := by
  simp only [closableHandles, List.mem_filter, List.mem_map, Prod.exists, OpenTable.mem_occupied,
    Bool.and_eq_true, bne_iff_ne]
  constructor
  · rintro ⟨⟨_, file, hfile, rfl⟩, hroot, hcurrent⟩
    exact ⟨⟨file, hfile⟩, hroot, hcurrent⟩
  · rintro ⟨⟨file, hfile⟩, hroot, hcurrent⟩
    exact ⟨⟨handle, file, hfile, rfl⟩, hroot, hcurrent⟩

theorem exec_closeAll (session : Session) (image : Image) :
  closeAll.exec session image = (session.closableHandles.forM close).exec session image
  := exec_bind_of_ok exec_get

end Coherent

end Session

/-! ### Histories -/

namespace State

open Session

/-- The state after trying to close a handle. -/
def closing (state : State) (handle : Handle) : State :=
  let closed := (close handle).exec state.session state.image
  ⟨closed.2.1, closed.2.2⟩

/-- Whether a handle may be closed or not, shutting down after trying it does the same. -/
theorem Coherent.closing {state : State} (h : state.Coherent) (handle : Handle) :
  (state.closing handle).Coherent
    ∧ shutdown.exec (state.closing handle).session (state.closing handle).image
      = shutdown.exec state.session state.image
  := by
  have coherent : state.session.Coherent state.image := h
  rcases closable_or_refused state.session state.image handle with closable | ⟨e, refused⟩
  · obtain ⟨hexec, quiet⟩ := coherent.exec_close closable
    simp only [State.closing, hexec]
    exact ⟨quiet.coherent, coherent.exec_shutdown_of_closable closable⟩
  · simp only [State.closing, refused, and_true]
    exact h

theorem Coherent.foldl_closing {state : State} (h : state.Coherent) (handles : List Handle) :
  (handles.foldl State.closing state).Coherent
    ∧ shutdown.exec (handles.foldl State.closing state).session
        (handles.foldl State.closing state).image
      = shutdown.exec state.session state.image
  := by
  induction handles generalizing state with
  | nil => exact ⟨h, rfl⟩
  | cons handle rest ih =>
      obtain ⟨coherent, same⟩ := h.closing handle
      obtain ⟨coherent', same'⟩ := ih coherent
      exact ⟨coherent', same'.trans same⟩

/-- The order in which handles are closed does not matter, nor does closing them matter to what
shutting down leaves. -/
structure ClosesInAnyOrder (state : State) : Prop where
  /-- Two handles are closed in either order, with the same session and image. -/
  swapped : ∀ first second, first ≠ second →
    state.session.Closable first → state.session.Closable second →
    ∃ closed after,
      SessionM.exec (do close first; close second) state.session state.image
        = (.ok (), closed, after)
      ∧ SessionM.exec (do close second; close first) state.session state.image
        = (.ok (), closed, after)
  /-- Any handles are closed in any order, with the same session and image, and shutting down then
  leaves the same as without closing them. -/
  reordered : ∀ handles handles' : List Handle, handles.Nodup →
    (∀ handle ∈ handles, state.session.Closable handle) → handles.Perm handles' →
    ∃ closed after, (handles.forM close).exec state.session state.image = (.ok (), closed, after)
      ∧ (handles'.forM close).exec state.session state.image = (.ok (), closed, after)
      ∧ shutdown.exec closed after = shutdown.exec state.session state.image
  closeAll : ∃ closed after, closeAll.exec state.session state.image = (.ok (), closed, after)
    ∧ shutdown.exec closed after = shutdown.exec state.session state.image
  /-- It does not matter either if some handles of a list cannot be closed, or are closed before. -/
  tried : ∀ handles : List Handle,
    shutdown.exec (handles.foldl closing state).session (handles.foldl closing state).image
      = shutdown.exec state.session state.image
  shutdown : ∃ closed after, shutdown.exec state.session state.image = (.ok (), closed, after)

theorem Coherent.closesInAnyOrder {state : State} (h : state.Coherent) :
  state.ClosesInAnyOrder
  := by
  have coherent : state.session.Coherent state.image := h
  have reordered (handles handles' : List Handle) (nodup : handles.Nodup)
      (closable : ∀ handle ∈ handles, state.session.Closable handle)
      (perm : handles.Perm handles') :
      ∃ closed after, (handles.forM close).exec state.session state.image = (.ok (), closed, after)
        ∧ (handles'.forM close).exec state.session state.image = (.ok (), closed, after)
        ∧ Session.shutdown.exec closed after = Session.shutdown.exec state.session state.image := by
    obtain ⟨hexec, hshut⟩ := coherent.exec_forM_close nodup closable
    have hexec' := coherent.exec_forM_close_perm nodup closable perm
    exact ⟨_, _, hexec, hexec'.symm.trans hexec, hshut⟩
  constructor
  · intro first second distinct hfirst hsecond
    have pair (first second : Handle) : (do close first; close second : SessionM Unit)
        = [first, second].forM close := by
      simp
    rw [pair first second, pair second first]
    obtain ⟨closed, after, hexec, hexec', -⟩ := reordered [first, second] [second, first]
      (by simpa using distinct) (by simp [hfirst, hsecond]) (.swap _ _ _)
    exact ⟨closed, after, hexec, hexec'⟩
  · exact reordered
  · rw [exec_closeAll]
    have nodup := state.session.openFiles.nodup_occupied.filter fun handle =>
      handle != OpenTable.rootHandle && handle != state.session.openFiles.current
    obtain ⟨closed, after, hexec, -, hshut⟩ := reordered state.session.closableHandles _ nodup
      (fun _ => mem_closableHandles.mp) (.refl _)
    exact ⟨closed, after, hexec, hshut⟩
  · exact fun handles => (h.foldl_closing handles).2
  · obtain ⟨closed, after, hexec, -⟩ := coherent.exec_shutdown
    exact ⟨closed, after, hexec⟩

end State

/-- A session begins by formatting any disk.  In every state that it reaches handles are closed in
any order with the same outcome. -/
theorem closes_in_any_order_throughout (clock : Timestamp) (image : Image) :
  ∃ start : State, (Session.format clock).exec image = (.ok start.session, start.image)
    ∧ ∀ history, (start.run history).ClosesInAnyOrder
  := by
  obtain ⟨start, hformat, throughout⟩ := exists_formatted clock image
  exact ⟨start, hformat, fun history => (throughout history).1.closesInAnyOrder⟩

/-- Two files were created, opened and written.  Their handles are closed in either order with the
same outcome, and shutting down then leaves the same as without closing them. -/
theorem closes_in_any_order_throughout_two :
  ∃ (start : State) (history : List Step) (first second : OpenFile) (closed closed' : Session)
      (after after' : Image),
    (Session.format default).exec .zero = (.ok start.session, start.image)
    ∧ history = [⟨.createFile "/a", default⟩, ⟨.createFile "/b", default⟩,
      ⟨.openPath "/a", default⟩, ⟨.openPath "/b", default⟩,
      ⟨.write 1 [0x61] .overwrite, default⟩, ⟨.write 2 [0x62] .overwrite, default⟩]
    ∧ ((start.run history).session.openFiles.get? 1 = some first ∧ first.dirty = true)
    ∧ ((start.run history).session.openFiles.get? 2 = some second ∧ second.dirty = true)
    ∧ SessionM.exec (do Session.close 1; Session.close 2) (start.run history).session
        (start.run history).image = (.ok (), closed, after)
    ∧ SessionM.exec (do Session.close 2; Session.close 1) (start.run history).session
        (start.run history).image = (.ok (), closed, after)
    ∧ ([1, 2].forM Session.close).exec (start.run history).session (start.run history).image
      = (.ok (), closed', after')
    ∧ ([2, 1].forM Session.close).exec (start.run history).session (start.run history).image
      = (.ok (), closed', after')
    ∧ Session.shutdown.exec closed' after'
      = Session.shutdown.exec (start.run history).session (start.run history).image
  := by
  obtain ⟨⟨begun, disk⟩, history, first, second, hformat, hhistory, coherent, hfirst, holds,
    hsecond, holds'⟩ := exists_written_two
  obtain ⟨⟨begun', disk'⟩, hformat', throughout⟩ := closes_in_any_order_throughout default .zero
  obtain ⟨rfl, rfl⟩ : begun = begun' ∧ disk = disk' := by
    simpa using hformat.symm.trans hformat'
  have closable {handle : Handle} {file : OpenFile}
      (hfile : (State.run ⟨begun, disk⟩ history).session.openFiles.get? handle = some file)
      (dirty : file.dirty = true) : (State.run ⟨begun, disk⟩ history).session.Closable handle := by
    obtain ⟨hroot, hcurrent, -⟩ := OpenTable.remove_eq_ok
      (Session.Coherent.remove_of_dirty coherent hfile dirty)
    exact ⟨⟨file, hfile⟩, hroot, hcurrent⟩
  have hclosable := closable hfirst holds.dirty
  have hclosable' := closable hsecond holds'.dirty
  obtain ⟨closed, after, hswap, hswap'⟩ :=
    (throughout history).swapped 1 2 (by decide) hclosable hclosable'
  obtain ⟨closed', after', hexec, hexec', hshut⟩ := (throughout history).reordered [1, 2] [2, 1]
    (by decide) (by simp [hclosable, hclosable']) (.swap _ _ _)
  exact ⟨⟨begun, disk⟩, history, first, second, closed, closed', after, after', hformat, hhistory,
    ⟨hfirst, holds.dirty⟩, ⟨hsecond, holds'.dirty⟩, hswap, hswap', hexec, hexec', hshut⟩

end FatVolume
