import FatVolume.Proofs.Effects
import FatVolume.Proofs.Lookup
import FatVolume.Proofs.Reading

/-!
# Quiet actions

In a coherent session a path means the normal path of its target.  Actions of a session compose
as far as they are quiet: what is quiet from the states in which it is performed is quiet in
sequence.
-/

namespace FatVolume

open DiskM

namespace Session

variable {session : Session} {image : Image}

/-! ### Targets -/

/-- The names of the absolute path that a path means. -/
def target (session : Session) (path : String) : List String :=
  Path.segments (session.absolute path)

theorem Tracking.exists_currentPath (h : session.Tracking image) :
  ∃ names, Path.Normal names ∧ session.currentPath = Path.render names
  := by
  obtain ⟨current, hcurrent, -⟩ := h.current_open
  obtain ⟨names, -, hnames, hpath, -⟩ := h.tracks hcurrent
  exact ⟨names, hnames, by rw [currentPath, hcurrent]; exact hpath⟩

/-- What a path means is the normal path of its target. -/
theorem Tracking.absolute_eq (h : session.Tracking image) (path : String) :
  session.absolute path = Path.render (session.target path)
    ∧ Path.Normal (session.target path)
  := by
  obtain ⟨cwd, hcwd, hpath⟩ := h.exists_currentPath
  have normal := Path.normal_resolved hcwd path
  have absolute : session.absolute path = Path.render (Path.resolved cwd path) := by
    rw [Session.absolute, hpath, Path.resolve_render hcwd]
  have target : session.target path = Path.resolved cwd path := by
    rw [Session.target, absolute, normal.segments_render]
  rw [target]
  exact ⟨absolute, normal⟩

/-- A normal path means itself. -/
theorem Tracking.absolute_render (h : session.Tracking image) {names : List String}
    (hnames : Path.Normal names) :
  session.absolute (Path.render names) = Path.render names
  := by
  obtain ⟨cwd, hcwd, hpath⟩ := h.exists_currentPath
  rw [Session.absolute, hpath, Path.resolve_render hcwd, Path.resolved_render hnames]

/-- An absolute path has the target of the path that it means. -/
theorem Tracking.target_absolute (h : session.Tracking image) (path : String) :
  session.target (session.absolute path) = session.target path
  := by
  obtain ⟨absolute, normal⟩ := h.absolute_eq path
  rw [target, absolute, h.absolute_render normal, normal.segments_render]

/-- The entry of a normal path is what its names lead to.  Of the session only the superblock
matters. -/
theorem exec_entryAt_of_sound {root : UInt16} {lengths : List String → Option Nat}
    (sound : image.Sound root lengths) (superblock : session.superblock.root = root)
    {names : List String} (hnames : Path.Normal names) :
  (entryAt (Path.render names)).exec session image
    = (found (image.find? root names), session, image)
  := by
  rw [entryAt, SessionM.exec_bind_of_ok SessionM.exec_get, superblock]
  apply SessionM.exec_lift_of_eq (Path.exec_lookup sound hnames)

theorem Coherent.exec_entryAt (h : session.Coherent image) {names : List String}
    (hnames : Path.Normal names) :
  (entryAt (Path.render names)).exec session image
    = (found (image.find? session.superblock.root names), session, image)
  := exec_entryAt_of_sound h.sound rfl hnames

/-- The entry of an absolute path is what its target leads to. -/
theorem Coherent.exec_entryAt_absolute (h : session.Coherent image) (path : String) :
  (entryAt (session.absolute path)).exec session image
    = (found (image.find? session.superblock.root (session.target path)), session, image)
  := by
  obtain ⟨absolute, normal⟩ := h.absolute_eq path
  rw [absolute, h.exec_entryAt normal]

/-- Looking up a path gives what its target leads to. -/
theorem Coherent.exec_lookup (h : session.Coherent image) (path : String) :
  (lookup path).exec session image
    = (found (image.find? session.superblock.root (session.target path)), session, image)
  := by
  rw [lookup, SessionM.exec_bind_of_ok SessionM.exec_get, h.exec_entryAt_absolute]

theorem exec_putBack (handle : Handle) (file : OpenFile) :
  (putBack handle file).exec session image
    = (.ok (), { session with openFiles := session.openFiles.set handle (some file) }, image)
  := rfl

theorem exec_openFile (session : Session) (image : Image) (handle : Handle) :
  (openFile handle).exec session image = (session.openFiles.get handle, session, image)
  := by
  rw [openFile, SessionM.exec_bind_of_ok SessionM.exec_get, SessionM.exec_ofExcept]

end Session

/-! ### Quiet actions -/

namespace SessionM

variable {α β : Type}

/-- The action is quiet when it is performed in the given state. -/
def QuietAt (action : SessionM α) (session : Session) (image : Image) : Prop :=
  session.Quiet image (action.exec session image).2.1 (action.exec session image).2.2

/-- The action is quiet in every coherent state. -/
def AlwaysQuiet (action : SessionM α) : Prop :=
  ∀ session image, session.Coherent image → action.QuietAt session image

variable {session session' : Session} {image after : Image} {action : SessionM α}
  {next : α → SessionM β}

theorem quietAt_of_eq {result : Except Error α}
    (h : action.exec session image = (result, session', after))
    (quiet : session.Quiet image session' after) :
  action.QuietAt session image
  := by
  rw [QuietAt, h]
  apply quiet

/-- A sequence is quiet when its first part is, and its second part in the state it gets to. -/
theorem QuietAt.bind (h : action.QuietAt session image)
    (h' : ∀ a session' after, action.exec session image = (.ok a, session', after) →
      session'.Coherent after → (next a).QuietAt session' after) :
  (action >>= next).QuietAt session image
  := by
  rw [QuietAt] at h
  rw [QuietAt, exec_bind]
  rcases hexec : action.exec session image with ⟨result, session', after⟩
  rw [hexec] at h
  cases result with
  | ok a => exact h.trans (h' a session' after hexec h.coherent)
  | error e => exact h

/-- A sequence goes on quietly where an action has led. -/
theorem QuietAt.bind_of_ok {a : α} (h : action.exec session image = (.ok a, session', after))
    (quiet : session.Quiet image session' after)
    (h' : (next a).QuietAt session' after) :
  (action >>= next).QuietAt session image
  := by
  rw [QuietAt, exec_bind_of_ok h]
  apply quiet.trans h'

theorem QuietAt.bind_of_error {e : Error}
    (h : action.exec session image = (.error e, session', after))
    (quiet : session.Quiet image session' after) :
  (action >>= next).QuietAt session image
  := quietAt_of_eq (exec_bind_of_error h) quiet

section Coherent

variable (coherent : session.Coherent image)
include coherent

theorem quietAt_pure (a : α) :
  (pure a : SessionM α).QuietAt session image
  := coherent.refl

theorem quietAt_throw (e : Error) :
  (throw e : SessionM α).QuietAt session image
  := coherent.refl

/-- What goes on only under a condition is quiet when it is under this condition. -/
theorem quietAt_unless {p : Prop} [Decidable p] {e : Error} {rest : SessionM α}
    (h : ¬p → rest.QuietAt session image) :
  (if p then (throw e : SessionM PUnit) >>= fun _ => rest else rest).QuietAt session image
  := by
  split_ifs with hp
  · apply quietAt_of_eq (exec_bind_of_error (exec_throw e)) coherent.refl
  · apply h hp

/-- What only reads the disk is quiet. -/
theorem quietAt_lift {action : DiskM α} (reads : action.ReadOnly) :
  (liftM action : SessionM α).QuietAt session image
  := by
  apply quietAt_of_eq (exec_lift_of_eq (reads.exec_eq image)) coherent.refl

/-- A loop of quiet actions is quiet. -/
theorem quietAt_forM {action : α → SessionM Unit} {list : List α}
    (h : ∀ a ∈ list, (action a).AlwaysQuiet) :
  (list.forM action).QuietAt session image
  := by
  induction list generalizing session image with
  | nil => exact coherent.refl
  | cons a rest ih =>
      rw [List.forM_eq_forM, List.forM_cons]
      apply (h a List.mem_cons_self session image coherent).bind
      intro _ session' after _ coherent'
      apply ih coherent' fun b hb => h b (List.mem_cons_of_mem _ hb)

end Coherent

end SessionM

end FatVolume
