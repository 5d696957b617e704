import FatVolume.Proofs.Handles
import FatVolume.Proofs.Listing

/-!
# The last working copies

A file that was open had a working copy of its record.  `State.lastCopies` is the length that the
last one of each file had in a history.  It is the length that the session shows, and when all
records on disk are up to date it is the length on disk.
-/

namespace FatVolume

/-- The length of a directory, or that of the content of a file. -/
def Node.length : Node → Nat
  | directory length => length
  | file _ content => content.length

/-- The lengths of the last working copies when a state is reached.  What is open has the length of
its working copy, and what is not there has none. -/
def State.copies (state : State) (before : List String → Option Nat) (names : List String) :
    Option Nat :=
  match state.session.workingLength names with
  | some length => some length
  | none => if (state.tree names).isSome then before names else none

/-- The lengths of the last working copies after a history, with those from before it. -/
def State.lastCopies (state : State) (before : List String → Option Nat) :
    List Step → List String → Option Nat
  | [] => before
  | step :: rest => (step.next state).lastCopies ((step.next state).copies before) rest

/-! ### Lengths that a session shows -/

namespace Session

variable {session : Session} {image : Image} {names : List String} {handle : Handle}
  {file : OpenFile} {e : Entry} {n : Nat}

theorem Tracking.workingLength_of_open (h : session.Tracking image) (hnames : Path.Normal names)
    (hfile : session.openFiles.get? handle = some file) (hpath : file.path = Path.render names) :
  session.workingLength names = some file.record.length.toNat
  := by
  have found := h.distinct.find?_eq hfile
  rw [hpath] at found
  rw [workingLength, if_pos hnames, found]
  simp [hfile]

/-- A node shows the length of its entry, that of the working copy if it is open. -/
theorem Coherent.length_nodeOf (h : session.Coherent image)
    (he : image.find? session.superblock.root names = some e) :
  (session.nodeOf image names e).length = session.lengthOf names e
  := by
  unfold nodeOf
  split_ifs with hdir
  · exact (h.lengthOf_of_isDirectory he hdir).symm
  · exact h.length_contentOf he (by simpa using hdir)

/-- What is open shows the length of its working copy. -/
theorem Coherent.length_of_workingLength (h : session.Coherent image)
    (working : session.workingLength names = some n) :
  (session.node? image names).map Node.length = some n
  := by
  have hnames : Path.Normal names := by
    by_contra outside
    simp [workingLength, outside] at working
  obtain ⟨handle, hfound⟩ :
      ∃ handle, session.openFiles.find? (Path.render names) = some handle := by
    apply Option.ne_none_iff_exists'.mp
    intro absent
    simp [workingLength, absent] at working
  obtain ⟨file, hfile, hpath⟩ := OpenTable.exists_of_find? hfound
  obtain ⟨e, he, -⟩ := h.exists_tracked hfile hnames hpath
  rw [node?, he, Option.map_some, Option.map_some, h.length_nodeOf he, lengthOf, working,
    Option.getD_some]

/-- When all records on disk are up to date, what is shown is on disk. -/
theorem Coherent.exists_entry_of_clean (h : session.Coherent image)
    (clean : ∀ handle file, session.openFiles.get? handle = some file → file.dirty = false)
    (shown : (session.node? image names).map Node.length = some n) :
  ∃ e, image.find? session.superblock.root names = some e ∧ e.record.length.toNat = n
  := by
  obtain ⟨node, hnode, length⟩ := Option.map_eq_some_iff.mp shown
  obtain ⟨e, he, rfl⟩ := Option.map_eq_some_iff.mp hnode
  refine ⟨e, he, ?_⟩
  rw [h.length_nodeOf he] at length
  rw [← length, h.lengthOf_of_same]
  rintro hnames record ⟨handle, file, hfile, hpath, rfl⟩
  exact h.upToDate hfile (clean handle file hfile) names e hnames hpath he

end Session

/-! ### Steps -/

/-- A step leaves what is there as it is, unless it writes to it or reformats. -/
theorem Change.eq_or_written {session : Session} {tree after : Tree} {operation : Operation}
    {result : Except Error Answer} (h : Change session tree operation result after)
    {names : List String} (before : tree names ≠ none) (still : after names ≠ none) :
  after names = tree names ∨ names = []
    ∨ ∃ handle content mode file, operation = .write handle content mode
      ∧ session.openFiles.get? handle = some file ∧ file.path = Path.render names
  := by
  cases h with
  | unchanged => exact .inl rfl
  | @created path kind e normal absent =>
      have differs : names ≠ session.target path := by
        rintro rfl
        exact before absent
      exact .inl (Function.update_of_ne differs _ _)
  | @removed path kind held =>
      have differs : names ≠ session.target path := by
        rintro rfl
        exact still (Function.update_self _ _ _)
      exact .inl (Function.update_of_ne differs _ _)
  | @written handle file content old bytes mode names' blocks stored hfile hpath held =>
      by_cases same : names = names'
      · subst same
        exact .inr (.inr ⟨handle, content, mode, file, rfl, hfile, hpath⟩)
      · exact .inl (Function.update_of_ne same _ _)
  | reformatted bare =>
      refine .inr (.inl ?_)
      by_contra nonempty
      exact still (bare.2 names nonempty)

/-- Writing keeps what it writes to open. -/
theorem Operation.ensures_open_write {session : Session} {handle : Handle} {file : OpenFile}
    (hfile : session.openFiles.get? handle = some file) (content : Bytes) (mode : WriteMode) :
  (write handle content mode).perform.Ensures session fun _ session' =>
    ∃ file', session'.openFiles.get? handle = some file' ∧ file'.path = file.path
  := by
  have still : (Session.write handle content mode).Ensures session fun _ session' =>
      ∃ file', session'.openFiles.get? handle = some file' ∧ file'.path = file.path := by
    apply (Session.ensures_write handle content mode).mono
    rintro _ _ (rfl | ⟨old, new, hold, same, rfl⟩)
    · exact ⟨file, hfile, rfl⟩
    · obtain rfl := Option.some.inj (hfile.symm.trans hold)
      exact ⟨new, OpenTable.get?_set_self _ (OpenTable.lt_of_get? hfile) _, same⟩
  exact still.bind (fun _ _ holds => ⟨fun _ _ => holds⟩) fun _ _ holds => holds

/-- The lengths are those that the state shows. -/
def State.Shown (state : State) (copies : List String → Option Nat) : Prop :=
  ∀ names n, copies names = some n → (state.tree names).map Node.length = some n

namespace State.Coherent

variable {state : State} (h : state.Coherent) (standard : state.tree.Standard)
  {copies : List String → Option Nat}
include h

/-- The working copies show their lengths, and the others the lengths they had. -/
theorem shown_copies
    (others : ∀ names n, state.session.workingLength names = none → state.tree names ≠ none →
      copies names = some n → (state.tree names).map Node.length = some n) :
  state.Shown (state.copies copies)
  := by
  intro names n hcopy
  unfold State.copies at hcopy
  cases working : state.session.workingLength names with
  | some length =>
      rw [working] at hcopy
      obtain rfl := Option.some.inj hcopy
      exact Session.Coherent.length_of_workingLength h working
  | none =>
      rw [working] at hcopy
      dsimp only at hcopy
      split_ifs at hcopy with present
      exact others names n working (Option.isSome_iff_ne_none.mp present) hcopy

include standard

/-- After a step the last working copies have the lengths that are shown. -/
theorem shown_next (shown : state.Shown copies) (step : Step) :
  (step.next state).Shown ((step.next state).copies copies)
  := by
  obtain ⟨coherent', change⟩ := h.change step
  apply coherent'.shown_copies
  intro names n closed present hcopy
  have before := shown names n hcopy
  have there : state.tree names ≠ none := by
    intro absent
    simp [absent] at before
  have normal : Path.Normal names := by
    obtain ⟨node, hnode⟩ := Option.ne_none_iff_exists'.mp there
    exact standard.normal hnode
  rcases change.eq_or_written there present with same | rfl | ⟨handle, content, mode, file, hwrite,
    hfile, hpath⟩
  · rw [same, before]
  · -- The root is always open.
    obtain ⟨root, hroot, hpath, -⟩ := Session.Tracking.root_open coherent'.toTracking
    simp [coherent'.toTracking.workingLength_of_open normal hroot hpath] at closed
  · -- What was written to is still open.
    obtain ⟨operation, now⟩ := step
    obtain rfl : operation = .write handle content mode := hwrite
    have hfile : (state.session.atTime now).openFiles.get? handle = some file := hfile
    obtain ⟨file', hfile', same⟩ :=
      (Operation.ensures_open_write hfile content mode).runIn Image.serve state.image
    have open' := coherent'.toTracking.workingLength_of_open normal hfile' (same.trans hpath)
    simp [open'] at closed

/-- After a history the last working copies have the lengths that are shown. -/
theorem shown_lastCopies (shown : state.Shown copies) (history : List Step) :
  (state.run history).Shown (state.lastCopies copies history)
  := by
  induction history generalizing state copies with
  | nil => exact shown
  | cons step rest ih =>
      obtain ⟨coherent', change⟩ := h.change step
      exact ih coherent' (change.standard standard) (h.shown_next standard shown step)

end State.Coherent

end FatVolume
