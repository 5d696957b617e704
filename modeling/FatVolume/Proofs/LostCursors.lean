import FatVolume.Proofs.Beginning
import FatVolume.Proofs.Contents
import FatVolume.Proofs.SessionEffects

/-!
# Cursors that are lost

Reading, seeking and writing leave the open file alone if they fail, whatever the surroundings
answer: the file is put back into its slot only after everything else succeeded.  Reading the whole
content is the exception.  It moves the cursor to the start before it reads, so that the cursor is
lost if it fails.
-/

namespace FatVolume

namespace Session

open SessionM

variable (session : Session) (handle : Handle)

/-- The session in which the cursor of an open file is at a position, at most at the end. -/
def sought (position : Nat) : Session :=
  match session.openFiles.get? handle with
  | some file => session.withSlot handle
      (some { file with cursor := min position file.record.length.toNat })
  | none => session

theorem get?_sought (position : Nat) :
  (session.sought handle position).openFiles.get? handle
    = (session.openFiles.get? handle).map fun file =>
        { file with cursor := min position file.record.length.toNat }
  := by
  unfold sought
  cases hfile : session.openFiles.get? handle with
  | none => exact hfile
  | some file => exact OpenTable.get?_set_self _ (OpenTable.lt_of_get? hfile) _

theorem get?_sought_of_ne {other : Handle} (h : handle ≠ other) (position : Nat) :
  (session.sought handle position).openFiles.get? other = session.openFiles.get? other
  := by
  unfold sought
  split
  · exact OpenTable.get?_set_of_ne _ h _
  · rfl

/-- Moving a cursor changes the open file unless the cursor is there. -/
theorem get?_sought_eq_iff (position : Nat) :
  (session.sought handle position).openFiles.get? handle = session.openFiles.get? handle
    ↔ ∀ file, session.openFiles.get? handle = some file →
        file.cursor = min position file.record.length.toNat
  := by
  rw [get?_sought]
  cases session.openFiles.get? handle with
  | none => simp
  | some file =>
      obtain ⟨record, path, cursor, dirty⟩ := file
      simp [eq_comm]

section Opened

variable {session handle} {file : OpenFile}
  (hfile : session.openFiles.get? handle = some file) {σ : Type} (serve : Surroundings σ) (s : σ)
include hfile

theorem sought_of_get? (position : Nat) :
  session.sought handle position = session.withSlot handle
    (some { file with cursor := min position file.record.length.toNat })
  := by
  rw [sought, hfile]

theorem runIn_openFile :
  (openFile handle).runIn serve session s = (.ok file, session, s)
  := by
  have opened : (openFile handle).runIn serve session s
      = (session.openFiles.get handle, session, s) := rfl
  rw [opened, OpenTable.get_eq_ok.mpr hfile]

/-- Seeking moves the cursor and asks nothing of the surroundings. -/
theorem runIn_seek (position : Nat) :
  (seek handle position).runIn serve session s
    = (.ok (min position file.record.length.toNat), session.sought handle position, s)
  := by
  rw [seek, runIn_bind_of_ok (runIn_openFile hfile serve s), sought_of_get? hfile]
  rfl

end Opened

/-- If reading the whole content fails, the cursor is at the start. -/
theorem ensures_readAll :
  (readAll handle).Ensures session fun result session' =>
    ∀ e, result = .error e → session' = session.sought handle 0
  := by
  refine ensures_openFile_bind (fun file hfile => ?_) fun e unopened _ _ => ?_
  · -- The read that follows is one in the session whose cursor was moved.
    have moved := sought_of_get? hfile 0
    have kept := failsStill_read handle file.record.length.toNat (session.sought handle 0)
    rw [Nat.zero_min] at moved
    rw [moved] at kept ⊢
    exact ⟨fun serve s => kept.runIn serve s⟩
  · rw [sought, unopened]

end Session

/-! ### The root of a fresh volume -/

section Root

open Session SessionM

/-- In a volume that was just formatted the cursor of the root directory can be moved. -/
theorem exists_sought :
  ∃ (session : Session) (image : Image) (moved : Session) (file : OpenFile),
    (Session.format default).exec .zero = (.ok session, image)
    ∧ (seek 0 5).exec session image = (.ok 5, moved, image)
    ∧ moved.openFiles.get? 0 = some file ∧ file.cursor = 5 ∧ file.record.isDirectory = true
  := by
  obtain ⟨prepared, hprepared, hformat⟩ := exec_format_begun default .zero
  have root := (hprepared.fresh default).root_superblock
  let file := rootFile (prepared.withRoot default) rootBlock
  have record : file.record = Record.made Name.dot.toList [] .directory rootBlock
      (UInt32.ofNat Volume.rootLength) default :=
    prepared.entryAt_withDots (by decide) _ _ 0
  have opened : (begun (prepared.withRoot default) default).openFiles.get? 0 = some file := by
    rw [begun, root]
    exact OpenTable.get?_ofRoot file
  have length : min 5 file.record.length.toNat = 5 := by
    rw [record]
    rfl
  have hseek := runIn_seek opened Image.serve (prepared.withRoot default) 5
  have held := Session.get?_sought (begun (prepared.withRoot default) default) 0 5
  rw [opened, Option.map_some, length] at held
  rw [length] at hseek
  exact ⟨_, _, _, _, hformat, hseek, held, rfl, congrArg Record.isDirectory record⟩

/-- Reading the whole of a directory moves its cursor to the start and fails. -/
theorem exec_readAll_of_isDirectory {session : Session} {handle : Handle} {file : OpenFile}
    (hfile : session.openFiles.get? handle = some file) (hdir : file.record.isDirectory = true)
    (image : Image) :
  (Operation.readAll handle).perform.exec session image
    = (.error .notFile, session.sought handle 0, image)
  := by
  have rewound := sought_of_get? hfile 0
  have held := session.get?_sought handle 0
  rw [hfile, Option.map_some] at held
  rw [rewound, Nat.zero_min] at held ⊢
  apply exec_bind_of_error
  rw [readAll, exec_bind_of_ok (runIn_openFile hfile Image.serve image)]
  dsimp only
  rw [exec_bind_of_ok (exec_putBack _ _)]
  apply (exec_bind_of_ok (runIn_openFile held Image.serve image)).trans
  exact exec_bind_of_error (exec_lift_of_eq (OpenFile.exec_read_of_isDirectory hdir))

end Root

/-! ### Operations on contents -/

namespace Operation

open Session SessionM

/-- The handle on whose content an operation works. -/
def contentHandle : Operation → Option Handle
  | read handle _ => some handle
  | readAll handle => some handle
  | seek handle _ => some handle
  | write handle _ _ => some handle
  | _ => none

theorem ensures_readAll (session : Session) (handle : Handle) :
  (readAll handle).perform.Ensures session fun result session' =>
    ∀ e, result = .error e → session' = session.sought handle 0
  := by
  refine (session.ensures_readAll handle).bind (fun bytes session' _ => ?_)
    fun e session' moved _ _ => moved e rfl
  exact ⟨fun _ _ _ succeeded => by cases succeeded⟩

variable {operation : Operation} {handle : Handle} (works : operation.contentHandle = some handle)
include works

/-- An operation on a content that is not to read the whole of it leaves the session as it is if it
fails. -/
theorem failsStill_of_contentHandle (part : operation ≠ .readAll handle) :
  operation.perform.FailsStill
  := by
  cases operation with
  | read other count => exact (failsStill_read other count).answer _
  | seek other position => exact (failsStill_seek other position).answer _
  | write other content mode => exact (failsStill_write other content mode).answer _
  | readAll other =>
      cases works
      exact absurd rfl part
  | _ => cases works

/-- An operation on a content that fails leaves the session as it is in whatever surroundings, but
for the cursor if the whole content was to be read.  So the open file is kept exactly unless that
moved its cursor. -/
theorem kept_iff_of_failed {σ : Type} (serve : Surroundings σ) (s s' : σ)
    {session session' : Session} {e : Error}
    (failed : operation.perform.runIn serve session s = (.error e, session', s')) :
  (operation ≠ .readAll handle → session' = session)
  ∧ (operation = .readAll handle → session' = session.sought handle 0)
  ∧ (session'.openFiles.get? handle = session.openFiles.get? handle
      ↔ (operation = .readAll handle →
          ∀ file, session.openFiles.get? handle = some file → file.cursor = 0))
  := by
  have keeps (part : operation ≠ .readAll handle) : session' = session := by
    have same := (failsStill_of_contentHandle works part session).runIn serve s e
    rw [failed] at same
    exact same rfl
  have rewinds (whole : operation = .readAll handle) : session' = session.sought handle 0 := by
    subst whole
    have moved := (ensures_readAll session handle).runIn serve s e
    rw [failed] at moved
    exact moved rfl
  refine ⟨keeps, rewinds, ?_⟩
  by_cases whole : operation = .readAll handle
  · rw [rewinds whole, get?_sought_eq_iff]
    simp [whole]
  · rw [keeps whole]
    simp [whole]

end Operation

open Session SessionM in
/-- The cursor is lost when the whole of the root directory is read. -/
theorem exists_failed_rewound :
  ∃ (session : Session) (image : Image) (moved session' : Session) (file : OpenFile),
    (Session.format default).exec .zero = (.ok session, image)
    ∧ (seek 0 5).exec session image = (.ok 5, moved, image)
    ∧ moved.openFiles.get? 0 = some file ∧ file.cursor = 5
    ∧ (Operation.readAll 0).perform.exec moved image = (.error .notFile, session', image)
    ∧ session'.openFiles.get? 0 = some { file with cursor := 0 }
    ∧ session'.openFiles.get? 0 ≠ moved.openFiles.get? 0
  := by
  obtain ⟨session, image, moved, file, hformat, hseek, hfile, hcursor, hdir⟩ := exists_sought
  refine ⟨session, image, moved, _, file, hformat, hseek, hfile, hcursor,
    exec_readAll_of_isDirectory hfile hdir image, ?_, ?_⟩
  · rw [get?_sought, hfile]
    simp
  · intro kept
    have := (moved.get?_sought_eq_iff 0 0).mp kept file hfile
    simp [hcursor] at this

open Session SessionM in
/-- What a failed operation on a content leaves is seen there when the whole is read. -/
theorem kept_iff_of_failed_sought :
  ∃ (moved session' : Session) (image : Image),
    (Operation.readAll 0).contentHandle = some 0
    ∧ (Operation.readAll 0).perform.runIn Image.serve moved image
      = (.error .notFile, session', image)
    ∧ session' = moved.sought 0 0
    ∧ (session'.openFiles.get? 0 = moved.openFiles.get? 0
        ↔ ∀ file, moved.openFiles.get? 0 = some file → file.cursor = 0)
  := by
  obtain ⟨_, image, moved, file, -, -, hfile, -, hdir⟩ := exists_sought
  have failed := exec_readAll_of_isDirectory hfile hdir image
  obtain ⟨-, rewinds, kept⟩ := Operation.kept_iff_of_failed rfl Image.serve image image failed
  exact ⟨moved, _, image, rfl, failed, rewinds rfl, by simpa using kept⟩

end FatVolume
