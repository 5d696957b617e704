import FatVolume.Proofs.CheckComplete
import FatVolume.Proofs.Histories

/-!
# Histories keep the volume consistent

A session that begins on a volume that checks, or by formatting, has a volume that checks after
every history, as soon as no file is out of date on disk.  Shutting down brings it there.
-/

namespace FatVolume

namespace Session.Coherent

variable {session : Session} {image : Image} (h : session.Coherent image)
include h

/-- When no file is out of date on disk, the image is sound with the lengths on disk. -/
theorem sound_of_clean
    (clean : ∀ handle file, session.openFiles.get? handle = some file → file.dirty = false) :
  image.Sound session.superblock.root fun _ => none
  := by
  apply h.sound.of_lengths
  intro names e he
  symm
  apply h.lengthOf_of_same
  rintro hnames record ⟨handle, file, hfile, hpath, rfl⟩
  exact h.upToDate hfile (clean handle file hfile) names e hnames hpath he

/-- When no file is out of date on disk, a check succeeds. -/
theorem exec_check
    (clean : ∀ handle file, session.openFiles.get? handle = some file → file.dirty = false) :
  ∃ usage, check.exec session image = (.ok usage, session, image)
  := by
  have hcheck := Check.run_of_sound (h.sound_of_clean clean)
  generalize Usage.mk _ _ _ = usage at hcheck
  refine ⟨usage, ?_⟩
  rw [check, SessionM.exec_bind_of_ok SessionM.exec_get, SessionM.exec_lift_of_eq hcheck]

end Session.Coherent

/-- Mounting what formatting left of a disk begins the same session, and the volume checks. -/
theorem Session.mount_of_format {clock : Timestamp} {image after : Image} {session : Session}
    (h : (format clock).exec image = (.ok session, after)) :
  (mount clock).exec after = (.ok session, after) ∧ session.Coherent after
    ∧ ∃ usage, check.exec session after = (.ok usage, session, after)
  := by
  obtain ⟨prepared, hprepared, hformat⟩ := exec_format_begun clock image
  have fresh := hprepared.fresh clock
  rw [h, Prod.mk.injEq, Except.ok.injEq] at hformat
  obtain ⟨rfl, rfl⟩ := hformat
  obtain ⟨coherent, -⟩ := coherent_begun fresh clock
  exact ⟨exec_mount_begun clock fresh.isValid_superblock, coherent,
    coherent.exec_check (clean_of_ofRoot rfl)⟩

/-- A check succeeds if no file is out of date on disk, and in any case after shutting down, which
succeeds. -/
structure State.Checks (state : State) : Prop where
  check : (∀ handle file, state.session.openFiles.get? handle = some file → file.dirty = false) →
    ∃ usage, Session.check.exec state.session state.image
      = (.ok usage, state.session, state.image)
  shutdown : ∃ session after, Session.shutdown.exec state.session state.image
      = (.ok (), session, after)
    ∧ ∃ usage, Session.check.exec session after = (.ok usage, session, after)

theorem State.Coherent.checks {state : State} (h : state.Coherent) :
  state.Checks
  := by
  constructor
  · exact Session.Coherent.exec_check h
  · obtain ⟨session, after, hexec, quiet, clean⟩ := Session.Coherent.exec_shutdown h
    exact ⟨session, after, hexec, quiet.coherent.exec_check clean⟩

/-- A session begins by formatting any disk, or on a disk whose volume checks.  After every history
the volume checks again. -/
theorem checks_throughout (clock : Timestamp) (image : Image) :
  (∃ start : State, (Session.format clock).exec image = (.ok start.session, start.image)
      ∧ ∀ history, (start.run history).Checks)
    ∧ ∀ usage after, (Superblock.ofBlock (image.block superblockAt)).isValid = true →
        (Check.run (Superblock.ofBlock (image.block superblockAt)).root).exec image
          = (.ok usage, after) →
        ∃ start : State, (Session.mount clock).exec image = (.ok start.session, start.image)
          ∧ start.image = image ∧ ∀ history, (start.run history).Checks
  := by
  constructor
  · obtain ⟨start, hformat, throughout⟩ := exists_formatted clock image
    exact ⟨start, hformat, fun history => (throughout history).1.checks⟩
  · intro usage after valid hcheck
    rw [Superblock.root_of_isValid valid] at hcheck
    obtain ⟨session, hmount, coherent, -⟩ :=
      Session.exec_mount clock valid (Check.consistent_of_run hcheck).sound
    have coherent : State.Coherent ⟨session, image⟩ := coherent
    exact ⟨⟨session, image⟩, hmount, rfl, fun history => (coherent.run history).checks⟩

/-- An empty disk that was formatted checks, and can be mounted. -/
theorem checks_throughout_mounted :
  ∃ (image : Image) (usage : Usage) (start : State),
    (Volume.format default).exec .zero = (.ok (), image)
    ∧ (Superblock.ofBlock (image.block superblockAt)).isValid = true
    ∧ (Check.run (Superblock.ofBlock (image.block superblockAt)).root).exec image
      = (.ok usage, image)
    ∧ (Session.mount default).exec image = (.ok start.session, start.image)
    ∧ ∀ history, (start.run history).Checks
  := by
  obtain ⟨image, hformat, fresh⟩ := Volume.exec_format default .zero
  have valid := fresh.isValid_superblock
  have hcheck := Check.run_of_sound fresh.sound
  rw [← fresh.root_superblock] at hcheck
  obtain ⟨start, hmount, -, throughout⟩ := (checks_throughout default image).2 _ _ valid hcheck
  exact ⟨image, _, start, hformat, valid, hcheck, hmount, throughout⟩

end FatVolume
