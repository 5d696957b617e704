import FatVolume.Proofs.StaleData
import FatVolume.Proofs.CheckedHistories

/-!
# Formatting is canonical

What formatting writes does not depend on what it reads.  All prepared disks have the same blocks up
to the end of the root directory, so formatting any disk gives these blocks and keeps the others, and
formatting what was formatted at the same time changes nothing.
-/

namespace FatVolume

namespace Image

variable {prepared prepared' image : Image} (h : prepared.Prepared) (now : Timestamp)

theorem block_withRoot_of_le {b : Nat} (hb : dataStart ≤ b) :
  (image.withRoot now).block b = image.block b
  := by
  apply block_withDots_of_ne
  rintro rfl
  exact absurd hb (by decide)

/-! ### Prepared disks -/

namespace Prepared

include h

/-- The blocks before the first that files may own are the same on all disks that were prepared and
given their root directory at the same time. -/
theorem block_withRoot (h' : prepared'.Prepared) {b : Nat} (hb : b < dataStart) :
  (prepared'.withRoot now).block b = (prepared.withRoot now).block b
  := by
  have agrees := h.agrees h' now
  by_cases reserved : b < reservedSpan
  · exact agrees.reserved b reserved
  · apply agrees.content b
    apply allocated_of_mem_blocksOf
    rw [(h.fresh now).blocksOf_root]
    unfold dataStart rootSpan at hb
    unfold reservedSpan at reserved
    have : b = rootStart ∨ b = rootStart + 1 := by omega
    simpa using this

/-- Formatting again at the same time changes nothing. -/
theorem exec_format :
  (Volume.format now).exec (prepared.withRoot now) = (.ok (), prepared.withRoot now)
  := by
  obtain ⟨prepared', h', kept, hexec⟩ := Volume.exec_format_prepared now (prepared.withRoot now)
  have same : prepared'.withRoot now = prepared.withRoot now := by
    apply ext_block
    intro b _
    by_cases hb : b < dataStart
    · exact h.block_withRoot now h' hb
    · rw [block_withRoot_of_le now (Nat.not_lt.mp hb), kept b (Nat.not_lt.mp hb)]
  rw [hexec, same]

end Prepared

end Image

namespace Session

/-! ### Beginning again -/

/-- Nothing but the root directory is open, in the first slot and up to date, it is the current
directory, and no directory is borrowed. -/
structure OpensOnlyRoot (session : Session) : Prop where
  root : ∃ root : OpenFile, root.path = Path.root ∧ root.dirty = false ∧ root.cursor = 0
    ∧ ∀ handle file, session.openFiles.get? handle = some file
        ↔ handle = OpenTable.rootHandle ∧ file = root
  current : session.openFiles.current = OpenTable.rootHandle
  borrowed : session.borrowed = none

theorem opensOnlyRoot_begun (image : Image) (clock : Timestamp) :
  (begun image clock).OpensOnlyRoot
  where
  root := ⟨rootFile image _, rfl, rfl, rfl, fun _ _ => OpenTable.get?_ofRoot_eq_some⟩
  current := rfl
  borrowed := rfl

/-- Formatting the volume of a session again changes nothing, and its check counts the blocks up to
the end of the root directory as used. -/
structure Settled (session : Session) (image : Image) : Prop where
  format : (format session.clock).exec image = (.ok session, image)
  reformat : (reformat false).exec session image = (.ok (), session, image)
  check : check.exec session image
    = (.ok { total := numBlocks, used := dataStart, free := numBlocks - dataStart }, session, image)

theorem settled_begun {prepared : Image} (h : prepared.Prepared) (clock : Timestamp) :
  (begun (prepared.withRoot clock) clock).Settled (prepared.withRoot clock)
  := by
  have fresh := h.fresh clock
  have again := h.exec_format clock
  constructor
  · exact exec_format_of_exec fresh again
  · exact exec_reformat_false fresh again
  · have used := Check.run_of_sound fresh.sound
    rw [fresh.table, Table.countP_fresh, ← fresh.root_superblock] at used
    rw [Session.check, SessionM.exec_bind_of_ok SessionM.exec_get, SessionM.exec_lift_of_eq]
    exact used

/-- A full format in a session that began at the same time begins the same session again. -/
theorem exec_reformat_true_begun {after : Image} {clock : Timestamp} (fresh : after.Fresh)
    (hformat : (Volume.format clock).exec .zero = (.ok (), after)) (image : Image) :
  (reformat true).exec (begun after clock) image = (.ok (), begun after clock, after)
  := by
  have start : (Volume.format (begun after clock).clock).exec .zero = (.ok (), after) := hformat
  exact exec_reformat_true fresh start image

/-- Whatever session there is on whatever image, reformatting begins the session that formatting an
empty disk begins.  A full format leaves the same image; the other one leaves it up to the end of the
root directory, and keeps all blocks after it. -/
theorem reformat_canonical (session : Session) (image : Image) :
  ∃ (begun : Session) (volume quick : Image),
    (format session.clock).exec .zero = (.ok begun, volume)
    ∧ (reformat true).exec session image = (.ok (), begun, volume)
    ∧ (reformat false).exec session image = (.ok (), begun, quick)
    ∧ (∀ b, quick.block b = if b < dataStart then volume.block b else image.block b)
    ∧ (reformat true).exec begun volume = (.ok (), begun, volume)
    ∧ begun.Settled volume ∧ begun.Settled quick ∧ begun.OpensOnlyRoot
  := by
  obtain ⟨prepared, h, -, hzero⟩ := Volume.exec_format_prepared session.clock .zero
  obtain ⟨prepared', h', kept, himage⟩ := Volume.exec_format_prepared session.clock image
  have fresh := h.fresh session.clock
  have same : begun (prepared'.withRoot session.clock) session.clock
      = begun (prepared.withRoot session.clock) session.clock :=
    (State.agrees_begun h h' session.clock).session
  have quick := exec_reformat_false (h'.fresh session.clock) himage
  have settled := settled_begun h' session.clock
  rw [same] at quick settled
  refine ⟨_, _, _, exec_format_of_exec fresh hzero, exec_reformat_true fresh hzero image, quick,
    ?_, exec_reformat_true_begun fresh hzero _, settled_begun h session.clock, settled,
    opensOnlyRoot_begun _ _⟩
  intro b
  split_ifs with hb
  · exact h.block_withRoot session.clock h' hb
  · rw [Image.block_withRoot_of_le _ (Nat.not_lt.mp hb), kept b (Nat.not_lt.mp hb)]

end Session

end FatVolume
