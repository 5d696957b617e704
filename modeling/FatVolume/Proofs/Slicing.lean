import FatVolume.Proofs.Contents
import FatVolume.Proofs.GuardedTransfer

/-!
# Reading is slicing

What is read from an open file is the slice of the bytes in its chain from the cursor to where
reading stops: after as many bytes as are asked for, and at the end of the file at the latest.
Reading fails exactly if a byte of this slice lies in a block that the chain lacks.  Slices join, so
that two readings give what one reading gives.
-/

namespace FatVolume.OpenFile

open DiskM

/-! ### Slices -/

/-- The place at which a reading of at most `count` bytes stops, if it starts before it. -/
def stop (file : OpenFile) (count : Nat) : Nat :=
  min (file.cursor + count) file.record.length.toNat

/-- A byte that a reading of at most `count` bytes asks for lies in a block that the chain of the
file, which has the given blocks, lacks. -/
def Misses (file : OpenFile) (blocks : List Nat) (count : Nat) : Prop :=
  ∃ position, file.cursor ≤ position ∧ position < file.stop count
    ∧ blocks.length ≤ position / blockSize

/-- The bytes from the cursor to where a reading of at most `count` bytes stops. -/
def slice (file : OpenFile) (bytes : Bytes) (count : Nat) : Bytes :=
  (bytes.take (file.stop count)).drop file.cursor

/-- The file with its cursor moved past the bytes of a slice. -/
def advanced (file : OpenFile) (count : Nat) : OpenFile :=
  { file with cursor := file.cursor + (file.stop count - file.cursor) }

/-- Two readings, the second one from where the first one stops. -/
def readTwice (file : OpenFile) (first second : Nat) : DiskM (Bytes × OpenFile) := do
  let (bytes, after) ← file.read first
  let (more, final) ← after.read second
  return (bytes ++ more, final)

variable {image : Image} {file : OpenFile} {blocks : List Nat} {count : Nat}

/-- A byte is missing if there is one to read and the last one is missing. -/
theorem misses_iff :
  file.Misses blocks count
    ↔ file.cursor < file.stop count ∧ blocks.length * blockSize < file.stop count
  := by
  unfold Misses blockSize
  constructor
  · rintro ⟨position, low, high, beyond⟩
    omega
  · rintro ⟨some_bytes, short⟩
    exact ⟨file.stop count - 1, by omega, by omega, by omega⟩

/-- A chain that is long enough lacks no block. -/
theorem not_misses_of_span
    (span : (file.record.length.toNat + (blockSize - 1)) / blockSize ≤ blocks.length) :
  ¬file.Misses blocks count
  := by
  rw [misses_iff, stop]
  unfold blockSize at *
  omega

theorem length_slice (complete : ¬file.Misses blocks count) :
  (file.slice (image.bytesIn blocks) count).length = file.stop count - file.cursor
  := by
  rw [misses_iff] at complete
  rw [slice, List.length_drop, List.length_take, Image.length_bytesIn]
  omega

/-! ### Slices in a row -/

@[simp]
theorem record_advanced (file : OpenFile) (count : Nat) :
  (file.advanced count).record = file.record
  := rfl

theorem cursor_advanced (file : OpenFile) (count : Nat) :
  (file.advanced count).cursor = max file.cursor (file.stop count)
  := by
  rw [advanced]
  dsimp only
  omega

/-- The second of two readings stops where one reading of both counts stops. -/
theorem max_stop_advanced (file : OpenFile) (first second : Nat) :
  max (file.advanced first).cursor ((file.advanced first).stop second)
    = max file.cursor (file.stop (first + second))
  := by
  rw [stop, record_advanced, cursor_advanced]
  unfold stop
  omega

theorem advanced_advanced (file : OpenFile) (first second : Nat) :
  (file.advanced first).advanced second = file.advanced (first + second)
  := by
  have cursor : ((file.advanced first).advanced second).cursor
      = (file.advanced (first + second)).cursor := by
    rw [cursor_advanced, max_stop_advanced, ← cursor_advanced]
  exact congrArg (fun cursor => { file with cursor }) cursor

/-- One slice followed by the next one is a slice. -/
theorem slice_append_slice (file : OpenFile) (bytes : Bytes) (first second : Nat) :
  file.slice bytes first ++ (file.advanced first).slice bytes second
    = file.slice bytes (first + second)
  := by
  have reach := max_stop_advanced file first second
  have count : (file.stop first - file.cursor)
      + ((file.advanced first).stop second - (file.advanced first).cursor)
      = file.stop (first + second) - file.cursor := by
    rw [cursor_advanced] at reach ⊢
    omega
  rw [slice, slice, slice, List.drop_take, List.drop_take, List.drop_take, ← count, List.take_add,
    List.drop_drop]
  rfl

theorem misses_advanced {first second : Nat} (complete : ¬file.Misses blocks first) :
  (file.advanced first).Misses blocks second ↔ file.Misses blocks (first + second)
  := by
  rw [misses_iff] at complete ⊢
  rw [misses_iff, stop, record_advanced, cursor_advanced]
  unfold stop at *
  omega

theorem Misses.add {first second : Nat} (h : file.Misses blocks first) :
  file.Misses blocks (first + second)
  := by
  rw [misses_iff] at h ⊢
  unfold stop at *
  omega

/-! ### Reading -/

theorem exec_readRange_slice (hchain : image.table.IsChain file.record.first.toNat blocks)
    (count : Nat) :
  (readRange file.record.first.toNat file.record.length.toNat file.cursor count).exec image
    = (if file.cursor < file.stop count ∧ blocks.length * blockSize < file.stop count
        then .error (.corrupted (.chainTooShort file.record.first.toNat))
        else .ok (file.slice (image.bytesIn blocks) count), image)
  := exec_readRange_of_isChain hchain file.cursor count

section Chain

variable (isFile : file.record.isDirectory = false)
  (hchain : image.table.IsChain file.record.first.toNat blocks)
include isFile hchain

theorem exec_read_of_misses (missing : file.Misses blocks count) :
  (file.read count).exec image
    = (.error (.corrupted (.chainTooShort file.record.first.toNat)), image)
  := by
  have reading := exec_readRange_slice hchain count
  rw [if_pos (misses_iff.mp missing)] at reading
  rw [read, isFile, if_neg Bool.false_ne_true, exec_bind_of_error reading]

theorem exec_read_of_not_misses (complete : ¬file.Misses blocks count) :
  (file.read count).exec image
    = (.ok (file.slice (image.bytesIn blocks) count, file.advanced count), image)
  := by
  have reading := exec_readRange_slice hchain count
  rw [if_neg (mt misses_iff.mpr complete)] at reading
  rw [read, isFile, if_neg Bool.false_ne_true, exec_bind_of_ok reading, exec_pure,
    length_slice complete, advanced]

/-- Reading twice is reading once, also where it fails. -/
theorem exec_readTwice (first second : Nat) :
  (file.readTwice first second).exec image = (file.read (first + second)).exec image
  := by
  by_cases missing : file.Misses blocks first
  · rw [readTwice, exec_bind_of_error (exec_read_of_misses isFile hchain missing),
      exec_read_of_misses isFile hchain missing.add]
  · have isFile' : (file.advanced first).record.isDirectory = false := isFile
    have hchain' : image.table.IsChain (file.advanced first).record.first.toNat blocks := hchain
    rw [readTwice, exec_bind_of_ok (exec_read_of_not_misses isFile hchain missing)]
    dsimp only
    by_cases missing' : (file.advanced first).Misses blocks second
    · rw [exec_bind_of_error (exec_read_of_misses isFile' hchain' missing'),
        exec_read_of_misses isFile hchain ((misses_advanced missing).mp missing'), record_advanced]
    · rw [exec_bind_of_ok (exec_read_of_not_misses isFile' hchain' missing'),
        exec_read_of_not_misses isFile hchain (mt (misses_advanced missing).mpr missing'),
        exec_pure, slice_append_slice, advanced_advanced]

end Chain

/-- Reading a file whose chain is well formed gives the slice from the cursor to where reading
stops, moves the cursor past it and changes nothing on disk, unless a byte of the slice lies in a
block that the chain lacks, which fails.  A chain with as many blocks as the length needs lacks none.
Reading twice is reading once, and no sum overflows, whatever is asked for. -/
theorem reads_slices (isFile : file.record.isDirectory = false)
    (hchain : image.table.IsChain file.record.first.toNat blocks) :
  (∀ count, file.Misses blocks count →
    (file.read count).exec image
      = (.error (.corrupted (.chainTooShort file.record.first.toNat)), image))
  ∧ (∀ count, ¬file.Misses blocks count → ∃ bytes,
    bytes = ((image.bytesIn blocks).take
      (min (file.cursor + count) file.record.length.toNat)).drop file.cursor
    ∧ bytes.length = min (file.cursor + count) file.record.length.toNat - file.cursor
    ∧ (file.read count).exec image
      = (.ok (bytes, { file with cursor := file.cursor + bytes.length }), image))
  ∧ ((file.record.length.toNat + (blockSize - 1)) / blockSize ≤ blocks.length →
    ∀ count, ¬file.Misses blocks count)
  ∧ (∀ first second,
    (file.readTwice first second).exec image = (file.read (first + second)).exec image)
  ∧ (file.cursor < 2 ^ Guarded.wordSize → ∀ count,
    (Guarded.OpenFile.read file count).runIn Image.serve image
      = .ok ((file.read count).exec image))
  := by
  refine ⟨fun count => exec_read_of_misses isFile hchain, fun count complete => ?_,
    fun span count => not_misses_of_span span, exec_readTwice isFile hchain, fun small count => ?_⟩
  · have length : (file.slice (image.bytesIn blocks) count).length = file.stop count - file.cursor :=
      length_slice complete
    refine ⟨file.slice (image.bytesIn blocks) count, rfl, length, ?_⟩
    rw [exec_read_of_not_misses isFile hchain complete, length, advanced]
  · exact (faultless_read small count).runIn_eq Image.serve image

/-- A file whose length is more than its chain holds is read up to the end of the chain, and no byte
further. -/
theorem reads_slices_of_short_chain :
  ∃ (image : Image) (file : OpenFile), file.record.isDirectory = false
    ∧ image.table.IsChain file.record.first.toNat [7]
    ∧ file.cursor = 1000 ∧ file.record.length.toNat = 3000
    ∧ (∃ bytes, bytes.length = 24
      ∧ (file.read 24).exec image = (.ok (bytes, { file with cursor := 1024 }), image))
    ∧ (file.read 25).exec image = (.error (.corrupted (.chainTooShort 7)), image)
  := by
  let record : Record := { Record.blank with kind := .file, first := 7, length := 3000 }
  let file : OpenFile := { record, path := "/a", cursor := 1000 }
  let image := Image.zero.withEntry 7 .last
  have hchain : image.table.IsChain file.record.first.toNat [7] :=
    Image.zero.isChain_withEntry_last (by decide)
  have complete : ¬file.Misses [7] 24 := by
    rw [misses_iff]
    decide
  have missing : file.Misses [7] 25 := by
    rw [misses_iff]
    decide
  obtain ⟨fails, gives, -, -, -⟩ := reads_slices rfl hchain
  obtain ⟨bytes, -, hlength, hread⟩ := gives 24 complete
  have length : bytes.length = 24 := hlength.trans (by decide)
  rw [length] at hread
  exact ⟨image, file, rfl, hchain, rfl, by decide, ⟨bytes, length, hread⟩, fails 25 missing⟩

end FatVolume.OpenFile
