import FatVolume.Proofs.CheckSteps
import FatVolume.Proofs.FreshVolumes
import FatVolume.Proofs.OpenPaths
import FatVolume.Proofs.SessionEffects

/-!
# What writing does

Writing to an open file makes of its content what the mode says, in a chain that is as long as the
new content needs.  It fails exactly when too few blocks are free for the chain to grow, however
they are spread over the disk.
-/

namespace FatVolume

/-! ### The content that is written -/

namespace WriteMode

/-- The content that writing `new` at `cursor` makes of the content `old`. -/
def written (mode : WriteMode) (old new : Bytes) (cursor : Nat) : Bytes :=
  match mode with
  | overwrite => new
  | append => old ++ new
  | cover => old.take cursor ++ new ++ old.drop (cursor + new.length)

/-- The place of the cursor after writing `new` at `cursor` over the content `old`. -/
def cursorAfter (mode : WriteMode) (old new : Bytes) (cursor : Nat) : Nat :=
  match mode with
  | overwrite => new.length
  | append => (old ++ new).length
  | cover => cursor + new.length

/-- A cursor that is not past the end is where writing begins. -/
theorem apply_eq {old : Bytes} {cursor : Nat} (within : cursor ≤ old.length) (mode : WriteMode)
    (new : Bytes) :
  mode.apply old new cursor = (mode.written old new cursor, mode.cursorAfter old new cursor)
  := by
  cases mode with
  | overwrite => rfl
  | append => simp [apply, written, cursorAfter]
  | cover => simp [apply, written, cursorAfter, Nat.min_eq_left within]

end WriteMode

/-- The chunks of bytes, each filled up with zeros, are the bytes and zeros after their end. -/
theorem Bytes.flatMap_padded_chunks (size : Nat) {count : Nat} {bytes : Bytes}
    (h : bytes.length ≤ count * size) :
  (chunks size count bytes).flatMap (fun chunk => (padded size chunk).toList)
    = bytes ++ List.replicate (count * size - bytes.length) 0
  := by
  induction count generalizing bytes with
  | zero =>
      obtain rfl := List.eq_nil_of_length_eq_zero (Nat.le_zero.mp (Nat.zero_mul size ▸ h))
      rw [Nat.zero_mul]
      rfl
  | succ count ih =>
      rw [Nat.succ_mul] at h ⊢
      have rest : (bytes.drop size).length ≤ count * size := by
        rw [List.length_drop]
        omega
      rw [chunks, List.flatMap_cons, ih rest, toList_padded, List.take_take, Nat.min_self,
        List.length_take, List.length_drop]
      rcases Nat.le_total bytes.length size with short | long
      · rw [List.take_of_length_le short, List.drop_of_length_le short, List.nil_append,
          Nat.min_eq_right short, List.append_assoc, List.replicate_append_replicate]
        congr 2
        omega
      · rw [Nat.min_eq_left long, Nat.sub_self, List.replicate_zero, List.append_nil,
          ← List.append_assoc, List.take_append_drop]
        congr 2
        omega

namespace Image.Stored

variable {image after : Image} {first : Nat} {old new : List Nat} {content : Bytes}

/-- The chain of a content that was stored holds the content, and zeros after its end. -/
theorem flatMap_block (h : image.Stored after first old new content) :
  new.flatMap (fun b => (after.block b).toList)
    = content ++ List.replicate (new.length * blockSize - content.length) 0
  := by
  have filled := Bytes.flatMap_padded_chunks blockSize (le_blocksFor_mul content.length)
  have bytes : new.flatMap (fun b => (after.block b).toList)
      = (new.map after.block).flatMap Vector.toList := by
    rw [List.flatMap_map]
  rw [bytes, h.blocks, OpenFile.toBlocks, List.flatMap_map, h.length, ← filled]
  rfl

/-- The blocks outside of the chain that were taken are still taken, and no others. -/
theorem allocated_sdiff (h : image.Stored after first old new content) :
  after.table.allocated.toFinset \ new.toFinset = image.table.allocated.toFinset \ old.toFinset
  := by
  ext b
  simp only [Finset.mem_sdiff, List.mem_toFinset, Table.mem_allocated]
  constructor
  · rintro ⟨⟨entry, hentry, taken⟩, hnew⟩
    have hold : b ∉ old := by
      intro hold
      rw [h.released b hold hnew] at hentry
      exact taken (Option.some.inj hentry).symm
    rw [h.untouched b hold hnew] at hentry
    exact ⟨⟨entry, hentry, taken⟩, hold⟩
  · rintro ⟨⟨entry, hentry, taken⟩, hold⟩
    have hnew : b ∉ new := by
      intro hnew
      rw [h.fresh b hnew hold] at hentry
      exact taken (Option.some.inj hentry).symm
    rw [← h.untouched b hold hnew] at hentry
    exact ⟨⟨entry, hentry, taken⟩, hnew⟩

/-- What the chain gained or lost, the free blocks lost or gained. -/
theorem countFree_add_length (h : image.Stored after first old new content)
    (hold : image.table.IsChain first old) :
  after.table.countFree + new.length = image.table.countFree + old.length
  := by
  have outside {table : Table} {blocks : List Nat} (hchain : table.IsChain first blocks) :
      (table.allocated.toFinset \ blocks.toFinset).card + blocks.length + table.countFree
        = table.length := by
    have subset : blocks.toFinset ⊆ table.allocated.toFinset := by
      intro b hb
      rw [List.mem_toFinset] at hb ⊢
      exact Table.mem_allocated.mpr (hchain.exists_entry hb)
    rw [← List.toFinset_card_of_nodup hchain.nodup, Finset.card_sdiff_add_card_eq_card subset,
      List.toFinset_card_of_nodup (Table.nodup_allocated table), Table.length_allocated,
      Table.countP_add_countFree]
  have before := outside hold
  have after := outside h.isChain
  rw [h.allocated_sdiff, length_table] at after
  rw [length_table] at before
  omega

end Image.Stored

namespace OpenFile

open DiskM

/-- The file after writing `new` over the content `old`. -/
def afterWriting (file : OpenFile) (old new : Bytes) (mode : WriteMode) : OpenFile :=
  { file with
    record := file.record.withLength (UInt32.ofNat (mode.written old new file.cursor).length)
    cursor := mode.cursorAfter old new file.cursor
    dirty := true }

variable {image : Image} {file : OpenFile} {blocks : List Nat}

/-- Writing stores what the mode makes of the content that there is. -/
theorem exec_write_eq_store (hchain : image.table.IsChain file.record.first.toNat blocks)
    (span : blocks.length = blocksFor file.record.length.toNat)
    (isFile : file.record.isDirectory = false)
    (within : file.cursor ≤ file.record.length.toNat) {old : Bytes}
    (hold : image.contentOf file.record.first.toNat file.record.length.toNat = old)
    (new : Bytes) (mode : WriteMode) :
  (file.write new mode).exec image
    = (do
        store file.record.first.toNat (mode.written old new file.cursor)
        return file.afterWriting old new mode : DiskM OpenFile).exec image
  := by
  have old_length : old.length = file.record.length.toNat := by
    rw [← hold]
    apply Image.length_contentOf
    rw [Image.blocksOf_eq hchain, span]
  have reading := exec_readRange hchain span.ge 0 file.record.length.toNat
  rw [hold, List.drop_zero, List.take_of_length_le old_length.le] at reading
  rw [write, isFile, if_neg Bool.false_ne_true, exec_bind_of_ok reading,
    WriteMode.apply_eq (by rwa [old_length])]
  dsimp only
  rw [exec_bind, exec_bind]
  rfl

end OpenFile

/-! ### Open files -/

/-- Writing to the file open at a handle, which has the content `old` in the chain `blocks`, while
`free` blocks are free. -/
structure State.WritesTo (state : State) (handle : Handle) (file : OpenFile) (old : Bytes)
    (blocks : List Nat) (free : Nat) : Prop where
  chain : (Allocation.chain file.record.first.toNat).exec state.image = (.ok blocks, state.image)
  content : old = (blocks.flatMap fun b => (state.image.block b).toList).take
    file.record.length.toNat
  length : old.length = file.record.length.toNat
  countFree : Allocation.countFree.exec state.image = (.ok free, state.image)
  /-- There is no space exactly when fewer blocks are free than the chain lacks. -/
  refused : ∀ new mode,
    ((Session.write handle new mode).exec state.session state.image).1 = .error .outOfSpace
      ↔ blocks.length < blocksFor (mode.written old new file.cursor).length
        ∧ free < blocksFor (mode.written old new file.cursor).length - blocks.length
  /-- Otherwise the content becomes what the mode makes of it, with zeros after it in its chain. -/
  done : ∀ new mode,
    ¬(blocks.length < blocksFor (mode.written old new file.cursor).length
      ∧ free < blocksFor (mode.written old new file.cursor).length - blocks.length) →
    ∃ file' after blocks' free',
      (Session.write handle new mode).exec state.session state.image
        = (.ok new.length, state.session.withSlot handle (some file'), after)
      ∧ file'.path = file.path
      ∧ file'.record = file.record.withLength file'.record.length
      ∧ file'.record.length.toNat = (mode.written old new file.cursor).length
      ∧ file'.cursor = mode.cursorAfter old new file.cursor
      ∧ file'.dirty = true
      ∧ (Allocation.chain file.record.first.toNat).exec after = (.ok blocks', after)
      ∧ blocks'.length = blocksFor (mode.written old new file.cursor).length
      ∧ (blocks'.flatMap fun b => (after.block b).toList)
        = mode.written old new file.cursor
          ++ List.replicate (blocks'.length * blockSize
              - (mode.written old new file.cursor).length) 0
      ∧ Allocation.countFree.exec after = (.ok free', after)
      ∧ free' + blocks'.length = free + blocks.length

namespace Session

open SessionM

variable {session : Session} {image : Image} {handle : Handle} {file : OpenFile}

/-- Writing stores what the mode makes of the content, or it fails because too few blocks are
free. -/
theorem Coherent.exec_write_cases (h : session.Coherent image)
    (hfile : session.openFiles.get? handle = some file)
    (isFile : file.record.isDirectory = false) {old : Bytes}
    (hold : image.contentOf file.record.first.toNat file.record.length.toNat = old)
    {blocks : List Nat} (hblocks : image.blocksOf file.record.first.toNat = blocks)
    (new : Bytes) (mode : WriteMode) :
  (image.table.countFree < blocksFor (mode.written old new file.cursor).length - blocks.length
      ∧ (write handle new mode).exec session image = (.error .outOfSpace, session, image))
    ∨ ∃ after stored, (write handle new mode).exec session image
        = (.ok new.length, session.withSlot handle (some (file.afterWriting old new mode)), after)
      ∧ image.Stored after file.record.first.toNat blocks stored
          (mode.written old new file.cursor)
  := by
  obtain ⟨hchain, span⟩ := h.chain_of_open hfile isFile
  have low := (h.isChain_of_open hfile).2
  have above (b : Nat) : image.table[b]? = some .free → reservedSpan ≤ b :=
    h.sound.partitioned.reservedSpan_le_of_free
  rw [hblocks] at hchain span low
  have hopen := exec_openFile session image handle
  rw [OpenTable.get_eq_ok.mpr hfile] at hopen
  have hwrite := OpenFile.exec_write_eq_store hchain span isFile (h.cursor_le hfile) hold new mode
  rw [write, exec_bind_of_ok hopen]
  by_cases enough : blocksFor (mode.written old new file.cursor).length - blocks.length
      ≤ image.table.countFree
  · obtain ⟨after, stored, hstore, hstored⟩ :=
      OpenFile.exec_store hchain h.sound.mirrored low _ above enough
    rw [DiskM.exec_bind_of_ok hstore, DiskM.exec_pure] at hwrite
    refine .inr ⟨after, stored, ?_, hstored⟩
    rw [exec_bind_of_ok (exec_lift_of_eq hwrite), exec_bind_of_ok (exec_putBack _ _), exec_pure]
    rfl
  · have lack := Nat.not_le.mp enough
    rw [DiskM.exec_bind_of_error (OpenFile.exec_store_of_lt hchain _ lack)] at hwrite
    exact .inl ⟨lack, exec_bind_of_error (exec_lift_of_eq hwrite)⟩

/-- Writing stores what the mode makes of the content of a file, or it fails and changes nothing. -/
theorem Coherent.write_cases (h : session.Coherent image) (handle : Handle) (new : Bytes)
    (mode : WriteMode) :
  (∃ error, (write handle new mode).exec session image = (.error error, session, image))
    ∨ ∃ file old after stored, session.openFiles.get? handle = some file
        ∧ file.record.isDirectory = false
        ∧ (write handle new mode).exec session image
          = (.ok new.length, session.withSlot handle (some (file.afterWriting old new mode)), after)
        ∧ image.Stored after file.record.first.toNat (image.blocksOf file.record.first.toNat) stored
            (mode.written old new file.cursor)
  := by
  have hopen := exec_openFile session image handle
  cases hget : session.openFiles.get handle with
  | error error =>
      rw [hget] at hopen
      exact .inl ⟨error, exec_bind_of_error hopen⟩
  | ok file =>
      have hfile := OpenTable.get_eq_ok.mp hget
      cases isFile : file.record.isDirectory with
      | true =>
          rw [hget] at hopen
          refine .inl ⟨.notFile, ?_⟩
          rw [write, exec_bind_of_ok hopen]
          exact exec_bind_of_error
            (exec_lift_of_eq (OpenFile.exec_write_of_isDirectory isFile))
      | false =>
          rcases h.exec_write_cases hfile isFile rfl rfl new mode with
            ⟨-, hwrite⟩ | ⟨after, stored, hwrite, hstored⟩
          · exact .inl ⟨_, hwrite⟩
          · exact .inr ⟨file, _, after, stored, hfile, isFile, hwrite, hstored⟩

end Session

/-- Writing does to every open file what its mode says. -/
theorem State.Coherent.writesTo {state : State} (h : state.Coherent) {handle : Handle}
    {file : OpenFile} (hfile : state.session.openFiles.get? handle = some file)
    (isFile : file.record.isDirectory = false) :
  ∃ old blocks free, state.WritesTo handle file old blocks free
  := by
  obtain ⟨hchain, span⟩ := Session.Coherent.chain_of_open h hfile isFile
  have cases := Session.Coherent.exec_write_cases h hfile isFile rfl rfl
  refine ⟨state.image.contentOf file.record.first.toNat file.record.length.toNat,
    state.image.blocksOf file.record.first.toNat, state.image.table.countFree,
    Allocation.exec_chain_of_isChain hchain, rfl, Image.length_contentOf span.ge,
    Allocation.exec_countFree, ?_, ?_⟩
  · intro new mode
    constructor
    · intro failed
      rcases cases new mode with ⟨lack, -⟩ | ⟨after, stored, hwrite, -⟩
      · exact ⟨by omega, lack⟩
      · simp [hwrite] at failed
    · rintro ⟨-, lack⟩
      rcases cases new mode with ⟨-, hwrite⟩ | ⟨after, stored, hwrite, hstored⟩
      · rw [hwrite]
      · -- The chain that was stored takes no more than its own blocks and those that were free.
        have := hstored.countFree_add_length hchain
        have := hstored.length
        omega
  · intro new mode room
    rcases cases new mode with ⟨lack, -⟩ | ⟨after, stored, hwrite, hstored⟩
    · exact (room ⟨by omega, lack⟩).elim
    · have new_length := OpenFile.toNat_ofNat_of_blocksFor_le (hstored.length.symm.trans_le
        (Image.length_table after ▸ hstored.isChain.length_le))
      exact ⟨_, after, stored, after.table.countFree, hwrite, rfl, rfl, new_length, rfl, rfl,
        Allocation.exec_chain_of_isChain hstored.isChain, hstored.length, hstored.flatMap_block,
        Allocation.exec_countFree, hstored.countFree_add_length hchain⟩

/-- A session begins by formatting any disk, or by mounting a volume that checks.  In every state
that it reaches, writing does to every open file what its mode says. -/
theorem writes_throughout (clock : Timestamp) (image : Image) :
  (∃ start : State, (Session.format clock).exec image = (.ok start.session, start.image)
      ∧ ∀ history handle file, (start.run history).session.openFiles.get? handle = some file →
          file.record.isDirectory = false →
          ∃ old blocks free, (start.run history).WritesTo handle file old blocks free)
    ∧ ∀ (start : State) (usage : Usage) (after : Image),
        (Session.mount clock).exec image = (.ok start.session, start.image) →
        Session.check.exec start.session start.image = (.ok usage, start.session, after) →
        ∀ history handle file, (start.run history).session.openFiles.get? handle = some file →
          file.record.isDirectory = false →
          ∃ old blocks free, (start.run history).WritesTo handle file old blocks free
  := by
  constructor
  · obtain ⟨start, hformat, throughout⟩ := exists_formatted clock image
    refine ⟨start, hformat, ?_⟩
    intro history handle file hfile isFile
    exact (throughout history).1.writesTo hfile isFile
  · intro start usage after hmount hcheck history handle file hfile isFile
    have coherent : start.Coherent := Session.coherent_of_mount hmount hcheck
    exact (coherent.run history).writesTo hfile isFile

/-- A file that was created on an empty disk that was formatted and mounted can be written to. -/
theorem writes_throughout_created :
  ∃ (start : State) (usage : Usage) (history : List Step) (handle : Handle) (file : OpenFile),
    (Session.mount default).exec start.image = (.ok start.session, start.image)
    ∧ Session.check.exec start.session start.image = (.ok usage, start.session, start.image)
    ∧ (start.run history).session.openFiles.get? handle = some file
    ∧ file.record.isDirectory = false
    ∧ ∃ old blocks free, (start.run history).WritesTo handle file old blocks free
  := by
  have normal : Path.Normal ["a"] := by decide
  have hsplit : Name.split "a" .file = .ok (['a'], []) := by decide
  obtain ⟨image, hformat, fresh⟩ := Volume.exec_format default .zero
  obtain ⟨session, hmount, coherent, -, openFiles⟩ :=
    Session.exec_mount default fresh.isValid_superblock fresh.sound
  obtain ⟨usage, hcheck⟩ := coherent.exec_check (Session.clean_of_ofRoot openFiles)
  obtain ⟨⟨session', image'⟩, e, hstart, -, held, hkind⟩ :=
    exists_opened default .zero normal hsplit
  rw [Session.format, DiskM.exec_bind_of_ok hformat, hmount] at hstart
  obtain ⟨rfl, rfl⟩ : session = session' ∧ image = image' := by simpa using hstart
  have isFile : e.record.isDirectory = false := by simp [Record.isDirectory, hkind]
  have throughout := (writes_throughout default image).2 ⟨session, image⟩ usage image hmount hcheck
  have writes := throughout _ _ _ held isFile
  exact ⟨⟨session, image⟩, usage, _, 1, _, hmount, hcheck, held, isFile, writes⟩

/-! ### A file of one byte -/

/-- A file to which nothing but a byte was written. -/
structure OpenFile.HoldsByte (file : OpenFile) (path : String) : Prop where
  isFile : file.record.isDirectory = false
  path_eq : file.path = path
  cursor_eq : file.cursor = 1
  length_eq : file.record.length.toNat = 1
  dirty : file.dirty = true

/-- Writing a byte over the content of an open file leaves that byte, and the other open files stay
as they are. -/
theorem State.Coherent.exists_holdsByte {state : State} (h : state.Coherent) {handle : Handle}
    {file : OpenFile} (hfile : state.session.openFiles.get? handle = some file)
    (isFile : file.record.isDirectory = false) (b : UInt8) (now : Timestamp) :
  ∃ written,
    (Step.next ⟨.write handle [b] .overwrite, now⟩ state).session.openFiles
      = state.session.openFiles.set handle (some written)
    ∧ written.HoldsByte file.path
  := by
  have later : Session.Coherent (state.session.atTime now) state.image := h.at_time now
  have nonempty := (later.chain_of_open hfile isFile).1.length_pos
  have one : blocksFor (WriteMode.overwrite.written
      (state.image.contentOf file.record.first.toNat file.record.length.toNat) [b]
      file.cursor).length = 1 := by
    simp [WriteMode.written, blocksFor]
  rcases later.exec_write_cases hfile isFile rfl rfl [b] .overwrite with
    ⟨lack, -⟩ | ⟨after, stored, hwrite, -⟩
  · omega
  · have hstep : Step.exec ⟨.write handle [b] .overwrite, now⟩ state = _ :=
      SessionM.exec_bind_of_ok hwrite
    rw [Step.next_of_exec hstep]
    exact ⟨_, rfl, isFile, rfl, rfl, rfl, rfl⟩

/-- On an empty disk that was formatted a file is created, opened and written to. -/
theorem exists_written :
  ∃ (start : State) (history : List Step) (file : OpenFile),
    (Session.format default).exec .zero = (.ok start.session, start.image)
    ∧ history = [⟨.createFile "/a", default⟩, ⟨.openPath "/a", default⟩,
      ⟨.write 1 [0x61] .overwrite, default⟩]
    ∧ (start.run history).Coherent
    ∧ (start.run history).session.openFiles.get? 1 = some file ∧ file.HoldsByte "/a"
  := by
  have normal : Path.Normal ["a"] := by decide
  have path : Path.render ["a"] = "/a" := by decide
  have hsplit : Name.split "a" .file = .ok (['a'], []) := by decide
  obtain ⟨start, e, hformat, -, held, hkind⟩ := exists_opened default .zero normal hsplit
  have coherent (history : List Step) : (start.run history).Coherent :=
    (flat_of_format hformat).1.coherent.run history
  rw [path, Operation.create] at held
  have isFile : e.record.isDirectory = false := by simp [Record.isDirectory, hkind]
  let opening : List Step := [⟨.createFile "/a", default⟩, ⟨.openPath "/a", default⟩]
  let writing : List Step := [⟨.write 1 [0x61] .overwrite, default⟩]
  obtain ⟨file, hfile, holds⟩ := (coherent opening).exists_holdsByte held isFile 0x61 default
  have written : (start.run (opening ++ writing)).session.openFiles.get? 1 = some file := by
    rw [State.run_append]
    change (Step.next _ _).session.openFiles.get? 1 = _
    rw [hfile, OpenTable.get?_set_self _ (by decide)]
  exact ⟨_, opening ++ writing, file, hformat, rfl, coherent _, written, holds⟩

/-- Two files are created, opened and written to. -/
theorem exists_written_two :
  ∃ (start : State) (history : List Step) (first second : OpenFile),
    (Session.format default).exec .zero = (.ok start.session, start.image)
    ∧ history = [⟨.createFile "/a", default⟩, ⟨.createFile "/b", default⟩,
      ⟨.openPath "/a", default⟩, ⟨.openPath "/b", default⟩,
      ⟨.write 1 [0x61] .overwrite, default⟩, ⟨.write 2 [0x62] .overwrite, default⟩]
    ∧ (start.run history).Coherent
    ∧ (start.run history).session.openFiles.get? 1 = some first ∧ first.HoldsByte "/a"
    ∧ (start.run history).session.openFiles.get? 2 = some second ∧ second.HoldsByte "/b"
  := by
  have path : Path.render ["a"] = "/a" := by decide
  have path' : Path.render ["b"] = "/b" := by decide
  have hsplit : Name.split "a" .file = .ok (['a'], []) := by decide
  have hsplit' : Name.split "b" .file = .ok (['b'], []) := by decide
  obtain ⟨start, opening, e, e', hformat, hopening, held, held', hkind, hkind'⟩ :=
    exists_opened_two default .zero (by decide) hsplit (by decide) hsplit' (by decide)
  have coherent (history : List Step) : (start.run history).Coherent :=
    (flat_of_format hformat).1.coherent.run history
  rw [path, path', Operation.create] at hopening
  rw [path] at held
  rw [path'] at held'
  have isFile : e.record.isDirectory = false := by simp [Record.isDirectory, hkind]
  have isFile' : e'.record.isDirectory = false := by simp [Record.isDirectory, hkind']
  let write : Step := ⟨.write 1 [0x61] .overwrite, default⟩
  let write' : Step := ⟨.write 2 [0x62] .overwrite, default⟩
  obtain ⟨first, hfirst, holds⟩ := (coherent opening).exists_holdsByte held isFile 0x61 default
  have middle : (Step.next write (start.run opening)).Coherent := by
    have := coherent (opening ++ [write])
    rwa [State.run_append] at this
  rw [← OpenTable.get?_set_of_ne _ (show 1 ≠ 2 by decide) (some first), ← hfirst] at held'
  obtain ⟨second, hsecond, holds'⟩ := middle.exists_holdsByte held' isFile' 0x62 default
  have openFiles : (start.run (opening ++ [write, write'])).session.openFiles
      = ((start.run opening).session.openFiles.set 1 (some first)).set 2 (some second) := by
    rw [State.run_append]
    exact hsecond.trans (by rw [hfirst])
  refine ⟨start, opening ++ [write, write'], first, second, hformat, by rw [hopening]; rfl,
    coherent _, ?_, holds, ?_, holds'⟩
  · rw [openFiles, OpenTable.get?_set_of_ne _ (by decide), OpenTable.get?_set_self _ (by decide)]
  · rw [openFiles, OpenTable.get?_set_self _ (by decide)]

end FatVolume
