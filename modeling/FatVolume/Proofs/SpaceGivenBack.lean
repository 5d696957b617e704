import FatVolume.Proofs.AgreeingChanges
import FatVolume.Proofs.BlankSlots
import FatVolume.Proofs.ChainOperations
import FatVolume.Proofs.PathLaws

/-!
# Space is given back

A new entry takes a blank slot and a free block.  Removing it leaves the slot blank and the block
free, so that nothing on the disk tells of it but what stands in that block.  A file gains blocks at
the end of its chain and loses them there.  Therefore a file that grew and gets its old content again
has its old chain, and the table is what it was.
-/

namespace FatVolume

/-! ### Creating and removing again -/

/-- An entry of the table that is taken and released is free again. -/
theorem Table.release_set_last {table : Table} {b : Nat} (free : table[b]? = some .free) :
  release [b] (table.set b .last) = table
  := by
  apply release_linkRun Nat.one_pos
  intro c low high
  obtain rfl : c = b := by omega
  exact free

namespace Image

variable {image after : Image} {root : UInt16} {lengths : List String → Option Nat}
  {names : List String} {name : String} {d e : Entry} {now : Timestamp} {kind : Kind}

/-- Creating an entry keeps the bytes of the other slots in the block with its slot. -/
theorem bytesAt_created {parent record : Record} {place other : Location}
    (inside : record.first.toNat < numBlocks) (hblock : place.block < numBlocks)
    (low : rootStart ≤ place.block) (hslot : place.slot < slotsPerBlock)
    (differs : record.first.toNat ≠ place.block) (hother : other.block = place.block)
    (hne : other ≠ place) :
  (image.created now parent record place).bytesAt other = image.bytesAt other
  := by
  have edit := image.retabled_withEntry inside .last rfl
  rw [created, bytesAt_withRecord _ hblock hslot, if_neg hne]
  apply bytesAt_congr
  rw [hother]
  split_ifs
  · rw [block_withDots_of_ne _ _ _ differs.symm, block_setIfInBounds_of_ne _ differs,
      edit.block_of_le low]
  · rw [block_setIfInBounds_of_ne _ differs, edit.block_of_le low]

/-- Removing a new entry leaves nothing of it but the content of its block. -/
theorem Tidy.block_eq_of_removed (tidy : image.Tidy root) (sound : image.Sound root lengths)
    (hd : image.find? root names = some d) (hdir : d.record.isDirectory = true)
    (hcreation : Directory.creation image now d.record.first.toNat name kind = .ok e)
    (edit : Retabled ((image.created now d.record e.record e.location).withRecord e.location .blank)
      after (Table.release [e.record.first.toNat])) {b : Nat} (hb : b ≠ e.record.first.toNat) :
  after.block b = image.block b
  := by
  have free := Directory.free_of_creation hcreation
  have above := sound.partitioned.reservedSpan_le_of_free free
  obtain ⟨hblock, hslot, unoccupied, inside, differs⟩ :=
    Directory.place_of_creation sound hd hcreation
  have place_inside := lt_of_mem_blocksOf hblock
  have low := sound.above hd _ hblock
  have created {b : Nat} (outside : ¬(tableStart ≤ b ∧ b < rootStart))
      (hfirst : b ≠ e.record.first.toNat) (hplace : b ≠ e.location.block) :=
    image.block_created_of_ne now d.record e.record e.location inside outside hfirst hplace
  by_cases reserved : b < rootStart
  · -- The superblock is not touched, and both copies of the table are what they were.
    have taken := image.table_created now d.record e.record e.location inside above low
    have blanked := table_withRecord (image.created now d.record e.record e.location) low .blank
    refine sameReserved_of_eq ?_ ?_ ?_ b reserved
    · rw [edit.block superblockAt (by decide), block_withRecord_of_ne _ _ (superblockAt_ne low),
        created (by decide) (superblockAt_ne above) (superblockAt_ne low)]
    · rw [edit.table, blanked.1, taken.1, Table.release_set_last free]
    · rw [edit.mirror, blanked.2, taken.2, sound.mirrored, Table.release_set_last free]
  · have high : rootStart ≤ b := Nat.not_lt.mp reserved
    rw [edit.block_of_le high]
    by_cases here : b = e.location.block
    · -- The slot was blank before, and the others in the block are not touched.
      subst here
      apply block_eq_of_bytesAt
      intro slot hslot'
      rw [bytesAt_withRecord _ place_inside hslot]
      split_ifs with same
      · rw [same, tidy.blanked hd hdir _ hblock _ hslot unoccupied]
      · exact bytesAt_created inside place_inside low hslot differs rfl same
    · rw [block_withRecord_of_ne _ _ here, created (notTable_of_le high) hb here]

end Image

/-! ### Growing and shrinking again -/

/-- A chain that grew and shrank to its old length is the old chain, and the table is what it was. -/
theorem Image.Stored.table_eq {image middle after : Image} {first : Nat}
    {blocks stored stored' : List Nat} {content content' : Bytes}
    (h : image.Stored middle first blocks stored content)
    (h' : middle.Stored after first stored stored' content')
    (hchain : image.table.IsChain first blocks) (longer : blocks.length ≤ stored.length)
    (back : stored'.length = blocks.length) :
  after.table = image.table
  := by
  have grown : blocks <+: stored := by
    rcases h.comparable with shorter | grown
    · rw [shorter.eq_of_length_le longer]
    · exact grown
  have shrunk : stored' <+: stored := by
    rcases h'.comparable with shrunk | longer'
    · exact shrunk
    · rw [longer'.eq_of_length_le (by rw [back]; exact longer)]
  obtain rfl : stored' = blocks :=
    (List.prefix_of_prefix_length_le shrunk grown back.le).eq_of_length back
  apply List.ext_getElem?
  intro b
  by_cases old : b ∈ stored'
  · exact hchain.getElem?_eq h'.isChain b old
  · by_cases gained : b ∈ stored
    · rw [h'.released b gained old, h.fresh b gained old]
    · rw [h'.untouched b gained old, h.untouched b old gained]

/-! ### Steps -/

namespace State

variable {state : State}

/-- Space that a step takes is given back exactly by the step that undoes it. -/
structure GivesSpaceBack (state : State) : Prop where
  /-- An entry that was just created can be removed.  Then every block is what it was but one, which
  was free and is free again. -/
  removed : ∀ path, Path.IsNormal path → ∀ kind now now' answer,
    Step.result ⟨.create path kind, now⟩ state = .ok answer →
    ∃ after b,
      Step.exec ⟨.remove path kind, now'⟩ (Step.next ⟨.create path kind, now⟩ state)
          = (.ok .done, state.session.atTime now', after)
        ∧ dataStart ≤ b ∧ state.image.table[b]? = some .free ∧ after.table[b]? = some .free
        ∧ ∀ other, other ≠ b → after.block other = state.image.block other
  /-- A file to which something was appended can get its old content again.  Then both copies of the
  table are what they were. -/
  restored : ∀ handle file, state.session.openFiles.get? handle = some file →
    file.record.isDirectory = false →
    ∃ old, (∀ now, Step.result ⟨.readAll handle, now⟩ state = .ok (.bytes old))
      ∧ ∀ new now now' answer,
        Step.result ⟨.write handle new .append, now⟩ state = .ok answer →
        ∃ session' after,
          Step.exec ⟨.write handle old .overwrite, now'⟩
              (Step.next ⟨.write handle new .append, now⟩ state)
            = (.ok (.written old.length), session', after)
          ∧ ∀ b, tableStart ≤ b → b < rootStart → after.block b = state.image.block b

namespace Coherent

variable (h : state.Coherent)
include h

/-- Nothing is open at or below a path that leads nowhere. -/
theorem isBusy_eq_false {path : String}
    (absent : state.image.find? state.session.superblock.root (state.session.target path) = none) :
  state.session.openFiles.isBusy (state.session.absolute path) = false
  := by
  obtain ⟨absolute, normal⟩ := Session.Tracking.absolute_eq h.toTracking path
  rw [absolute, OpenTable.isBusy_eq_false_iff normal h.exists_path_of_get?]
  rintro handle file hfile ⟨more, below⟩
  obtain ⟨names, e, hnames, hpath, he, -⟩ := h.tracks hfile
  rw [hpath, hnames.segments_render] at below
  rw [← below, Image.find?_append_of_eq_none absent] at he
  cases he

/-- An entry that was just created can be removed, and nothing is left of it but the content of its
block. -/
theorem exec_remove_of_created (tidy : state.Tidy) {path : String} {kind : Kind} (now : Timestamp)
    (named : Path.endsInDot path = false) {now' : Timestamp} {d e : Entry}
    (hcreating : (state.session.atTime now').creating state.image path kind = .ok (d, e)) :
  ∃ after, Step.exec ⟨.remove path kind, now⟩ (Step.next ⟨.create path kind, now'⟩ state)
      = (.ok .done, state.session.atTime now, after)
    ∧ state.image.table[e.record.first.toNat]? = some .free
    ∧ ∀ b, b ≠ e.record.first.toNat → after.block b = state.image.block b
  := by
  have sound : state.image.Sound _ _ := Session.Coherent.sound h
  obtain ⟨names, name, target, hd, hdir, hcreation⟩ :
      ∃ names name, state.session.target path = names ++ [name]
        ∧ state.image.find? state.session.superblock.root names = some d
        ∧ d.record.isDirectory = true
        ∧ Directory.creation state.image now' d.record.first.toNat name kind = .ok e :=
    (Session.creating_eq_ok_iff (h.at_time now').toTracking).mp hcreating
  have hcreate := h.exec_create_created path kind now'
  rw [hcreating] at hcreate
  have coherent := (h.change ⟨.create path kind, now'⟩).1
  rw [Step.next_of_exec hcreate] at coherent ⊢
  have replaced := Directory.replaced_created sound hd hdir hcreation
  have he := replaced.find?_self sound
  have hkind := (Directory.record_of_creation hcreation).1
  have removing : (state.session.atTime now').removing
      (state.image.created now' d.record e.record e.location) path kind = .ok e := by
    have named' : state.session.target path ≠ [] := by simp [target]
    have idle := h.isBusy_eq_false
      (target ▸ Directory.find?_eq_none_of_creation hd hdir hcreation)
    refine (Session.removing_eq_ok_iff coherent).mpr
      ⟨named, named', target.symm ▸ he, hkind, idle, ?_⟩
    rintro rfl
    exact replaced.childless_new e rfl (by simp [Record.isDirectory, hkind])
  have sound' : Image.Sound (state.image.created now' d.record e.record e.location) _ _ :=
    coherent.sound
  obtain ⟨after, hexec, edit⟩ := Directory.exec_remove_retabled sound' he
  have hremove := coherent.exec_remove_removed path kind now
  rw [removing] at hremove
  dsimp only at hremove
  rw [hexec] at hremove
  rw [Image.blocksOf_eq (Directory.isChain_created sound hd hcreation)] at edit
  refine ⟨after, hremove, Directory.free_of_creation hcreation, ?_⟩
  intro b hb
  exact Image.Tidy.block_eq_of_removed tidy sound hd hdir hcreation edit hb

/-- A file to which something was appended gets its old content again, and the table is what it
was. -/
theorem exec_overwrite_of_appended {handle : Handle} {file : OpenFile}
    (hfile : state.session.openFiles.get? handle = some file)
    (isFile : file.record.isDirectory = false) {old : Bytes}
    (hold : state.image.contentOf file.record.first.toNat file.record.length.toNat = old)
    {new : Bytes} {now : Timestamp} {answer : Answer}
    (appended : Step.result ⟨.write handle new .append, now⟩ state = .ok answer)
    (now' : Timestamp) :
  ∃ session' after, Step.exec ⟨.write handle old .overwrite, now'⟩
        (Step.next ⟨.write handle new .append, now⟩ state)
      = (.ok (.written old.length), session', after)
    ∧ after.table = state.image.table ∧ after.mirror = state.image.mirror
  := by
  have later : Session.Coherent (state.session.atTime now) state.image := h.at_time now
  obtain ⟨hchain, span⟩ := later.chain_of_open hfile isFile
  have old_length : old.length = file.record.length.toNat := by
    rw [← hold, Image.length_contentOf span.ge]
  rcases later.exec_write_cases hfile isFile hold rfl new .append with
    ⟨-, hwrite⟩ | ⟨middle, stored, hwrite, hstored⟩
  · have hstep : Step.exec ⟨.write handle new .append, now⟩ state = _ :=
      SessionM.exec_bind_of_error hwrite
    rw [Step.result_of_exec hstep] at appended
    cases appended
  have hstep : Step.exec ⟨.write handle new .append, now⟩ state = _ :=
    SessionM.exec_bind_of_ok hwrite
  rw [SessionM.exec_pure] at hstep
  have coherent := (h.change ⟨.write handle new .append, now⟩).1
  rw [Step.next_of_exec hstep] at coherent ⊢
  have later' : Session.Coherent _ middle := coherent.at_time now'
  have hfile' := OpenTable.get?_set_self state.session.openFiles (OpenTable.lt_of_get? hfile)
    (some (file.afterWriting old new .append))
  -- The chain is long enough for what it held before.
  have longer : blocksFor old.length ≤ stored.length := by
    rw [hstored.length]
    apply blocksFor_mono
    simp [WriteMode.written]
  rcases later'.exec_write_cases hfile' isFile rfl (Image.blocksOf_eq hstored.isChain) old .overwrite
    with ⟨lack, -⟩ | ⟨after, stored', hwrite', hstored'⟩
  · have needed : blocksFor old.length - stored.length = 0 := Nat.sub_eq_zero_of_le longer
    change _ < blocksFor old.length - stored.length at lack
    rw [needed] at lack
    exact (Nat.not_lt_zero _ lack).elim
  have hstep' : Step.exec ⟨.write handle old .overwrite, now'⟩ _ = _ :=
    SessionM.exec_bind_of_ok hwrite'
  rw [SessionM.exec_pure] at hstep'
  rw [← old_length] at span
  have table := hstored.table_eq hstored' hchain (span ▸ longer) (hstored'.length.trans span.symm)
  have mirror : after.mirror = state.image.mirror := by
    rw [hstored'.mirrored, table, Session.Coherent.sound h |>.mirrored]
  exact ⟨_, after, hstep', table, mirror⟩

theorem givesSpaceBack (tidy : state.Tidy) :
  state.GivesSpaceBack
  := by
  constructor
  · intro path normal kind now now' answer created
    obtain ⟨d, e, hcreating, -⟩ := h.creating_of_created created
    obtain ⟨after, hremove, free, same⟩ :=
      h.exec_remove_of_created tidy now' normal.endsInDot_eq_false hcreating
    have above := Image.Tidy.dataStart_le_of_free tidy (Session.Coherent.sound h) free
    refine ⟨after, _, hremove, above, free, ?_, same⟩
    have table : after.table = state.image.table := by
      refine (Image.table_congr fun b hb => same b ?_).1
      exact Nat.ne_of_lt (Nat.lt_of_lt_of_le hb (Nat.le_trans (by decide) above))
    rw [table]
    exact free
  · intro handle file hfile isFile
    refine ⟨state.image.contentOf file.record.first.toNat file.record.length.toNat, ?_, ?_⟩
    · intro now
      obtain ⟨session', hread⟩ := Session.Coherent.exec_readAll (h.at_time now) hfile isFile
      exact Step.result_of_exec (SessionM.exec_bind_of_ok hread)
    · intro new now now' answer appended
      obtain ⟨session', after, hwrite, table, mirror⟩ :=
        h.exec_overwrite_of_appended hfile isFile rfl appended now'
      exact ⟨session', after, hwrite, fun b => Image.block_eq_of_table_eq table mirror⟩

end Coherent

end State

/-- A session begins by formatting any disk.  In every state that it reaches space is given back
exactly. -/
theorem space_given_back_throughout (clock : Timestamp) (image : Image) :
  ∃ start : State, (Session.format clock).exec image = (.ok start.session, start.image)
    ∧ ∀ history, (start.run history).GivesSpaceBack
  := by
  obtain ⟨start, hformat, throughout⟩ := exists_formatted_tidy clock image
  refine ⟨start, hformat, fun history => ?_⟩
  obtain ⟨coherent, tidy⟩ := throughout history
  exact coherent.givesSpaceBack tidy

/-- A second byte fits into the block of the first one. -/
theorem State.Coherent.result_append_byte {state : State} (h : state.Coherent) {handle : Handle}
    {file : OpenFile} {path : String}
    (hfile : state.session.openFiles.get? handle = some file) (holds : file.HoldsByte path)
    (b : UInt8) (now : Timestamp) :
  Step.result ⟨.write handle [b] .append, now⟩ state = .ok (.written 1)
  := by
  have later : Session.Coherent (state.session.atTime now) state.image := h.at_time now
  obtain ⟨hchain, span⟩ := later.chain_of_open hfile holds.isFile
  rcases later.exec_write_cases hfile holds.isFile rfl rfl [b] .append with
    ⟨lack, -⟩ | ⟨after, stored, hwrite, -⟩
  · have two : (WriteMode.append.written (state.image.contentOf file.record.first.toNat
        file.record.length.toNat) [b] file.cursor).length = 2 := by
      rw [WriteMode.written, List.length_append, Image.length_contentOf span.ge, holds.length_eq]
      rfl
    have one : blocksFor 2 = 1 := rfl
    have := hchain.length_pos
    rw [two, one] at lack
    omega
  · exact Step.result_of_exec (SessionM.exec_bind_of_ok hwrite)

/-- On an empty disk that was formatted a file is created, and removed again.  A file to which a byte
was written gets another byte, and its old content again. -/
theorem space_given_back_throughout_file :
  ∃ (start : State) (history : List Step) (old : Bytes) (entry : Entry) (session : Session)
      (emptied restored : Image) (b : Nat),
    (Session.format default).exec .zero = (.ok start.session, start.image)
    ∧ Path.IsNormal "/a"
    ∧ Step.result ⟨.create "/a" .file, default⟩ start = .ok (.entry entry)
    ∧ Step.exec ⟨.remove "/a" .file, default⟩ (Step.next ⟨.create "/a" .file, default⟩ start)
      = (.ok .done, start.session.atTime default, emptied)
    ∧ dataStart ≤ b ∧ (∀ other, other ≠ b → emptied.block other = start.image.block other)
    ∧ history = [⟨.createFile "/a", default⟩, ⟨.openPath "/a", default⟩,
      ⟨.write 1 [0x61] .overwrite, default⟩]
    ∧ Step.result ⟨.readAll 1, default⟩ (start.run history) = .ok (.bytes old)
    ∧ Step.result ⟨.write 1 [0x62] .append, default⟩ (start.run history) = .ok (.written 1)
    ∧ Step.exec ⟨.write 1 old .overwrite, default⟩
        (Step.next ⟨.write 1 [0x62] .append, default⟩ (start.run history))
      = (.ok (.written old.length), session, restored)
    ∧ ∀ b, tableStart ≤ b → b < rootStart →
        restored.block b = (start.run history).image.block b
  := by
  have normal : Path.IsNormal "/a" := by decide
  have path : Path.render ["a"] = "/a" := by decide
  have hsplit : Name.split "a" .file = .ok (['a'], []) := by decide
  obtain ⟨⟨begun, disk⟩, history, file, hformat, hhistory, coherent, hfile, holds⟩ :=
    exists_written
  obtain ⟨⟨begun', disk'⟩, hformat', throughout⟩ := space_given_back_throughout default .zero
  obtain ⟨rfl, rfl⟩ : begun = begun' ∧ disk = disk' := by
    simpa using hformat.symm.trans hformat'
  obtain ⟨entry, created⟩ := exists_created hformat (by decide) hsplit default
  rw [path] at created
  obtain ⟨emptied, b, hremove, above, -, -, same⟩ :=
    (throughout []).removed "/a" normal .file default default _ created
  obtain ⟨old, hread, restores⟩ := (throughout history).restored 1 file hfile holds.isFile
  have appended := coherent.result_append_byte hfile holds 0x62 default
  obtain ⟨session, restored, hwrite, blocks⟩ := restores [0x62] default default _ appended
  exact ⟨⟨begun, disk⟩, history, old, entry, session, emptied, restored, b, hformat, normal, created,
    hremove, above, same, hhistory, hread default, appended, hwrite, blocks⟩

end FatVolume
