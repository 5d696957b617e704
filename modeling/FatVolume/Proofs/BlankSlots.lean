import FatVolume.Proofs.ClosingOrder
import FatVolume.Proofs.SessionCalls

/-!
# Slots that are not occupied

A slot of a directory that is not occupied holds zeros: formatting and creating a directory empty its
blocks, removing an entry puts a blank record into its slot, and all other records that are written
are occupied.  Of the operations that leave the tree as it is, none writes anything but the records
of marked files.
-/

namespace FatVolume

/-! ### Blocks with blank slots -/

namespace Image

variable {image after : Image} {b : Nat}

/-- The slots of a block that are not occupied hold the bytes of a blank record. -/
def Blanked (image : Image) (b : Nat) : Prop :=
  ∀ slot < slotsPerBlock, (image.entryAt ⟨b, slot⟩).record.occupied = false →
    image.bytesAt ⟨b, slot⟩ = Record.blank.toBytes

theorem bytesAt_congr {place : Location} (same : after.block place.block = image.block place.block) :
  after.bytesAt place = image.bytesAt place
  := by
  rw [bytesAt, bytesAt, same]

theorem Blanked.congr (h : image.Blanked b) (same : after.block b = image.block b) :
  after.Blanked b
  := by
  intro slot hslot unoccupied
  have entry : after.entryAt ⟨b, slot⟩ = image.entryAt ⟨b, slot⟩ := entryAt_congr same
  rw [entry] at unoccupied
  rw [bytesAt_congr same]
  exact h slot hslot unoccupied

/-- An empty block has nothing but blank slots. -/
theorem blanked_of_zero (zero : image.block b = .zero) :
  image.Blanked b
  := by
  intro slot hslot _
  have bytes : Record.blank.toBytes = List.replicate recordSize 0 := by decide
  have within : recordSize ≤ blockSize - slot * recordSize := by
    unfold slotsPerBlock at hslot
    unfold blockSize recordSize at *
    omega
  rw [bytesAt, zero, bytes, Block.slice, Block.zero, Vector.toList_replicate, List.drop_replicate,
    List.take_replicate, Nat.min_eq_left within]

section Records

variable {place : Location} (hblock : place.block < numBlocks) (hslot : place.slot < slotsPerBlock)
  {record : Record}
include hblock hslot

/-- A record that is occupied or blank leaves no other slots than before. -/
theorem Blanked.withRecord (h : image.Blanked b)
    (blank : record.occupied = false → record = .blank) :
  (image.withRecord place record).Blanked b
  := by
  intro slot hslot' unoccupied
  rw [entryAt_withRecord image hblock hslot] at unoccupied
  rw [bytesAt_withRecord image hblock hslot]
  split_ifs at unoccupied ⊢
  · rw [blank unoccupied]
  · exact h slot hslot' unoccupied

theorem Blanked.withOccupied (h : image.Blanked b) (occupied : record.occupied = true) :
  (image.withRecord place record).Blanked b
  := h.withRecord hblock hslot (by simp [occupied])

end Records

theorem Blanked.withRecords (h : image.Blanked b) {writes : List (Location × Record)}
    (inside : ∀ w ∈ writes, w.1.block < numBlocks ∧ w.1.slot < slotsPerBlock)
    (occupied : ∀ w ∈ writes, w.2.occupied = true) :
  (image.withRecords writes).Blanked b
  := by
  induction writes generalizing image with
  | nil => exact h
  | cons w rest ih =>
      obtain ⟨hw, inside⟩ := List.forall_mem_cons.mp inside
      obtain ⟨first, occupied⟩ := List.forall_mem_cons.mp occupied
      exact ih (h.withOccupied hw.1 hw.2 first) inside occupied

/-- A directory begins with blank slots after its first two. -/
theorem Blanked.withDots {first : Nat} (h : image.Blanked b) (inside : first < numBlocks)
    {self up : Record} (hself : self.occupied = true) (hup : up.occupied = true) :
  (image.withDots first self up).Blanked b
  := by
  have zero : 0 < slotsPerBlock := by decide
  have one : 1 < slotsPerBlock := by decide
  have begun : (image.withRecord ⟨first, 0⟩ self).Blanked b := h.withOccupied inside zero hself
  exact begun.withOccupied inside one hup

/-! ### Directories with blank slots -/

/-- The slots of directories that are not occupied are blank.  The root directory fills the blocks
before those that belong to files and other directories. -/
structure Tidy (image : Image) (root : UInt16) : Prop where
  root_blocks : image.blocksOf root.toNat = [rootStart, rootStart + 1]
  blanked : ∀ {names d}, image.find? root names = some d → d.record.isDirectory = true →
    ∀ b ∈ image.blocksOf d.record.first.toNat, image.Blanked b

namespace Tidy

variable {root : UInt16} {lengths : List String → Option Nat} (tidy : image.Tidy root)
include tidy

/-- Free blocks come after those of the root directory. -/
theorem dataStart_le_of_free (sound : image.Sound root lengths)
    (free : image.table[b]? = some .free) :
  dataStart ≤ b
  := by
  have low := sound.partitioned.reservedSpan_le_of_free free
  have notRoot : b ∉ image.blocksOf root.toNat := fun hb =>
    sound.root_dots.isChain.ne_free hb free
  simp only [tidy.root_blocks, List.mem_cons, List.not_mem_nil, or_false, not_or] at notRoot
  unfold dataStart rootSpan
  unfold reservedSpan at low
  omega

/-- Slots stay blank when only the lengths of files change. -/
theorem of_relengthed (h : image.Relengthed after)
    (blanked : ∀ b, image.Blanked b → after.Blanked b) :
  after.Tidy root
  := by
  constructor
  · rw [blocksOf_congr h.table, tidy.root_blocks]
  · intro names d' hd' hdir b hb
    rw [h.find?] at hd'
    obtain ⟨d, hd, rfl⟩ := Option.map_eq_some_iff.mp hd'
    obtain ⟨length, hlength⟩ := h.exists_withLength (entryAt_of_find? hd)
    rw [hlength, Entry.withLength, Record.isDirectory_withLength] at hdir
    rw [hlength, Entry.withLength, Record.first_withLength, blocksOf_congr h.table] at hb
    exact blanked b (tidy.blanked hd hdir b hb)

/-- Slots stay blank when an entry is replaced, if they do in the block with its slot and are in
those of a new directory. -/
theorem of_replaced {names : List String} {name : String} {d : Entry} {place : Location}
    {new : Option Entry} (h : image.Replaced after root names name d place new)
    (sound : image.Sound root lengths) (here : after.Blanked place.block)
    (fresh : ∀ e, new = some e → e.record.isDirectory = true →
      ∀ b ∈ after.blocksOf e.record.first.toNat, after.Blanked b) :
  after.Tidy root
  := by
  constructor
  · have hroot := find?_nil image root
    have same := h.blocksOf_eq sound (by simp) hroot
    rw [(sound.standsFor_root hroot).2.2.2] at same
    rw [same, tidy.root_blocks]
  · intro path e he hdir b hb
    by_cases hpath : path = names ++ [name]
    · subst hpath
      rw [h.find?_self sound] at he
      exact fresh e he hdir b hb
    · rw [h.find?_of_ne sound hpath] at he
      rw [h.blocksOf_eq sound hpath he] at hb
      by_cases same : b = place.block
      · exact same ▸ here
      · obtain ⟨notOld, notNew⟩ := h.notMem sound hpath he hb
        exact (tidy.blanked he hdir b hb).congr
          (h.content b (sound.above he b hb) notOld notNew same)

end Tidy

/-- On a disk that was just formatted all slots but the first two of the root are blank. -/
theorem Prepared.tidy {prepared : Image} (h : prepared.Prepared) (now : Timestamp) :
  (prepared.withRoot now).Tidy rootBlock
  := by
  have fresh := h.fresh now
  have inside : rootStart < numBlocks := by decide
  constructor
  · exact fresh.blocksOf_root
  · intro names d hd _ b hb
    obtain ⟨-, rfl⟩ := fresh.find?_eq_some_iff.mp hd
    have first : ((prepared.withRoot now).entryAt ⟨rootStart, 0⟩).record.first.toNat
        = rootStart := by
      rw [fresh.self.2.2.2]
      rfl
    rw [first, fresh.blocksOf_root] at hb
    have zero : prepared.block b = .zero := by
      rcases List.mem_pair.mp hb with rfl | rfl
      · exact h.root.1
      · exact h.root.2
    exact (blanked_of_zero zero).withDots inside rfl rfl

end Image

/-! ### Creating, removing and writing -/

section

variable {image after : Image} {root : UInt16} {lengths : List String → Option Nat}
  {names : List String} {name : String} {d e : Entry} {now : Timestamp} {kind : Kind}

/-- A new entry gets a slot of the directory that is not occupied, and a block that is not one of the
directory. -/
theorem Directory.place_of_creation (sound : image.Sound root lengths)
    (hd : image.find? root names = some d)
    (hcreation : creation image now d.record.first.toNat name kind = .ok e) :
  e.location.block ∈ image.blocksOf d.record.first.toNat ∧ e.location.slot < slotsPerBlock
    ∧ (image.entryAt e.location).record.occupied = false
    ∧ e.record.first.toNat < numBlocks ∧ e.record.first.toNat ≠ e.location.block
  := by
  have free := free_of_creation hcreation
  obtain ⟨inside, -⟩ := List.getElem?_eq_some_iff.mp free
  rw [Image.length_table] at inside
  obtain ⟨base, extension, place, fresh, -, -, hplace, -, rfl⟩ := creation_eq_ok_iff.mp hcreation
  obtain ⟨hmem, unoccupied⟩ := Image.freeSlot_eq_some hplace
  obtain ⟨hblock, hslot⟩ := mem_places.mp hmem
  refine ⟨hblock, hslot, unoccupied, inside, ?_⟩
  intro same
  rw [same] at free
  exact (sound.isChain hd).ne_free hblock free

namespace Image.Tidy

variable (tidy : image.Tidy root) (sound : image.Sound root lengths)
include tidy sound

theorem created (hd : image.find? root names = some d) (hdir : d.record.isDirectory = true)
    (hcreation : Directory.creation image now d.record.first.toNat name kind = .ok e) :
  (image.created now d.record e.record e.location).Tidy root
  := by
  have replaced := Directory.replaced_created sound hd hdir hcreation
  have hchain := Directory.isChain_created sound hd hcreation
  obtain ⟨hblock, hslot, -, inside, differs⟩ := Directory.place_of_creation sound hd hcreation
  have occupied : e.record.occupied = true := replaced.holds_new.2
  -- Whatever is written after the block was emptied is occupied.
  have filled {b : Nat} (emptied : Blanked
      ((image.withEntry e.record.first.toNat .last).setIfInBounds e.record.first.toNat .zero) b) :
      (image.created now d.record e.record e.location).Blanked b := by
    unfold Image.created
    apply Blanked.withOccupied (lt_of_mem_blocksOf hblock) hslot _ occupied
    split_ifs
    · exact emptied.withDots inside rfl rfl
    · exact emptied
  apply tidy.of_replaced replaced sound
  · apply filled
    apply (tidy.blanked hd hdir _ hblock).congr
    rw [block_setIfInBounds_of_ne _ differs,
      (image.retabled_withEntry inside .last rfl).block_of_le (sound.above hd _ hblock)]
  · rintro _ ⟨⟩ - b hb
    rw [blocksOf_eq hchain] at hb
    obtain rfl := List.mem_singleton.mp hb
    apply filled
    exact blanked_of_zero (block_setIfInBounds_self _ inside _)

theorem removed (he : image.find? root (names ++ [name]) = some e)
    (childless : e.record.isDirectory = true → image.listed e.record.first.toNat = []) :
  ∃ after, (Directory.remove e).exec image = (.ok (), after) ∧ after.Tidy root
  := by
  obtain ⟨d, hd, hdir, -⟩ := find?_concat_eq_some.mp he
  obtain ⟨after, hexec, replaced⟩ := Directory.exec_remove sound he childless hd
  obtain ⟨after', hexec', edit⟩ := Directory.exec_remove_retabled sound he
  obtain ⟨-, rfl⟩ := Prod.mk.inj (hexec.symm.trans hexec')
  obtain ⟨hblock, hslot⟩ := Directory.mem_places.mp (List.mem_of_mem_drop replaced.place_mem)
  refine ⟨after, hexec, tidy.of_replaced replaced sound ?_ (by simp)⟩
  have blanked : (image.withRecord e.location .blank).Blanked e.location.block :=
    (tidy.blanked hd hdir _ hblock).withRecord (lt_of_mem_blocksOf hblock) hslot fun _ => rfl
  exact blanked.congr (edit.block_of_le (sound.above hd _ hblock))

theorem stored {new : List Nat} {content : Bytes}
    (h : image.Stored after e.record.first.toNat (image.blocksOf e.record.first.toNat) new content)
    (he : image.find? root (names ++ [name]) = some e) (hfile : e.record.isDirectory = false) :
  after.Tidy root
  := by
  obtain ⟨d, hd, hdir, hchild⟩ := find?_concat_eq_some.mp he
  have hblock := block_mem_of_mem_listed (mem_listed_of_child? hchild)
  apply tidy.of_replaced (h.replaced sound he hfile hd) sound
  · exact (tidy.blanked hd hdir _ hblock).congr (h.block_location sound he)
  · rintro _ ⟨⟩ hdir'
    simp [hfile] at hdir'

end Image.Tidy

end

/-! ### Operations -/

theorem SessionM.image_answer {α : Type} (action : SessionM α) (answer : α → Answer)
    (session : Session) (image : Image) :
  ((do return answer (← action) : SessionM Answer).exec session image).2.2
    = (action.exec session image).2.2
  := by
  rw [exec_bind]
  rcases action.exec session image with ⟨result, session', after⟩
  cases result <;> rfl

namespace Session

open SessionM

variable {session : Session} {image : Image}

/-- The records of marked files are those of entries. -/
theorem Coherent.occupied_pending (h : session.Coherent image) :
  ∀ w ∈ session.dirtyFiles.map (session.pending image), w.2.occupied = true
  := by
  intro w hw
  obtain ⟨file, hfile, rfl⟩ := List.mem_map.mp hw
  obtain ⟨dirty, handle, held⟩ := mem_dirtyFiles.mp hfile
  obtain ⟨names, name, e, -, -, he, tracks⟩ := h.exists_path_of_dirty held dirty
  obtain ⟨d, -, -, hchild⟩ := Image.find?_concat_eq_some.mp he
  have occupied := Image.occupied_of_mem_listed (Image.mem_listed_of_child? hchild)
  rw [pending, tracks.record]
  exact occupied

/-- A quiet operation writes nothing to the disk but records of marked files. -/
theorem Coherent.image_perform (h : session.Coherent image) (borrows : session.BorrowsCurrent)
    {operation : Operation} (quiet : operation.isQuiet = true) :
  ∃ writes ⊆ session.dirtyFiles.map (session.pending image),
    (operation.perform.exec session image).2.2 = image.withRecords writes
  := by
  have unchanged {α : Type} {action : SessionM α} (answer : α → Answer)
      (same : (action.exec session image).2.2 = image) :
      ∃ writes ⊆ session.dirtyFiles.map (session.pending image),
        ((do return answer (← action) : SessionM Answer).exec session image).2.2
          = image.withRecords writes := by
    refine ⟨[], List.nil_subset _, ?_⟩
    rw [image_answer, same]
    rfl
  by_cases reads : operation.calls ⊆ {.read}
  · exact ⟨[], List.nil_subset _, (operation.uses_perform.mono reads).image_exec session image⟩
  cases operation with
  | close handle =>
      rcases closable_or_refused session image handle with closable | ⟨error, refused⟩
      · refine ⟨_, writtenBack_subset [handle], (image_answer _ (fun _ => .done) _ _).trans ?_⟩
        rw [(h.exec_close closable).1]
      · exact unchanged (fun _ => .done) (by rw [refused])
  | closeAll =>
      have nodup := session.openFiles.nodup_occupied.filter fun handle =>
        handle != OpenTable.rootHandle && handle != session.openFiles.current
      have hexec := (h.exec_forM_close nodup fun _ => mem_closableHandles.mp).1
      refine ⟨_, writtenBack_subset session.closableHandles,
        (image_answer _ (fun _ => .done) _ _).trans ?_⟩
      rw [exec_closeAll]
      exact congrArg (·.2.2) hexec
  | changeDirectory path =>
      have hexec := h.exec_changeDirectory borrows path
      refine unchanged (fun _ => .done) ?_
      rw [hexec]
      cases session.entering image path <;> rfl
  | shutdown =>
      obtain ⟨root, hroot, -⟩ := h.root_open
      refine ⟨_, List.Subset.refl _, (image_answer _ (fun _ => .done) _ _).trans ?_⟩
      rw [h.exec_shutdown_pending hroot]
  | _ => simp [Operation.isQuiet, Operation.calls] at quiet reads

end Session

/-! ### Histories -/

namespace State

/-- The slots of directories that are not occupied are blank. -/
def Tidy (state : State) : Prop :=
  state.image.Tidy state.session.superblock.root

variable {state : State}

namespace Coherent

variable (h : state.Coherent)
include h

section Next

variable (tidy : state.Tidy) (now : Timestamp)
include tidy

theorem tidy_quiet (borrows : state.session.BorrowsCurrent) {operation : Operation}
    (quiet : operation.isQuiet = true) :
  (Step.next ⟨operation, now⟩ state).Tidy
  := by
  have later := h.at_time now
  have borrows : (state.session.atTime now).BorrowsCurrent := borrows
  have quietly := Operation.alwaysQuiet_perform quiet _ _ later
  obtain ⟨writes, subset, written⟩ := later.image_perform borrows quiet
  have superblock : (Step.next ⟨operation, now⟩ state).session.superblock
      = state.session.superblock := quietly.superblock
  rw [State.Tidy, superblock]
  apply tidy.of_relengthed quietly.relengthed
  intro b blanked
  rw [written]
  exact blanked.withRecords (fun w hw => later.inside_pending w (subset hw))
    fun w hw => later.occupied_pending w (subset hw)

theorem tidy_create (path : String) (kind : Kind) :
  (Step.next ⟨.create path kind, now⟩ state).Tidy
  := by
  have hexec := h.exec_create_created path kind now
  cases hcreating : (state.session.atTime now).creating state.image path kind with
  | error error =>
      rw [hcreating] at hexec
      rw [Step.next_of_exec hexec]
      exact tidy
  | ok created =>
      obtain ⟨d, e⟩ := created
      obtain ⟨names, name, -, hd, hdir, hcreation⟩ :=
        (Session.creating_eq_ok_iff (h.at_time now).toTracking).mp hcreating
      rw [hcreating] at hexec
      rw [Step.next_of_exec hexec]
      exact Image.Tidy.created tidy h.sound hd hdir hcreation

theorem tidy_remove (path : String) (kind : Kind) :
  (Step.next ⟨.remove path kind, now⟩ state).Tidy
  := by
  have hexec := h.exec_remove_removed path kind now
  cases hremoving : state.session.removing state.image path kind with
  | error error =>
      rw [hremoving] at hexec
      rw [Step.next_of_exec hexec]
      exact tidy
  | ok e =>
      obtain ⟨-, named, he, hkind, -, empty⟩ := (Session.removing_eq_ok_iff h).mp hremoving
      obtain ⟨names, name, target⟩ := (List.eq_nil_or_concat' _).resolve_left named
      have childless (hdir : e.record.isDirectory = true) :
          state.image.listed e.record.first.toNat = [] := by
        rw [Record.isDirectory, hkind, beq_iff_eq] at hdir
        exact empty hdir
      rw [target] at he
      obtain ⟨after, hremove, tidy'⟩ := Image.Tidy.removed tidy h.sound he childless
      rw [hremoving] at hexec
      dsimp only at hexec
      rw [hremove] at hexec
      rw [Step.next_of_exec hexec]
      exact tidy'

theorem tidy_write (handle : Handle) (content : Bytes) (mode : WriteMode) :
  (Step.next ⟨.write handle content mode, now⟩ state).Tidy
  := by
  have later : Session.Coherent (state.session.atTime now) state.image := h.at_time now
  rcases later.write_cases handle content mode with
    ⟨error, hwrite⟩ | ⟨file, old, after, stored, hfile, isFile, hwrite, hstored⟩
  · have hexec : Step.exec ⟨.write handle content mode, now⟩ state = _ :=
      SessionM.exec_bind_of_error hwrite
    rw [Step.next_of_exec hexec]
    exact tidy
  · obtain ⟨names, name, e, -, -, he, tracks⟩ := later.exists_path hfile isFile
    have hexec : Step.exec ⟨.write handle content mode, now⟩ state = _ :=
      SessionM.exec_bind_of_ok hwrite
    rw [SessionM.exec_pure] at hexec
    rw [tracks.first_eq] at hstored
    rw [Step.next_of_exec hexec]
    exact Image.Tidy.stored tidy h.sound hstored he (tracks.isDirectory_eq ▸ isFile)

omit h tidy in
theorem tidy_reformat (full : Bool) :
  (Step.next ⟨.reformat full, now⟩ state).Tidy
  := by
  obtain ⟨prepared, hprepared, hformat⟩ :=
    Session.exec_reformat_begun full (state.session.atTime now) state.image
  have hexec : Step.exec ⟨.reformat full, now⟩ state = _ := SessionM.exec_bind_of_ok hformat
  rw [SessionM.exec_pure] at hexec
  rw [Step.next_of_exec hexec, State.Tidy]
  have root : (Session.begun (prepared.withRoot now) now).superblock.root = rootBlock :=
    (hprepared.fresh now).root_superblock
  have tidy := hprepared.tidy now
  rw [← root] at tidy
  exact tidy

theorem tidy_next (borrows : state.session.BorrowsCurrent) (step : Step) :
  (step.next state).Tidy
  := by
  obtain ⟨operation, now⟩ := step
  rcases operation.isQuiet_or with quiet | ⟨path, kind, rfl⟩ | ⟨path, kind, rfl⟩ |
    ⟨handle, content, mode, rfl⟩ | ⟨full, rfl⟩
  · exact h.tidy_quiet tidy now borrows quiet
  · exact h.tidy_create tidy now path kind
  · exact h.tidy_remove tidy now path kind
  · exact h.tidy_write tidy now handle content mode
  · exact tidy_reformat now full

end Next

/-- Every history keeps the slots blank that are not occupied. -/
theorem tidy_run (borrows : state.session.BorrowsCurrent) (tidy : state.Tidy)
    (history : List Step) :
  (state.run history).Tidy
  := by
  apply (State.run_induction
    (motive := fun state => state.Coherent ∧ state.session.BorrowsCurrent ∧ state.Tidy)
    ⟨h, borrows, tidy⟩ _ history).2.2
  rintro state step ⟨h, borrows, tidy⟩
  exact ⟨(h.change step).1, h.borrowsCurrent_next borrows step, h.tidy_next tidy borrows step⟩

end Coherent

end State

/-- A session can begin by formatting any disk.  In every state that it reaches the slots that are
not occupied are blank. -/
theorem exists_formatted_tidy (clock : Timestamp) (image : Image) :
  ∃ start : State, (Session.format clock).exec image = (.ok start.session, start.image)
    ∧ ∀ history, (start.run history).Coherent ∧ (start.run history).Tidy
  := by
  obtain ⟨prepared, hprepared, hformat⟩ := Session.exec_format_begun clock image
  let start : State := ⟨Session.begun (prepared.withRoot clock) clock, prepared.withRoot clock⟩
  have coherent : start.Coherent := (Session.coherent_begun (hprepared.fresh clock) clock).1
  have borrows : start.session.BorrowsCurrent := by
    intro handle borrowed
    cases borrowed
  have root : start.session.superblock.root = rootBlock := (hprepared.fresh clock).root_superblock
  have tidy := hprepared.tidy clock
  rw [← root] at tidy
  refine ⟨start, hformat, ?_⟩
  exact fun history => ⟨coherent.run history, coherent.tidy_run borrows tidy history⟩

end FatVolume
