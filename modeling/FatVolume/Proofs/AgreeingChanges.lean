import FatVolume.Proofs.Agreement
import FatVolume.Proofs.Coherence
import FatVolume.Proofs.Formatting
import FatVolume.Proofs.Storage

/-!
# Changes of two disks that agree

A block is written when it becomes allocated: the block of a new entry is emptied, and a file that
grows has its content put over all its blocks.  Therefore what changes two disks that agree leaves
two disks that agree, and after formatting any two disks do.
-/

namespace FatVolume

open DiskM

/-! ### Formatting -/

namespace Table

/-- Bytes are determined by the entries in them. -/
theorem ofBytes_inj {bytes bytes' : Bytes} (even : bytes.length % 2 = 0)
    (length : bytes'.length = bytes.length) (h : ofBytes bytes' = ofBytes bytes) :
  bytes' = bytes
  := by
  fun_induction ofBytes bytes generalizing bytes' with
  | case1 low high rest ih =>
      rcases bytes' with _ | ⟨low', _ | ⟨high', rest'⟩⟩
      · simp at length
      · simp at length
      · rw [ofBytes, List.cons.injEq] at h
        have word := congrArg FatEntry.toWord h.1
        rw [FatEntry.toWord_ofWord, FatEntry.toWord_ofWord] at word
        have value := congrArg UInt16.toNat word
        have := low.toNat_lt
        have := high.toNat_lt
        have := low'.toNat_lt
        have := high'.toNat_lt
        rw [UInt16.toNat_ofNat', UInt16.toNat_ofNat', Nat.mod_eq_of_lt (by omega),
          Nat.mod_eq_of_lt (by omega)] at value
        have low_eq : low' = low := UInt8.toNat_inj.mp (by omega)
        have high_eq : high' = high := UInt8.toNat_inj.mp (by omega)
        simp only [List.length_cons] at even length
        rw [low_eq, high_eq, ih (by omega) (by omega) h.2]
  | case2 bytes notPair =>
      rcases bytes with _ | ⟨b, _ | ⟨c, rest⟩⟩
      · simpa using length
      · simp at even
      · exact (notPair b c rest rfl).elim

end Table

namespace Image

variable {image image' : Image}

/-- A copy of the table determines the blocks in which it stands. -/
theorem block_eq_of_tableAt_eq {start : Nat} (h : image'.tableAt start = image.tableAt start) :
  image'.block start = image.block start ∧ image'.block (start + 1) = image.block (start + 1)
  := by
  have length (b : Block) : b.toList.length = blockSize := Vector.length_toList
  have even : ((image.block start).toList ++ (image.block (start + 1)).toList).length % 2 = 0 := by
    rw [List.length_append, length, length]
    rfl
  have bytes := Table.ofBytes_inj even (by simp [length]) h
  obtain ⟨low, high⟩ := List.append_inj bytes (by rw [length, length])
  exact ⟨Vector.toList_inj.mp low, Vector.toList_inj.mp high⟩

/-- The two copies of the table determine the blocks between the superblock and the root directory. -/
theorem block_eq_of_table_eq (table : image'.table = image.table)
    (mirror : image'.mirror = image.mirror) {b : Nat} (low : tableStart ≤ b) (high : b < rootStart) :
  image'.block b = image.block b
  := by
  obtain ⟨first, second⟩ := block_eq_of_tableAt_eq table
  obtain ⟨third, fourth⟩ := block_eq_of_tableAt_eq mirror
  match b, low, high with
  | 1, _, _ => exact first
  | 2, _, _ => exact second
  | 3, _, _ => exact third
  | 4, _, _ => exact fourth

/-- The reserved blocks hold the superblock and the two copies of the table. -/
theorem sameReserved_of_eq (superblock : image'.block superblockAt = image.block superblockAt)
    (table : image'.table = image.table) (mirror : image'.mirror = image.mirror) :
  image.SameReserved image'
  := by
  intro b hb
  rcases Nat.eq_zero_or_pos b with rfl | low
  · exact superblock
  · exact block_eq_of_table_eq table mirror low hb

theorem Allocated.lt {b : Nat} (h : image.Allocated b) :
  b < numBlocks
  := by
  obtain ⟨entry, hentry, -⟩ := h
  rw [← image.length_table]
  exact (List.getElem?_eq_some_iff.mp hentry).1

/-! ### Records -/

theorem allocated_withRecord {place : Location} (low : rootStart ≤ place.block) {record : Record}
    {b : Nat} :
  (image.withRecord place record).Allocated b ↔ image.Allocated b
  := by
  rw [Allocated, Allocated, (image.table_withRecord low record).1]

/-- The same record can be put into the same slot of an allocated block. -/
theorem Agrees.withRecord (h : image.Agrees image') {place : Location}
    (low : rootStart ≤ place.block) (allocated : image.Allocated place.block) (record : Record) :
  (image.withRecord place record).Agrees (image'.withRecord place record)
  := by
  refine ⟨h.reserved.setIfInBounds_of_le low _ _, ?_⟩
  intro b hb
  by_cases same : b = place.block
  · subst same
    rw [Image.withRecord, Image.withRecord, block_setIfInBounds_self _ allocated.lt,
      block_setIfInBounds_self _ allocated.lt, h.content _ allocated]
  · rw [block_withRecord_of_ne _ _ same, block_withRecord_of_ne _ _ same]
    exact h.content b ((allocated_withRecord low).mp hb)

theorem Agrees.withDots (h : image.Agrees image') {first : Nat} (low : rootStart ≤ first)
    (allocated : image.Allocated first) (self up : Record) :
  (image.withDots first self up).Agrees (image'.withDots first self up)
  := (h.withRecord low allocated self).withRecord low ((allocated_withRecord low).mpr allocated) up

/-- Two prepared disks agree as soon as their root directories have the same first entries. -/
theorem Prepared.agrees (h : image.Prepared) (h' : image'.Prepared) (now : Timestamp) :
  (image.withRoot now).Agrees (image'.withRoot now)
  := by
  have entry (b : Nat) := h.table ▸ Table.getElem?_fresh b
  have reserved : image.SameReserved image' := by
    apply sameReserved_of_eq
    · rw [h'.superblock, h.superblock]
    · rw [h'.table, h.table]
    · rw [h'.mirror, h.mirror]
  have agrees : image.Agrees image' := by
    refine ⟨reserved, ?_⟩
    rintro b ⟨found, hfound, taken⟩
    rw [entry] at hfound
    split_ifs at hfound with low first second
    · exact reserved b low
    · rw [first, h'.root.1, h.root.1]
    · rw [second, h'.root.2, h.root.2]
    · exact (taken (Option.some.inj hfound).symm).elim
  apply agrees.withDots (Nat.le_refl rootStart)
  exact ⟨_, entry rootStart, by decide⟩

/-! ### Sound images -/

namespace Agrees

variable (h : image.Agrees image')
include h

theorem listed (first : Nat) :
  image'.listed first = image.listed first
  := listed_congr (h.slots first)

theorem child? (first : Nat) (name : String) :
  image'.child? first name = image.child? first name
  := by
  rw [Image.child?, Image.child?, h.listed]

theorem freeSlot (first : Nat) :
  image'.freeSlot first = image.freeSlot first
  := by
  rw [Image.freeSlot, Image.freeSlot, h.slots]

theorem hasDots_iff {first parent : UInt16} :
  image'.HasDots first parent ↔ image.HasDots first parent
  := by
  rw [HasDots, HasDots, h.slots]

variable {root : UInt16} {lengths : List String → Option Nat} (sound : image.Sound root lengths)
include sound

/-- Names lead to the same entries. -/
theorem find? (names : List String) :
  image'.find? root names = image.find? root names
  := by
  induction names using List.reverseRecOn with
  | nil =>
      have allocated := allocated_of_mem_blocksOf sound.root_dots.isChain.first_mem
      rw [find?_nil, find?_nil, entryAt_congr (h.content _ allocated)]
  | append_singleton names name ih =>
      rw [find?_concat, find?_concat, ih]
      congr 1
      funext e
      rw [descend?, descend?, h.child?]

theorem sound_after :
  image'.Sound root lengths
  := by
  have find {names : List String} {e : Entry} (he : image'.find? root names = some e) :
      image.find? root names = some e := by
    rw [← h.find? sound, he]
  have owner : image'.owner root = image.owner root := by
    funext names
    rw [Image.owner, Image.owner, h.find? sound]
    simp only [h.blocksOf]
  constructor
  · rw [h.reserved.mirror, h.table, sound.mirrored]
  · rw [h.table, owner]
    exact sound.partitioned
  · rw [h.blocksOf, sound.root_span]
  · exact h.hasDots_iff.mpr sound.root_dots
  · intro names d hd hdir
    rw [h.listed]
    exact sound.named (find hd) hdir
  · intro names d hd hdir
    rw [h.listed]
    exact sound.distinct (find hd) hdir
  · intro names name e he
    rw [h.blocksOf]
    exact sound.spans (find he)
  · intro names name d e hd he hdir
    exact h.hasDots_iff.mpr (sound.dots (find hd) (find he) hdir)

end Agrees

end Image

namespace Image

/-- The same record can be put in the place of an entry with a name. -/
theorem Agrees.withRecord_of_find? {image image' : Image} {root : UInt16}
    {lengths : List String → Option Nat} (h : image.Agrees image')
    (sound : image.Sound root lengths) {names : List String} {name : String} {e : Entry}
    (he : image.find? root (names ++ [name]) = some e) (record : Record) :
  (image.withRecord e.location record).Agrees (image'.withRecord e.location record)
  := by
  obtain ⟨d, hd, hblock, -⟩ := place_of_find? he
  exact h.withRecord (sound.above hd _ hblock) (allocated_of_mem_blocksOf hblock) record

end Image

/-- A session that is coherent on a disk is coherent on a disk that agrees. -/
theorem Session.Coherent.of_agrees {session : Session} {image image' : Image}
    (h : session.Coherent image) (agrees : image.Agrees image') :
  session.Coherent image'
  := by
  refine ⟨⟨h.root_open, h.current_open, ?_, h.distinct⟩, agrees.sound_after h.sound, ?_, h.valid⟩
  · intro handle file hfile
    obtain ⟨names, e, hnames, hpath, he, tracks⟩ := h.tracks hfile
    exact ⟨names, e, hnames, hpath, by rw [agrees.find? h.sound, he], tracks⟩
  · rw [agrees.reserved superblockAt (by decide), h.described]

/-! ### Creating and removing -/

namespace Image

variable {image image' : Image}

/-- The reserved blocks stay the same when an entry of the table is set in both images. -/
theorem SameReserved.withEntry (h : image.SameReserved image') {b : Nat} (hb : b < numBlocks)
    (entry : FatEntry) :
  (image.withEntry b entry).SameReserved (image'.withEntry b entry)
  := by
  have setting := (Allocation.respects_setEntry b entry image image' h).2
  rwa [Allocation.exec_setEntry hb, Allocation.exec_setEntry hb] at setting

section Taken

variable (h : image.Agrees image') {first : Nat} (low : rootStart ≤ first)
  (inside : first < numBlocks)
include h low inside

/-- A block that was free can be allocated and emptied. -/
theorem Agrees.taken :
  Agrees ((image.withEntry first .last).setIfInBounds first .zero)
    ((image'.withEntry first .last).setIfInBounds first .zero)
  := by
  have edit := image.retabled_withEntry inside .last rfl
  have edit' := image'.retabled_withEntry inside .last rfl
  have reserved := (h.reserved.withEntry inside .last).setIfInBounds first .zero
  refine ⟨reserved, ?_⟩
  intro b hb
  by_cases low_b : b < rootStart
  · exact reserved b low_b
  by_cases same : b = first
  · subst same
    rw [block_setIfInBounds_self _ inside, block_setIfInBounds_self _ inside]
  · rw [block_setIfInBounds_of_ne _ (Ne.symm same), block_setIfInBounds_of_ne _ (Ne.symm same),
      edit.block_of_le (Nat.not_lt.mp low_b), edit'.block_of_le (Nat.not_lt.mp low_b)]
    apply h.content
    rwa [Allocated, (table_setIfInBounds _ low _).1, edit.table,
      List.getElem?_set_ne (Ne.symm same)] at hb

omit h in
theorem allocated_taken {b : Nat} (hb : image.Allocated b ∨ b = first) :
  Allocated ((image.withEntry first .last).setIfInBounds first .zero) b
  := by
  have edit := image.retabled_withEntry inside .last rfl
  rw [Allocated, (table_setIfInBounds _ low _).1, edit.table]
  by_cases same : b = first
  · subst same
    rw [List.getElem?_set_self (by simpa using inside)]
    exact ⟨_, rfl, by simp⟩
  · rw [List.getElem?_set_ne (Ne.symm same)]
    exact hb.resolve_right same

end Taken

/-- The same entry can be created in both images. -/
theorem Agrees.created (h : image.Agrees image') (now : Timestamp) (parent : Record)
    {record : Record} {place : Location} (low : rootStart ≤ record.first.toNat)
    (inside : record.first.toNat < numBlocks) (low_place : rootStart ≤ place.block)
    (allocated : image.Allocated place.block) :
  (image.created now parent record place).Agrees (image'.created now parent record place)
  := by
  have taken := h.taken low inside
  have first := image.allocated_taken low inside (.inr rfl)
  have elsewhere := image.allocated_taken low inside (.inl allocated)
  rw [Image.created, Image.created]
  apply Agrees.withRecord _ low_place
  · split_ifs
    · rw [Image.withDots, allocated_withRecord low, allocated_withRecord low]
      exact elsewhere
    · exact elsewhere
  · split_ifs
    · exact taken.withDots low first _ _
    · exact taken

end Image

namespace Allocation

/-- Freeing a chain allocates nothing. -/
theorem respects_free_agrees (first : Nat) :
  (free first).Respects Image.Agrees
  := by
  intro image image' agrees
  obtain ⟨same, reserved⟩ := respects_free first image image' agrees.reserved
  refine ⟨same, reserved, ?_⟩
  cases hchain : image.chain first with
  | error e =>
      have failed := exec_chain image first
      have failed' := exec_chain image' first
      rw [agrees.reserved.chain] at failed'
      rw [hchain] at failed failed'
      rw [free, exec_bind_of_error failed, exec_bind_of_error failed']
      exact agrees.content
  | ok blocks =>
      have ischain := Image.chain_eq_ok_iff.mp hchain
      obtain ⟨after, hexec, edit⟩ := exec_free ischain
      obtain ⟨after', hexec', edit'⟩ := exec_free (agrees.table ▸ ischain)
      rw [hexec, hexec'] at reserved ⊢
      intro b hb
      by_cases low : b < rootStart
      · exact reserved b low
      · rw [edit.block_of_le (Nat.not_lt.mp low), edit'.block_of_le (Nat.not_lt.mp low)]
        apply agrees.content
        obtain ⟨entry, hentry, taken⟩ := hb
        rw [edit.table, Table.getElem?_release] at hentry
        split_ifs at hentry
        · exact (taken (Option.some.inj hentry).symm).elim
        · exact ⟨entry, hentry, taken⟩

end Allocation

namespace Directory

variable {image image' : Image} {root : UInt16} {lengths : List String → Option Nat}

theorem creation_of_agrees (h : image.Agrees image') (now : Timestamp) (first : Nat)
    (name : String) (kind : Kind) :
  creation image' now first name kind = creation image now first name kind
  := by
  rw [creation, creation, h.child?, h.freeSlot, h.table]

/-- The entry of a path can be removed from both images. -/
theorem agrees_remove (h : image.Agrees image') (sound : image.Sound root lengths)
    {names : List String} {name : String} {e : Entry}
    (he : image.find? root (names ++ [name]) = some e) :
  ((remove e).exec image').1 = ((remove e).exec image).1
    ∧ ((remove e).exec image).2.Agrees ((remove e).exec image').2
  := by
  have he' : image'.find? root (names ++ [name]) = some e := by
    rw [h.find? sound, he]
  have freeing : (do
      Allocation.free e.record.first.toNat
      Program.log .debug .directory
        (s!"removed {Text.quoted e.record.fullName} from block {e.location.block} "
          ++ s!"slot {e.location.slot}") : DiskM Unit).Respects Image.Agrees :=
    (Allocation.respects_free_agrees _).bind fun _ => respects_log _ _ _
  rw [remove, exec_bind_of_ok (exec_writeRecord_of_find? he _),
    exec_bind_of_ok (exec_writeRecord_of_find? he' _)]
  exact freeing _ _ (h.withRecord_of_find? sound he .blank)

end Directory

/-! ### Storing -/

namespace Image

variable {image image' after after' : Image} {first : Nat} {old new : List Nat} {content : Bytes}

/-- Where a content was stored the blocks hold the same, and nothing else was allocated. -/
theorem Agrees.of_stored (h : image.Agrees image') (reserved : after.SameReserved after')
    (stored : image.Stored after first old new content)
    (stored' : image'.Stored after' first old new content) :
  after.Agrees after'
  := by
  refine ⟨reserved, ?_⟩
  rintro b ⟨entry, hentry, taken⟩
  by_cases low : b < rootStart
  · exact reserved b low
  have outside := notTable_of_le (Nat.not_lt.mp low)
  by_cases hnew : b ∈ new
  · have blocks := stored'.blocks.trans stored.blocks.symm
    exact List.map_inj_left.mp blocks b hnew
  · have hold : b ∉ old := by
      intro hold
      rw [stored.released b hold hnew] at hentry
      exact taken (Option.some.inj hentry).symm
    rw [stored.untouched b hold hnew] at hentry
    rw [stored.content b outside hnew, stored'.content b outside hnew]
    exact h.content b ⟨entry, hentry, taken⟩

end Image

namespace OpenFile

variable {image image' : Image} {first : Nat} {blocks : List Nat} (h : image.Agrees image')
  (mirrored : image.mirror = image.table)
  (above : ∀ b, image.table[b]? = some .free → reservedSpan ≤ b)
include h mirrored above

/-- The same content can be stored in the same chain of both images. -/
theorem agrees_store (hchain : image.table.IsChain first blocks)
    (low : ∀ b ∈ blocks, reservedSpan ≤ b) (content : Bytes) :
  ((store first content).exec image').1 = ((store first content).exec image).1
    ∧ ((store first content).exec image).2.Agrees ((store first content).exec image').2
  := by
  obtain ⟨same, reserved⟩ := respects_store first content image image' h.reserved
  have hchain' := h.table ▸ hchain
  refine ⟨same, ?_⟩
  by_cases enough : blocksFor content.length - blocks.length ≤ image.table.countFree
  · obtain ⟨after, new, hexec, stored⟩ := exec_store hchain mirrored low content above enough
    obtain ⟨after', new', hexec', stored'⟩ := exec_store hchain'
      (by rw [h.reserved.mirror, h.table, mirrored]) low content (by rwa [h.table])
      (by rwa [h.table])
    rw [hexec, hexec'] at reserved ⊢
    have ischain := stored'.isChain
    rw [reserved.table] at ischain
    obtain rfl : new' = new :=
      (Image.blocksOf_eq ischain).symm.trans (Image.blocksOf_eq stored.isChain)
    exact h.of_stored reserved stored stored'
  · have lack := Nat.not_le.mp enough
    rw [exec_store_of_lt hchain content lack,
      exec_store_of_lt hchain' content (by rwa [h.table])]
    exact h

/-- The same can be written to a file of both images. -/
theorem agrees_write (file : OpenFile)
    (hchain : image.table.IsChain file.record.first.toNat blocks)
    (low : ∀ b ∈ blocks, reservedSpan ≤ b) (new : Bytes) (mode : WriteMode) :
  ((file.write new mode).exec image').1 = ((file.write new mode).exec image).1
    ∧ ((file.write new mode).exec image).2.Agrees ((file.write new mode).exec image').2
  := by
  by_cases hdir : file.record.isDirectory = true
  · rw [exec_write_of_isDirectory hdir, exec_write_of_isDirectory hdir]
    exact ⟨rfl, h⟩
  have readOnly := (uses_readRange (Set.mem_singleton _) file.record.first.toNat
    file.record.length.toNat 0 file.record.length.toNat).readOnly
  have reading := readOnly.exec_eq image
  have reading' := readOnly.exec_eq image'
  rw [(respects_readRange _ _ _ _ image image' h).1] at reading'
  rw [write, if_neg hdir]
  generalize ((readRange file.record.first.toNat file.record.length.toNat 0
    file.record.length.toNat).exec image).1 = result at reading reading'
  cases result with
  | error e =>
      rw [exec_bind_of_error reading, exec_bind_of_error reading']
      exact ⟨rfl, h⟩
  | ok old =>
      rw [exec_bind_of_ok reading, exec_bind_of_ok reading']
      dsimp only
      generalize mode.apply old new file.cursor = outcome
      obtain ⟨content, position⟩ := outcome
      obtain ⟨same, agrees⟩ := agrees_store h mirrored above hchain low content
      dsimp only
      rw [exec_bind, exec_bind]
      generalize (store file.record.first.toNat content).exec image = stored at same agrees
      generalize (store file.record.first.toNat content).exec image' = stored' at same agrees
      obtain ⟨result, after⟩ := stored
      obtain ⟨result', after'⟩ := stored'
      obtain rfl : result' = result := same
      cases result' <;> exact ⟨rfl, agrees⟩

end OpenFile

end FatVolume
