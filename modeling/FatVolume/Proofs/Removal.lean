import FatVolume.Proofs.Lookup
import FatVolume.Proofs.Replacement

/-!
# Removing entries

`Directory.remove` gives up the slot of an entry and frees its chain.  Of a directory it is
asked only when `Directory.isEmpty` says that nothing is listed.
-/

namespace FatVolume

open DiskM

variable {image : Image} {root : UInt16} {lengths : List String → Option Nat}

theorem Entry.StandsFor.isDot {e : Entry} {name : String} {target : UInt16}
    (h : e.StandsFor name target) (hname : name = Name.dot ∨ name = Name.dotdot) :
  e.record.isDot = true
  := by
  rw [Record.isDot_iff, h.2.2.1]
  exact hname

namespace Directory

/-- A directory is empty when it lists nothing. -/
theorem exec_isEmpty (sound : image.Sound root lengths) {names : List String} {d : Entry}
    (hd : image.find? root names = some d) (hdir : d.record.isDirectory = true) :
  (isEmpty d.record.first.toNat).exec image
    = (.ok (image.listed d.record.first.toNat).isEmpty, image)
  := by
  obtain ⟨parent, dots⟩ := sound.exists_hasDots hd hdir
  obtain ⟨self, up, hself, hup, hfilter⟩ := dots.filter_slots
  rw [isEmpty, exec_bind_of_ok (exec_entries dots.isChain), exec_pure, hfilter]
  congr 2
  rw [List.all_cons, List.all_cons, hself.isDot (.inl rfl), hup.isDot (.inr rfl), Bool.true_and,
    Bool.true_and]
  cases hlisted : image.listed d.record.first.toNat with
  | nil => rfl
  | cons e rest =>
      have := sound.named hd hdir e (by simp [hlisted])
      simp [this]

variable (sound : image.Sound root lengths) {names : List String} {name : String} {e : Entry}
  (he : image.find? root (names ++ [name]) = some e)
include sound he

/-- Removing an entry puts a blank record in its place and frees its chain. -/
theorem exec_remove_retabled :
  ∃ after, (remove e).exec image = (.ok (), after)
    ∧ (image.withRecord e.location .blank).Retabled after
        (Table.release (image.blocksOf e.record.first.toNat))
  := by
  obtain ⟨d, hd, hblock, hslot⟩ := Image.place_of_find? he
  have hchain := sound.isChain he
  rw [← (image.table_withRecord (sound.above hd _ hblock) .blank).1] at hchain
  obtain ⟨after, hexec, edit⟩ := Allocation.exec_free hchain
  refine ⟨after, ?_, edit⟩
  rw [remove, exec_bind_of_ok (exec_writeRecord (Image.lt_of_mem_blocksOf hblock) hslot _),
    exec_bind_of_ok hexec, exec_log]

/-- Removing an entry replaces what its path leads to by nothing. -/
theorem exec_remove (childless : e.record.isDirectory = true → image.listed e.record.first.toNat = [])
    {d : Entry} (hd : image.find? root names = some d) :
  ∃ after, (remove e).exec image = (.ok (), after)
    ∧ image.Replaced after root names name d e.location none
  := by
  obtain ⟨d', hd', hdir, hchild⟩ := Image.find?_concat_eq_some.mp he
  obtain rfl := Option.some.inj (hd.symm.trans hd')
  have hlisted := Image.mem_listed_of_child? hchild
  obtain ⟨hplace, hentry, occupied⟩ := Image.mem_listed_iff.mp hlisted
  obtain ⟨hblock, hslot⟩ := mem_places.mp (List.mem_of_mem_drop hplace)
  have inside := Image.lt_of_mem_blocksOf hblock
  have low := sound.above hd _ hblock
  have table := image.table_withRecord low .blank
  obtain ⟨after, hexec, edit⟩ := exec_remove_retabled sound he
  refine ⟨after, hexec, ?_⟩
  have after_table : after.table
      = Table.release (image.blocksOf e.record.first.toNat) image.table := by
    rw [edit.table, table.1]
  have entryAt_after (place : Location) (hb : rootStart ≤ place.block) :
      after.entryAt place = (image.withRecord e.location .blank).entryAt place :=
    Image.entryAt_congr (edit.block_of_le hb)
  constructor
  case parent => exact hd
  case directory => exact hdir
  case place_mem => exact hplace
  case holds_old =>
    rw [he]
    exact ⟨hentry, occupied⟩
  case holds_new =>
    change (after.entryAt e.location).record.occupied = false
    rw [entryAt_after _ low, Image.entryAt_withRecord _ inside hslot, if_pos rfl]
    rfl
  case fullName => simp
  case childless_old =>
    intro e' he'
    obtain rfl := Option.some.inj (he.symm.trans he')
    exact childless
  case childless_new => simp
  case dots => simp
  case chained => simp
  case mirrored =>
    apply edit.mirrored
    rw [table.1, table.2, sound.mirrored]
  case superblock =>
    rw [edit.block superblockAt (by decide),
      Image.block_withRecord_of_ne _ _ (Image.superblockAt_ne low)]
  case untouched =>
    intro b hb _
    rw [he, Image.blocksOf?_some] at hb
    rw [after_table, Table.getElem?_release_of_notMem hb]
  case fresh => simp
  case released =>
    intro b hb _
    rw [he, Image.blocksOf?_some] at hb
    rw [after_table, Table.getElem?_release_of_mem hb]
    rw [Image.length_table]
    apply Image.lt_of_mem_blocksOf hb
  case content =>
    intro b hb _ _ hne
    rw [edit.block_of_le hb, Image.block_withRecord_of_ne _ _ hne]
  case slots =>
    intro other hother hne
    rw [entryAt_after _ (by rwa [hother]), Image.entryAt_withRecord _ inside hslot, if_neg hne]

end Directory

end FatVolume
