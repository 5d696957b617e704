import FatVolume.Proofs.ActionParts
import FatVolume.Proofs.Slots

/-!
# Actions on two disks

An action respects a relation between images when it has the same result on both of two related
images and leaves related images.  Whatever is done to the table respects that the reserved blocks
are the same.  Whatever reads files and directories respects that all allocated blocks are the
same, as no chain leads to a free block.
-/

namespace FatVolume

/-! ### Related images -/

namespace DiskM

variable {α β : Type} {relation : Image → Image → Prop} {action other : DiskM α}
  {next : α → DiskM β}

/-- On related images the action has the same result, and it leaves related images. -/
def Respects (relation : Image → Image → Prop) (action : DiskM α) : Prop :=
  ∀ image image', relation image image' →
    (action.exec image').1 = (action.exec image).1
      ∧ relation (action.exec image).2 (action.exec image').2

/-- What only reads respects a relation between images on which it has the same result. -/
theorem respects_of_exec {value : Image → Except Error α}
    (h : ∀ image, action.exec image = (value image, image))
    (same : ∀ image image', relation image image' → value image' = value image) :
  action.Respects relation
  := by
  intro image image' related
  rw [h image, h image']
  exact ⟨same image image' related, related⟩

theorem respects_pure (a : α) :
  (pure a : DiskM α).Respects relation
  := fun _ _ related => ⟨rfl, related⟩

theorem respects_throw (e : Error) :
  (throw e : DiskM α).Respects relation
  := fun _ _ related => ⟨rfl, related⟩

theorem respects_log (level : Level) (source : Component) (message : String) :
  (liftM (Program.log level source message) : DiskM Unit).Respects relation
  := fun _ _ related => ⟨rfl, related⟩

theorem Respects.bind (h : action.Respects relation) (h' : ∀ a, (next a).Respects relation) :
  (action >>= next).Respects relation
  := by
  intro image image' related
  obtain ⟨same, related'⟩ := h image image' related
  rw [exec_bind, exec_bind]
  generalize action.exec image = served at same related'
  generalize action.exec image' = served' at same related'
  obtain ⟨result, after⟩ := served
  obtain ⟨result', after'⟩ := served'
  obtain rfl : result' = result := same
  cases result' with
  | ok a => exact h' a after after' related'
  | error e => exact ⟨rfl, related'⟩

theorem respects_ite {p : Prop} [Decidable p] (h : action.Respects relation)
    (h' : other.Respects relation) :
  (if p then action else other).Respects relation
  := by
  split
  · exact h
  · exact h'

theorem Respects.unless {p : Prop} [Decidable p] {rest : DiskM α} {refusal : DiskM PUnit}
    (h : rest.Respects relation) (h' : refusal.Respects relation) :
  (if p then refusal >>= fun _ => rest else rest).Respects relation
  := respects_ite (h'.bind fun _ => h) h

theorem respects_forM {action : α → DiskM Unit} (h : ∀ a, (action a).Respects relation)
    (list : List α) :
  (list.forM action).Respects relation
  := by
  induction list with
  | nil => exact respects_pure ()
  | cons a rest ih =>
      rw [List.forM_eq_forM, List.forM_cons]
      exact (h a).bind fun _ => ih

theorem respects_foldlM {action : β → α → DiskM β} (h : ∀ b a, (action b a).Respects relation)
    (list : List α) (b : β) :
  (list.foldlM action b).Respects relation
  := by
  induction list generalizing b with
  | nil => exact respects_pure b
  | cons a rest ih =>
      rw [List.foldlM_cons]
      exact (h b a).bind fun _ => ih _

end DiskM

/-! ### Reserved blocks -/

namespace Image

/-- The blocks of the volume itself hold the same. -/
def SameReserved (image image' : Image) : Prop :=
  ∀ b < rootStart, image'.block b = image.block b

namespace SameReserved

variable {image image' : Image} (h : image.SameReserved image')
include h

theorem table :
  image'.table = image.table
  := (table_congr h).1

theorem mirror :
  image'.mirror = image.mirror
  := (table_congr h).2

theorem chain (first : Nat) :
  image'.chain first = image.chain first
  := by
  rw [Image.chain, Image.chain, h.table]

/-- The same content can be put into the same block. -/
theorem setIfInBounds (b : Nat) (data : Block) :
  SameReserved (image.setIfInBounds b data) (image'.setIfInBounds b data)
  := by
  intro c hc
  have inside : c < numBlocks := Nat.lt_trans hc (by decide)
  by_cases hbc : b = c
  · subst hbc
    rw [block_setIfInBounds_self _ inside, block_setIfInBounds_self _ inside]
  · rw [block_setIfInBounds_of_ne _ hbc, block_setIfInBounds_of_ne _ hbc, h c hc]

/-- Other blocks than the reserved ones can hold anything. -/
theorem setIfInBounds_of_le {b : Nat} (hb : rootStart ≤ b) (data data' : Block) :
  SameReserved (image.setIfInBounds b data) (image'.setIfInBounds b data')
  := by
  intro c hc
  rw [block_setIfInBounds_of_ne _ (by omega), block_setIfInBounds_of_ne _ (by omega), h c hc]

end SameReserved

end Image

namespace Allocation

open DiskM

section Reading

variable {relation : Image → Image → Prop}
  (reserved : ∀ image image', relation image image' → image.SameReserved image')
include reserved

theorem respects_readTable_tableStart :
  (readTable tableStart).Respects relation
  := by
  have reading (image : Image) : (readTable tableStart).exec image = (.ok image.table, image) :=
    exec_readTable_tableStart
  apply respects_of_exec reading
  intro image image' related
  rw [(reserved image image' related).table]

theorem respects_mirrorsMatch :
  mirrorsMatch.Respects relation
  := by
  have reading (image : Image) :
      mirrorsMatch.exec image = (.ok (image.table == image.mirror), image) :=
    exec_mirrorsMatch
  apply respects_of_exec reading
  intro image image' related
  rw [(reserved image image' related).table, (reserved image image' related).mirror]

theorem respects_chain (first : Nat) :
  (chain first).Respects relation
  := by
  apply respects_of_exec fun image => exec_chain image first
  exact fun image image' related => (reserved image image' related).chain first

theorem respects_countFree :
  countFree.Respects relation
  := (respects_readTable_tableStart reserved).bind fun _ => respects_pure _

theorem respects_findRun (count : Nat) :
  (findRun count).Respects relation
  := (respects_readTable_tableStart reserved).bind fun _ => respects_pure _

end Reading

theorem respects_readBlock {b : Nat} (hb : b < rootStart) :
  (readBlock b).Respects Image.SameReserved
  := by
  have inside : b < numBlocks := Nat.lt_trans hb (by decide)
  apply respects_of_exec fun image => exec_readBlock image inside
  exact fun image image' same => by rw [same b hb]

theorem respects_writeBlock (b : Nat) (data : Block) :
  (writeBlock b data).Respects Image.SameReserved
  := by
  intro image image' same
  by_cases inside : b < numBlocks
  · rw [exec_writeBlock _ inside, exec_writeBlock _ inside]
    exact ⟨rfl, same.setIfInBounds b data⟩
  · have refused (image : Image) :
        (writeBlock b data).exec image = (.error (.invalidBlock b), image) := by
      have served : (writeBlock b data).exec image = image.serve (.writeBlock b data) := rfl
      rw [served, Image.serve, Image.write, dif_neg inside]
    rw [refused, refused]
    exact ⟨rfl, same⟩

theorem respects_setEntryIn {start b : Nat} (hstart : start + 1 < rootStart) (hb : b < numBlocks)
    (entry : FatEntry) :
  (setEntryIn start b entry).Respects Image.SameReserved
  := by
  have reserved : entryBlock start b < rootStart := by
    rcases Image.entryBlock_cases start hb with ⟨place, -⟩ | ⟨place, -⟩ <;> omega
  exact (respects_readBlock reserved).bind fun _ => respects_writeBlock _ _

theorem respects_setEntry (b : Nat) (entry : FatEntry) :
  (setEntry b entry).Respects Image.SameReserved
  := by
  unfold setEntry checkBlock
  split_ifs with hb
  · apply (respects_pure _).bind
    intro _
    apply (respects_setEntryIn (by decide) hb entry).bind
    intro _
    exact (respects_setEntryIn (by decide) hb entry).bind fun _ => respects_log _ _ _
  · intro image image' same
    exact ⟨rfl, same⟩

theorem respects_append (final : Nat) :
  (append final).Respects Image.SameReserved
  := by
  apply (respects_findRun (fun _ _ => id) 1).bind
  intro found
  split
  · apply (respects_setEntry _ _).bind
    intro _
    apply (respects_setEntry _ _).bind
    exact fun _ => (respects_log _ _ _).bind fun _ => respects_pure _
  · apply respects_throw

theorem respects_free (first : Nat) :
  (free first).Respects Image.SameReserved
  := by
  apply (respects_chain (fun _ _ => id) first).bind
  intro blocks
  apply (respects_forM (fun b => respects_setEntry b .free) blocks).bind
  exact fun _ => respects_log _ _ _

theorem respects_truncate (first keep : Nat) :
  (truncate first keep).Respects Image.SameReserved
  := by
  apply (respects_chain (fun _ _ => id) first).bind
  intro blocks
  split
  · apply (respects_setEntry _ _).bind
    intro _
    apply (respects_forM (fun b => respects_setEntry b .free) _).bind
    exact fun _ => respects_log _ _ _
  · apply respects_pure

end Allocation

namespace OpenFile

open DiskM Allocation

theorem respects_grow (blocks : List Nat) (final count : Nat) :
  (grow blocks final count).Respects Image.SameReserved
  := by
  induction count generalizing blocks final with
  | zero => exact respects_pure _
  | succ count ih => exact (respects_append final).bind fun fresh => ih _ fresh

/-- How a content is put over the blocks of a chain depends on the reserved blocks only. -/
theorem respects_put (first : Nat) (content : Bytes) (all : List Nat) :
  (do
    ((all.take (blocksFor content.length)).zip (toBlocks (blocksFor content.length) content)).forM
      fun (block, data) => writeBlock block data
    if blocksFor content.length < all.length then
      truncate first (blocksFor content.length) : DiskM Unit).Respects Image.SameReserved
  := by
  apply (respects_forM (fun _ => respects_writeBlock _ _) _).bind
  intro _
  exact respects_ite (respects_truncate _ _) (respects_pure _)

/-- How a content is stored depends on the reserved blocks only. -/
theorem respects_store (first : Nat) (content : Bytes) :
  (store first content).Respects Image.SameReserved
  := by
  apply (respects_chain (fun _ _ => id) first).bind
  intro blocks
  have put := (respects_grow blocks (blocks.getLastD first)
    (blocksFor content.length - blocks.length)).bind (respects_put first content)
  dsimp only
  split
  · apply (respects_countFree fun _ _ => id).bind
    intro free
    exact put.unless (respects_throw _)
  · exact put

end OpenFile

/-! ### Allocated blocks -/

namespace Image

/-- The block is not free. -/
def Allocated (image : Image) (b : Nat) : Prop :=
  ∃ entry, image.table[b]? = some entry ∧ entry ≠ .free

/-- The reserved and all other allocated blocks hold the same.  Free blocks may hold anything. -/
structure Agrees (image image' : Image) : Prop where
  reserved : image.SameReserved image'
  content : ∀ b, image.Allocated b → image'.block b = image.block b

/-- The blocks of chains are allocated. -/
theorem allocated_of_mem_blocksOf {image : Image} {first b : Nat}
    (hb : b ∈ image.blocksOf first) :
  image.Allocated b
  := (isChain_blocksOf (List.ne_nil_of_mem hb)).exists_entry hb

namespace Agrees

variable {image image' : Image} (h : image.Agrees image')
include h

theorem table :
  image'.table = image.table
  := h.reserved.table

theorem blocksOf (first : Nat) :
  image'.blocksOf first = image.blocksOf first
  := blocksOf_congr h.table first

theorem block {first b : Nat} (hb : b ∈ image.blocksOf first) :
  image'.block b = image.block b
  := h.content b (allocated_of_mem_blocksOf hb)

theorem slots (first : Nat) :
  image'.slots first = image.slots first
  := slots_congr_block (h.blocksOf first) fun _ hb => h.block hb

end Agrees

end Image

namespace Directory

open DiskM

theorem respects_slots (first : Nat) :
  (slots first).Respects Image.Agrees
  := by
  apply respects_of_exec fun image => exec_slots first
  intro image image' agrees
  rw [agrees.reserved.chain, agrees.slots]

theorem respects_entries (first : Nat) :
  (entries first).Respects Image.Agrees
  := (respects_slots first).bind fun _ => respects_pure _

end Directory

namespace OpenFile

open DiskM

/-- Only the blocks of the chain are read. -/
theorem respects_readRange (first length offset count : Nat) :
  (readRange first length offset count).Respects Image.Agrees
  := by
  intro image image' agrees
  unfold readRange
  dsimp only
  split_ifs with nothing
  · exact ⟨rfl, agrees⟩
  have hchain := Allocation.exec_chain image first
  have hchain' := Allocation.exec_chain image' first
  rw [agrees.reserved.chain] at hchain'
  cases hblocks : image.chain first with
  | error e =>
      rw [hblocks] at hchain hchain'
      rw [exec_bind_of_error hchain, exec_bind_of_error hchain']
      exact ⟨rfl, agrees⟩
  | ok blocks =>
      rw [hblocks] at hchain hchain'
      have blocks_eq := Image.blocksOf_eq (Image.chain_eq_ok_iff.mp hblocks)
      have member : ∀ b ∈ (blocks.drop (offset / blockSize)).take
          ((offset % blockSize + min count (length - offset) + (blockSize - 1)) / blockSize),
          b ∈ image.blocksOf first := by
        intro b hb
        rw [blocks_eq]
        exact List.mem_of_mem_drop (List.mem_of_mem_take hb)
      have parts := exec_mapM image.block fun b hb =>
        exec_readBlock image (Image.lt_of_mem_blocksOf (member b hb))
      have parts' := exec_mapM image.block fun b hb =>
        (exec_readBlock image' (Image.lt_of_mem_blocksOf (member b hb))).trans
          (by rw [agrees.block (member b hb)])
      rw [exec_bind_of_ok hchain, exec_bind_of_ok hchain', exec_bind_of_ok parts,
        exec_bind_of_ok parts']
      split_ifs <;> exact ⟨rfl, agrees⟩

theorem respects_read (file : OpenFile) (count : Nat) :
  (file.read count).Respects Image.Agrees
  := by
  refine Respects.unless ?_ (respects_throw _)
  exact (respects_readRange _ _ _ _).bind fun _ => respects_pure _

end OpenFile

namespace Check

open DiskM

theorem respects_fail {α : Type} {relation : Image → Image → Prop} (cause : Corruption) :
  (fail cause : DiskM α).Respects relation
  := (respects_log _ _ _).bind fun _ => respects_throw _

theorem respects_claim (owned : Owned) (first : Nat) (owner : String) :
  (claim owned first owner).Respects Image.Agrees
  := by
  apply (Allocation.respects_chain (fun _ _ => Image.Agrees.reserved) first).bind
  intro blocks
  split
  · apply respects_fail
  · apply respects_pure

theorem respects_checkDots (slots : List Entry) (path : String) (first parent : UInt16) :
  (checkDots slots path first parent).Respects Image.Agrees
  := by
  unfold checkDots
  split
  · exact respects_ite (respects_fail _) (respects_ite (respects_fail _) (respects_pure _))
  · apply respects_fail

theorem respects_checkEntry (owned : Owned) (names : List String) (path : String)
    (record : Record) :
  (checkEntry owned names path record).Respects Image.Agrees
  := by
  refine Respects.unless ?_ (respects_fail _)
  refine Respects.unless ?_ (respects_fail _)
  apply (respects_claim _ _ _).bind
  intro claimed
  exact (respects_pure _).unless (respects_fail _)

theorem respects_checkDirectory (depth : Nat) (owned : Owned) (path : String)
    (first parent : UInt16) :
  (checkDirectory depth owned path first parent).Respects Image.Agrees
  := by
  induction depth generalizing owned path first parent with
  | zero => apply respects_fail
  | succ depth ih =>
      apply (Directory.respects_slots _).bind
      intro slots
      apply (respects_checkDots _ _ _ _).bind
      intro _
      apply Respects.bind _ fun _ => respects_pure _
      apply respects_foldlM
      intro state record
      apply (respects_checkEntry _ _ _ _).bind
      intro owned
      apply respects_ite
      · exact (ih _ _ _ _).bind fun _ => respects_pure _
      · exact respects_pure _

theorem respects_counting (table : Table) (root : UInt16) :
  (counting table root).Respects Image.Agrees
  := by
  apply (respects_claim _ _ _).bind
  intro claimed
  refine Respects.unless ?_ (respects_fail _)
  apply (respects_checkDirectory _ _ _ _ _).bind
  intro owned
  refine Respects.unless ?_ (respects_fail _)
  exact (respects_log _ _ _).bind fun _ => respects_pure _

/-- A check reads allocated blocks only, also when it fails. -/
theorem respects_run (root : UInt16) :
  (run root).Respects Image.Agrees
  := by
  rw [run_eq]
  apply (Allocation.respects_mirrorsMatch fun _ _ => Image.Agrees.reserved).bind
  intro same
  refine Respects.unless ?_ (respects_fail _)
  apply (Allocation.respects_readTable_tableStart fun _ _ => Image.Agrees.reserved).bind
  intro table
  dsimp only
  split
  · exact (respects_fail _).bind fun _ => respects_counting table root
  · exact respects_counting table root

end Check

end FatVolume
