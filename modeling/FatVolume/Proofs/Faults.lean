import FatVolume.Proofs.Results

/-!
# Faults

Arithmetic in words, indexing, copying and the calls of a device are partial.  A guarded action
performs each of them under a guard, and where a guard fails it stops with a fault.
`DiskM.Faultless` says that a guarded action never does so, whatever it is answered, and otherwise
does what an action without guards does.
-/

namespace FatVolume

/-- What goes wrong where an operation is used outside its domain. -/
inductive Fault where
  /-- An index, or an end of a stretch, lies past the end of a sequence. -/
  | outOfRange
  /-- Something is copied over a stretch of another length. -/
  | lengthMismatch
  /-- A number is negative, or too large for the word in which it is computed. -/
  | overflow
  /-- A number loses digits in a shorter word. -/
  | truncation
  /-- The device has no such block. -/
  | noSuchBlock
  /-- A turn of a loop brings it no closer to its end. -/
  | stuck
  deriving DecidableEq, Repr

namespace Guarded

variable {α : Type}

/-! ### Partial operations -/

/-- The number of bits of the words in which sizes and positions are computed. -/
abbrev wordSize : Nat := 64

/-- A sum in words of the given number of bits. -/
def add (bits a b : Nat) : Except Fault Nat :=
  if a + b < 2 ^ bits then .ok (a + b) else .error .overflow

/-- A product in words of the given number of bits. -/
def mul (bits a b : Nat) : Except Fault Nat :=
  if a * b < 2 ^ bits then .ok (a * b) else .error .overflow

/-- A difference. -/
def sub (a b : Nat) : Except Fault Nat :=
  if b ≤ a then .ok (a - b) else .error .overflow

/-- A number in a word of the given number of bits. -/
def narrow (bits n : Nat) : Except Fault Nat :=
  if n < 2 ^ bits then .ok n else .error .truncation

/-- What stands at an index. -/
def item (list : List α) (i : Nat) : Except Fault α :=
  match list[i]? with
  | some a => .ok a
  | none => .error .outOfRange

/-- The stretch from `start` up to `stop`. -/
def stretch (list : List α) (start stop : Nat) : Except Fault (List α) :=
  if start ≤ stop ∧ stop ≤ list.length then .ok ((list.drop start).take (stop - start))
  else .error .outOfRange

/-- The list with the source copied over the stretch from `start` up to `stop`. -/
def copyOver (list : List α) (start stop : Nat) (source : List α) : Except Fault (List α) := do
  let target ← stretch list start stop
  if source.length = target.length then
    return list.take start ++ source ++ list.drop stop
  else throw .lengthMismatch

variable {bits a b n i start stop : Nat} {list source : List α}

/-- What succeeds is followed by what comes next. -/
@[simp]
theorem ok_bind {β : Type} (a : α) (next : α → Except Fault β) :
  Except.ok a >>= next = next a
  := rfl

theorem add_eq (h : a + b < 2 ^ bits) :
  add bits a b = .ok (a + b)
  := if_pos h

theorem mul_eq (h : a * b < 2 ^ bits) :
  mul bits a b = .ok (a * b)
  := if_pos h

/-- Small sums and products fit into words. -/
theorem add_word (h : a + b < 2 ^ 32) :
  add wordSize a b = .ok (a + b)
  := add_eq (h.trans (by decide))

theorem mul_word (h : a * b < 2 ^ 32) :
  mul wordSize a b = .ok (a * b)
  := mul_eq (h.trans (by decide))

theorem sub_eq (h : b ≤ a) :
  sub a b = .ok (a - b)
  := if_pos h

theorem narrow_eq (h : n < 2 ^ bits) :
  narrow bits n = .ok n
  := if_pos h

theorem item_eq (h : i < list.length) :
  item list i = .ok list[i]
  := by
  rw [item, List.getElem?_eq_getElem h]

theorem stretch_eq (h : start ≤ stop) (h' : stop ≤ list.length) :
  stretch list start stop = .ok ((list.drop start).take (stop - start))
  := if_pos ⟨h, h'⟩

theorem copyOver_eq (h : start + source.length = stop) (h' : stop ≤ list.length) :
  copyOver list start stop source = .ok (list.take start ++ source ++ list.drop stop)
  := by
  have fits : source.length = ((list.drop start).take (stop - start)).length := by
    rw [List.length_take, List.length_drop]
    omega
  rw [copyOver, stretch_eq (by omega) h']
  exact if_pos fits

/-- Nothing is copied past the end. -/
example : copyOver [0, 0] 1 3 [7, 7] = .error .outOfRange := rfl

/-- Copying does not change the length. -/
theorem length_copied (h : start + source.length = stop) (h' : stop ≤ list.length) :
  (list.take start ++ source ++ list.drop stop).length = list.length
  := by
  rw [List.length_append, List.length_append, List.length_take, List.length_drop]
  omega

end Guarded

/-- An action on a disk with guards. -/
abbrev GuardedDisk : Type → Type := ExceptT Fault DiskM

/-- The result of a guarded action in surroundings, and the state in which it leaves them, unless
it faults. -/
def GuardedDisk.runIn {α σ : Type} (serve : Surroundings σ) (action : GuardedDisk α) (s : σ) :
    Except Fault (Except Error α × σ) :=
  match DiskM.runIn serve action.run s with
  | (.ok (.ok a), s') => .ok (.ok a, s')
  | (.ok (.error fault), _) => .error fault
  | (.error e, s') => .ok (.error e, s')

namespace Guarded

/-- The content of a block. -/
def readBlock (block : Nat) : GuardedDisk Block :=
  if block < numBlocks then DiskM.readBlock block else throw .noSuchBlock

/-- Puts the content of a buffer into a block. -/
def writeBlock (block : Nat) (buffer : Bytes) : GuardedDisk Unit :=
  if buffer.length ≠ blockSize then throw .lengthMismatch
  else if block < numBlocks then DiskM.writeBlock block (.ofBytes buffer)
  else throw .noSuchBlock

end Guarded

namespace DiskM

variable {α β : Type} {P Q : α → Prop} {R : β → Prop}

/-- The guarded action never faults and does what the action does, whatever its surroundings
answer, and all results satisfy `P`. -/
structure Faultless (guarded : GuardedDisk α) (action : DiskM α) (P : α → Prop) : Prop where
  eq : guarded = liftM action
  returns : action.Returns P

variable {guarded : GuardedDisk α} {action : DiskM α} {next : α → DiskM β}
  {guardedNext : α → GuardedDisk β}

/-- In no surroundings does the guarded action fault. -/
theorem Faultless.runIn_eq {σ : Type} (h : Faultless guarded action P) (serve : Surroundings σ)
    (s : σ) :
  guarded.runIn serve s = .ok (action.runIn serve s)
  := by
  have run : ExceptT.run (liftM action : GuardedDisk α) = action >>= fun a => pure (.ok a) :=
    map_eq_pure_bind Except.ok action
  rw [h.eq, GuardedDisk.runIn, run, runIn_bind]
  rcases action.runIn serve s with ⟨_ | _, _⟩ <;> rfl

theorem faultless_lift (h : action.Returns P) :
  Faultless (liftM action) action P
  := ⟨rfl, h⟩

theorem faultless_pure {a : α} (h : P a) :
  Faultless (pure a) (pure a) P
  := ⟨rfl, returns_pure h⟩

theorem faultless_throw (e : Error) :
  Faultless (throwThe Error e) (throw e) P
  := ⟨rfl, returns_throw e⟩

theorem Faultless.mono (h : Faultless guarded action P) (implies : ∀ a, P a → Q a) :
  Faultless guarded action Q
  := ⟨h.eq, h.returns.mono implies⟩

theorem Faultless.bind (h : Faultless guarded action P)
    (h' : ∀ a, P a → Faultless (guardedNext a) (next a) R) :
  Faultless (guarded >>= guardedNext) (action >>= next) R
  := by
  refine ⟨?_, h.returns.bind fun a ha => (h' a ha).returns⟩
  have same : action >>= (fun a => (guardedNext a).run)
      = action >>= fun a => (liftM (next a) : GuardedDisk β).run :=
    h.returns.bind_congr fun a ha => congrArg ExceptT.run (h' a ha).eq
  rw [h.eq]
  apply ExceptT.ext
  rw [liftM_bind]
  exact (ExceptT.run_bind_lift action guardedNext).trans
    (same.trans (ExceptT.run_bind_lift action fun a => liftM (next a)).symm)

/-- A guard that holds lets the action go on. -/
theorem Faultless.guard {γ : Type} {partially : Except Fault γ} {c : γ}
    {guardedNext : γ → GuardedDisk α} (h : partially = .ok c)
    (h' : Faultless (guardedNext c) action P) :
  Faultless (liftM partially >>= guardedNext) action P
  := by
  rw [h]
  exact h'

theorem faultless_ite {p : Prop} [Decidable p] {guarded' : GuardedDisk α} {other : DiskM α}
    (h : p → Faultless guarded action P) (h' : ¬p → Faultless guarded' other P) :
  Faultless (if p then guarded else guarded') (if p then action else other) P
  := by
  split_ifs with hp
  · exact h hp
  · exact h' hp

/-- What goes on only under a condition is faultless if the rest is under this condition. -/
theorem faultless_unless {p : Prop} [Decidable p] {e : Error}
    (h : ¬p → Faultless guarded action P) :
  Faultless (if p then (throwThe Error e : GuardedDisk PUnit) >>= fun _ => guarded else guarded)
    (if p then (throw e : DiskM PUnit) >>= fun _ => action else action) P
  := by
  split_ifs with hp
  · exact (faultless_throw (P := fun _ => False) e).bind fun _ impossible => impossible.elim
  · exact h hp

/-- What is done first only under a condition does not matter to the rest. -/
theorem faultless_when {p : Prop} [Decidable p] {first : GuardedDisk PUnit}
    {first' : DiskM PUnit} (h : p → Faultless first first' fun _ => True)
    (h' : Faultless guarded action P) :
  Faultless (if p then first >>= fun _ => guarded else guarded)
    (if p then first' >>= fun _ => action else action) P
  := by
  split_ifs with hp
  · exact (h hp).bind fun _ _ => h'
  · exact h'

theorem faultless_forM {guarded : α → GuardedDisk Unit} {action : α → DiskM Unit} {list : List α}
    (h : ∀ a ∈ list, Faultless (guarded a) (action a) fun _ => True) :
  Faultless (list.forM guarded) (list.forM action) fun _ => True
  := by
  induction list with
  | nil => exact faultless_pure trivial
  | cons a rest ih =>
      rw [List.forM_eq_forM, List.forM_eq_forM, List.forM_cons, List.forM_cons]
      apply (h a List.mem_cons_self).bind
      exact fun _ _ => ih fun b hb => h b (List.mem_cons_of_mem _ hb)

theorem faultless_mapM {guarded : α → GuardedDisk β} {action : α → DiskM β} {list : List α}
    (h : ∀ a ∈ list, Faultless (guarded a) (action a) R) :
  Faultless (list.mapM guarded) (list.mapM action) fun results => ∀ b ∈ results, R b
  := by
  induction list with
  | nil => exact faultless_pure (by simp)
  | cons a rest ih =>
      rw [List.mapM_cons, List.mapM_cons]
      apply (h a List.mem_cons_self).bind
      intro b hb
      apply (ih fun c hc => h c (List.mem_cons_of_mem _ hc)).bind
      intro others hothers
      exact faultless_pure (List.forall_mem_cons.mpr ⟨hb, hothers⟩)

theorem faultless_foldlM {guarded : β → α → GuardedDisk β} {action : β → α → DiskM β}
    {list : List α} (h : ∀ b a, R b → Faultless (guarded b a) (action b a) R) {b : β} (hb : R b) :
  Faultless (list.foldlM guarded b) (list.foldlM action b) R
  := by
  induction list generalizing b with
  | nil => exact faultless_pure hb
  | cons a rest ih =>
      rw [List.foldlM_cons, List.foldlM_cons]
      exact (h b a hb).bind fun b' hb' => ih hb'

/-! ### Device calls -/

theorem faultless_readBlock {block : Nat} (h : block < numBlocks) :
  Faultless (Guarded.readBlock block) (readBlock block) fun _ => True
  := by
  rw [Guarded.readBlock, if_pos h]
  exact faultless_lift (returns_true _)

theorem faultless_writeBlock {block : Nat} (h : block < numBlocks) {buffer : Bytes}
    (length : buffer.length = blockSize) :
  Faultless (Guarded.writeBlock block buffer) (writeBlock block (.ofBytes buffer)) fun _ => True
  := by
  rw [Guarded.writeBlock, if_neg (not_not.mpr length), if_pos h]
  exact faultless_lift (returns_true _)

/-- What is copied over a stretch of the content of a block is spliced into it. -/
theorem faultless_splice {block start stop : Nat} (h : block < numBlocks) {content : Block}
    {source : Bytes} (width : start + source.length = stop) (within : stop ≤ blockSize) :
  Faultless (do Guarded.writeBlock block (← Guarded.copyOver content.toList start stop source))
    (writeBlock block (content.splice start source)) fun _ => True
  := by
  have within : stop ≤ content.toList.length := by rwa [Vector.length_toList]
  subst width
  apply Faultless.guard (Guarded.copyOver_eq rfl within)
  apply faultless_writeBlock h
  exact (Guarded.length_copied rfl within).trans Vector.length_toList

/-- The content of a block is written from a buffer with its bytes. -/
theorem faultless_writeBlock_toList {block : Nat} (h : block < numBlocks) (data : Block) :
  Faultless (Guarded.writeBlock block data.toList) (writeBlock block data) fun _ => True
  := by
  have same : Block.ofBytes data.toList = data := Bytes.padded_toList data
  have length : data.toList.length = blockSize := Vector.length_toList
  have written := faultless_writeBlock h length
  rwa [same] at written

/-- A buffer of zeros erases a block. -/
theorem faultless_writeBlock_zero {block : Nat} (h : block < numBlocks) :
  Faultless (Guarded.writeBlock block (List.replicate blockSize 0)) (writeBlock block .zero)
    fun _ => True
  := by
  have zero : Block.zero.toList = List.replicate blockSize 0 := Vector.toList_replicate
  rw [← zero]
  exact faultless_writeBlock_toList h .zero

end DiskM

end FatVolume
