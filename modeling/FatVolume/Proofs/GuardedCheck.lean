import FatVolume.Proofs.CheckSteps
import FatVolume.Proofs.GuardedDirectories
import FatVolume.Proofs.Reading

/-!
# Guarded checks

The check of an image with guards, over a sequence of flags that tells which blocks are owned.
Nothing bounds how deep directories are nested; instead, a directory in another is only entered
under the guard that fewer blocks are left without an owner.  Whatever the image, the guards hold,
and the check has the result of the bounded one.
-/

namespace FatVolume

/-- A computation with guards on an image that stays as it is. -/
abbrev GuardedReading : Type → Type := ExceptT Error (Except Fault)

namespace GuardedReading

variable {α β : Type}

theorem pure_injective {a b : α} (h : (pure a : GuardedReading α) = pure b) :
  a = b
  := Except.ok.inj (Except.ok.inj h)

theorem throw_ne_pure {e : Error} {a : α} :
  throwThe Error e ≠ (pure a : GuardedReading α)
  := nofun

/-- What comes next matters only for what a computation returns. -/
theorem bind_congr {reading : GuardedReading α} {next next' : α → GuardedReading β}
    (h : ∀ a, reading = pure a → next a = next' a) :
  reading >>= next = reading >>= next'
  := by
  match reading, h with
  | .error _, _ => rfl
  | .ok (.error _), _ => rfl
  | .ok (.ok a), h => exact h a rfl

/-- Loops agree if their turns agree on each element once those for the ones before succeeded. -/
theorem foldlM_congr {turn turn' : β → α → GuardedReading β} {list : List α} {b : β}
    (h : ∀ (before : List α) (a : α) (after : List α) (state : β), list = before ++ a :: after →
      before.foldlM turn b = pure state → turn' state a = turn state a) :
  list.foldlM turn' b = list.foldlM turn b
  := by
  induction list generalizing b with
  | nil => rfl
  | cons a rest ih =>
      rw [List.foldlM_cons, List.foldlM_cons, h [] a rest b rfl rfl]
      apply bind_congr
      intro b' hb'
      apply ih
      intro before c after state split earlier
      apply h (a :: before) c after state
      · rw [split, List.cons_append]
      · rw [List.foldlM_cons, hb', pure_bind, earlier]

end GuardedReading

/-! ### Checks with guards -/

/-- Whether the two copies of the table are the same. -/
def Guarded.Allocation.mirrorsMatch : GuardedDisk Bool := do
  return (← readTable tableStart) == (← readTable mirrorStart)

namespace Guarded.Check

open FatVolume.Check (checkDots childPath)

/-- Marks a block as owned. -/
def mark (owned : List Bool) (block : Nat) : Except Fault (List Bool) :=
  if block < owned.length then return owned.set block true else throw .outOfRange

/-- Gives a block of the volume itself its owner. -/
def reserve (table : Table) (owned : List Bool) (block : Nat) : GuardedReading (List Bool) := do
  if (← ExceptT.lift (item table block)) ≠ .last then
    throw (.corrupted (.reservedNotAllocated block))
  ExceptT.lift (mark owned block)

/-- Gives a block to an owner, the first it has. -/
def claimBlock (owner : String) (owned : List Bool) (block : Nat) : GuardedReading (List Bool) := do
  if ← ExceptT.lift (item owned block) then throw (.corrupted (.blockShared block owner))
  ExceptT.lift (mark owned block)

variable (image : Image)

/-- What an action that only reads gives on the image. -/
def onImage {α : Type} (action : GuardedDisk α) : GuardedReading α :=
  ExceptT.mk ((action.runIn Image.serve image).map Prod.fst)

/-- Gives the chain that starts at `first` to an owner.  Returns the owned blocks and the number of
blocks of the chain. -/
def claim (owned : List Bool) (first : Nat) (owner : String) :
    GuardedReading (List Bool × Nat) := do
  let blocks ← onImage image (Allocation.chain first)
  return (← blocks.foldlM (claimBlock owner) owned, blocks.length)

/-- Checks an entry of the directory at `path` apart from what lies below it. -/
def checkEntry (owned : List Bool) (names : List String) (path : String) (record : Record) :
    GuardedReading (List Bool) := do
  let name := record.fullName
  let child := childPath path name
  if record.isDot then throw (.corrupted (.dotStray child))
  if names.contains name then throw (.corrupted (.nameDuplicate child))
  let (owned, blocks) ← claim image owned record.first.toNat child
  let length := record.length.toNat
  if blocks ≠ blocksFor length then throw (.corrupted (.spanWrong child blocks length))
  return owned

/-- The records of the directory that starts at `first`, once its first two slots are checked. -/
def records (path : String) (first parent : UInt16) : GuardedReading (List Record) := do
  let slots ← onImage image (Directory.slots first.toNat)
  onImage image (checkDots slots path first parent : DiskM Unit)
  return ((slots.drop 2).map Entry.record).filter Record.occupied

/-- Checks the directory at `path` and all below it. -/
def checkDirectory (owned : List Bool) (path : String) (first parent : UInt16) :
    GuardedReading (List Bool) := do
  let step (state : List Bool × List String) (record : Record) :
      GuardedReading (List Bool × List String) := do
    let claimed ← checkEntry image state.1 state.2 path record
    let names := record.fullName :: state.2
    if record.isDirectory then
      let child := childPath path record.fullName
      if claimed.count false < owned.count false then
        return (← checkDirectory claimed child record.first first, names)
      else throwThe Fault .stuck
    else
      return (claimed, names)
  let listed ← records image path first parent
  return (← listed.foldlM step (owned, [])).1
termination_by owned.count false

/-- A way to check the directory at a path when the flagged blocks are owned. -/
abbrev Visit : Type :=
  (owned : List Bool) → (path : String) → (first parent : UInt16) → GuardedReading (List Bool)

/-- One turn of the loop over the records of the directory at `path`, which starts at `first`.  A
directory in it is checked by `visit`, if fewer than `unowned` blocks have no owner. -/
def step (visit : Visit) (unowned : Nat) (path : String) (first : UInt16)
    (state : List Bool × List String) (record : Record) :
    GuardedReading (List Bool × List String) := do
  let claimed ← checkEntry image state.1 state.2 path record
  let names := record.fullName :: state.2
  if record.isDirectory then
    let child := childPath path record.fullName
    if claimed.count false < unowned then
      return (← visit claimed child record.first first, names)
    else throwThe Fault .stuck
  else
    return (claimed, names)

/-- Checks the directory at `path`, and each directory in it by `visit`. -/
def checkDirectoryBy (visit : Visit) : Visit := fun owned path first parent => do
  let listed ← records image path first parent
  return (← listed.foldlM (step image visit (owned.count false) path first) (owned, [])).1

theorem checkDirectory_eq (owned : List Bool) (path : String) (first parent : UInt16) :
  checkDirectory image owned path first parent
    = checkDirectoryBy image (checkDirectory image) owned path first parent
  := by
  rw [checkDirectory]
  rfl

/-- Checks a volume whose root directory starts at block `root` and counts its blocks. -/
def run (root : UInt16) : GuardedReading Usage := do
  if !(← onImage image Allocation.mirrorsMatch) then throw (.corrupted .tableCopiesDiffer)
  let table ← onImage image (Allocation.readTable tableStart)
  let owned ← (List.range reservedSpan).foldlM (reserve table) (List.replicate numBlocks false)
  let (owned, span) ← claim image owned root.toNat Path.root
  if span ≠ rootSpan then throw (.corrupted .rootSpanWrong)
  let owned ← checkDirectory image owned Path.root root root
  let used := table.countP (· ≠ .free)
  let owners := owned.count true
  if used ≠ owners then throw (.corrupted (.unreachable (← ExceptT.lift (sub used owners))))
  return { total := numBlocks, used, free := ← ExceptT.lift (sub numBlocks used) }

end Guarded.Check

/-! ### Following an action -/

section Following

open DiskM

variable {α β γ δ : Type} {image : Image} {check : GuardedReading β} {action : DiskM α}
  {R : α → β → Prop}

/-- The computation ends as the action does on the image, which the action leaves as it is: with the
same error or with a related result. -/
inductive Follows (image : Image) (check : GuardedReading β) (action : DiskM α)
    (R : α → β → Prop) : Prop
  | returns {a : α} {b : β} (related : R a b) (check_eq : check = pure b)
      (exec_eq : action.exec image = (.ok a, image))
  | fails {e : Error} (check_eq : check = throwThe Error e)
      (exec_eq : action.exec image = (.error e, image))

theorem follows_pure {a : α} {b : β} (related : R a b) :
  Follows image (pure b) (pure a) R
  := .returns related rfl rfl

theorem follows_fail (cause : Corruption) :
  Follows image (throwThe Error (.corrupted cause)) (Check.fail cause : DiskM α) R
  := .fails rfl rfl

theorem Follows.mono {R' : α → β → Prop} (h : Follows image check action R)
    (implies : ∀ a b, R a b → action.exec image = (.ok a, image) → R' a b) :
  Follows image check action R'
  := by
  rcases h with ⟨related, check_eq, exec_eq⟩ | ⟨check_eq, exec_eq⟩
  · exact .returns (implies _ _ related exec_eq) check_eq exec_eq
  · exact .fails check_eq exec_eq

theorem Follows.bind {Q : γ → δ → Prop} {next : β → GuardedReading δ} {further : α → DiskM γ}
    (h : Follows image check action R)
    (h' : ∀ a b, R a b → Follows image (next b) (further a) Q) :
  Follows image (check >>= next) (action >>= further) Q
  := by
  rcases h with ⟨related, rfl, exec_eq⟩ | ⟨rfl, exec_eq⟩
  · rw [pure_bind]
    rcases h' _ _ related with ⟨related', check_eq, exec_eq'⟩ | ⟨check_eq, exec_eq'⟩
    · exact .returns related' check_eq (by rw [exec_bind_of_ok exec_eq, exec_eq'])
    · exact .fails check_eq (by rw [exec_bind_of_ok exec_eq, exec_eq'])
  · exact .fails rfl (exec_bind_of_error exec_eq)

/-- What the computation returns is related to a result of the action. -/
theorem Follows.of_pure {b : β} (h : Follows image check action R) (hcheck : check = pure b) :
  ∃ a, R a b ∧ action.exec image = (.ok a, image)
  := by
  rcases h with ⟨related, check_eq, exec_eq⟩ | ⟨check_eq, _⟩
  · obtain rfl := GuardedReading.pure_injective (check_eq.symm.trans hcheck)
    exact ⟨_, related, exec_eq⟩
  · exact (GuardedReading.throw_ne_pure (check_eq.symm.trans hcheck)).elim

/-- The computation ends, and no guard fails. -/
theorem Follows.ends (h : Follows image check action R) :
  ∃ result, check.run = .ok result
  := by
  rcases h with ⟨_, rfl, _⟩ | ⟨rfl, _⟩
  · exact ⟨_, rfl⟩
  · exact ⟨_, rfl⟩

/-- The computation has the result of the action. -/
theorem Follows.run_eq {check : GuardedReading α}
    (h : Follows image check action fun a b => b = a) :
  check.run = .ok (action.exec image).1
  := by
  rcases h with ⟨rfl, rfl, exec_eq⟩ | ⟨rfl, exec_eq⟩
  · rw [exec_eq]
    rfl
  · rw [exec_eq]
    rfl

/-- A guard that holds lets the computation go on. -/
theorem Follows.guard {partially : Except Fault γ} {c : γ} {next : γ → GuardedReading β}
    (h : partially = .ok c) (h' : Follows image (next c) action R) :
  Follows image (ExceptT.lift partially >>= next) action R
  := by
  rw [h]
  exact h'

/-- What goes on only under a condition follows if the rest does under this condition. -/
theorem follows_unless {p : Prop} [Decidable p] {cause : Corruption}
    (h : ¬p → Follows image check action R) :
  Follows image
    (if p then (throwThe Error (.corrupted cause) : GuardedReading PUnit) >>= fun _ => check
      else check)
    (if p then (Check.fail cause : DiskM PUnit) >>= fun _ => action else action) R
  := by
  split_ifs with hp
  · exact (follows_fail (R := fun _ _ => False) cause).bind fun _ _ impossible => impossible.elim
  · exact h hp

theorem follows_foldlM {turn : β → γ → GuardedReading β} {step : α → γ → DiskM α} {list : List γ}
    (h : ∀ a b c, R a b → Follows image (turn b c) (step a c) R) {a : α} {b : β}
    (related : R a b) :
  Follows image (list.foldlM turn b) (list.foldlM step a) R
  := by
  induction list generalizing a b with
  | nil => exact follows_pure related
  | cons c rest ih =>
      rw [List.foldlM_cons, List.foldlM_cons]
      exact (h a b c related).bind fun a' b' related' => ih related'

/-- An action that does not fault and leaves every image as it is gives its result. -/
theorem follows_onImage {guarded : GuardedDisk α} {P : α → Prop}
    (faultless : Faultless guarded action P) (readOnly : action.ReadOnly) :
  Follows image (Guarded.Check.onImage image guarded) action fun a b => b = a
  := by
  have run : guarded.runIn Image.serve image = .ok (action.exec image) :=
    faultless.runIn_eq Image.serve image
  unfold Guarded.Check.onImage
  rw [run]
  have hexec := readOnly.exec_eq image
  rcases hresult : (action.exec image).1 with e | a
  · rw [hresult] at hexec
    exact .fails (by rw [hexec]; rfl) hexec
  · rw [hresult] at hexec
    exact .returns rfl (by rw [hexec]; rfl) hexec

end Following

/-! ### Flags -/

namespace Check

open DiskM Guarded

/-- The flags of the blocks of a disk: whether they are owned. -/
def flags (owned : Owned) : List Bool :=
  (List.range' 0 numBlocks).map owned.contains

variable {owned : Owned} {block : Nat}

theorem length_flags (owned : Owned) :
  (flags owned).length = numBlocks
  := by
  rw [flags, List.length_map, List.length_range']

theorem getElem_flags (h : block < (flags owned).length) :
  (flags owned)[block] = owned.contains block
  := by
  simp only [flags, List.getElem_map, List.getElem_range', zero_add, one_mul]

theorem getElem?_flags (h : block < numBlocks) :
  (flags owned)[block]? = some (owned.contains block)
  := by
  rw [List.getElem?_eq_getElem (h.trans_eq (length_flags owned).symm), getElem_flags]

/-- Flags depend only on which blocks are owned. -/
theorem flags_congr {owned' : Owned} (same : ∀ b, b ∈ owned ↔ b ∈ owned') :
  flags owned = flags owned'
  := by
  unfold flags
  apply List.map_congr_left
  intro b _
  rw [Bool.eq_iff_iff, List.contains_iff_mem, List.contains_iff_mem, same]

theorem flags_nil :
  flags [] = List.replicate numBlocks false
  := by
  have unowned : ∀ flag ∈ flags [], flag = false := by
    intro flag hflag
    obtain ⟨b, -, rfl⟩ := List.mem_map.mp hflag
    rfl
  rw [List.eq_replicate_of_mem unowned, length_flags]

/-- One more block is owned once its flag is set. -/
theorem flags_cons (owned : Owned) (block : Nat) :
  (flags owned).set block true = flags (block :: owned)
  := by
  apply List.ext_getElem
  · rw [List.length_set, length_flags, length_flags]
  · intro b _ _
    rw [List.getElem_set, getElem_flags, getElem_flags, List.contains_cons]
    split_ifs with same
    · rw [same, beq_self_eq_true, Bool.true_or]
    · rw [beq_eq_false_iff_ne.mpr (Ne.symm same), Bool.false_or]

theorem item_flags (h : block < numBlocks) :
  item (flags owned) block = .ok (owned.contains block)
  := by
  rw [item, getElem?_flags h]

theorem mark_flags (h : block < numBlocks) :
  Guarded.Check.mark (flags owned) block = .ok (flags (block :: owned))
  := by
  rw [Guarded.Check.mark, length_flags, if_pos h, flags_cons]
  rfl

/-- Blocks that are marked one by one, each unless something is wrong with it, are all marked, or
the computation fails because of the first one with which something is wrong. -/
theorem foldlM_flags {turn : List Bool → Nat → GuardedReading (List Bool)} {wrong : Nat → Bool}
    {cause : Nat → Corruption} {blocks : List Nat} (nodup : blocks.Nodup)
    (h : ∀ (current : Owned) (block : Nat), block ∈ blocks → (block ∈ current ↔ block ∈ owned) →
      turn (flags current) block
        = if wrong block then throwThe Error (.corrupted (cause block))
          else pure (flags (block :: current))) :
  blocks.foldlM turn (flags owned)
    = match blocks.find? wrong with
      | some block => throwThe Error (.corrupted (cause block))
      | none => pure (flags (blocks ++ owned))
  := by
  suffices general : ∀ current : Owned, (∀ b ∈ blocks, b ∈ current ↔ b ∈ owned) →
      blocks.foldlM turn (flags current)
        = match blocks.find? wrong with
          | some block => throwThe Error (.corrupted (cause block))
          | none => pure (flags (blocks ++ current)) from
    general owned fun _ _ => Iff.rfl
  induction blocks with
  | nil => exact fun _ _ => rfl
  | cons block rest ih =>
      intro current same
      have notMem : block ∉ rest := (List.nodup_cons.mp nodup).1
      rw [List.foldlM_cons, h current block List.mem_cons_self (same block List.mem_cons_self),
        List.find?_cons]
      cases wrong block with
      | true => rfl
      | false =>
          -- The blocks left are marked as they were, since none of them is this one.
          have same' : ∀ b ∈ rest, b ∈ block :: current ↔ b ∈ owned := by
            intro b hb
            have differs : b ≠ block := ne_of_mem_of_not_mem hb notMem
            rw [List.mem_cons, or_iff_right differs, same b (List.mem_cons_of_mem _ hb)]
          have further := ih (List.nodup_cons.mp nodup).2
            (fun c b hb => h c b (List.mem_cons_of_mem _ hb)) (block :: current) same'
          have marked : flags (rest ++ block :: current) = flags (block :: rest ++ current) := by
            apply flags_congr
            simp only [List.cons_append, List.mem_append, List.mem_cons]
            tauto
          rw [← marked]
          exact further

/-! ### The guards hold -/

/-- The owned blocks are allocated, and each has been given to an owner once. -/
structure Allotted (image : Image) (owned : Owned) : Prop where
  nodup : owned.Nodup
  allocated : owned ⊆ image.table.allocated

variable {image : Image}

namespace Allotted

theorem lt (h : Allotted image owned) {b : Nat} (hb : b ∈ owned) :
  b < numBlocks
  := by
  obtain ⟨entry, hentry, -⟩ := Table.mem_allocated.mp (h.allocated hb)
  exact (List.getElem?_eq_some_iff.mp hentry).1.trans_eq image.length_table

/-- There are no more owned blocks than allocated ones. -/
theorem length_le_countP (h : Allotted image owned) :
  owned.length ≤ image.table.countP (· ≠ .free)
  := by
  rw [← Table.length_allocated]
  exact (List.subperm_of_subset h.nodup h.allocated).length_le

theorem length_le (h : Allotted image owned) :
  owned.length ≤ numBlocks
  := h.length_le_countP.trans (List.countP_le_length.trans_eq image.length_table)

/-- Every owned block has one flag. -/
theorem count_flags (h : Allotted image owned) :
  (flags owned).count true = owned.length
  := by
  have perm : ((List.range' 0 numBlocks).filter owned.contains).Perm owned := by
    apply (List.perm_ext_iff_of_nodup ((List.nodup_range' 1).filter _) h.nodup).mpr
    intro b
    rw [List.mem_filter, List.mem_range'_1, List.contains_iff_mem, and_iff_right_iff_imp]
    intro hb
    have := h.lt hb
    omega
  rw [flags, List.count, List.countP_map, ← perm.length_eq, ← List.countP_eq_length_filter]
  apply List.countP_congr
  simp

/-- Where more blocks are owned, fewer are not. -/
theorem count_false_lt {owned' : Owned} (h' : Allotted image owned') (h : Allotted image owned)
    (longer : owned.length < owned'.length) :
  (flags owned').count false < (flags owned).count false
  := by
  have whole := List.count_true_add_count_false (flags owned)
  have whole' := List.count_true_add_count_false (flags owned')
  rw [h.count_flags, length_flags] at whole
  rw [h'.count_flags, length_flags] at whole'
  omega

/-- A chain of which no block is owned may be given to an owner. -/
theorem append (h : Allotted image owned) {first : Nat} {blocks : List Nat}
    (chain : image.table.IsChain first blocks) (apart : blocks.Disjoint owned) :
  Allotted image (blocks ++ owned)
  := by
  refine ⟨chain.nodup.append h.nodup apart, List.append_subset.mpr ⟨?_, h.allocated⟩⟩
  intro b hb
  exact Table.mem_allocated.mpr (chain.exists_entry hb)

end Allotted

/-- More blocks are owned than before, all of them allotted, and the flags tell which. -/
structure Extends (image : Image) (before owned : Owned) (current : List Bool) : Prop where
  suffix : before <:+ owned
  allotted : Allotted image owned
  flags_eq : current = flags owned

theorem Extends.refl (h : Allotted image owned) :
  Extends image owned owned (flags owned)
  := ⟨List.suffix_refl owned, h, rfl⟩

namespace Extends

variable {middle last : Owned} {current current' : List Bool}

theorem trans (h : Extends image owned middle current) (h' : Extends image middle last current') :
  Extends image owned last current'
  := ⟨h.suffix.trans h'.suffix, h'.allotted, h'.flags_eq⟩

/-- More blocks are owned if one of them was not owned before. -/
theorem length_lt (h : Extends image owned last current) {b : Nat} (mem : b ∈ last)
    (notMem : b ∉ owned) :
  owned.length < last.length
  := by
  refine lt_of_le_of_ne h.suffix.length_le ?_
  intro same
  rw [h.suffix.eq_of_length same] at notMem
  exact notMem mem

end Extends

theorem foldlM_claimBlock {blocks : List Nat} (nodup : blocks.Nodup)
    (within : ∀ block ∈ blocks, block < numBlocks) (owner : String) :
  blocks.foldlM (Guarded.Check.claimBlock owner) (flags owned)
    = match blocks.find? owned.contains with
      | some block => throwThe Error (.corrupted (.blockShared block owner))
      | none => pure (flags (blocks ++ owned))
  := by
  apply foldlM_flags nodup
  intro current block hblock same
  have contains : current.contains block = owned.contains block := by
    rw [Bool.eq_iff_iff, List.contains_iff_mem, List.contains_iff_mem, same]
  rw [Guarded.Check.claimBlock, item_flags (within block hblock), contains,
    mark_flags (within block hblock)]
  cases owned.contains block <;> rfl

/-- What claims a chain gets the block at which it starts, which was not owned before. -/
theorem follows_claim (h : Allotted image owned) (first : Nat) (owner : String) :
  Follows image (Guarded.Check.claim image (flags owned) first owner) (claim owned first owner)
    fun a b => Extends image owned a.1 b.1 ∧ b.2 = a.2 ∧ first ∈ a.1 ∧ first ∉ owned
  := by
  have chained : Follows image
      (Guarded.Check.onImage image (Guarded.Allocation.chain first)) (Allocation.chain first)
      fun a b => b = a ∧ image.table.IsChain first a := by
    apply (follows_onImage (Allocation.faultless_chain first)
      (Allocation.uses_chain (Set.mem_singleton _) first).readOnly).mono
    intro a b same hexec
    rw [Allocation.exec_chain] at hexec
    exact ⟨same, Image.chain_eq_ok_iff.mp (congrArg Prod.fst hexec)⟩
  apply chained.bind
  rintro _ blocks ⟨rfl, isChain⟩
  have within : ∀ block ∈ blocks, block < numBlocks :=
    fun block hblock => (isChain.lt_length hblock).trans_eq image.length_table
  rw [foldlM_claimBlock isChain.nodup within]
  cases hfind : blocks.find? owned.contains with
  | some block => exact .fails rfl rfl
  | none =>
      have apart : blocks.Disjoint owned := by
        intro b hb
        simpa using List.find?_eq_none.mp hfind b hb
      refine .returns ⟨⟨List.suffix_append _ _, h.append isChain apart, rfl⟩, rfl, ?_⟩ rfl rfl
      exact ⟨List.mem_append_left _ isChain.first_mem, apart isChain.first_mem⟩

theorem follows_checkEntry (h : Allotted image owned) (names : List String) (path : String)
    (record : Record) :
  Follows image (Guarded.Check.checkEntry image (flags owned) names path record)
    (checkEntry owned names path record)
    fun a b => Extends image owned a b ∧ record.first.toNat ∈ a ∧ record.first.toNat ∉ owned
  := by
  apply follows_unless
  intro _
  apply follows_unless
  intro _
  apply (follows_claim h _ _).bind
  rintro ⟨claimed, _⟩ ⟨current, blocks⟩ ⟨grown, rfl, fresh⟩
  apply follows_unless
  intro _
  exact follows_pure ⟨grown, fresh⟩

/-- The loop over the records of a directory follows the bounded one if the check of what lies
below does. -/
theorem follows_foldlM_step {depth : Nat} {first : UInt16} {records : List Record}
    (below : ∀ (path : String) (first parent : UInt16) {owned' : Owned},
      Allotted image owned' → owned.length < owned'.length →
      Follows image (Guarded.Check.checkDirectory image (flags owned') path first parent)
        (checkDirectory depth owned' path first parent) (Extends image owned'))
    (h : Allotted image owned) :
  Follows image
    (records.foldlM (Guarded.Check.step image (Guarded.Check.checkDirectory image)
      ((flags owned).count false) path first) (flags owned, []))
    (records.foldlM (step depth path first) (owned, []))
    fun a b => Extends image owned a.1 b.1 ∧ b.2 = a.2
  := by
  apply follows_foldlM
  · intro ⟨middle, _⟩ ⟨current, names⟩ record ⟨grown, same⟩
    obtain rfl : names = _ := same
    have grown : Extends image owned middle current := grown
    obtain rfl := grown.flags_eq
    apply (follows_checkEntry grown.allotted names path record).bind
    intro claimed _ ⟨claims, mem, notMem⟩
    obtain rfl := claims.flags_eq
    have grown' := grown.trans claims
    dsimp only
    have longer := grown.suffix.length_le.trans_lt (claims.length_lt mem notMem)
    rw [if_pos (claims.allotted.count_false_lt h longer)]
    split_ifs with directory
    · apply (below _ record.first first claims.allotted longer).bind
      intro final _ further
      exact follows_pure ⟨grown'.trans further, rfl⟩
    · exact follows_pure ⟨grown', rfl⟩
  · exact ⟨.refl h, rfl⟩

/-- The check of a directory ends and follows the bounded one if the bound exceeds the number of
blocks that are not owned.  By induction on the bound: what is nested deeper owns more blocks. -/
theorem follows_checkDirectory {depth : Nat} (h : Allotted image owned)
    (enough : numBlocks < owned.length + depth) (path : String) (first parent : UInt16) :
  Follows image (Guarded.Check.checkDirectory image (flags owned) path first parent)
    (checkDirectory depth owned path first parent) (Extends image owned)
  := by
  induction depth generalizing owned path first parent with
  | zero =>
      have := h.length_le
      omega
  | succ depth ih =>
      rw [Guarded.Check.checkDirectory_eq, Guarded.Check.checkDirectoryBy, Guarded.Check.records,
        checkDirectory_succ, bind_assoc]
      apply (follows_onImage (Directory.faultless_slots first.toNat)
        (Directory.uses_slots (Set.mem_singleton _) first.toNat).readOnly).bind
      rintro _ slots rfl
      rw [bind_assoc]
      apply (follows_onImage (faultless_lift (returns_true _))
        (uses_checkDots slots path first parent).readOnly).bind
      intro _ _ _
      rw [pure_bind]
      have below (path : String) (first parent : UInt16) {owned' : Owned}
          (allotted : Allotted image owned') (longer : owned.length < owned'.length) :=
        ih allotted (by omega) path first parent
      apply (follows_foldlM_step below h).bind
      intro _ _ ⟨grown, _⟩
      exact follows_pure grown

/-- The blocks of the volume itself are marked, unless one of them is not the last of its chain. -/
theorem foldlM_reserve (image : Image) :
  (List.range reservedSpan).foldlM (Guarded.Check.reserve image.table)
      (List.replicate numBlocks false)
    = match (List.range reservedSpan).find? (image.table[·]? ≠ some .last) with
      | some block => throwThe Error (.corrupted (.reservedNotAllocated block))
      | none => pure (flags (List.range reservedSpan))
  := by
  have turns (current : Owned) (block : Nat) (hblock : block ∈ List.range reservedSpan)
      (_ : block ∈ current ↔ block ∈ ([] : Owned)) :
      Guarded.Check.reserve image.table (flags current) block
        = if decide (image.table[block]? ≠ some .last) then
            throwThe Error (.corrupted (.reservedNotAllocated block))
          else pure (flags (block :: current)) := by
    have within : block < numBlocks := (List.mem_range.mp hblock).trans (by decide)
    have hlt : block < image.table.length := within.trans_eq image.length_table.symm
    rw [Guarded.Check.reserve, item_eq hlt, mark_flags within, List.getElem?_eq_getElem hlt]
    generalize image.table[block] = entry
    cases entry <;> rfl
  have marked := foldlM_flags List.nodup_range turns
  rwa [flags_nil, List.append_nil] at marked

/-- The blocks of the volume itself are allotted if each of them is the last of its chain. -/
theorem allotted_reserved
    (h : (List.range reservedSpan).find? (image.table[·]? ≠ some .last) = none) :
  Allotted image (List.range reservedSpan)
  := by
  refine ⟨List.nodup_range, ?_⟩
  intro b hb
  have last := find?_reserved_eq_none_iff.mp h b (List.mem_range.mp hb)
  exact Table.mem_allocated.mpr ⟨.last, last, by decide⟩

theorem faultless_mirrorsMatch :
  Faultless Guarded.Allocation.mirrorsMatch Allocation.mirrorsMatch fun _ => True
  := by
  apply (Allocation.faultless_readTable (by decide)).bind
  intro table _
  apply (Allocation.faultless_readTable (by decide)).bind
  intro mirror _
  exact faultless_pure trivial

theorem follows_readTable (image : Image) :
  Follows image (Guarded.Check.onImage image (Guarded.Allocation.readTable tableStart))
    (Allocation.readTable tableStart) fun a b => b = image.table ∧ a = image.table
  := by
  apply (follows_onImage (Allocation.faultless_readTable (by decide))
    (Allocation.uses_readTable (Set.mem_singleton _) _).readOnly).mono
  rintro a _ rfl hexec
  rw [Allocation.exec_readTable_tableStart] at hexec
  have same := Except.ok.inj (congrArg Prod.fst hexec)
  exact ⟨same.symm, same.symm⟩

/-- Without a bound, and with guards that all hold, the check has the result that it has with. -/
theorem follows_run (image : Image) (root : UInt16) :
  Follows image (Guarded.Check.run image root) (run root) fun a b => b = a
  := by
  apply (follows_onImage faultless_mirrorsMatch
    (Allocation.uses_mirrorsMatch (Set.mem_singleton _)).readOnly).bind
  rintro _ same rfl
  apply follows_unless
  intro _
  apply (follows_readTable image).bind
  rintro _ _ ⟨rfl, rfl⟩
  rw [foldlM_reserve]
  dsimp only
  cases hfind : (List.range reservedSpan).find? (image.table[·]? ≠ some .last) with
  | some block => exact .fails rfl rfl
  | none =>
      rw [pure_bind]
      apply (follows_claim (allotted_reserved hfind) _ _).bind
      intro ⟨claimed, _⟩ ⟨current, span⟩ ⟨grown, same, _⟩
      obtain rfl : span = _ := same
      obtain rfl : current = flags claimed := grown.flags_eq
      apply follows_unless
      intro _
      apply (follows_checkDirectory grown.allotted (by omega) _ _ _).bind
      intro owned _ further
      obtain rfl := further.flags_eq
      rw [image.table.length_sub_countFree, further.allotted.count_flags]
      have few : image.table.countP (· ≠ .free) ≤ numBlocks :=
        List.countP_le_length.trans_eq image.length_table
      split_ifs with count
      · apply Follows.guard (sub_eq further.allotted.length_le_countP)
        exact .fails rfl rfl
      · apply Follows.guard (sub_eq few)
        exact .returns rfl rfl rfl

end Check

end FatVolume
