import FatVolume.Proofs.GuardedCheck

/-!
# Checks end

Checking a directory calls for checking those in it, and nothing on a disk keeps directories from
holding themselves.  Each call is preceded by a claim of the block at which its directory starts,
which no one owned before, and only allocated blocks are owned; so calls are nested no deeper than a
disk has blocks.
-/

namespace FatVolume

/-! ### Calls -/

namespace Guarded.Check

open FatVolume.Check (childPath)

/-- A call to check the directory at `path`, below `level` others, when the flagged blocks are
owned. -/
structure Call where
  level : Nat
  owned : List Bool
  path : String
  first : UInt16
  parent : UInt16

variable (image : Image)

/-- What a call returns. -/
def Call.result (call : Call) : GuardedReading (List Bool) :=
  checkDirectory image call.owned call.path call.first call.parent

/-- A call makes another one for a directory in its own; before the claim of that directory the
blocks flagged in `prior` are owned. -/
inductive Calls (caller : Call) : (prior : List Bool) → Call → Prop
  | turn {before after : List Record} {record : Record} {prior owned : List Bool}
      {names : List String}
      (listed : records image caller.path caller.first caller.parent
        = pure (before ++ record :: after))
      (earlier : before.foldlM
        (step image (checkDirectory image) (caller.owned.count false) caller.path caller.first)
        (caller.owned, []) = pure (prior, names))
      (claimed : checkEntry image prior names caller.path record = pure owned)
      (directory : record.isDirectory = true) :
      Calls caller prior
        ⟨caller.level + 1, owned, childPath caller.path record.fullName, record.first, caller.first⟩

/-- A call is made in the check of a volume whose root directory starts at block `root`; before the
claim of its directory the blocks flagged in `prior` are owned. -/
inductive Enters (root : UInt16) : (prior : List Bool) → Call → Prop
  | root {table : Table} {prior owned : List Bool}
      (mirrored : onImage image Allocation.mirrorsMatch = pure true)
      (consulted : onImage image (Allocation.readTable tableStart) = pure table)
      (reserved : (List.range reservedSpan).foldlM (reserve table) (List.replicate numBlocks false)
        = pure prior)
      (claimed : claim image prior root.toNat Path.root = pure (owned, rootSpan)) :
      Enters root prior ⟨0, owned, Path.root, root, root⟩
  | nested {prior prior' : List Bool} {caller call : Call} (entered : Enters root prior caller)
      (calls : Calls image caller prior' call) :
      Enters root prior' call

variable {image : Image}

/-- A call depends on the calls that it makes and on no others: it returns the same whatever `visit`
does where it is not called. -/
theorem checkDirectoryBy_congr {visit : Visit} {caller : Call}
    (h : ∀ {prior call}, Calls image caller prior call →
      visit call.owned call.path call.first call.parent = call.result image) :
  checkDirectoryBy image visit caller.owned caller.path caller.first caller.parent
    = caller.result image
  := by
  rw [Call.result, checkDirectory_eq, checkDirectoryBy, checkDirectoryBy]
  apply GuardedReading.bind_congr
  intro listed hlisted
  rw [GuardedReading.foldlM_congr]
  intro before record after state split earlier
  rw [split] at hlisted
  apply GuardedReading.bind_congr
  intro owned claimed
  dsimp only
  split_ifs with directory
  · have returned := h (.turn hlisted earlier claimed directory)
    dsimp only at returned
    rw [returned]
    rfl
  · rfl
  · rfl

end Guarded.Check

/-! ### Claims -/

namespace Check

open Guarded.Check (Call Calls Enters checkDirectoryBy checkDirectoryBy_congr)

variable {image : Image} {root : UInt16} {prior : List Bool} {caller call : Call}
  {before owned : Owned}

theorem getElem?_flags_eq_true {b : Nat} :
  (flags owned)[b]? = some true ↔ b < numBlocks ∧ b ∈ owned
  := by
  by_cases hb : b < numBlocks
  · rw [getElem?_flags hb, Option.some.injEq, List.contains_iff_mem, and_iff_right hb]
  · rw [List.getElem?_eq_none (by rw [length_flags]; omega)]
    simp [hb]

theorem Extends.mem_allocated {current : List Bool} (h : Extends image before owned current)
    {b : Nat} (hb : current[b]? = some true) :
  b ∈ image.table.allocated
  := by
  rw [h.flags_eq, getElem?_flags_eq_true] at hb
  exact h.allotted.allocated hb.2

/-- The blocks of the directory of a call have been claimed, and none of them was owned before. -/
structure Claims (image : Image) (prior : List Bool) (call : Call) (before owned : Owned) :
    Prop where
  prior_eq : prior = flags before
  grown : Extends image before owned call.owned
  mem : call.first.toNat ∈ owned
  notMem : call.first.toNat ∉ before

/-- What a call claims is added to what was owned when its caller was called. -/
theorem claims_of_calls (h : Calls image caller prior call) (allotted : Allotted image owned)
    (flagged : caller.owned = flags owned) :
  ∃ before after, owned <:+ before ∧ Claims image prior call before after
    ∧ call.level = caller.level + 1
  := by
  cases h with
  | turn _ earlier claimed _ =>
      rw [flagged] at earlier
      have below (path : String) (first parent : UInt16) {middle : Owned}
          (h : Allotted image middle) (longer : owned.length < middle.length) :=
        have enough : numBlocks < middle.length + numBlocks := by omega
        follows_checkDirectory h enough path first parent
      obtain ⟨⟨before, _⟩, ⟨grown, _⟩, -⟩ := (follows_foldlM_step below allotted).of_pure earlier
      obtain rfl := grown.flags_eq
      obtain ⟨after, ⟨grown', mem, notMem⟩, -⟩ :=
        (follows_checkEntry grown.allotted _ _ _).of_pure claimed
      exact ⟨before, after, grown.suffix, ⟨rfl, grown', mem, notMem⟩, rfl⟩

/-- Every call has claimed its directory, and more blocks are owned than there are calls above it.
By induction on how the call is entered. -/
theorem exists_claims (h : Enters image root prior call) :
  ∃ before owned, Claims image prior call before owned ∧ call.level < owned.length
  := by
  induction h with
  | root _ consulted reserved claimed =>
      obtain ⟨_, ⟨rfl, -⟩, -⟩ := (follows_readTable image).of_pure consulted
      rw [foldlM_reserve] at reserved
      cases hfind : (List.range reservedSpan).find? (image.table[·]? ≠ some .last) with
      | some block =>
          rw [hfind] at reserved
          exact (GuardedReading.throw_ne_pure reserved).elim
      | none =>
          rw [hfind] at reserved
          obtain rfl := GuardedReading.pure_injective reserved
          obtain ⟨⟨owned, _⟩, ⟨grown, _, mem, notMem⟩, -⟩ :=
            (follows_claim (allotted_reserved hfind) _ _).of_pure claimed
          exact ⟨_, owned, ⟨rfl, grown, mem, notMem⟩, List.length_pos_of_mem mem⟩
  | nested _ calls ih =>
      obtain ⟨_, owned, claims, deep⟩ := ih
      obtain ⟨before, after, suffix, claims', level⟩ :=
        claims_of_calls calls claims.grown.allotted claims.grown.flags_eq
      have longer := claims'.grown.length_lt claims'.mem claims'.notMem
      have := suffix.length_le
      exact ⟨before, after, claims', by omega⟩

/-- A call that has claimed its directory ends. -/
theorem Claims.follows_result (h : Claims image prior call before owned) :
  Follows image (call.result image)
    (checkDirectory (numBlocks + 1) owned call.path call.first call.parent) (Extends image owned)
  := by
  rw [Call.result, h.grown.flags_eq]
  exact follows_checkDirectory h.grown.allotted (by omega) call.path call.first call.parent

/-! ### Every check ends -/

/-- A check of the image ends, and nothing that happens in it is out of bounds. -/
structure EndsInBounds (image : Image) (root : UInt16) : Prop where
  /-- No guard fails, so each call leaves fewer blocks without an owner to those that it makes; and
  without a bound on the depth the check has the result that it has with one. -/
  run_eq : (Guarded.Check.run image root).run = .ok ((run root).exec image).1
  /-- No guard fails in any call. -/
  returns : ∀ {prior : List Bool} {call : Call}, Enters image root prior call →
    ∃ result, (call.result image).run = .ok result
  /-- What a call returns depends on the calls that it makes, and on nothing else that `visit`
  does. -/
  calls : ∀ {visit : Guarded.Check.Visit} {caller : Call},
    (∀ {prior : List Bool} {call : Call}, Calls image caller prior call →
      visit call.owned call.path call.first call.parent = call.result image) →
    checkDirectoryBy image visit caller.owned caller.path caller.first caller.parent
      = caller.result image
  /-- A call is preceded by the claim of the block at which its directory starts, which no one owned
  before. -/
  claims : ∀ {prior : List Bool} {call : Call}, Enters image root prior call →
    prior[call.first.toNat]? = some false ∧ call.owned[call.first.toNat]? = some true
  /-- What is owned when a call is made is owned before and after each claim that follows in it. -/
  keeps : ∀ {prior prior' : List Bool} {caller call : Call}, Enters image root prior caller →
    Calls image caller prior' call → ∀ b : Nat, caller.owned[b]? = some true →
      prior'[b]? = some true ∧ call.owned[b]? = some true
  /-- Directories are nested at most as deep as a disk has blocks. -/
  level_lt : ∀ {prior : List Bool} {call : Call}, Enters image root prior call →
    call.level < numBlocks
  /-- Only allocated blocks are owned when a call is made. -/
  allocated : ∀ {prior : List Bool} {call : Call}, Enters image root prior call →
    ∀ b : Nat, call.owned[b]? = some true → b ∈ image.table.allocated
  /-- Only allocated blocks are owned when a call returns. -/
  returned_allocated : ∀ {prior owned : List Bool} {call : Call}, Enters image root prior call →
    call.result image = pure owned → ∀ b : Nat, owned[b]? = some true → b ∈ image.table.allocated

/-- Every check of every image ends. -/
theorem endsInBounds (image : Image) (root : UInt16) :
  EndsInBounds image root
  := by
  constructor
  case run_eq => exact (follows_run image root).run_eq
  case calls => exact checkDirectoryBy_congr
  case returns =>
    intro prior call entered
    obtain ⟨_, owned, claims, -⟩ := exists_claims entered
    exact claims.follows_result.ends
  case claims =>
    intro prior call entered
    obtain ⟨before, owned, claims, -⟩ := exists_claims entered
    have within : call.first.toNat < numBlocks := claims.grown.allotted.lt claims.mem
    rw [claims.prior_eq, claims.grown.flags_eq, getElem?_flags within, getElem?_flags within]
    simp [claims.mem, claims.notMem]
  case keeps =>
    intro prior prior' caller call entered calls b hb
    obtain ⟨_, owned, claims, -⟩ := exists_claims entered
    obtain ⟨before, after, suffix, claims', -⟩ :=
      claims_of_calls calls claims.grown.allotted claims.grown.flags_eq
    rw [claims.grown.flags_eq, getElem?_flags_eq_true] at hb
    have kept : b ∈ before := suffix.mem hb.2
    rw [claims'.prior_eq, claims'.grown.flags_eq, getElem?_flags_eq_true, getElem?_flags_eq_true]
    exact ⟨⟨hb.1, kept⟩, hb.1, claims'.grown.suffix.mem kept⟩
  case level_lt =>
    intro prior call entered
    obtain ⟨_, owned, claims, deep⟩ := exists_claims entered
    exact deep.trans_le claims.grown.allotted.length_le
  case allocated =>
    intro prior call entered b hb
    obtain ⟨_, owned, claims, -⟩ := exists_claims entered
    exact claims.grown.mem_allocated hb
  case returned_allocated =>
    intro prior owned' call entered returned b hb
    obtain ⟨_, owned, claims, -⟩ := exists_claims entered
    obtain ⟨final, grown, -⟩ := claims.follows_result.of_pure returned
    exact grown.mem_allocated hb

end Check

end FatVolume
