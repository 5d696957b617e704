import FatVolume.Proofs.ChainOperations

/-!
# Walks along a table

From a block the entries of a table lead to the end of a chain, to a free entry, out of the table,
or round in a cycle.  A walk does not remember which blocks it has passed but only how many, and
gives up when they are as many as the table has entries.  This is enough: it finds every chain, also
one through all blocks of the table, and it fails exactly where there is none.
-/

namespace FatVolume.Table

variable {table : Table} {first b c here : Nat} {blocks passed : List Nat}

/-! ### Following entries -/

/-- The entry of `b` points to `c`. -/
def Follows (table : Table) (b c : Nat) : Prop :=
  ∃ word : UInt16, table[b]? = some (.next word) ∧ word.toNat = c

/-- The blocks begin with `first`, each one points to the next, the last one ends the chain, and all
of them lie in the table. -/
structure Links (table : Table) (first : Nat) (blocks : List Nat) : Prop where
  head : blocks.head? = some first
  next : blocks.IsChain table.Follows
  final : ∃ b, blocks.getLast? = some b ∧ table[b]? = some .last
  inside : ∀ b ∈ blocks, b < table.length

/-- A chain is a list of blocks that are linked to its end. -/
theorem isChain_iff_links :
  table.IsChain first blocks ↔ table.Links first blocks
  := by
  constructor
  · intro h
    refine ⟨?_, ?_, ?_, fun b hb => h.lt_length hb⟩
    · obtain ⟨rest, rfl⟩ := h.eq_cons
      rfl
    · induction h with
      | last _ => exact .singleton _
      | next hnext hrest ih =>
          obtain ⟨more, rfl⟩ := hrest.eq_cons
          exact List.isChain_cons_cons.mpr ⟨⟨_, hnext, rfl⟩, ih⟩
    · induction h with
      | last hlast => exact ⟨_, rfl, hlast⟩
      | next _ hrest ih =>
          obtain ⟨more, rfl⟩ := hrest.eq_cons
          rwa [List.getLast?_cons_cons]
  · rintro ⟨head, next, ⟨final, hfinal, hlast⟩, -⟩
    induction blocks generalizing first with
    | nil => cases head
    | cons b rest ih =>
        obtain rfl : b = first := Option.some.inj head
        cases rest with
        | nil =>
            obtain rfl : b = final := Option.some.inj hfinal
            exact .last hlast
        | cons c more =>
            obtain ⟨⟨word, hword, rfl⟩, next⟩ := List.isChain_cons_cons.mp next
            rw [List.getLast?_cons_cons] at hfinal
            exact .next hword (ih rfl next hfinal)

/-- The entries lead from `first` to `b`. -/
abbrev Reaches (table : Table) : (first b : Nat) → Prop :=
  Relation.ReflTransGen table.Follows

/-- The entries lead to a free one. -/
def MeetsFree (table : Table) (first : Nat) : Prop :=
  ∃ b, table.Reaches first b ∧ table[b]? = some .free

/-- The entries lead out of the table. -/
def Leaves (table : Table) (first : Nat) : Prop :=
  ∃ b, table.Reaches first b ∧ table.length ≤ b

/-- The entries lead to a block from which they lead back to it. -/
def Cycles (table : Table) (first : Nat) : Prop :=
  ∃ b, table.Reaches first b ∧ Relation.TransGen table.Follows b b

namespace IsChain

/-- A block that another one follows is not the last of its chain, and the other one goes on with
the rest. -/
theorem of_follows (h : table.IsChain b blocks) (follows : table.Follows b c) :
  ∃ rest, blocks = b :: rest ∧ table.IsChain c rest
  := by
  obtain ⟨word, hword, rfl⟩ := follows
  cases h with
  | last hlast => simp [hlast] at hword
  | next hnext hrest =>
      obtain rfl : _ = _ := by simpa [hnext] using hword
      exact ⟨_, rfl, hrest⟩

/-- From the first block of a chain the entries lead to its blocks only. -/
theorem mem_of_reaches (h : table.IsChain first blocks) (reaches : table.Reaches first b) :
  b ∈ blocks
  := by
  induction reaches with
  | refl => exact h.first_mem
  | tail _ follows mem =>
      obtain ⟨suffix, hsuffix, hchain⟩ := h.exists_suffix mem
      obtain ⟨rest, rfl, hrest⟩ := hchain.of_follows follows
      exact hsuffix.mem (List.mem_cons_of_mem _ hrest.first_mem)

/-- Where the entries lead from a block, the rest of the chain is shorter. -/
theorem exists_shorter (h : table.IsChain b blocks) (leads : Relation.TransGen table.Follows b c) :
  ∃ rest, table.IsChain c rest ∧ rest.length < blocks.length
  := by
  induction leads with
  | single follows =>
      obtain ⟨rest, rfl, hrest⟩ := h.of_follows follows
      exact ⟨rest, hrest, Nat.lt_succ_self _⟩
  | tail _ follows ih =>
      obtain ⟨middle, hmiddle, shorter⟩ := ih
      obtain ⟨rest, rfl, hrest⟩ := hmiddle.of_follows follows
      exact ⟨rest, hrest, (Nat.lt_succ_self _).trans shorter⟩

/-- From the first block of a chain the entries lead nowhere else than to its end. -/
theorem not_breaks (h : table.IsChain first blocks) :
  ¬(table.MeetsFree first ∨ table.Leaves first ∨ table.Cycles first)
  := by
  rintro (⟨b, reaches, free⟩ | ⟨b, reaches, out⟩ | ⟨b, reaches, back⟩)
  · exact h.ne_free (h.mem_of_reaches reaches) free
  · exact Nat.not_lt.mpr out (h.lt_length (h.mem_of_reaches reaches))
  · obtain ⟨suffix, -, hchain⟩ := h.exists_suffix (h.mem_of_reaches reaches)
    obtain ⟨rest, hrest, shorter⟩ := hchain.exists_shorter back
    rw [hrest.unique hchain] at shorter
    exact Nat.lt_irrefl _ shorter

end IsChain

/-! ### Trails -/

/-- The entries lead from a block to `here` and pass the given blocks, in this order, before. -/
inductive Trail (table : Table) : (first : Nat) → (passed : List Nat) → (here : Nat) → Prop
  | start (b : Nat) : Trail table b [] b
  | next {b here : Nat} {c : UInt16} {passed : List Nat} (h : table[b]? = some (.next c))
      (rest : Trail table c.toNat passed here) : Trail table b (b :: passed) here

namespace Trail

/-- From a block that points to no other one there is no way on. -/
theorem eq_start (h : table.Trail b passed here) (stuck : ∀ c, table[b]? ≠ some (.next c)) :
  passed = [] ∧ here = b
  := by
  cases h with
  | start _ => exact ⟨rfl, rfl⟩
  | next hnext _ => exact absurd hnext (stuck _)

/-- From a block that points to another one a trail goes on with that one, if it goes on. -/
theorem of_next {c : UInt16} (h : table.Trail b passed here) (next : table[b]? = some (.next c)) :
  passed = [] ∧ here = b ∨ ∃ more, passed = b :: more ∧ table.Trail c.toNat more here
  := by
  cases h with
  | start _ => exact .inl ⟨rfl, rfl⟩
  | next hnext rest =>
      obtain rfl : _ = _ := by simpa [next] using hnext
      exact .inr ⟨_, rfl, rest⟩

/-- All blocks of a trail are reached. -/
theorem reaches (h : table.Trail first passed here) :
  ∀ b ∈ passed ++ [here], table.Reaches first b
  := by
  induction h with
  | start b =>
      intro c hc
      obtain rfl := List.mem_singleton.mp hc
      exact .refl
  | next hnext _ ih =>
      intro c hc
      rcases List.mem_cons.mp hc with rfl | hc
      · exact .refl
      · exact .head ⟨_, hnext, rfl⟩ (ih c hc)

/-- The blocks that were passed lie in the table. -/
theorem lt_length (h : table.Trail first passed here) :
  ∀ b ∈ passed, b < table.length
  := by
  induction h with
  | start _ => simp
  | next hnext _ ih =>
      intro c hc
      rcases List.mem_cons.mp hc with rfl | hc
      · exact (List.getElem?_eq_some_iff.mp hnext).1
      · exact ih c hc

/-- A trail that comes to a block twice goes round. -/
theorem cycles (h : table.Trail first passed here) (twice : ¬(passed ++ [here]).Nodup) :
  table.Cycles first
  := by
  induction h with
  | start b => simp at twice
  | @next b here c passed hnext rest ih =>
      rw [List.cons_append, List.nodup_cons, not_and_or, not_not] at twice
      rcases twice with back | twice
      · exact ⟨b, .refl, .head' ⟨c, hnext, rfl⟩ (rest.reaches b back)⟩
      · obtain ⟨d, reaches, round⟩ := ih twice
        exact ⟨d, .head ⟨c, hnext, rfl⟩ reaches, round⟩

/-- A trail with as many blocks as the table has entries leaves the table at its end, or goes
round: there are too few entries for one more block. -/
theorem leaves_or_cycles (h : table.Trail first passed here)
    (full : passed.length = table.length) :
  table.Leaves first ∨ table.Cycles first
  := by
  by_cases out : table.length ≤ here
  · exact .inl ⟨here, h.reaches here (by simp), out⟩
  · right
    apply h.cycles
    intro nodup
    have inside : passed ++ [here] ⊆ List.range table.length := by
      intro b hb
      rw [List.mem_range]
      rcases List.mem_append.mp hb with hb | hb
      · exact h.lt_length b hb
      · rw [List.mem_singleton.mp hb]
        exact Nat.lt_of_not_le out
    have bound := (nodup.subperm inside).length_le
    rw [List.length_append, List.length_range, full] at bound
    exact Nat.not_succ_le_self _ bound

end Trail

/-! ### Walks that break off -/

/-- Why a walk that may pass `fuel` blocks from `current` on does not come to the end of a chain.
Causes name the block `start` at which the whole walk started. -/
inductive Breaks (table : Table) (start fuel current : Nat) : (cause : Corruption) → Prop
  | reachesFree {passed : List Nat} {here : Nat} (trail : table.Trail current passed here)
      (short : passed.length < fuel) (free : table[here]? = some .free) :
      Breaks table start fuel current (.chainReachesFree start here)
  | leavesDisk {passed : List Nat} {here : Nat} (trail : table.Trail current passed here)
      (short : passed.length < fuel) (out : table[here]? = none) :
      Breaks table start fuel current (.chainLeavesDisk start)
  | loops {passed : List Nat} {here : Nat} (trail : table.Trail current passed here)
      (full : passed.length = fuel) :
      Breaks table start fuel current (.chainLoops start)

variable {start fuel : Nat} {cause : Corruption}

theorem breaks_zero :
  table.Breaks start 0 b cause ↔ cause = .chainLoops start
  := by
  constructor
  · rintro (⟨-, short, -⟩ | ⟨-, short, -⟩ | ⟨-, -⟩)
    · exact absurd short (Nat.not_lt_zero _)
    · exact absurd short (Nat.not_lt_zero _)
    · rfl
  · rintro rfl
    exact .loops (.start b) rfl

theorem breaks_succ_of_stuck (stuck : ∀ c, table[b]? ≠ some (.next c)) :
  table.Breaks start (fuel + 1) b cause
    ↔ table[b]? = some .free ∧ cause = .chainReachesFree start b
      ∨ table[b]? = none ∧ cause = .chainLeavesDisk start
  := by
  constructor
  · rintro (⟨trail, -, free⟩ | ⟨trail, -, out⟩ | ⟨trail, full⟩)
    · obtain ⟨rfl, rfl⟩ := trail.eq_start stuck
      exact .inl ⟨free, rfl⟩
    · obtain ⟨rfl, rfl⟩ := trail.eq_start stuck
      exact .inr ⟨out, rfl⟩
    · obtain ⟨rfl, rfl⟩ := trail.eq_start stuck
      simp at full
  · rintro (⟨free, rfl⟩ | ⟨out, rfl⟩)
    · exact .reachesFree (.start b) (Nat.succ_pos _) free
    · exact .leavesDisk (.start b) (Nat.succ_pos _) out

theorem breaks_succ_of_next {c : UInt16} (h : table[b]? = some (.next c)) :
  table.Breaks start (fuel + 1) b cause ↔ table.Breaks start fuel c.toNat cause
  := by
  constructor
  · rintro (⟨trail, short, free⟩ | ⟨trail, short, out⟩ | ⟨trail, full⟩)
    · rcases trail.of_next h with ⟨-, rfl⟩ | ⟨more, rfl, rest⟩
      · simp [h] at free
      · exact .reachesFree rest (Nat.lt_of_succ_lt_succ short) free
    · rcases trail.of_next h with ⟨-, rfl⟩ | ⟨more, rfl, rest⟩
      · simp [h] at out
      · exact .leavesDisk rest (Nat.lt_of_succ_lt_succ short) out
    · rcases trail.of_next h with ⟨rfl, -⟩ | ⟨more, rfl, rest⟩
      · simp at full
      · exact .loops rest (Nat.succ_injective full)
  · rintro (⟨trail, short, free⟩ | ⟨trail, short, out⟩ | ⟨trail, full⟩)
    · exact .reachesFree (.next h trail) (Nat.succ_lt_succ short) free
    · exact .leavesDisk (.next h trail) (Nat.succ_lt_succ short) out
    · exact .loops (.next h trail) (congrArg Nat.succ full)

/-- A walk fails exactly if it breaks off. -/
theorem walkFrom_eq_error_iff {e : Error} :
  table.walkFrom start fuel b = .error e
    ↔ ∃ cause, e = .corrupted cause ∧ table.Breaks start fuel b cause
  := by
  induction fuel generalizing b with
  | zero => simp [walkFrom, breaks_zero, eq_comm]
  | succ fuel ih =>
      rw [walkFrom]
      split
      · next out =>
          simp [breaks_succ_of_stuck, out, eq_comm]
      · next free =>
          simp [breaks_succ_of_stuck, free, eq_comm]
      · next final =>
          simp [breaks_succ_of_stuck, final]
      · next c hnext =>
          simp only [breaks_succ_of_next hnext, ← ih]
          cases table.walkFrom start fuel c.toNat with
          | ok rest => simp [bind, Except.bind, pure, Except.pure]
          | error e' => exact Iff.rfl

/-- A walk from `first` breaks off exactly if the entries lead to a free one, out of the table, or
round in a cycle. -/
theorem exists_breaks_iff :
  (∃ cause, table.Breaks first table.length first cause)
    ↔ table.MeetsFree first ∨ table.Leaves first ∨ table.Cycles first
  := by
  constructor
  · rintro ⟨_, ⟨trail, -, free⟩ | ⟨trail, -, out⟩ | ⟨trail, full⟩⟩
    · exact .inl ⟨_, trail.reaches _ (by simp), free⟩
    · exact .inr (.inl ⟨_, trail.reaches _ (by simp), List.getElem?_eq_none_iff.mp out⟩)
    · exact .inr (trail.leaves_or_cycles full)
  · intro breaks
    cases hwalk : table.walk first with
    | ok blocks => exact absurd breaks (walk_eq_ok_iff.mp hwalk).not_breaks
    | error e =>
        obtain ⟨cause, -, h⟩ := walkFrom_eq_error_iff.mp hwalk
        exact ⟨cause, h⟩

/-! ### Walks turn by turn -/

/-- What one turn of a walk comes to. -/
inductive Turn where
  | returns (result : Except Error (List Nat))
  | goesOn (passed : List Nat) (current : Nat)

/-- One turn of the walk from `first`, which has passed some blocks and come to `current`. -/
def turn (table : Table) (first : Nat) (passed : List Nat) (current : Nat) : Turn :=
  if table.length ≤ passed.length then .returns (.error (.corrupted (.chainLoops first)))
  else
    match table[current]? with
    | none => .returns (.error (.corrupted (.chainLeavesDisk first)))
    | some (.next block) => .goesOn (passed ++ [current]) block.toNat
    | some .last => .returns (.ok (passed ++ [current]))
    | some .free => .returns (.error (.corrupted (.chainReachesFree first current)))

/-- The walk from `first` returns after the given number of turns. -/
inductive Returns (table : Table) (first : Nat) :
    (turns : Nat) → (passed : List Nat) → (current : Nat) → Except Error (List Nat) → Prop
  | now {passed : List Nat} {current : Nat} {result : Except Error (List Nat)}
      (h : table.turn first passed current = .returns result) :
      Returns table first 1 passed current result
  | later {turns : Nat} {passed passed' : List Nat} {current current' : Nat}
      {result : Except Error (List Nat)}
      (h : table.turn first passed current = .goesOn passed' current')
      (rest : Returns table first turns passed' current' result) :
      Returns table first (turns + 1) passed current result

/-- A walk returns at most once. -/
theorem Returns.unique {turns turns' current : Nat} {result result' : Except Error (List Nat)}
    (h : table.Returns first turns passed current result)
    (h' : table.Returns first turns' passed current result') :
  turns = turns' ∧ result = result'
  := by
  induction h generalizing turns' with
  | now h =>
      cases h' with
      | now h' => exact ⟨rfl, Turn.returns.inj (h.symm.trans h')⟩
      | later h' _ => cases h.symm.trans h'
  | later h _ ih =>
      cases h' with
      | now h' => cases h.symm.trans h'
      | later h' rest' =>
          obtain ⟨rfl, rfl⟩ := Turn.goesOn.inj (h.symm.trans h')
          obtain ⟨rfl, rfl⟩ := ih rest'
          exact ⟨rfl, rfl⟩

/-- A walk that has passed some blocks returns these and those that are left of its chain.  Each
turn passes one more block, and there are no more turns than blocks that it may pass. -/
theorem exists_returns (first current : Nat) (hfuel : passed.length + fuel = table.length) :
  ∃ turns ≤ fuel + 1, table.Returns first turns passed current
    ((table.walkFrom first fuel current).map (passed ++ ·))
  := by
  induction fuel generalizing passed current with
  | zero =>
      have full : table.length ≤ passed.length := Nat.le_of_eq hfuel.symm
      exact ⟨1, Nat.le_refl _, .now (by rw [turn, if_pos full]; rfl)⟩
  | succ fuel ih =>
      have short : ¬table.length ≤ passed.length := by omega
      cases hentry : table[current]? with
      | none => exact ⟨1, by omega, .now (by simp [turn, short, hentry, walkFrom, Except.map])⟩
      | some entry =>
          cases entry with
          | free => exact ⟨1, by omega, .now (by simp [turn, short, hentry, walkFrom, Except.map])⟩
          | last => exact ⟨1, by omega, .now (by simp [turn, short, hentry, walkFrom, Except.map])⟩
          | next c =>
              have longer : (passed ++ [current]).length + fuel = table.length := by
                rw [List.length_append, List.length_singleton]
                omega
              obtain ⟨turns, bound, rest⟩ := ih c.toNat longer
              have same : (table.walkFrom first (fuel + 1) current).map (passed ++ ·)
                  = (table.walkFrom first fuel c.toNat).map (passed ++ [current] ++ ·) := by
                rw [walkFrom, hentry]
                dsimp only
                cases table.walkFrom first fuel c.toNat <;>
                  simp [bind, Except.bind, pure, Except.pure, Except.map]
              rw [same]
              exact ⟨turns + 1, Nat.succ_le_succ bound, .later (by simp [turn, short, hentry]) rest⟩

/-- What a walk from `first` does. -/
structure WalksExactly (table : Table) (first : Nat) : Prop where
  /-- It finds exactly the linked blocks. -/
  eq_ok_iff : ∀ blocks, table.walk first = .ok blocks ↔ table.Links first blocks
  /-- No linked block occurs twice. -/
  nodup : ∀ blocks, table.Links first blocks → blocks.Nodup
  length_le : ∀ blocks, table.Links first blocks → blocks.length ≤ table.length
  /-- It fails exactly where the entries do not lead to the end of a chain, and says why. -/
  exists_error_iff : (∃ cause, table.walk first = .error (.corrupted cause))
    ↔ table.MeetsFree first ∨ table.Leaves first ∨ table.Cycles first
  eq_error_iff : ∀ e, table.walk first = .error e
    ↔ ∃ cause, e = .corrupted cause ∧ table.Breaks first table.length first cause
  /-- It returns, once, after at most one turn for each entry and one more. -/
  returns_iff : ∃ turns ≤ table.length + 1, ∀ turns' result,
    table.Returns first turns' [] first result ↔ turns' = turns ∧ result = table.walk first

/-- Every walk along every table finds the chain from its first block, if there is one. When all
blocks of a table are linked, they are found. -/
theorem walks_exactly (table : Table) :
  (∀ first, table.WalksExactly first)
    ∧ (0 < table.length → table.length ≤ UInt16.size →
      (linkRun 0 table.length table).walk 0 = .ok (List.range table.length))
  := by
  refine ⟨fun first => ?_, fun nonempty small => ?longest⟩
  case longest =>
    rw [walk_eq_ok_iff, List.range_eq_range']
    exact isChain_linkRun nonempty (Nat.le_of_eq (Nat.zero_add _)) small
  constructor
  case eq_ok_iff =>
    intro blocks
    rw [walk_eq_ok_iff, isChain_iff_links]
  case nodup => exact fun blocks h => (isChain_iff_links.mpr h).nodup
  case length_le => exact fun blocks h => (isChain_iff_links.mpr h).length_le
  case exists_error_iff =>
    rw [← exists_breaks_iff]
    apply exists_congr
    intro cause
    rw [walk, walkFrom_eq_error_iff]
    simp
  case eq_error_iff => exact fun e => walkFrom_eq_error_iff
  case returns_iff =>
    have start : ([] : List Nat).length + table.length = table.length := Nat.zero_add _
    have same : (table.walk first).map ([] ++ ·) = table.walk first := by
      cases table.walk first <;> rfl
    obtain ⟨turns, bound, returns⟩ := exists_returns first first start
    rw [← walk, same] at returns
    refine ⟨turns, bound, fun turns' result => ⟨fun h => h.unique returns, ?_⟩⟩
    rintro ⟨rfl, rfl⟩
    exact returns

/-- In a table of four entries a chain leads from the first block through the third to the second.
The fourth block is free, so that no chain starts there; if all blocks are linked, there is one
through all of them. -/
theorem walks_exactly_of_four :
  ∃ table : Table, table.length = 4 ∧ table.walk 0 = .ok [0, 2, 1]
    ∧ [0, 2, 1].Nodup ∧ (∃ cause, table.walk 3 = .error (.corrupted cause))
    ∧ (linkRun 0 4 table).walk 0 = .ok [0, 1, 2, 3]
  := by
  let table : Table := [.next 2, .last, .next 1, .free]
  have links : table.Links 0 [0, 2, 1] := by
    apply isChain_iff_links.mp
    exact .next rfl (.next rfl (.last rfl))
  have meetsFree : table.MeetsFree 3 := ⟨3, .refl, rfl⟩
  obtain ⟨exactly, longest⟩ := walks_exactly table
  exact ⟨table, rfl, ((exactly 0).eq_ok_iff _).mpr links, (exactly 0).nodup _ links,
    (exactly 3).exists_error_iff.mpr (.inl meetsFree), longest (by decide) (by decide)⟩

/-- Where a chain leaves a table after all of its entries, the walk takes it for one that goes
round. -/
example : walk [.next 1, .next 9] 0 = .error (.corrupted (.chainLoops 0))
  := by
  decide

end FatVolume.Table
