import FatVolume.Proofs.Faults
import FatVolume.Proofs.OpenFiles

/-!
# Faults in sessions

Actions of a session with guards.  What keeps the guards is that a session is bounded: its root
directory is on the disk and its cursors fit into words.  `SessionM.Faultless` says that a guarded
action never faults in a bounded session and leaves it bounded.
-/

namespace FatVolume

/-! ### Bounded sessions -/

namespace OpenTable

/-- Every cursor fits into a word. -/
def Bounded (table : OpenTable) : Prop :=
  ∀ handle file, table.get? handle = some file → file.cursor < 2 ^ Guarded.wordSize

variable {table table' : OpenTable} {handle : Handle} {file : OpenFile}

theorem Bounded.set (h : table.Bounded) (handle : Handle) {held : Option OpenFile}
    (small : ∀ file, held = some file → file.cursor < 2 ^ Guarded.wordSize) :
  (table.set handle held).Bounded
  := by
  intro other file hfile
  by_cases same : handle = other
  · subst same
    rw [get?_set_self table (lt_of_get? hfile)] at hfile
    exact small file hfile
  · rw [get?_set_of_ne table same] at hfile
    exact h other file hfile

theorem bounded_ofRoot {root : OpenFile} (small : root.cursor < 2 ^ Guarded.wordSize) :
  (ofRoot root).Bounded
  := by
  intro handle file hfile
  obtain ⟨-, rfl⟩ := get?_ofRoot_eq_some.mp hfile
  exact small

theorem Bounded.remove (h : table.Bounded) (hremove : table.remove handle = .ok (file, table')) :
  table'.Bounded
  := by
  obtain ⟨-, -, -, rfl⟩ := remove_eq_ok hremove
  exact h.set handle fun _ held => by cases held

theorem Bounded.setDirectory (h : table.Bounded) (hset : table.setDirectory handle = .ok table') :
  table'.Bounded
  := by
  obtain ⟨-, rfl⟩ := setDirectory_eq_ok hset
  exact h

end OpenTable

/-- The numbers in a session are small enough to be worked with. -/
structure Session.Bounded (session : Session) : Prop where
  root : session.superblock.root.toNat < numBlocks
  openFiles : session.openFiles.Bounded

theorem Session.Bounded.withTable {session : Session} (h : session.Bounded)
    {openFiles : OpenTable} (h' : openFiles.Bounded) :
  Session.Bounded { session with openFiles }
  := ⟨h.root, h'⟩

/-! ### Guarded actions in surroundings -/

/-- An action of a session with guards. -/
abbrev GuardedSession : Type → Type := ExceptT Fault SessionM

instance : MonadLift GuardedDisk GuardedSession where
  monadLift action := ExceptT.mk (liftM action.run : SessionM _)

namespace GuardedSession

variable {α β σ : Type} {serve : Surroundings σ} {session : Session} {s : σ}

/-- The result of a guarded action in surroundings, with the session and the surroundings that it
leaves, unless it faults. -/
def runIn (serve : Surroundings σ) (action : GuardedSession α) (session : Session) (s : σ) :
    Except Fault (Except Error α × Session × σ) :=
  match SessionM.runIn serve action.run session s with
  | (.ok (.ok a), session', s') => .ok (.ok a, session', s')
  | (.ok (.error fault), _, _) => .error fault
  | (.error e, session', s') => .ok (.error e, session', s')

theorem runIn_bind (action : GuardedSession α) (next : α → GuardedSession β) :
  (action >>= next).runIn serve session s
    = match action.runIn serve session s with
      | .ok (.ok a, session', s') => (next a).runIn serve session' s'
      | .ok (.error e, session', s') => .ok (.error e, session', s')
      | .error fault => .error fault
  := by
  simp only [runIn, ExceptT.run_bind, SessionM.runIn_bind]
  rcases SessionM.runIn serve action.run session s with ⟨_ | _ | _, _, _⟩ <;> rfl

/-- An action without guards does not fault. -/
theorem runIn_lift (action : SessionM α) :
  runIn serve (liftM action) session s = .ok (action.runIn serve session s)
  := by
  have run : ExceptT.run (liftM action : GuardedSession α) = action >>= fun a => pure (.ok a) :=
    map_eq_pure_bind Except.ok action
  rw [runIn, run, SessionM.runIn_bind]
  rcases SessionM.runIn serve action session s with ⟨_ | _, _, _⟩ <;> rfl

/-- Nor does an action of the disk without guards. -/
theorem runIn_lift_disk (action : DiskM α) :
  runIn serve (liftM (liftM action : GuardedDisk α)) session s
    = .ok ((liftM action : SessionM α).runIn serve session s)
  := by
  have run : ExceptT.run (liftM (liftM action : GuardedDisk α) : GuardedSession α)
      = liftM (action >>= fun a => pure (Except.ok a : Except Fault α)) :=
    congrArg liftM (map_eq_pure_bind Except.ok action)
  rw [runIn, run, SessionM.runIn_lift, SessionM.runIn_lift, DiskM.runIn_bind]
  rcases action.runIn serve s with ⟨_ | _, _⟩ <;> rfl

end GuardedSession

/-! ### Actions that keep their guards -/

namespace SessionM

variable {α β : Type} {P Q : α → Prop} {R : β → Prop}

/-- The action leaves a bounded session bounded, and all results satisfy `P`. -/
def Keeps (action : SessionM α) (P : α → Prop) : Prop :=
  ∀ ⦃σ : Type⦄ (serve : Surroundings σ) (session : Session) (s : σ), session.Bounded →
    (action.runIn serve session s).2.1.Bounded
      ∧ ∀ a, (action.runIn serve session s).1 = .ok a → P a

/-- In a bounded session the guarded action never faults and does what the action does, whatever
its surroundings answer. -/
structure Faultless (guarded : GuardedSession α) (action : SessionM α) (P : α → Prop) : Prop where
  eq : ∀ ⦃σ : Type⦄ (serve : Surroundings σ) (session : Session) (s : σ), session.Bounded →
    guarded.runIn serve session s = .ok (action.runIn serve session s)
  keeps : action.Keeps P

variable {guarded : GuardedSession α} {action : SessionM α} {next : α → SessionM β}
  {guardedNext : α → GuardedSession β}

theorem Keeps.bind (h : action.Keeps P) (h' : ∀ a, P a → (next a).Keeps R) :
  (action >>= next).Keeps R
  := by
  intro σ serve session s bounded
  have kept := h serve session s bounded
  rw [runIn_bind]
  rcases hrun : action.runIn serve session s with ⟨_ | a, session', s'⟩
  · rw [hrun] at kept
    exact ⟨kept.1, fun _ failed => by cases failed⟩
  · rw [hrun] at kept
    exact h' a (kept.2 a rfl) serve session' s' kept.1

theorem keeps_pure {a : α} (h : P a) :
  (pure a : SessionM α).Keeps P
  := by
  refine fun σ serve session s bounded => ⟨bounded, ?_⟩
  rintro _ ⟨rfl⟩
  exact h

theorem keeps_throw (e : Error) :
  (throw e : SessionM α).Keeps P
  := by
  refine fun σ serve session s bounded => ⟨bounded, ?_⟩
  rintro _ ⟨⟩

theorem keeps_get :
  (get : SessionM Session).Keeps Session.Bounded
  := by
  refine fun σ serve session s bounded => ⟨bounded, ?_⟩
  rintro _ ⟨rfl⟩
  exact bounded

theorem keeps_set {session : Session} (h : session.Bounded) :
  (set session : SessionM Unit).Keeps fun _ => True
  := fun _ _ _ _ _ => ⟨h, fun _ _ => trivial⟩

theorem keeps_modify {f : Session → Session}
    (h : ∀ session, session.Bounded → (f session).Bounded) :
  (modify f : SessionM Unit).Keeps fun _ => True
  := fun _ _ session _ bounded => ⟨h session bounded, fun _ _ => trivial⟩

theorem keeps_ofExcept {result : Except Error α} (h : ∀ a, result = .ok a → P a) :
  (SessionM.ofExcept result).Keeps P
  := fun _ _ _ _ bounded => ⟨bounded, h⟩

/-! ### Actions without faults -/

theorem faultless_lift (h : action.Keeps P) :
  Faultless (liftM action) action P
  := ⟨fun _ _ _ _ _ => GuardedSession.runIn_lift action, h⟩

theorem faultless_pure {a : α} (h : P a) :
  Faultless (pure a) (pure a) P
  := faultless_lift (keeps_pure h)

theorem faultless_throw (e : Error) :
  Faultless (throwThe Error e) (throw e) P
  := faultless_lift (keeps_throw e)

theorem faultless_get :
  Faultless get get Session.Bounded
  := faultless_lift keeps_get

theorem faultless_set {session : Session} (h : session.Bounded) :
  Faultless (set session) (set session) fun _ => True
  := faultless_lift (keeps_set h)

theorem faultless_modify {f : Session → Session}
    (h : ∀ session, session.Bounded → (f session).Bounded) :
  Faultless (modify f) (modify f) fun _ => True
  := faultless_lift (keeps_modify h)

/-- What the disk does without a fault it does so in any session. -/
theorem faultless_disk {guarded : GuardedDisk α} {action : DiskM α}
    (h : DiskM.Faultless guarded action P) :
  Faultless (liftM guarded) (liftM action) P
  := by
  refine ⟨fun σ serve session s _ => ?_, fun σ serve session s bounded => ?_⟩
  · rw [h.eq]
    exact GuardedSession.runIn_lift_disk action
  · rw [runIn_lift]
    exact ⟨bounded, fun a ha => h.returns.runIn serve s (Prod.ext ha rfl)⟩

theorem Faultless.mono (h : Faultless guarded action P) (implies : ∀ a, P a → Q a) :
  Faultless guarded action Q
  := by
  refine ⟨h.eq, fun σ serve session s bounded => ?_⟩
  obtain ⟨bounded', returns⟩ := h.keeps serve session s bounded
  exact ⟨bounded', fun a ha => implies a (returns a ha)⟩

theorem Faultless.bind (h : Faultless guarded action P)
    (h' : ∀ a, P a → Faultless (guardedNext a) (next a) R) :
  Faultless (guarded >>= guardedNext) (action >>= next) R
  := by
  refine ⟨fun σ serve session s bounded => ?_, h.keeps.bind fun a ha => (h' a ha).keeps⟩
  have kept := h.keeps serve session s bounded
  rw [GuardedSession.runIn_bind, h.eq serve session s bounded, runIn_bind]
  rcases hrun : action.runIn serve session s with ⟨_ | a, session', s'⟩
  · rfl
  · rw [hrun] at kept
    exact (h' a (kept.2 a rfl)).eq serve session' s' kept.1

/-- A guard that holds lets the action go on. -/
theorem Faultless.guard {γ : Type} {partially : Except Fault γ} {c : γ}
    {guardedNext : γ → GuardedSession α} (h : partially = .ok c)
    (h' : Faultless (guardedNext c) action P) :
  Faultless (liftM partially >>= guardedNext) action P
  := by
  rw [h]
  exact h'

theorem faultless_ite {p : Prop} [Decidable p] {guarded' : GuardedSession α}
    {other : SessionM α} (h : p → Faultless guarded action P)
    (h' : ¬p → Faultless guarded' other P) :
  Faultless (if p then guarded else guarded') (if p then action else other) P
  := by
  split_ifs with hp
  · exact h hp
  · exact h' hp

/-- What goes on only under a condition is faultless if the rest is under this condition. -/
theorem faultless_unless {p : Prop} [Decidable p] {e : Error}
    (h : ¬p → Faultless guarded action P) :
  Faultless (if p then (throwThe Error e : GuardedSession PUnit) >>= fun _ => guarded else guarded)
    (if p then (throw e : SessionM PUnit) >>= fun _ => action else action) P
  := by
  split_ifs with hp
  · exact (faultless_throw (P := fun _ => False) e).bind fun _ impossible => impossible.elim
  · exact h hp

/-- What is done first only under a condition does not matter to the rest. -/
theorem faultless_when {p : Prop} [Decidable p] {first : GuardedSession PUnit}
    {first' : SessionM PUnit} (h : p → Faultless first first' fun _ => True)
    (h' : Faultless guarded action P) :
  Faultless (if p then first >>= fun _ => guarded else guarded)
    (if p then first' >>= fun _ => action else action) P
  := by
  split_ifs with hp
  · exact (h hp).bind fun _ _ => h'
  · exact h'

theorem faultless_forM {guarded : α → GuardedSession Unit} {action : α → SessionM Unit}
    {list : List α} (h : ∀ a ∈ list, Faultless (guarded a) (action a) fun _ => True) :
  Faultless (list.forM guarded) (list.forM action) fun _ => True
  := by
  induction list with
  | nil => exact faultless_pure trivial
  | cons a rest ih =>
      rw [List.forM_eq_forM, List.forM_eq_forM, List.forM_cons, List.forM_cons]
      apply (h a List.mem_cons_self).bind
      exact fun _ _ => ih fun b hb => h b (List.mem_cons_of_mem _ hb)

end SessionM

end FatVolume
