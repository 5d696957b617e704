import FatVolume.Proofs.Histories
import FatVolume.Proofs.ServingHosts
import FatVolume.Proofs.SessionCalls

/-!
# Actions made of operations

An action may perform operations of a session one after the other and write to the channels in
between.  `SessionM.Performs` says which operations it performs when it is run on a host.  Their
history leads to the session and the disk that the action leaves.
-/

namespace FatVolume

/-- The host is the same but for its channels. -/
def Host.SameButChannels (host host' : Host) : Prop :=
  ∃ out err, host' = { host with out, err }

namespace Host.SameButChannels

variable {host host' host'' : Host}

theorem refl (host : Host) :
  host.SameButChannels host
  := ⟨host.out, host.err, rfl⟩

theorem trans (h : host.SameButChannels host') (h' : host'.SameButChannels host'') :
  host.SameButChannels host''
  := by
  obtain ⟨out, err, rfl⟩ := h
  obtain ⟨out', err', rfl⟩ := h'
  exact ⟨out', err', rfl⟩

theorem disk_eq (h : host.SameButChannels host') :
  host'.disk = host.disk
  := by
  obtain ⟨out, err, rfl⟩ := h
  rfl

theorem serves (h : host.SameButChannels host') {calls : Set DeviceCall}
    (serves : host.Serves calls) :
  host'.Serves calls
  := by
  obtain ⟨out, err, rfl⟩ := h
  exact ⟨serves.works, serves.saves⟩

theorem log (host : Host) (event : Event) :
  host.SameButChannels (host.log event)
  := by
  unfold Host.log
  split
  · exact ⟨host.out, _, rfl⟩
  · exact refl host

end Host.SameButChannels

namespace SessionM

variable {α β σ : Type}

/-! ### Failures that are caught -/

section Catching

variable {serve : Surroundings σ} {action : SessionM α} {handler : Error → SessionM α}
  {session session' : Session} {s s' : σ}

/-- A handler goes on from where the action failed. -/
theorem runIn_tryCatch :
  (tryCatch action handler).runIn serve session s
    = match action.runIn serve session s with
      | (.ok a, session', s') => (.ok a, session', s')
      | (.error e, session', s') => (handler e).runIn serve session' s'
  := by
  have caught : ((tryCatch action handler : SessionM α).run.run session)
      = action.run.run session >>= fun served =>
        match served with
        | (.ok a, session') => pure (.ok a, session')
        | (.error e, session') => (handler e).run.run session' := by
    simp only [tryCatch, tryCatchThe, MonadExceptOf.tryCatch, ExceptT.tryCatch, ExceptT.run_mk]
    rw [StateT.run_bind]
    congr 1
    funext ⟨result, session'⟩
    cases result <;> rfl
  simp only [runIn, caught, Program.run_bind]
  cases action.run.run session |>.run serve s with
  | mk served s' =>
      obtain ⟨result, session'⟩ := served
      cases result <;> rfl

theorem runIn_tryCatch_of_ok {a : α}
    (h : action.runIn serve session s = (.ok a, session', s')) :
  (tryCatch action handler).runIn serve session s = (.ok a, session', s')
  := by
  rw [runIn_tryCatch, h]

theorem runIn_tryCatch_of_error {e : Error}
    (h : action.runIn serve session s = (.error e, session', s')) :
  (tryCatch action handler).runIn serve session s = (handler e).runIn serve session' s'
  := by
  rw [runIn_tryCatch, h]

end Catching

/-! ### What an action performs -/

/-- The action only writes to the channels, on whatever host. -/
def Outputs (action : SessionM α) : Prop :=
  ∀ session host, (action.runIn Host.serve session host).2.1 = session
    ∧ host.SameButChannels (action.runIn Host.serve session host).2.2

theorem outputs_pure (a : α) :
  (pure a : SessionM α).Outputs
  := fun _ host => ⟨rfl, .refl host⟩

theorem outputs_throw (e : Error) :
  (throw e : SessionM α).Outputs
  := fun _ host => ⟨rfl, .refl host⟩

theorem outputs_get :
  (get : SessionM Session).Outputs
  := fun _ host => ⟨rfl, .refl host⟩

theorem outputs_lift {action : DiskM α}
    (h : ∀ host : Host, host.SameButChannels (action.runIn Host.serve host).2) :
  (liftM action : SessionM α).Outputs
  := by
  intro session host
  rw [runIn_lift]
  exact ⟨rfl, h host⟩

theorem Outputs.bind {action : SessionM α} {next : α → SessionM β} (h : action.Outputs)
    (h' : ∀ a, (next a).Outputs) :
  (action >>= next).Outputs
  := by
  intro session host
  obtain ⟨same, channels⟩ := h session host
  rcases hrun : action.runIn Host.serve session host with ⟨result, session', host'⟩
  rw [hrun] at same channels
  obtain rfl : session' = session := same
  cases result with
  | ok a =>
      rw [runIn_bind_of_ok hrun]
      obtain ⟨same', channels'⟩ := h' a session' host'
      exact ⟨same', channels.trans channels'⟩
  | error e =>
      rw [runIn_bind_of_error hrun]
      exact ⟨rfl, channels⟩

/-- When it is run in a session on a host, the action performs the operations of a history, each at
the time of the session, and between them it writes to the channels at most. -/
inductive Performs : {α : Type} → SessionM α → Session → Host → List Step → Prop
  | outputs {α : Type} {action : SessionM α} (h : action.Outputs) (session : Session)
      (host : Host) : Performs action session host []
  | operation {α : Type} {operation : Operation} {action : SessionM α} {answer : α → Answer}
      (h : operation.perform = do return answer (← action)) (session : Session) (host : Host) :
      Performs action session host [⟨operation, session.clock⟩]
  | bind_ok {α β : Type} {action : SessionM α} {next : α → SessionM β} {a : α}
      {session session' : Session} {host host' : Host} {history more : List Step}
      (h : action.runIn Host.serve session host = (.ok a, session', host'))
      (first : Performs action session host history)
      (second : Performs (next a) session' host' more) :
      Performs (action >>= next) session host (history ++ more)
  | bind_error {α β : Type} {action : SessionM α} {next : α → SessionM β} {e : Error}
      {session session' : Session} {host host' : Host} {history : List Step}
      (h : action.runIn Host.serve session host = (.error e, session', host'))
      (first : Performs action session host history) :
      Performs (action >>= next) session host history
  | tryCatch_ok {α : Type} {action : SessionM α} {handler : Error → SessionM α} {a : α}
      {session session' : Session} {host host' : Host} {history : List Step}
      (h : action.runIn Host.serve session host = (.ok a, session', host'))
      (first : Performs action session host history) :
      Performs (tryCatch action handler) session host history
  | tryCatch_error {α : Type} {action : SessionM α} {handler : Error → SessionM α} {e : Error}
      {session session' : Session} {host host' : Host} {history more : List Step}
      (h : action.runIn Host.serve session host = (.error e, session', host'))
      (first : Performs action session host history)
      (second : Performs (handler e) session' host' more) :
      Performs (tryCatch action handler) session host (history ++ more)

/-- On a host that serves all calls, what an action performs leads to the session and the disk that
it leaves. -/
theorem Performs.run_eq {action : SessionM α} {session session' : Session} {host host' : Host}
    {history : List Step} {result : Except Error α} (h : action.Performs session host history)
    (serves : host.Serves Set.univ)
    (hrun : action.runIn Host.serve session host = (result, session', host')) :
  State.run ⟨session, host.disk.image⟩ history = ⟨session', host'.disk.image⟩
    ∧ host'.disk.backing = host.disk.backing ∧ host'.Serves Set.univ
  := by
  induction h generalizing session' host' with
  | outputs h session host =>
      obtain ⟨same, channels⟩ := h session host
      rw [hrun] at same channels
      obtain rfl : session' = session := same
      rw [channels.disk_eq]
      exact ⟨rfl, rfl, channels.serves serves⟩
  | @operation _ operation action answer h session host =>
      obtain ⟨after, hperform, hdisk, serves'⟩ :=
        (operation.uses_perform.mono (Set.subset_univ _)).runIn_host session serves
      have same : (operation.perform.runIn Host.serve session host).2 = (session', host') := by
        rw [h, runIn_bind, hrun]
        cases result <;> rfl
      rw [hperform] at same
      obtain ⟨rfl, rfl⟩ := Prod.mk.inj same
      rw [hdisk]
      exact ⟨rfl, rfl, serves'⟩
  | bind_ok h first second ih ih' =>
      obtain ⟨leads, backing, serves'⟩ := ih serves h
      rw [runIn_bind_of_ok h] at hrun
      obtain ⟨leads', backing', serves''⟩ := ih' serves' hrun
      rw [State.run_append, leads]
      exact ⟨leads', backing'.trans backing, serves''⟩
  | bind_error h first ih =>
      rw [runIn_bind_of_error h] at hrun
      obtain ⟨-, rfl, rfl⟩ : _ ∧ _ = session' ∧ _ = host' := by simpa using hrun
      exact ih serves h
  | tryCatch_ok h first ih =>
      rw [runIn_tryCatch_of_ok h] at hrun
      obtain ⟨-, rfl, rfl⟩ : _ ∧ _ = session' ∧ _ = host' := by simpa using hrun
      exact ih serves h
  | tryCatch_error h first second ih ih' =>
      obtain ⟨leads, backing, serves'⟩ := ih serves h
      rw [runIn_tryCatch_of_error h] at hrun
      obtain ⟨leads', backing', serves''⟩ := ih' serves' hrun
      rw [State.run_append, leads]
      exact ⟨leads', backing'.trans backing, serves''⟩

/-! ### Actions that perform something everywhere -/

/-- On every host and in every session the action performs the operations of some history. -/
def Operates (action : SessionM α) : Prop :=
  ∀ session host, ∃ history, action.Performs session host history

variable {action : SessionM α} {next : α → SessionM β}

theorem Outputs.operates (h : action.Outputs) :
  action.Operates
  := fun session host => ⟨[], .outputs h session host⟩

theorem operates_operation (operation : Operation) {answer : α → Answer}
    (h : operation.perform = do return answer (← action)) :
  action.Operates
  := fun session host => ⟨_, .operation h session host⟩

theorem Operates.bind (h : action.Operates) (h' : ∀ a, (next a).Operates) :
  (action >>= next).Operates
  := by
  intro session host
  obtain ⟨history, first⟩ := h session host
  rcases hrun : action.runIn Host.serve session host with ⟨result, session', host'⟩
  cases result with
  | ok a =>
      obtain ⟨more, second⟩ := h' a session' host'
      exact ⟨_, .bind_ok hrun first second⟩
  | error e => exact ⟨_, .bind_error hrun first⟩

theorem Operates.tryCatch {handler : Error → SessionM α} (h : action.Operates)
    (h' : ∀ e, (handler e).Operates) :
  (tryCatch action handler).Operates
  := by
  intro session host
  obtain ⟨history, first⟩ := h session host
  rcases hrun : action.runIn Host.serve session host with ⟨result, session', host'⟩
  cases result with
  | ok a => exact ⟨_, .tryCatch_ok hrun first⟩
  | error e =>
      obtain ⟨more, second⟩ := h' e session' host'
      exact ⟨_, .tryCatch_error hrun first second⟩

theorem operates_ite {p : Prop} [Decidable p] {other : SessionM α} (h : action.Operates)
    (h' : other.Operates) :
  (if p then action else other).Operates
  := by
  split
  · exact h
  · exact h'

theorem operates_discard (h : action.Operates) :
  (discard action).Operates
  := by
  have same : discard action = action >>= fun _ => pure () := by
    rw [discard, LawfulFunctor.map_const, Function.comp_apply, map_eq_pure_bind]
  rw [same]
  exact h.bind fun _ => (outputs_pure ()).operates

theorem operates_forM {action : α → SessionM Unit} (h : ∀ a, (action a).Operates)
    (list : List α) :
  (list.forM action).Operates
  := by
  induction list with
  | nil => exact (outputs_pure ()).operates
  | cons a rest ih =>
      rw [List.forM_eq_forM, List.forM_cons]
      exact (h a).bind fun _ => ih

end SessionM

end FatVolume
