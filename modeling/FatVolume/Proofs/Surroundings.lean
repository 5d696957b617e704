import FatVolume.Proofs.Execution

/-!
# Actions in surroundings

`DiskM.runIn` and `SessionM.runIn` are the result of an action in surroundings of any kind, with
the equations that carry it through the steps of the action.  Execution on a working device is the
case in which the surroundings are an image.
-/

namespace FatVolume

namespace DiskM

variable {α β σ : Type} {serve : Surroundings σ} {s s' : σ}

/-- The result of an action in surroundings, and the state in which it leaves them. -/
def runIn (serve : Surroundings σ) (action : DiskM α) (s : σ) : Except Error α × σ :=
  Program.run serve action.run s

theorem runIn_bind (action : DiskM α) (next : α → DiskM β) :
  (action >>= next).runIn serve s
    = match action.runIn serve s with
      | (.ok a, s') => (next a).runIn serve s'
      | (.error e, s') => (.error e, s')
  := by
  simp only [runIn, ExceptT.run_bind, Program.run_bind]
  cases action.run.run serve s with
  | mk result s' => cases result <;> rfl

variable {action : DiskM α} {next : α → DiskM β}

theorem runIn_bind_of_ok {a : α} (h : action.runIn serve s = (.ok a, s')) :
  (action >>= next).runIn serve s = (next a).runIn serve s'
  := by
  rw [runIn_bind, h]

theorem runIn_bind_of_error {e : Error} (h : action.runIn serve s = (.error e, s')) :
  (action >>= next).runIn serve s = (.error e, s')
  := by
  rw [runIn_bind, h]

end DiskM

namespace SessionM

variable {α β σ : Type} {serve : Surroundings σ} {s s' : σ} {session session' : Session}

/-- The result of an action of a session in surroundings, with the session that it leaves and the
state in which it leaves the surroundings. -/
def runIn (serve : Surroundings σ) (action : SessionM α) (session : Session) (s : σ) :
    Except Error α × Session × σ :=
  let served := Program.run serve (action.run.run session) s
  (served.1.1, served.1.2, served.2)

@[simp]
theorem runIn_pure (a : α) :
  (pure a : SessionM α).runIn serve session s = (.ok a, session, s)
  := rfl

@[simp]
theorem runIn_throw (e : Error) :
  (throw e : SessionM α).runIn serve session s = (.error e, session, s)
  := rfl

@[simp]
theorem runIn_ofExcept (result : Except Error α) :
  (SessionM.ofExcept result).runIn serve session s = (result, session, s)
  := rfl

@[simp]
theorem runIn_get :
  (get : SessionM Session).runIn serve session s = (.ok session, session, s)
  := rfl

@[simp]
theorem runIn_set (other : Session) :
  (set other : SessionM Unit).runIn serve session s = (.ok (), other, s)
  := rfl

@[simp]
theorem runIn_modify (f : Session → Session) :
  (modify f : SessionM Unit).runIn serve session s = (.ok (), f session, s)
  := rfl

/-- An action of the disk leaves the session alone. -/
@[simp]
theorem runIn_lift (action : DiskM α) :
  (liftM action : SessionM α).runIn serve session s
    = ((action.runIn serve s).1, session, (action.runIn serve s).2)
  := by
  simp only [runIn, DiskM.runIn, liftM, monadLift, MonadLift.monadLift, StateT.lift, StateT.run,
    ExceptT.run, ExceptT.mk]
  rw [Program.run_bind]
  rfl

theorem runIn_lift_of_eq {action : DiskM α} {result : Except Error α}
    (h : action.runIn serve s = (result, s')) :
  (liftM action : SessionM α).runIn serve session s = (result, session, s')
  := by
  rw [runIn_lift, h]

theorem runIn_bind (action : SessionM α) (next : α → SessionM β) :
  (action >>= next).runIn serve session s
    = match action.runIn serve session s with
      | (.ok a, session', s') => (next a).runIn serve session' s'
      | (.error e, session', s') => (.error e, session', s')
  := by
  simp only [runIn, ExceptT.run_bind, StateT.run_bind, Program.run_bind]
  cases action.run.run session |>.run serve s with
  | mk served s' =>
      obtain ⟨result, session'⟩ := served
      cases result <;> rfl

variable {action : SessionM α} {next : α → SessionM β}

theorem runIn_bind_of_ok {a : α} (h : action.runIn serve session s = (.ok a, session', s')) :
  (action >>= next).runIn serve session s = (next a).runIn serve session' s'
  := by
  rw [runIn_bind, h]

theorem runIn_bind_of_error {e : Error}
    (h : action.runIn serve session s = (.error e, session', s')) :
  (action >>= next).runIn serve session s = (.error e, session', s')
  := by
  rw [runIn_bind, h]

/-- A sequence succeeds exactly when both of its parts do. -/
theorem runIn_bind_eq_ok {b : β} {session'' : Session} {s'' : σ} :
  (action >>= next).runIn serve session s = (.ok b, session'', s'')
    ↔ ∃ a session' s', action.runIn serve session s = (.ok a, session', s')
        ∧ (next a).runIn serve session' s' = (.ok b, session'', s'')
  := by
  rw [runIn_bind]
  split
  · next a session' s' h => simp [h]
  · next e session' s' h => simp [h]

/-- Execution on a working device is the case of a device that holds an image. -/
theorem exec_eq_runIn (action : SessionM α) (session : Session) (image : Image) :
  action.exec session image = action.runIn Image.serve session image
  := rfl

end SessionM

end FatVolume
