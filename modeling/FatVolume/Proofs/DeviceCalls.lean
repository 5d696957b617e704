import FatVolume.Proofs.Execution

/-!
# Device calls

An action of a disk asks its surroundings for device calls, and logs.  `DiskM.Uses` and
`SessionM.Uses` say which kinds of calls an action makes.  An action that does not write leaves
every image as it is: it only reads.
-/

namespace FatVolume

/-! ### The calls of an action -/

/-- The action makes device calls of the given kinds only, and logs. -/
inductive DiskM.Uses (calls : Set DeviceCall) : {α : Type} → DiskM α → Prop
  | pure {α : Type} (a : α) : Uses calls (pure a)
  | throw {α : Type} (e : Error) : Uses calls (throw e : DiskM α)
  | log (level : Level) (source : Component) (message : String) :
      Uses calls (liftM (Program.log level source message))
  | read (h : .read ∈ calls) (b : Nat) : Uses calls (readBlock b)
  | write (h : .write ∈ calls) (b : Nat) (data : Block) : Uses calls (writeBlock b data)
  | flush (h : .flush ∈ calls) : Uses calls DiskM.flush
  | bind {α β : Type} {action : DiskM α} {next : α → DiskM β} (h : Uses calls action)
      (h' : ∀ a, Uses calls (next a)) : Uses calls (action >>= next)

/-- The action makes device calls of the given kinds only, and logs. -/
inductive SessionM.Uses (calls : Set DeviceCall) : {α : Type} → SessionM α → Prop
  | pure {α : Type} (a : α) : Uses calls (pure a)
  | throw {α : Type} (e : Error) : Uses calls (throw e : SessionM α)
  | log (level : Level) (source : Component) (message : String) :
      Uses calls (liftM (Program.log level source message))
  | get : Uses calls get
  | modify (f : Session → Session) : Uses calls (modify f)
  | lift {α : Type} {action : DiskM α} (h : action.Uses calls) : Uses calls (liftM action)
  | bind {α β : Type} {action : SessionM α} {next : α → SessionM β} (h : Uses calls action)
      (h' : ∀ a, Uses calls (next a)) : Uses calls (action >>= next)

namespace DiskM

variable {α β : Type} {calls calls' : Set DeviceCall} {action other : DiskM α}
  {next : α → DiskM β}

theorem Uses.mono (uses : action.Uses calls) (subset : calls ⊆ calls') :
  action.Uses calls'
  := by
  induction uses with
  | pure a => exact .pure a
  | throw e => exact .throw e
  | log level source message => exact .log level source message
  | read h b => exact .read (subset h) b
  | write h b data => exact .write (subset h) b data
  | flush h => exact .flush (subset h)
  | bind _ _ ih ih' => exact .bind ih ih'

theorem uses_ofExcept (result : Except Error α) :
  (ofExcept result).Uses calls
  := by
  cases result with
  | ok a => exact .pure a
  | error e => exact .throw e

theorem uses_ite {p : Prop} [Decidable p] (h : action.Uses calls) (h' : other.Uses calls) :
  (if p then action else other).Uses calls
  := by
  split
  · exact h
  · exact h'

/-- What refuses to go on under a condition makes the calls of the refusal and the rest. -/
theorem Uses.unless {p : Prop} [Decidable p] {rest : DiskM α} {refusal : DiskM PUnit}
    (h : rest.Uses calls) (h' : refusal.Uses calls) :
  (if p then refusal >>= fun _ => rest else rest).Uses calls
  := uses_ite (h'.bind fun _ => h) h

theorem uses_forM {action : α → DiskM Unit} (h : ∀ a, (action a).Uses calls) (list : List α) :
  (list.forM action).Uses calls
  := by
  induction list with
  | nil => exact .pure ()
  | cons a rest ih =>
      rw [List.forM_eq_forM, List.forM_cons]
      exact (h a).bind fun _ => ih

theorem uses_mapM {action : α → DiskM β} (h : ∀ a, (action a).Uses calls) (list : List α) :
  (list.mapM action).Uses calls
  := by
  induction list with
  | nil => exact .pure []
  | cons a rest ih =>
      rw [List.mapM_cons]
      exact (h a).bind fun _ => ih.bind fun _ => .pure _

theorem uses_foldlM {action : β → α → DiskM β} (h : ∀ b a, (action b a).Uses calls)
    (list : List α) (b : β) :
  (list.foldlM action b).Uses calls
  := by
  induction list generalizing b with
  | nil => exact .pure b
  | cons a rest ih =>
      rw [List.foldlM_cons]
      exact (h b a).bind fun _ => ih _

/-- The action leaves every image as it is. -/
def ReadOnly (action : DiskM α) : Prop :=
  ∀ image, (action.exec image).2 = image

/-- What only reads has a result and leaves the image. -/
theorem ReadOnly.exec_eq (h : action.ReadOnly) (image : Image) :
  action.exec image = ((action.exec image).1, image)
  := Prod.ext rfl (h image)

/-- An action whose only calls are to read leaves every image as it is. -/
theorem Uses.readOnly (uses : action.Uses {.read}) :
  action.ReadOnly
  := by
  generalize hcalls : ({.read} : Set DeviceCall) = calls at uses
  induction uses with
  | pure a => exact fun _ => rfl
  | throw e => exact fun _ => rfl
  | log level source message => exact fun _ => rfl
  | read h b => exact fun _ => rfl
  | write h b data => simp [← hcalls] at h
  | flush h => exact fun _ => rfl
  | bind _ _ ih ih' =>
      intro image
      rw [exec_bind, ih.exec_eq]
      cases (DiskM.exec _ image).1 with
      | ok a => exact ih' a image
      | error e => rfl

end DiskM

namespace SessionM

variable {α β : Type} {calls calls' : Set DeviceCall} {action other : SessionM α}

theorem Uses.mono (uses : action.Uses calls) (subset : calls ⊆ calls') :
  action.Uses calls'
  := by
  induction uses with
  | pure a => exact .pure a
  | throw e => exact .throw e
  | log level source message => exact .log level source message
  | get => exact .get
  | modify f => exact .modify f
  | lift h => exact .lift (h.mono subset)
  | bind _ _ ih ih' => exact .bind ih ih'

/-- An action whose only calls are to read leaves every image as it is. -/
theorem Uses.image_exec (uses : action.Uses {.read}) (session : Session) (image : Image) :
  (action.exec session image).2.2 = image
  := by
  generalize hcalls : ({.read} : Set DeviceCall) = calls at uses
  induction uses generalizing session image with
  | lift h =>
      rw [← hcalls] at h
      rw [exec_lift, h.readOnly.exec_eq]
  | @bind _ _ action _ _ _ ih ih' =>
      have first := ih session image
      rw [exec_bind]
      rcases hexec : action.exec session image with ⟨result, session', image'⟩
      rw [hexec] at first
      obtain rfl := first
      cases result with
      | ok a => exact ih' a session' image'
      | error e => rfl
  | _ => rfl

theorem uses_set (session : Session) :
  (set session : SessionM Unit).Uses calls
  := .modify fun _ => session

theorem uses_ofExcept (result : Except Error α) :
  (ofExcept result).Uses calls
  := by
  cases result with
  | ok a => exact .pure a
  | error e => exact .throw e

theorem uses_ite {p : Prop} [Decidable p] (h : action.Uses calls) (h' : other.Uses calls) :
  (if p then action else other).Uses calls
  := by
  split
  · exact h
  · exact h'

theorem Uses.unless {p : Prop} [Decidable p] {rest : SessionM α} {refusal : SessionM PUnit}
    (h : rest.Uses calls) (h' : refusal.Uses calls) :
  (if p then refusal >>= fun _ => rest else rest).Uses calls
  := uses_ite (h'.bind fun _ => h) h

theorem uses_forM {action : α → SessionM Unit} (h : ∀ a, (action a).Uses calls) (list : List α) :
  (list.forM action).Uses calls
  := by
  induction list with
  | nil => exact .pure ()
  | cons a rest ih =>
      rw [List.forM_eq_forM, List.forM_cons]
      exact (h a).bind fun _ => ih

end SessionM

end FatVolume
