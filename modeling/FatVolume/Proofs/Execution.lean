import Mathlib
import FatVolume.Session.Operation

/-!
# Execution on a working device

`DiskM.exec` is the result of an action of a disk on a device that holds an image and does
not fail, with the image it leaves; `SessionM.exec` is the same for an action of a session.
The equations of this module carry an execution through the steps of an action, so that no
later proof looks at the requests themselves.
-/

namespace FatVolume

/-! ### Actions of a disk -/

namespace DiskM

variable {α β : Type}

/-- The result of an action on a working device that holds `image`, and the image it
leaves. -/
def exec (action : DiskM α) (image : Image) : Except Error α × Image :=
  Program.run Image.serve action.run image

@[simp]
theorem exec_pure (result : α) (image : Image) :
  (pure result : DiskM α).exec image = (.ok result, image)
  := rfl

@[simp]
theorem exec_throw (e : Error) (image : Image) :
  (throw e : DiskM α).exec image = (.error e, image)
  := rfl

@[simp]
theorem exec_ofExcept (result : Except Error α) (image : Image) :
  (DiskM.ofExcept result).exec image = (result, image)
  := rfl

/-- A sequence goes on in the image its first action leaves, unless that action fails. -/
theorem exec_bind (action : DiskM α) (next : α → DiskM β) (image : Image) :
  (action >>= next).exec image
    = match action.exec image with
      | (.ok result, after) => (next result).exec after
      | (.error e, after) => (.error e, after)
  := by
  simp only [exec, ExceptT.run_bind, Program.run_bind]
  cases action.run.run Image.serve image with
  | mk result after => cases result <;> rfl

theorem exec_bind_of_ok {action : DiskM α} {next : α → DiskM β} {image after : Image}
    {result : α} (h : action.exec image = (.ok result, after)) :
  (action >>= next).exec image = (next result).exec after
  := by
  rw [exec_bind, h]

theorem exec_bind_of_error {action : DiskM α} {next : α → DiskM β} {image after : Image}
    {e : Error} (h : action.exec image = (.error e, after)) :
  (action >>= next).exec image = (.error e, after)
  := by
  rw [exec_bind, h]

/-- A sequence succeeds exactly when both of its parts do. -/
theorem exec_bind_eq_ok {action : DiskM α} {next : α → DiskM β} {image after : Image}
    {result : β} :
  (action >>= next).exec image = (.ok result, after)
    ↔ ∃ first middle, action.exec image = (.ok first, middle)
        ∧ (next first).exec middle = (.ok result, after)
  := by
  rw [exec_bind]
  split
  · next first middle h => simp [h]
  · next e middle h => simp [h]

/-- The log does not touch the image. -/
@[simp]
theorem exec_log (level : Level) (source : Component) (message : String) (image : Image) :
  (liftM (Program.log level source message) : DiskM Unit).exec image = (.ok (), image)
  := rfl

@[simp]
theorem exec_ite {p : Prop} [Decidable p] (action other : DiskM α) (image : Image) :
  (if p then action else other).exec image
    = if p then action.exec image else other.exec image
  := by
  split <;> rfl

end DiskM

/-! ### Blocks -/

namespace Image

/-- The content of a block; past the end of the disk there are zeros. -/
def block (image : Image) (b : Nat) : Block :=
  image[b]?.getD .zero

/-- An image is determined by its blocks. -/
theorem ext_block {image other : Image} (same : ∀ b < numBlocks, image.block b = other.block b) :
  image = other
  := by
  apply Vector.ext
  intro b hb
  simpa [block, hb] using same b hb

theorem block_zero (b : Nat) :
  Image.zero.block b = .zero
  := by
  by_cases h : b < numBlocks
  · simp [block, zero, h]
  · simp [block, h]

theorem block_setIfInBounds (image : Image) {b : Nat} (h : b < numBlocks) (data : Block)
    (c : Nat) :
  Image.block (image.setIfInBounds b data) c = if b = c then data else image.block c
  := by
  unfold block
  by_cases hbc : b = c
  · subst hbc
    simp [h]
  · simp [Vector.getElem?_setIfInBounds_ne hbc, hbc]

@[simp]
theorem block_setIfInBounds_self (image : Image) {b : Nat} (h : b < numBlocks) (data : Block) :
  Image.block (image.setIfInBounds b data) b = data
  := by
  rw [block_setIfInBounds image h, if_pos rfl]

theorem block_setIfInBounds_of_ne (image : Image) {b c : Nat} (hbc : b ≠ c) (data : Block) :
  Image.block (image.setIfInBounds b data) c = image.block c
  := by
  simp [block, Vector.getElem?_setIfInBounds_ne hbc]

end Image

namespace DiskM

variable {α β : Type}

theorem exec_readBlock (image : Image) {b : Nat} (h : b < numBlocks) :
  (readBlock b).exec image = (.ok (image.block b), image)
  := by
  have served : (readBlock b).exec image = (image.read b blockSize, image) := rfl
  rw [served, image.read_of_lt h]
  simp [Image.block, h]

theorem exec_writeBlock (image : Image) {b : Nat} (h : b < numBlocks) (data : Block) :
  (writeBlock b data).exec image = (.ok (), image.setIfInBounds b data)
  := by
  have served : (writeBlock b data).exec image = image.serve (.writeBlock b data) := rfl
  rw [served, Image.serve, image.write_of_lt h]
  simp [Vector.setIfInBounds, Vector.set, Array.setIfInBounds, h]

@[simp]
theorem exec_flush (image : Image) :
  DiskM.flush.exec image = (.ok (), image)
  := rfl

/-! ### Loops -/

/-- A loop whose body does not fail changes the image step by step. -/
theorem exec_forM {action : α → DiskM Unit} (step : Image → α → Image) {list : List α}
    (h : ∀ a ∈ list, ∀ image, (action a).exec image = (.ok (), step image a)) (image : Image) :
  (list.forM action).exec image = (.ok (), list.foldl step image)
  := by
  induction list generalizing image with
  | nil => rfl
  | cons a list ih =>
      change (action a >>= fun _ => list.forM action).exec image = _
      rw [exec_bind_of_ok (h a (by simp) image), List.foldl_cons]
      apply ih
      intro b hb
      apply h b (List.mem_cons_of_mem _ hb)

/-- A loop that only reads collects what it reads. -/
theorem exec_mapM {action : α → DiskM β} (value : α → β) {list : List α} {image : Image}
    (h : ∀ a ∈ list, (action a).exec image = (.ok (value a), image)) :
  (list.mapM action).exec image = (.ok (list.map value), image)
  := by
  induction list with
  | nil => rfl
  | cons a list ih =>
      have rest := ih fun b hb => h b (List.mem_cons_of_mem _ hb)
      rw [List.mapM_cons, exec_bind_of_ok (h a (by simp)), exec_bind_of_ok rest]
      rfl

end DiskM

/-! ### Actions of a session -/

namespace SessionM

variable {α β : Type}

/-- The result of an action in a session, on a working device that holds `image`, with the
session and the image that it leaves. -/
def exec (action : SessionM α) (session : Session) (image : Image) :
    Except Error α × Session × Image :=
  let served := Program.run Image.serve (action.run.run session) image
  (served.1.1, served.1.2, served.2)

variable {session : Session} {image : Image}

@[simp]
theorem exec_pure (result : α) :
  (pure result : SessionM α).exec session image = (.ok result, session, image)
  := rfl

@[simp]
theorem exec_throw (e : Error) :
  (throw e : SessionM α).exec session image = (.error e, session, image)
  := rfl

@[simp]
theorem exec_ofExcept (result : Except Error α) :
  (SessionM.ofExcept result).exec session image = (result, session, image)
  := rfl

@[simp]
theorem exec_get :
  (get : SessionM Session).exec session image = (.ok session, session, image)
  := rfl

@[simp]
theorem exec_set (other : Session) :
  (set other : SessionM Unit).exec session image = (.ok (), other, image)
  := rfl

@[simp]
theorem exec_modify (f : Session → Session) :
  (modify f : SessionM Unit).exec session image = (.ok (), f session, image)
  := rfl

/-- An action of the disk leaves the session alone. -/
@[simp]
theorem exec_lift (action : DiskM α) :
  (liftM action : SessionM α).exec session image
    = ((action.exec image).1, session, (action.exec image).2)
  := by
  simp only [exec, DiskM.exec, liftM, monadLift, MonadLift.monadLift, StateT.lift, StateT.run,
    ExceptT.run, ExceptT.mk]
  rw [Program.run_bind]
  rfl

theorem exec_lift_of_eq {action : DiskM α} {result : Except Error α} {after : Image}
    (h : action.exec image = (result, after)) :
  (liftM action : SessionM α).exec session image = (result, session, after)
  := by
  rw [exec_lift, h]

@[simp]
theorem exec_log (level : Level) (source : Component) (message : String) :
  (liftM (Program.log level source message) : SessionM Unit).exec session image
    = (.ok (), session, image)
  := rfl

/-- A sequence goes on in the state its first action leaves, unless that action fails. -/
theorem exec_bind (action : SessionM α) (next : α → SessionM β) :
  (action >>= next).exec session image
    = match action.exec session image with
      | (.ok result, session', image') => (next result).exec session' image'
      | (.error e, session', image') => (.error e, session', image')
  := by
  simp only [exec, ExceptT.run_bind, StateT.run_bind, Program.run_bind]
  cases action.run.run session |>.run Image.serve image with
  | mk served after =>
      obtain ⟨result, session'⟩ := served
      cases result <;> rfl

variable {action : SessionM α} {next : α → SessionM β} {session' session'' : Session}
  {image' image'' : Image}

theorem exec_bind_of_ok {result : α}
    (h : action.exec session image = (.ok result, session', image')) :
  (action >>= next).exec session image = (next result).exec session' image'
  := by
  rw [exec_bind, h]

theorem exec_bind_of_error {e : Error}
    (h : action.exec session image = (.error e, session', image')) :
  (action >>= next).exec session image = (.error e, session', image')
  := by
  rw [exec_bind, h]

end SessionM

end FatVolume
