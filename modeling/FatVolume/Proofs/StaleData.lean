import FatVolume.Proofs.AgreeingSessions
import FatVolume.Proofs.Histories

/-!
# Stale data

Formatting forgets what was on the disk.  Two sessions that begin by formatting any two disks at the
same time show the same throughout every history: each operation has the same result in both.
-/

namespace FatVolume

/-! ### Beginning on a fresh volume -/

namespace State

/-- The same session works on images that agree. -/
structure Agrees (state state' : State) : Prop where
  session : state'.session = state.session
  image : state.image.Agrees state'.image

/-- The state in which a session begins on a prepared disk. -/
def begun (prepared : Image) (clock : Timestamp) : State where
  session := Session.begun (prepared.withRoot clock) clock
  image := prepared.withRoot clock

variable {prepared prepared' : Image} (h : prepared.Prepared)
include h

theorem coherent_begun (clock : Timestamp) :
  (begun prepared clock).Coherent
  := (Session.coherent_begun (h.fresh clock) clock).1

/-- Of a prepared disk nothing but what is allocated is found when a session begins. -/
theorem agrees_begun (h' : prepared'.Prepared) (clock : Timestamp) :
  (begun prepared clock).Agrees (begun prepared' clock)
  := by
  have fresh := h.fresh clock
  have agrees := h.agrees h' clock
  have allocated := Image.allocated_of_mem_blocksOf fresh.hasDots_root.isChain.first_mem
  refine ⟨?_, agrees⟩
  rw [begun, begun, Session.begun, Session.begun, agrees.reserved superblockAt (by decide),
    fresh.root_superblock, Session.rootFile, Session.rootFile,
    Image.entryAt_congr (agrees.content _ allocated)]

end State

/-! ### Steps -/

/-- Reformatting two disks begins the same session again, on disks that agree. -/
theorem Session.alwaysAgrees_reformat (full : Bool) :
  (reformat full).AlwaysAgrees
  := by
  intro session image image' _ _
  obtain ⟨prepared, h, hexec⟩ := exec_reformat_begun full session image
  obtain ⟨prepared', h', hexec'⟩ := exec_reformat_begun full session image'
  have agrees := State.agrees_begun h h' session.clock
  have same : begun (prepared'.withRoot session.clock) session.clock
      = begun (prepared.withRoot session.clock) session.clock := agrees.session
  rw [same] at hexec'
  exact SessionM.agreesOn_of_exec hexec hexec' agrees.image

/-- An operation agrees if the action with whose result it answers does. -/
theorem SessionM.AlwaysAgrees.answer {α : Type} {action : SessionM α} (h : action.AlwaysAgrees)
    (answer : α → Answer) :
  (do return answer (← action) : SessionM Answer).AlwaysAgrees
  := by
  intro session image image' coherent agrees
  apply (h session image image' coherent agrees).bind
  intro _ _ _ _ _ agrees
  exact agreesOn_pure agrees _

open Session in
/-- Every operation is performed in the same way on two disks that agree. -/
theorem Operation.alwaysAgrees_perform (operation : Operation) :
  operation.perform.AlwaysAgrees
  := by
  cases operation with
  | makeDirectory path => exact (alwaysAgrees_createAt path .directory).answer _
  | createFile path => exact (alwaysAgrees_createAt path .file).answer _
  | removeDirectory path => exact (alwaysAgrees_removeAt path .directory).answer fun _ => .done
  | removeFile path => exact (alwaysAgrees_removeAt path .file).answer fun _ => .done
  | list path => exact (alwaysAgrees_list path).answer _
  | lookup path => exact (alwaysAgrees_lookup path).answer _
  | openPath path => exact (alwaysAgrees_openPath path).answer _
  | handleOf path => exact (alwaysAgrees_handleOf path).answer _
  | close handle => exact (alwaysAgrees_close handle).answer fun _ => .done
  | closeAll => exact alwaysAgrees_closeAll.answer fun _ => .done
  | setDirectory handle => exact (alwaysAgrees_setDirectory handle).answer fun _ => .done
  | changeDirectory path => exact (alwaysAgrees_changeDirectory path).answer fun _ => .done
  | read handle count =>
      have reading : (Session.read handle count).AlwaysAgrees :=
        fun _ _ _ _ agrees => agreesOn_read agrees handle count
      exact reading.answer _
  | readAll handle =>
      have reading : (Session.readAll handle).AlwaysAgrees :=
        fun _ _ _ _ agrees => agreesOn_readAll agrees handle
      exact reading.answer _
  | seek handle position =>
      have seeking : (Session.seek handle position).AlwaysAgrees :=
        fun _ _ _ _ agrees => agreesOn_seek agrees handle position
      exact seeking.answer _
  | write handle content mode => exact (alwaysAgrees_write handle content mode).answer _
  | openFile handle =>
      have holding : (Session.openFile handle).AlwaysAgrees :=
        fun _ _ _ _ agrees => agreesOn_openFile agrees handle
      exact holding.answer _
  | check => exact alwaysAgrees_check.answer _
  | usage => exact alwaysAgrees_usage.answer _
  | shutdown => exact alwaysAgrees_shutdown.answer fun _ => .done
  | reformat full => exact (alwaysAgrees_reformat full).answer fun _ => .done

namespace State

/-- The results of the steps of a history. -/
def results (state : State) : List Step → List (Except Error Answer)
  | [] => []
  | step :: rest => step.result state :: (step.next state).results rest

variable {state state' : State}

/-- A step has the same result in states that agree and leads to states that agree. -/
theorem Coherent.agrees_next (h : state.Coherent) (agrees : state.Agrees state') (step : Step) :
  step.result state' = step.result state ∧ (step.next state).Agrees (step.next state')
  := by
  obtain ⟨session', image'⟩ := state'
  obtain ⟨rfl, agrees⟩ := agrees
  have same := step.operation.alwaysAgrees_perform _ _ _ (h.at_time step.now) agrees
  exact ⟨same.same_result, same.same_session, same.agrees⟩

/-- A history has the same results in states that agree, and leads to states that agree. -/
theorem Coherent.agrees_run (h : state.Coherent) (agrees : state.Agrees state')
    (history : List Step) :
  state'.results history = state.results history
    ∧ (state.run history).Agrees (state'.run history)
  := by
  induction history generalizing state state' with
  | nil => exact ⟨rfl, agrees⟩
  | cons step rest ih =>
      obtain ⟨result, next⟩ := h.agrees_next agrees step
      obtain ⟨results, run⟩ := ih (h.change step).1 next
      refine ⟨?_, run⟩
      rw [State.results, State.results, result, results]

end State

/-! ### Beginnings -/

/-- A way to begin a session on a disk whatever is on it: to format it, or to reformat it in a session
that works on it. -/
inductive Beginning where
  | format
  | reformat (session : Session)

namespace Beginning

/-- The session begins in the given state when this is done at the given time. -/
def LeadsTo (clock : Timestamp) (image : Image) (start : State) : Beginning → Prop
  | format => (Session.format clock).exec image = (.ok start.session, start.image)
  | reformat session =>
      (Session.reformat false).exec (session.atTime clock) image
        = (.ok (), start.session, start.image)

/-- Each beginning prepares the disk and begins on it. -/
theorem exists_leadsTo (beginning : Beginning) (clock : Timestamp) (image : Image) :
  ∃ prepared : Image, prepared.Prepared
    ∧ beginning.LeadsTo clock image (State.begun prepared clock)
  := by
  cases beginning with
  | format => exact Session.exec_format_begun clock image
  | reformat session => exact Session.exec_reformat_begun false (session.atTime clock) image

end Beginning

/-- Sessions begin on any two disks by formatting or reformatting them at the same time.  Every
history has the same results in both, and leads to the same session. -/
theorem forgets_throughout (clock : Timestamp) (image image' : Image)
    (beginning beginning' : Beginning) :
  ∃ start start' : State, beginning.LeadsTo clock image start
    ∧ beginning'.LeadsTo clock image' start'
    ∧ ∀ history, start'.results history = start.results history
        ∧ (start'.run history).session = (start.run history).session
  := by
  obtain ⟨prepared, h, leads⟩ := beginning.exists_leadsTo clock image
  obtain ⟨prepared', h', leads'⟩ := beginning'.exists_leadsTo clock image'
  refine ⟨_, _, leads, leads', ?_⟩
  intro history
  obtain ⟨results, run⟩ :=
    (State.coherent_begun h clock).agrees_run (State.agrees_begun h h' clock) history
  exact ⟨results, run.session⟩

end FatVolume
