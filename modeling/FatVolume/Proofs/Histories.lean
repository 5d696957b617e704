import FatVolume.Session.Operation
import FatVolume.Proofs.Beginning
import FatVolume.Proofs.QuietOperations
import FatVolume.Proofs.TreeOperations

/-!
# Histories

A history is a list of steps, each an operation with the time at which it is performed.  A step
keeps a coherent session coherent, whether it succeeds or fails, and changes the tree at
one path at most, unless it reformats.  What holds after every history follows by induction.
-/

namespace FatVolume

/-! ### Steps -/

namespace Session

/-- The session with the time that the clock shows. -/
def atTime (session : Session) (now : Timestamp) : Session :=
  { session with clock := now }

variable (session : Session) (image : Image) (now : Timestamp)

@[simp]
theorem superblock_atTime :
  (session.atTime now).superblock = session.superblock
  := rfl

@[simp]
theorem openFiles_atTime :
  (session.atTime now).openFiles = session.openFiles
  := rfl

@[simp]
theorem absolute_atTime (path : String) :
  (session.atTime now).absolute path = session.absolute path
  := rfl

@[simp]
theorem target_atTime (path : String) :
  (session.atTime now).target path = session.target path
  := rfl

@[simp]
theorem removing_atTime (path : String) (kind : Kind) :
  (session.atTime now).removing image path kind = session.removing image path kind
  := by
  unfold removing
  rw [superblock_atTime, openFiles_atTime, absolute_atTime, target_atTime]

end Session

/-- A session and the image of the disk on which it works. -/
structure State where
  session : Session
  image : Image

/-- An operation and the time at which it is performed. -/
structure Step where
  operation : Operation
  now : Timestamp

namespace State

variable (state : State)

/-- The tree that a session shows. -/
def tree : Tree :=
  state.session.node? state.image

/-- The open files of the state track the image, which is sound with their lengths. -/
def Coherent : Prop :=
  state.session.Coherent state.image

end State

namespace Step

variable (step : Step) (state : State)

/-- Performs the operation in a state. -/
def exec : Except Error Answer × Session × Image :=
  step.operation.perform.exec (state.session.atTime step.now) state.image

/-- The result of a step. -/
def result : Except Error Answer :=
  (step.exec state).1

/-- The state after a step. -/
def next : State where
  session := (step.exec state).2.1
  image := (step.exec state).2.2

variable {step state} {result : Except Error Answer} {session' : Session} {after : Image}

theorem result_of_exec (h : step.exec state = (result, session', after)) :
  step.result state = result
  := by
  rw [Step.result, h]

theorem next_of_exec (h : step.exec state = (result, session', after)) :
  step.next state = ⟨session', after⟩
  := by
  rw [next, h]

end Step

/-- The state after a history. -/
def State.run (state : State) (history : List Step) : State :=
  history.foldl (fun state step => step.next state) state

theorem State.run_append (state : State) (history more : List Step) :
  state.run (history ++ more) = (state.run history).run more
  := List.foldl_append

/-- What every step preserves holds after every history. -/
theorem State.run_induction {motive : State → Prop} {state : State} (start : motive state)
    (preserved : ∀ state (step : Step), motive state → motive (step.next state))
    (history : List Step) :
  motive (state.run history)
  := by
  induction history generalizing state with
  | nil => exact start
  | cons step rest ih => exact ih (preserved state step start)

/-! ### Quiet operations -/

namespace Operation

/-- The operation never changes the tree. -/
def isQuiet : Operation → Bool
  | makeDirectory _ | createFile _ | removeDirectory _ | removeFile _ | write _ _ _
  | reformat _ => false
  | _ => true

/-- Creates an entry of a kind. -/
def create (path : String) (kind : Kind) : Operation :=
  match kind with
  | .directory => makeDirectory path
  | .file => createFile path

/-- Removes an entry of a kind. -/
def remove (path : String) (kind : Kind) : Operation :=
  match kind with
  | .directory => removeDirectory path
  | .file => removeFile path

/-- An operation is quiet, or creates, removes, writes or reformats. -/
theorem isQuiet_or (operation : Operation) :
  operation.isQuiet = true ∨ (∃ path kind, operation = create path kind)
    ∨ (∃ path kind, operation = remove path kind)
    ∨ (∃ handle content mode, operation = write handle content mode)
    ∨ ∃ full, operation = reformat full
  := by
  cases operation with
  | makeDirectory path => exact .inr (.inl ⟨path, .directory, rfl⟩)
  | createFile path => exact .inr (.inl ⟨path, .file, rfl⟩)
  | removeDirectory path => exact .inr (.inr (.inl ⟨path, .directory, rfl⟩))
  | removeFile path => exact .inr (.inr (.inl ⟨path, .file, rfl⟩))
  | write handle content mode => exact .inr (.inr (.inr (.inl ⟨handle, content, mode, rfl⟩)))
  | reformat full => exact .inr (.inr (.inr (.inr ⟨full, rfl⟩)))
  | _ => exact .inl rfl

theorem perform_create (path : String) (kind : Kind) :
  (create path kind).perform = do return .entry (← Session.createAt path kind)
  := by
  cases kind <;> rfl

theorem perform_remove (path : String) (kind : Kind) :
  (remove path kind).perform = do Session.removeAt path kind; return .done
  := by
  cases kind <;> rfl

end Operation

namespace Session

theorem alwaysQuiet_shutdown :
  shutdown.AlwaysQuiet
  := by
  intro session image h
  obtain ⟨session', after, hexec, quiet, -⟩ := h.exec_shutdown
  apply SessionM.quietAt_of_eq hexec quiet

end Session

/-- An operation is as quiet as the action with whose result it answers. -/
theorem SessionM.AlwaysQuiet.answer {α : Type} {action : SessionM α} (h : action.AlwaysQuiet)
    (answer : α → Answer) :
  (do return answer (← action) : SessionM Answer).AlwaysQuiet
  := by
  intro session image coherent
  apply (h session image coherent).bind
  intro a session' after _ coherent'
  apply quietAt_pure coherent' _

open Session in
theorem Operation.alwaysQuiet_perform {operation : Operation} (h : operation.isQuiet = true) :
  operation.perform.AlwaysQuiet
  := by
  cases operation with
  | list path => exact (alwaysQuiet_list path).answer _
  | lookup path => exact (alwaysQuiet_lookup path).answer _
  | openPath path => exact (alwaysQuiet_openPath path).answer _
  | handleOf path => exact (alwaysQuiet_handleOf path).answer _
  | close handle => exact (alwaysQuiet_close handle).answer fun _ => .done
  | closeAll => exact alwaysQuiet_closeAll.answer fun _ => .done
  | setDirectory handle => exact (alwaysQuiet_setDirectory handle).answer fun _ => .done
  | changeDirectory path => exact (alwaysQuiet_changeDirectory path).answer fun _ => .done
  | read handle count => exact (alwaysQuiet_read handle count).answer _
  | readAll handle => exact (alwaysQuiet_readAll handle).answer _
  | seek handle position => exact (alwaysQuiet_seek handle position).answer _
  | openFile handle => exact (alwaysQuiet_openFile handle).answer _
  | check => exact alwaysQuiet_check.answer _
  | usage => exact alwaysQuiet_usage.answer _
  | shutdown => exact alwaysQuiet_shutdown.answer fun _ => .done
  | makeDirectory path => simp [isQuiet] at h
  | createFile path => simp [isQuiet] at h
  | removeDirectory path => simp [isQuiet] at h
  | removeFile path => simp [isQuiet] at h
  | write handle content mode => simp [isQuiet] at h
  | reformat full => simp [isQuiet] at h

/-! ### Changes of the tree -/

/-- The ways in which a step that begins in a session can change the tree, by its operation and
its result. -/
inductive Change (session : Session) (tree : Tree) :
    Operation → Except Error Answer → Tree → Prop
  | unchanged (operation : Operation) (result : Except Error Answer) :
      Change session tree operation result tree
  | created {path : String} {kind : Kind} {e : Entry}
      (normal : Path.Normal (session.target path)) (absent : tree (session.target path) = none) :
      Change session tree (.create path kind) (.ok (.entry e))
        (Function.update tree (session.target path)
          (some (Session.newNode kind e.record.first.toNat)))
  | removed {path : String} {kind : Kind}
      (held : (tree (session.target path)).map Node.kind = some kind) :
      Change session tree (.remove path kind) (.ok .done)
        (Function.update tree (session.target path) none)
  | written {handle : Handle} {file : OpenFile} {content old bytes : Bytes} {mode : WriteMode}
      {names : List String} {blocks stored : List Nat}
      (hfile : session.openFiles.get? handle = some file) (hpath : file.path = Path.render names)
      (held : tree names = some (.file blocks old)) :
      Change session tree (.write handle content mode) (.ok (.written content.length))
        (Function.update tree names (some (.file stored bytes)))
  | reformatted {full : Bool} {after : Tree} (bare : after.Bare) :
      Change session tree (.reformat full) (.ok .done) after

/-- The step leads to a coherent session and changes the tree in one of the ways of its
operation. -/
def Changes (state : State) (step : Step) : Prop :=
  (step.next state).Coherent
    ∧ Change state.session state.tree step.operation (step.result state) (step.next state).tree

namespace State.Coherent

variable {state : State} (h : state.Coherent)
include h

/-- A step begins as coherently as the session was before, only later. -/
theorem at_time (now : Timestamp) :
  (state.session.atTime now).Coherent state.image
  := by
  have quiet : state.session.Quiet state.image (state.session.atTime now) state.image :=
    Session.Coherent.quiet_of_eq h rfl rfl
  apply quiet.coherent

/-- Looking up a path answers with the entry that its target leads to. -/
theorem exec_lookup (path : String) (now : Timestamp) :
  Step.exec ⟨.lookup path, now⟩ state
    = ((found (state.image.find? state.session.superblock.root (state.session.target path))).map
        Answer.entry, state.session.atTime now, state.image)
  := by
  have hexec := (h.at_time now).exec_lookup path
  rw [Session.target_atTime, Session.superblock_atTime] at hexec
  cases he : state.image.find? state.session.superblock.root (state.session.target path) with
  | none =>
      rw [he] at hexec
      exact SessionM.exec_bind_of_error hexec
  | some e =>
      rw [he] at hexec
      exact SessionM.exec_bind_of_ok hexec

/-- Creating an entry answers with it, or it fails and changes nothing but the clock. -/
theorem exec_create (path : String) (kind : Kind) (now : Timestamp) :
  (∃ error, (state.session.atTime now).creating state.image path kind
        = .error error
      ∧ Step.exec ⟨.create path kind, now⟩ state
        = (.error error, state.session.atTime now, state.image))
    ∨ ∃ d e after, (state.session.atTime now).creating state.image path kind
          = .ok (d, e)
        ∧ Step.exec ⟨.create path kind, now⟩ state
          = (.ok (.entry e), state.session.atTime now, after)
        ∧ (state.session.atTime now).Coherent after
        ∧ state.tree (state.session.target path) = none
        ∧ state.session.node? after = Function.update state.tree (state.session.target path)
            (some (Session.newNode kind e.record.first.toNat))
        ∧ after.find? state.session.superblock.root (state.session.target path) = some e
        ∧ e.record.kind = kind ∧ e.record.length = Directory.initialLength kind
  := by
  rw [Step.exec, Operation.perform_create]
  rcases (h.at_time now).createAt_cases path kind with ⟨error, hcreating, hexec⟩ |
    ⟨d, e, after, hcreating, hexec, rest⟩
  · exact .inl ⟨error, hcreating, SessionM.exec_bind_of_error hexec⟩
  · exact .inr ⟨d, e, after, hcreating, SessionM.exec_bind_of_ok hexec, rest⟩

/-- Removing an entry succeeds, or it fails and changes nothing but the clock. -/
theorem exec_remove (path : String) (kind : Kind) (now : Timestamp) :
  (∃ error, state.session.removing state.image path kind = .error error
      ∧ Step.exec ⟨.remove path kind, now⟩ state
        = (.error error, state.session.atTime now, state.image))
    ∨ ∃ e after, state.session.removing state.image path kind = .ok e
        ∧ Step.exec ⟨.remove path kind, now⟩ state
          = (.ok .done, state.session.atTime now, after)
        ∧ (state.session.atTime now).Coherent after
        ∧ (state.tree (state.session.target path)).map Node.kind = some kind
        ∧ state.session.node? after
          = Function.update state.tree (state.session.target path) none
  := by
  rw [Step.exec, Operation.perform_remove]
  have cases := (h.at_time now).removeAt_cases path kind
  rw [Session.removing_atTime] at cases
  rcases cases with ⟨error, hremoving, hexec⟩ | ⟨e, after, hremoving, hexec, rest⟩
  · exact .inl ⟨error, hremoving, SessionM.exec_bind_of_error hexec⟩
  · exact .inr ⟨e, after, hremoving, SessionM.exec_bind_of_ok hexec, rest⟩

/-- Creating an entry puts it into the image, if it is not refused. -/
theorem exec_create_created (path : String) (kind : Kind) (now : Timestamp) :
  Step.exec ⟨.create path kind, now⟩ state
    = match (state.session.atTime now).creating state.image path kind with
      | .ok (d, e) => (.ok (.entry e), state.session.atTime now,
          state.image.created now d.record e.record e.location)
      | .error error => (.error error, state.session.atTime now, state.image)
  := by
  have hexec := (h.at_time now).exec_createAt path kind
  rw [Step.exec, Operation.perform_create]
  cases hcreating : (state.session.atTime now).creating state.image path kind with
  | error error =>
      rw [hcreating] at hexec
      exact SessionM.exec_bind_of_error hexec
  | ok created =>
      rw [hcreating] at hexec
      exact SessionM.exec_bind_of_ok hexec

/-- An entry that was created had been found possible, and is in the image. -/
theorem creating_of_created {path : String} {kind : Kind} {now : Timestamp} {answer : Answer}
    (created : Step.result ⟨.create path kind, now⟩ state = .ok answer) :
  ∃ d e, (state.session.atTime now).creating state.image path kind = .ok (d, e)
    ∧ Step.next ⟨.create path kind, now⟩ state
      = ⟨state.session.atTime now, state.image.created now d.record e.record e.location⟩
  := by
  have hexec := h.exec_create_created path kind now
  cases hcreating : (state.session.atTime now).creating state.image path kind with
  | error error =>
      rw [hcreating] at hexec
      rw [Step.result_of_exec hexec] at created
      cases created
  | ok found =>
      rw [hcreating] at hexec
      exact ⟨found.1, found.2, rfl, Step.next_of_exec hexec⟩

/-- Removing an entry gives up its slot and its chain, if it is not refused. -/
theorem exec_remove_removed (path : String) (kind : Kind) (now : Timestamp) :
  Step.exec ⟨.remove path kind, now⟩ state
    = match state.session.removing state.image path kind with
      | .ok e => (.ok .done, state.session.atTime now, ((Directory.remove e).exec state.image).2)
      | .error error => (.error error, state.session.atTime now, state.image)
  := by
  have hexec := (h.at_time now).exec_removeAt path kind
  rw [Session.removing_atTime] at hexec
  rw [Step.exec, Operation.perform_remove]
  cases hremoving : state.session.removing state.image path kind with
  | error error =>
      rw [hremoving] at hexec
      exact SessionM.exec_bind_of_error hexec
  | ok e =>
      rw [hremoving] at hexec
      obtain ⟨-, named, he, -⟩ := (Session.removing_eq_ok_iff h).mp hremoving
      obtain ⟨names, name, target⟩ := (List.eq_nil_or_concat' _).resolve_left named
      rw [target] at he
      obtain ⟨after, hremove, -⟩ := Directory.exec_remove_retabled h.sound he
      dsimp only
      rw [hremove]
      exact SessionM.exec_bind_of_ok (hexec.trans (SessionM.exec_lift_of_eq hremove))

/-- Removing an entry changes the image: its path leads nowhere any more. -/
theorem image_remove_ne {path : String} {kind : Kind} {now : Timestamp} {answer : Answer}
    (removed : Step.result ⟨.remove path kind, now⟩ state = .ok answer) :
  (Step.exec ⟨.remove path kind, now⟩ state).2.2 ≠ state.image
  := by
  rcases h.exec_remove path kind now with ⟨error, -, hexec⟩ | ⟨e, after, -, hexec, -, held, tree⟩
  · rw [Step.result_of_exec hexec] at removed
    cases removed
  · rw [hexec]
    rintro rfl
    have nowhere := congrFun tree (state.session.target path)
    rw [Function.update_self] at nowhere
    change state.tree _ = none at nowhere
    simp [nowhere] at held

/-- A step that fails and leaves the session and the disk alone changes nothing but the clock. -/
theorem changes_of_error {operation : Operation} {now : Timestamp} {error : Error}
    (hexec : Step.exec ⟨operation, now⟩ state
      = (.error error, state.session.atTime now, state.image)) :
  Changes state ⟨operation, now⟩
  := by
  rw [Changes, Step.next_of_exec hexec]
  exact ⟨h.at_time now, .unchanged _ _⟩

omit h in
/-- A step that succeeds has changed the tree to the one that is shown afterwards. -/
theorem changes_of_ok {step : Step} {answer : Answer} {session' : Session} {after : Image}
    {tree : Tree} (hexec : step.exec state = (.ok answer, session', after))
    (coherent : session'.Coherent after) (nodes : session'.node? after = tree)
    (change : Change state.session state.tree step.operation (.ok answer) tree) :
  Changes state step
  := by
  rw [Changes, Step.next_of_exec hexec, Step.result_of_exec hexec]
  have changed : State.tree ⟨session', after⟩ = tree := nodes
  rw [changed]
  exact ⟨coherent, change⟩

theorem change_quiet {operation : Operation} (quiet : operation.isQuiet = true) (now : Timestamp) :
  Changes state ⟨operation, now⟩
  := by
  have quiet := Operation.alwaysQuiet_perform quiet _ _ (h.at_time now)
  refine ⟨quiet.coherent, ?_⟩
  have same : (Step.next ⟨operation, now⟩ state).tree = state.tree := quiet.node?_eq
  rw [same]
  exact .unchanged _ _

theorem change_create (path : String) (kind : Kind) (now : Timestamp) :
  Changes state ⟨.create path kind, now⟩
  := by
  rcases h.exec_create path kind now with ⟨error, -, hexec⟩ |
    ⟨d, e, after, -, hexec, coherent, absent, nodes, -⟩
  · exact h.changes_of_error hexec
  · exact changes_of_ok hexec coherent nodes (.created (h.absolute_eq path).2 absent)

theorem change_remove (path : String) (kind : Kind) (now : Timestamp) :
  Changes state ⟨.remove path kind, now⟩
  := by
  rcases h.exec_remove path kind now with ⟨error, -, hexec⟩ |
    ⟨e, after, -, hexec, coherent, held, nodes⟩
  · exact h.changes_of_error hexec
  · exact changes_of_ok hexec coherent nodes (.removed held)

theorem change_write (handle : Handle) (content : Bytes) (mode : WriteMode) (now : Timestamp) :
  Changes state ⟨.write handle content mode, now⟩
  := by
  rcases (h.at_time now).exec_write handle content mode with ⟨error, hwrite⟩ |
    ⟨file, session', after, hfile, hwrite, -, names, blocks, old, stored, bytes, -, hpath, held,
      coherent, nodes⟩
  · exact h.changes_of_error (SessionM.exec_bind_of_error hwrite)
  · have hexec : Step.exec ⟨.write handle content mode, now⟩ state = _ :=
      SessionM.exec_bind_of_ok hwrite
    rw [SessionM.exec_pure] at hexec
    exact changes_of_ok hexec coherent nodes (.written hfile hpath held)

omit h in
theorem change_reformat (full : Bool) (now : Timestamp) :
  Changes state ⟨.reformat full, now⟩
  := by
  obtain ⟨session', after, hformat, coherent, bare⟩ :=
    Session.exec_reformat full (state.session.atTime now) state.image
  have hexec : Step.exec ⟨.reformat full, now⟩ state = _ := SessionM.exec_bind_of_ok hformat
  rw [SessionM.exec_pure] at hexec
  exact changes_of_ok hexec coherent rfl (.reformatted bare)

/-- Every step keeps the session coherent and changes the tree in one of the ways of its
operation. -/
theorem change (step : Step) :
  Changes state step
  := by
  obtain ⟨operation, now⟩ := step
  rcases operation.isQuiet_or with quiet | ⟨path, kind, rfl⟩ | ⟨path, kind, rfl⟩ |
    ⟨handle, content, mode, rfl⟩ | ⟨full, rfl⟩
  · apply h.change_quiet quiet now
  · apply h.change_create path kind now
  · apply h.change_remove path kind now
  · apply h.change_write handle content mode now
  · apply change_reformat full now

/-- Every history keeps the session coherent. -/
theorem run (history : List Step) :
  (state.run history).Coherent
  := State.run_induction h (fun _ step h => (h.change step).1) history

end State.Coherent

/-! ### Formatted volumes -/

/-- The tree of a volume that was formatted has normal paths only, and every directory in it but
the root fills one block. -/
structure Tree.Standard (tree : Tree) : Prop where
  normal : ∀ {names node}, tree names = some node → Path.Normal names
  fills : ∀ {names length}, tree names = some (.directory length) → names ≠ [] →
    length = blockSize

theorem Tree.Bare.standard {tree : Tree} (bare : tree.Bare) :
  tree.Standard
  := by
  have only {names : List String} {node : Node} (h : tree names = some node) : names = [] := by
    by_contra nonempty
    simp [bare.2 names nonempty] at h
  constructor
  · intro names node h
    rw [only h]
    apply Path.Normal.nil
  · intro names length h nonempty
    exact (nonempty (only h)).elim

/-- What is put at a normal path fits into a standard tree. -/
theorem Tree.Standard.update {tree : Tree} (standard : tree.Standard) {names : List String}
    {new : Option Node} (normal : new ≠ none → Path.Normal names)
    (fills : ∀ length, new = some (.directory length) → length = blockSize) :
  Tree.Standard (Function.update tree names new)
  := by
  constructor
  · intro other node h
    by_cases same : other = names
    · subst same
      rw [Function.update_self] at h
      apply normal
      simp [h]
    · rw [Function.update_of_ne same] at h
      apply standard.normal h
  · intro other length h nonempty
    by_cases same : other = names
    · subst same
      rw [Function.update_self] at h
      apply fills length h
    · rw [Function.update_of_ne same] at h
      apply standard.fills h nonempty

/-- A step of any kind leads from a standard tree to a standard tree. -/
theorem Change.standard {session : Session} {tree after : Tree} {operation : Operation}
    {result : Except Error Answer} (h : Change session tree operation result after)
    (standard : tree.Standard) :
  after.Standard
  := by
  cases h with
  | unchanged => exact standard
  | @created path kind e normal absent =>
      apply standard.update fun _ => normal
      intro length h
      cases kind with
      | directory => simpa [Session.newNode, eq_comm] using h
      | file => simp [Session.newNode] at h
  | removed => exact standard.update (by simp) (by simp)
  | written hfile hpath held => exact standard.update (fun _ => standard.normal held) (by simp)
  | reformatted bare => exact bare.standard

/-- After every history a coherent state shows a standard tree if it did before. -/
theorem State.Coherent.standard_run {state : State} (h : state.Coherent)
    (standard : state.tree.Standard) (history : List Step) :
  (state.run history).tree.Standard
  := by
  induction history generalizing state with
  | nil => exact standard
  | cons step rest ih =>
      obtain ⟨coherent', changed⟩ := h.change step
      exact ih coherent' (changed.standard standard)

/-- A session can begin by formatting any disk.  After every history it is coherent and shows a
standard tree. -/
theorem exists_formatted (clock : Timestamp) (image : Image) :
  ∃ start : State, (Session.format clock).exec image = (.ok start.session, start.image)
    ∧ ∀ history, (start.run history).Coherent ∧ (start.run history).tree.Standard
  := by
  obtain ⟨session, after, hformat, coherent, bare⟩ := Session.exec_format clock image
  have start : State.Coherent ⟨session, after⟩ := coherent
  refine ⟨⟨session, after⟩, hformat, ?_⟩
  exact fun history => ⟨start.run history, start.standard_run bare.standard history⟩

end FatVolume
