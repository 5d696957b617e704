import FatVolume.Proofs.Performing
import FatVolume.Shell.Basic

/-!
# What a shell performs

Every command performs operations of the session and writes to the channels, and so does a whole
script.
-/

namespace FatVolume

/-! ### Output -/

namespace SessionM

variable {α σ : Type} {serve : Surroundings σ} {session : Session} {s : σ}

/-- A program of its own leaves the session as it is and does not fail. -/
theorem runIn_program (program : Program α) :
  (liftM program : SessionM α).runIn serve session s
    = (.ok (program.run serve s).1, session, (program.run serve s).2)
  := by
  simp only [runIn, liftM, monadLift, MonadLift.monadLift, StateT.lift, StateT.run, ExceptT.lift,
    ExceptT.run, ExceptT.mk, map_eq_pure_bind, Program.run_bind]
  rfl

/-- What cannot fail does not. -/
theorem runIn_state {action : StateT Session Program α} {a : α} {session' : Session} {s' : σ}
    (h : (action.run session).run serve s = ((a, session'), s')) :
  (liftM action : SessionM α).runIn serve session s = (.ok a, session', s')
  := by
  simp only [runIn, liftM, monadLift, MonadLift.monadLift, ExceptT.lift, ExceptT.run_mk,
    map_eq_pure_bind, StateT.run_bind, Program.run_bind, h]
  rfl

end SessionM

namespace Shell

open SessionM

theorem sameButChannels_print (bytes : Bytes) (host : Host) :
  host.SameButChannels ((DiskM.print bytes).runIn Host.serve host).2
  := ⟨_, _, rfl⟩

theorem outputs_print (text : String) :
  (liftM (print text) : SessionM Unit).Outputs
  := outputs_lift (sameButChannels_print _)

theorem outputs_printLine (text : String) :
  (liftM (printLine text) : SessionM Unit).Outputs
  := outputs_print _

theorem outputs_printContent (content : Bytes) :
  (liftM (printContent content) : SessionM Unit).Outputs
  := by
  apply outputs_lift
  intro host
  have channels := sameButChannels_print content host
  rcases hprint : (DiskM.print content).runIn Host.serve host with ⟨result, host'⟩
  rw [hprint] at channels
  cases result with
  | ok done =>
      rw [printContent, DiskM.runIn_bind_of_ok hprint]
      split
      · exact channels.trans (sameButChannels_print _ host')
      · exact channels
  | error e =>
      rw [printContent, DiskM.runIn_bind_of_error hprint]
      exact channels

/-- Reporting a failure only writes to the channels. -/
theorem sameButChannels_report (subject : String) (failure : Error) (host : Host) :
  host.SameButChannels ((report subject failure).run Host.serve host).2
  := by
  rw [report, Program.run_bind]
  cases hreport : (Program.request (.report (Utf8.encode
      (s!"{subject}: {failure.message}" ++ "\n")))).run Host.serve host with
  | mk answer host' =>
      have channels : host.SameButChannels host' := by
        obtain rfl : _ = host' := congrArg Prod.snd hreport
        exact ⟨_, _, rfl⟩
      cases answer with
      | ok done => exact channels
      | error e => exact channels.trans (.log host' _)

theorem outputs_report (subject : String) (failure : Error) :
  (liftM (report subject failure) : SessionM Unit).Outputs
  := by
  intro session host
  rw [runIn_program]
  exact ⟨rfl, sameButChannels_report subject failure host⟩

/-! ### Commands -/

theorem operates_forEach (name : String) (paths : List String) {action : String → SessionM Unit}
    (h : ∀ path, (action path).Operates) :
  (forEach name paths action).Operates
  := by
  apply operates_forM
  intro path
  apply (h path).tryCatch
  exact fun failure => (outputs_report _ failure).operates

theorem operates_openOne (path : String) :
  (openOne path).Operates
  := by
  have opens : (Session.openPath path).Operates := operates_operation (.openPath path) rfl
  have opened : (do return some (← Session.openPath path) : SessionM (Option Handle)).Operates :=
    opens.bind fun _ => (outputs_pure _).operates
  apply (opened.tryCatch _).bind
  · intro result
    cases result with
    | none => exact (outputs_pure _).operates
    | some handle => exact (outputs_printLine _).operates
  · exact fun failure => (outputs_report _ failure).operates.bind fun _ => (outputs_pure _).operates

/-- A command performs operations of the session. -/
theorem operates_perform (content : Bytes) (command : Command) :
  (perform content command).Operates
  := by
  have handleOf (path : String) : (Session.handleOf path).Operates :=
    operates_operation (.handleOf path) rfl
  have line (text : String) : (liftM (printLine text) : SessionM Unit).Operates :=
    (outputs_printLine text).operates
  cases command with
  | format full =>
      have formats : (Session.reformat full).Operates := operates_operation (.reformat full) rfl
      exact formats.bind fun _ => line _
  | changeDirectory path => exact operates_operation (.changeDirectory path) rfl
  | currentDirectory => exact outputs_get.operates.bind fun _ => line _
  | makeDirectories paths =>
      apply operates_forEach
      intro path
      have creates : (Session.makeDirectory path).Operates :=
        operates_operation (.makeDirectory path) rfl
      exact operates_discard creates
  | removeDirectories paths =>
      apply operates_forEach
      exact fun path => operates_operation (.removeDirectory path) rfl
  | list long path =>
      have lists : (Session.list path).Operates := operates_operation (.list path) rfl
      apply lists.bind
      intro entries
      apply operates_ite
      · exact operates_forM (fun _ => line _) _
      · exact line _
  | createFiles paths =>
      apply operates_forEach
      intro path
      have creates : (Session.createFile path).Operates :=
        operates_operation (.createFile path) rfl
      exact operates_discard creates
  | removeFiles paths =>
      apply operates_forEach
      exact fun path => operates_operation (.removeFile path) rfl
  | openPaths paths => exact operates_forM operates_openOne paths
  | listOpen =>
      apply (line _).bind
      intro _
      apply outputs_get.operates.bind
      exact fun session => operates_forM (fun _ => line _) _
  | closePaths paths =>
      apply operates_forEach
      intro path
      apply (handleOf path).bind
      exact fun handle => operates_operation (.close handle) rfl
  | closeAll => exact operates_operation .closeAll rfl
  | write mode path position =>
      apply (handleOf path).bind
      intro handle
      have opened : (Session.openFile handle).Operates := operates_operation (.openFile handle) rfl
      apply opened.bind
      intro file
      have writes : (Session.write handle content mode).Operates :=
        operates_operation (.write handle content mode) rfl
      have finish := writes.bind fun written => line s!"{written} bytes written"
      have seeks (position : Nat) : (Session.seek handle position).Operates :=
        operates_operation (.seek handle position) rfl
      cases position with
      | none => exact operates_ite ((outputs_throw _).operates.bind fun _ => finish) finish
      | some position =>
          have finish := (operates_discard (seeks position)).bind fun _ => finish
          exact operates_ite ((outputs_throw _).operates.bind fun _ => finish) finish
  | readAll path =>
      apply (handleOf path).bind
      intro handle
      have reads : (Session.readAll handle).Operates := operates_operation (.readAll handle) rfl
      exact reads.bind fun _ => (outputs_printContent _).operates
  | read path count =>
      apply (handleOf path).bind
      intro handle
      have reads : (Session.read handle (count.getD Text.maxNat64)).Operates :=
        operates_operation (.read handle _) rfl
      exact reads.bind fun _ => (outputs_printContent _).operates
  | check =>
      have checks : Session.check.Operates := operates_operation .check rfl
      exact checks.bind fun _ => line _
  | usage =>
      have counts : Session.usage.Operates := operates_operation .usage rfl
      exact counts.bind fun _ => line _
  | help => exact (outputs_print _).operates
  | exit => exact (outputs_pure _).operates

/-! ### Scripts -/

/-- A failure that is reported where the command was run might as well be caught. -/
theorem lift_reported (action : SessionM Unit) (handler : Error → Program Unit) (flow : Flow) :
  (liftM (do
      match ← action.run with
      | .ok () => pure ()
      | .error failure => handler failure
      return flow : StateT Session Program Flow) : SessionM Flow)
    = do
      tryCatch action fun failure => handler failure
      return flow
  := by
  apply ExceptT.ext
  apply StateT.ext
  intro session
  simp only [tryCatch, tryCatchThe, MonadExceptOf.tryCatch, ExceptT.tryCatch, liftM, monadLift,
    MonadLift.monadLift, ExceptT.lift, ExceptT.run_mk, ExceptT.run_bind, map_eq_pure_bind,
    bind_assoc, StateT.run_bind]
  congr 1
  funext ⟨result, session'⟩
  cases result with
  | ok done => rfl
  | error failure =>
      dsimp only
      generalize handler failure = program
      induction program with
      | done done => rfl
      | ask request next ih => exact congrArg (Program.ask request) (funext ih)

theorem operates_reported {action : SessionM Unit} (h : action.Operates) (name : String)
    (flow : Flow) :
  (liftM (do
      match ← action.run with
      | .ok () => pure ()
      | .error failure => report name failure
      return flow : StateT Session Program Flow) : SessionM Flow).Operates
  := by
  rw [lift_reported]
  have caught := h.tryCatch fun failure => (outputs_report name failure).operates
  exact caught.bind fun _ => (outputs_pure _).operates

/-- A turn performs operations of the session. -/
theorem operates_execute (turn : Turn) :
  (liftM (execute turn) : SessionM Flow).Operates
  := by
  unfold execute
  split
  · exact (outputs_pure Flow.next).operates
  · next name operands _ =>
      dsimp only
      split
      · next failure _ => exact operates_reported (outputs_throw failure).operates name .next
      · exact (outputs_pure Flow.stop).operates
      · next command content _ _ =>
          exact operates_reported (operates_perform content command) name .next

theorem outputs_prompt :
  prompt.Outputs
  := outputs_get.bind fun _ => outputs_print _

/-- A script performs operations of the session. -/
theorem operates_follow (script : Script) :
  (follow script).Operates
  := by
  induction script with
  | endOfInput => exact outputs_prompt.operates.bind fun _ => (outputs_printLine _).operates
  | unreadable => exact outputs_prompt.operates.bind fun _ => (outputs_throw _).operates
  | turn turn rest ih =>
      apply outputs_prompt.operates.bind
      intro _
      apply (operates_execute turn).bind
      intro flow
      cases flow with
      | next => exact ih
      | stop => exact (outputs_pure _).operates

end Shell

end FatVolume
