import FatVolume.Proofs.CheckedHistories
import FatVolume.Proofs.LastCopies
import FatVolume.Proofs.RecordedCalls
import FatVolume.Proofs.SavedDisks
import FatVolume.Proofs.ShellOperations

/-!
# Sessions of a shell

However a script ends, its session is shut down.  Whatever the input is and wherever the channels
break, nothing that was written is lost, the disk is saved, and its volume checks.
-/

namespace FatVolume

namespace Shell

open SessionM

/-! ### How a script ends -/

/-- The ways in which a script ends. -/
inductive Ending where
  /-- By the command for it. -/
  | exited
  /-- At the end of the input. -/
  | inputEnded
  /-- At a line that cannot be read. -/
  | inputFailed
  /-- Where a prompt, or the line end after the last one, cannot be written. -/
  | outputFailed
  deriving DecidableEq, Repr

/-- What a script that ends in a way results in. -/
def Ending.result : Ending → Except Error Unit
  | exited | inputEnded => .ok ()
  | inputFailed => .error (.io .invalidUtf8)
  | outputFailed => .error (.io .brokenPipe)

/-- A script that is run in a session on a host ends in the given way.  It goes from one turn to the
next, each after a prompt, until a turn stops it or there is none. -/
inductive Ends : Script → Session → Host → Ending → Prop
  | prompt_refused {script : Script} {session session' : Session} {host host' : Host} {e : Error}
      (refused : prompt.runIn Host.serve session host = (.error e, session', host')) :
      Ends script session host .outputFailed
  | unreadable {session session' : Session} {host host' : Host}
      (prompted : prompt.runIn Host.serve session host = (.ok (), session', host')) :
      Ends .unreadable session host .inputFailed
  | line_refused {session session' : Session} {host host' host'' : Host} {e : Error}
      (prompted : prompt.runIn Host.serve session host = (.ok (), session', host'))
      (refused : (printLine "").runIn Host.serve host' = (.error e, host'')) :
      Ends .endOfInput session host .outputFailed
  | endOfInput {session session' : Session} {host host' host'' : Host}
      (prompted : prompt.runIn Host.serve session host = (.ok (), session', host'))
      (printed : (printLine "").runIn Host.serve host' = (.ok (), host'')) :
      Ends .endOfInput session host .inputEnded
  | stop {turn : Turn} {rest : Script} {session session' session'' : Session}
      {host host' host'' : Host}
      (prompted : prompt.runIn Host.serve session host = (.ok (), session', host'))
      (executed : ((execute turn).run session').run Host.serve host'
        = ((.stop, session''), host'')) :
      Ends (.turn turn rest) session host .exited
  | next {turn : Turn} {rest : Script} {session session' session'' : Session}
      {host host' host'' : Host} {ending : Ending}
      (prompted : prompt.runIn Host.serve session host = (.ok (), session', host'))
      (executed : ((execute turn).run session').run Host.serve host'
        = ((.next, session''), host''))
      (further : Ends rest session'' host'' ending) :
      Ends (.turn turn rest) session host ending

/-- What cannot be written cannot because the channel is broken. -/
theorem eq_brokenPipe_of_print {bytes : Bytes} {host : Host} {e : Error}
    (h : ((DiskM.print bytes).runIn Host.serve host).1 = .error e) :
  e = .io .brokenPipe
  := by
  have refused : (host.out.write bytes).1 = .error e := h
  unfold Channel.write at refused
  split at refused
  · cases refused
  · split_ifs at refused
    exact (Except.error.inj refused).symm

theorem eq_brokenPipe_of_prompt {session session' : Session} {host host' : Host} {e : Error}
    (h : prompt.runIn Host.serve session host = (.error e, session', host')) :
  e = .io .brokenPipe
  := by
  rw [prompt, runIn_bind_of_ok runIn_get, runIn_lift] at h
  exact eq_brokenPipe_of_print (congrArg Prod.fst h)

/-- Where there is always room, the prompt is written. -/
theorem runIn_prompt_of_room {session : Session} {host : Host} (h : host.out.room = none) :
  prompt.runIn Host.serve session host
    = (.ok (), session, (prompt.runIn Host.serve session host).2.2)
  := by
  rw [prompt, runIn_bind_of_ok runIn_get, runIn_lift]
  have written (bytes : Bytes) : (host.out.write bytes).1 = .ok () := by simp [Channel.write, h]
  exact Prod.ext (written _) rfl

/-- A script is followed to its end, and results in what this end results in. -/
theorem result_of_ends {script : Script} {session : Session} {host : Host} {ending : Ending}
    (h : Ends script session host ending) :
  ((follow script).runIn Host.serve session host).1 = ending.result
  := by
  induction h with
  | @prompt_refused script _ _ _ _ e refused =>
      obtain rfl := eq_brokenPipe_of_prompt refused
      cases script <;> rw [follow, runIn_bind_of_error refused] <;> rfl
  | unreadable prompted => rw [follow, runIn_bind_of_ok prompted, runIn_throw]; rfl
  | line_refused prompted refused =>
      obtain rfl := eq_brokenPipe_of_print (congrArg Prod.fst refused)
      rw [follow, runIn_bind_of_ok prompted, runIn_lift_of_eq refused]
      rfl
  | endOfInput prompted printed =>
      rw [follow, runIn_bind_of_ok prompted, runIn_lift_of_eq printed]
      rfl
  | stop prompted executed =>
      rw [follow, runIn_bind_of_ok prompted, runIn_bind_of_ok (runIn_state executed), runIn_pure]
      rfl
  | next prompted executed further ih =>
      rw [follow, runIn_bind_of_ok prompted, runIn_bind_of_ok (runIn_state executed)]
      exact ih

/-- Every script ends. -/
theorem exists_ends (script : Script) (session : Session) (host : Host) :
  ∃ ending, Ends script session host ending
  := by
  induction script generalizing session host with
  | endOfInput =>
      rcases hprompt : prompt.runIn Host.serve session host with ⟨result, session', host'⟩
      cases result with
      | error e => exact ⟨_, .prompt_refused hprompt⟩
      | ok done =>
          rcases hline : (printLine "").runIn Host.serve host' with ⟨result, host''⟩
          cases result with
          | error e => exact ⟨_, .line_refused hprompt hline⟩
          | ok done => exact ⟨_, .endOfInput hprompt hline⟩
  | unreadable =>
      rcases hprompt : prompt.runIn Host.serve session host with ⟨result, session', host'⟩
      cases result with
      | error e => exact ⟨_, .prompt_refused hprompt⟩
      | ok done => exact ⟨_, .unreadable hprompt⟩
  | turn turn rest ih =>
      rcases hprompt : prompt.runIn Host.serve session host with ⟨result, session', host'⟩
      cases result with
      | error e => exact ⟨_, .prompt_refused hprompt⟩
      | ok done =>
          rcases hexecute : ((execute turn).run session').run Host.serve host' with
            ⟨⟨flow, session''⟩, host''⟩
          cases flow with
          | stop => exact ⟨_, .stop hprompt hexecute⟩
          | next =>
              obtain ⟨ending, further⟩ := ih session'' host''
              exact ⟨ending, .next hprompt hexecute further⟩

/-- A script results in an error exactly if it ends at the input or the output. -/
theorem exists_error_iff (script : Script) (session : Session) (host : Host) :
  (∃ e, ((follow script).runIn Host.serve session host).1 = .error e)
    ↔ Ends script session host .inputFailed ∨ Ends script session host .outputFailed
  := by
  constructor
  · rintro ⟨e, failed⟩
    obtain ⟨ending, ends⟩ := exists_ends script session host
    rw [result_of_ends ends] at failed
    cases ending with
    | exited | inputEnded => cases failed
    | inputFailed => exact .inl ends
    | outputFailed => exact .inr ends
  · rintro (ends | ends)
    · exact ⟨_, result_of_ends ends⟩
    · exact ⟨_, result_of_ends ends⟩

/-! ### Shutting down -/

/-- A script is followed before the session is shut down, in whatever surroundings. -/
theorem run_eq {σ : Type} {serve : Surroundings σ} {script : Script}
    {session session' session'' : Session} {s s' s'' : σ} {followed closed : Except Error Unit}
    (h : (follow script).runIn serve session s = (followed, session', s'))
    (h' : Session.shutdown.runIn serve session' s' = (closed, session'', s'')) :
  ((run script).run session).run serve s = ((followed >>= fun _ => closed, session''), s'')
  := by
  have first : ((follow script).run.run session).run serve s = ((followed, session'), s') := by
    simpa [runIn, Prod.ext_iff, and_assoc] using h
  have last : (Session.shutdown.run.run session').run serve s' = ((closed, session''), s'') := by
    simpa [runIn, Prod.ext_iff, and_assoc] using h'
  rw [run, StateT.run_bind, Program.run_bind, first, StateT.run_bind, Program.run_bind, last]
  rfl

/-- A shell that ran a script in a session, on a host, left this session saved and consistent.  The
session was that of a state, and the last working copies had the given lengths before. -/
structure EndsSaved (before : List String → Option Nat) (state : State) (script : Script)
    (host : Host) (result : Except Error Unit) (session' : Session) (host' : Host)
    (calls : List DeviceCall) : Prop where
  /-- Only the root is open, and it is the current directory. -/
  root_only : ∃ root, session'.openFiles = .ofRoot root ∧ root.path = Path.root
  performs : ∃ history, (follow script).Performs state.session host history
  /-- On the disk, files have the lengths of their last working copies. -/
  saved : ∀ history, (follow script).Performs state.session host history →
    ∀ names n, state.lastCopies before history names = some n →
      ∃ e host'', (Session.entryAt (Path.render names)).runIn Host.serve session' host'
          = (.ok e, session', host'')
        ∧ e.record.length.toNat = n
  /-- The last device call flushed. -/
  flushed : ∃ earlier, calls = earlier ++ [.flush]
  persisted : ∀ path, host.disk.backing = some path →
    host'.files.read path = .ok host'.disk.image.toBytes
  checks : ∃ usage host'', Session.check.runIn Host.serve session' host'
    = (.ok usage, session', host'')
  ends : ∃ ending, Ends script state.session host ending
  /-- Only an error of the input or of the output is one of the shell. -/
  error_iff : (∃ e, result = .error e)
    ↔ Ends script state.session host .inputFailed ∨ Ends script state.session host .outputFailed

end Shell

namespace Session

variable {session : Session} {host : Host}

/-- What is left of a coherent session that was shut down on a host: only the root is open, what was
shown is shown still, and is on the disk. -/
structure Closed (session : Session) (host : Host) (session' : Session) (host' : Host) : Prop where
  quiet : session.Quiet host.disk.image session' host'.disk.image
  serves : host'.Serves Set.univ
  root_only : ∃ root, session'.openFiles = .ofRoot root ∧ root.path = Path.root
  clean : ∀ handle file, session'.openFiles.get? handle = some file → file.dirty = false
  persisted : ∀ path, host.disk.backing = some path →
    host'.files.read path = .ok host'.disk.image.toBytes

/-- On a host that serves all calls, shutting down closes a coherent session. -/
theorem Coherent.runIn_shutdown_closed (h : session.Coherent host.disk.image)
    (serves : host.Serves Set.univ) :
  ∃ session' host', shutdown.runIn Host.serve session host = (.ok (), session', host')
    ∧ session.Closed host session' host'
  := by
  obtain ⟨session', host', hrun, hexec, -, persisted⟩ := h.runIn_shutdown serves
  obtain ⟨session'', after, hexec', quiet, clean⟩ := h.exec_shutdown
  obtain ⟨rfl, rfl⟩ : session'' = session' ∧ after = host'.disk.image := by
    simpa using hexec'.symm.trans hexec
  have any (call : DeviceCall) := Set.mem_univ call
  have uses := uses_shutdown (any .read) (any .write) (any .flush)
  obtain ⟨host'', hserved, -, serves'⟩ := uses.runIn_host session serves
  obtain rfl : host'' = host' := congrArg (·.2.2) (hserved.symm.trans hrun)
  have ensured := (ensures_shutdown session).runIn Host.serve host
  rw [hrun] at ensured
  obtain ⟨root, hroot, openFiles⟩ := ensured rfl
  obtain ⟨file, hfile, hpath, -⟩ := h.root_open
  obtain rfl : file = root := Option.some.inj (hfile.symm.trans hroot)
  exact ⟨session'', host'', hrun, quiet, serves', ⟨file, openFiles, hpath⟩, clean, persisted⟩

namespace Closed

variable {session' : Session} {host' : Host} (h : session.Closed host session' host')
include h

/-- What was shown is on the disk. -/
theorem runIn_entryAt {names : List String} {n : Nat} (normal : Path.Normal names)
    (shown : (session.node? host.disk.image names).map Node.length = some n) :
  ∃ e host'', (entryAt (Path.render names)).runIn Host.serve session' host'
      = (.ok e, session', host'')
    ∧ e.record.length.toNat = n
  := by
  rw [← h.quiet.node?_eq] at shown
  obtain ⟨e, he, length⟩ := h.quiet.coherent.exists_entry_of_clean h.clean shown
  have uses := uses_entryAt (Set.mem_univ DeviceCall.read) (Path.render names)
  obtain ⟨host'', hserved, -⟩ := uses.runIn_host session' h.serves
  rw [h.quiet.coherent.exec_entryAt normal, he] at hserved
  exact ⟨e, host'', hserved, length⟩

/-- The volume checks. -/
theorem runIn_check :
  ∃ usage host'', check.runIn Host.serve session' host' = (.ok usage, session', host'')
  := by
  obtain ⟨usage, hcheck⟩ := h.quiet.coherent.exec_check h.clean
  have uses := uses_check (Set.mem_univ DeviceCall.read)
  obtain ⟨host'', hserved, -⟩ := uses.runIn_host session' h.serves
  rw [hcheck] at hserved
  exact ⟨usage, host'', hserved⟩

end Closed

end Session

/-- In a coherent state every script ends saved. -/
theorem State.Coherent.endsSaved {state : State} (h : state.Coherent)
    (standard : state.tree.Standard) {before : List String → Option Nat}
    (shown : state.Shown before) (script : Shell.Script) {host : Host}
    (hdisk : host.disk.image = state.image) (serves : host.Serves Set.univ) :
  ∃ result session' host' calls,
    ((Shell.run script).run state.session).run Host.serve.recorded (host, [])
        = ((result, session'), host', calls)
      ∧ Shell.EndsSaved before state script host result session' host' calls
  := by
  rcases hfollow : (Shell.follow script).runIn Host.serve state.session host with
    ⟨followed, session₁, host₁⟩
  have leads {history : List Step}
      (performs : (Shell.follow script).Performs state.session host history) :
      state.run history = ⟨session₁, host₁.disk.image⟩
        ∧ host₁.disk.backing = host.disk.backing ∧ host₁.Serves Set.univ := by
    have leads := performs.run_eq serves hfollow
    rw [hdisk] at leads
    exact leads
  obtain ⟨performed, performs⟩ := Shell.operates_follow script state.session host
  obtain ⟨reached, backing, serves₁⟩ := leads performs
  have coherent : State.Coherent ⟨session₁, host₁.disk.image⟩ := reached ▸ h.run performed
  obtain ⟨session', host', hshutdown, closed⟩ :=
    Session.Coherent.runIn_shutdown_closed coherent serves₁
  obtain ⟨more, recorded⟩ := SessionM.runIn_recorded hfollow []
  obtain ⟨calls, recorded'⟩ := SessionM.runIn_recorded hshutdown more
  refine ⟨_, session', host', calls, Shell.run_eq recorded recorded', ?_⟩
  constructor
  case root_only => exact closed.root_only
  case performs => exact ⟨performed, performs⟩
  case saved =>
    intro history performs names n hlast
    have shown' := h.shown_lastCopies standard shown history names n hlast
    have standard' := h.standard_run standard history
    rw [(leads performs).1] at shown' standard'
    obtain ⟨node, hnode, -⟩ := Option.map_eq_some_iff.mp shown'
    exact closed.runIn_entryAt (standard'.normal hnode) shown'
  case flushed => exact Session.calls_of_shutdown recorded'
  case persisted =>
    intro path hpath
    exact closed.persisted path (backing.trans hpath)
  case checks => exact closed.runIn_check
  case ends => exact Shell.exists_ends script state.session host
  case error_iff =>
    rw [← Shell.exists_error_iff, hfollow]
    cases followed <;> rfl

/-- A session begins by formatting any disk.  A shell that is run on any input in a state that it
reaches, while the device works, leaves the session saved and consistent. -/
theorem shell_ends_throughout (clock : Timestamp) (image : Image) :
  ∃ start : State, (Session.format clock).exec image = (.ok start.session, start.image)
    ∧ ∀ history input (host : Host), host.disk.image = (start.run history).image →
        host.Serves Set.univ →
        ∃ result session' host' calls,
          ((Shell.run (.ofInput input)).run (start.run history).session).run
              Host.serve.recorded (host, []) = ((result, session'), host', calls)
            ∧ Shell.EndsSaved (start.lastCopies (start.copies fun _ => none) history)
                (start.run history) (.ofInput input) host result session' host' calls
  := by
  obtain ⟨start, hformat, throughout⟩ := exists_formatted clock image
  refine ⟨start, hformat, ?_⟩
  intro history input host hdisk serves
  obtain ⟨coherent, standard⟩ := throughout []
  obtain ⟨coherent', standard'⟩ := throughout history
  have shown : start.Shown (start.copies fun _ => none) :=
    coherent.shown_copies fun _ _ _ _ never => by cases never
  have shown' := coherent.shown_lastCopies standard shown history
  exact coherent'.endsSaved standard' shown' (.ofInput input) hdisk serves

/-- Any image can be that of a host which serves all calls and writes whatever it is asked to. -/
theorem Host.exists_serving (image : Image) :
  ∃ host : Host, host.disk.image = image ∧ host.Serves Set.univ ∧ host.out.room = none
  := by
  have serves (disk : Disk) (h : disk.backing = none) :
      ({ disk } : Host).Serves Set.univ := by
    refine ⟨fun _ _ _ => rfl, ?_⟩
    rintro - path hpath
    cases h.symm.trans hpath
  exact ⟨{ disk := { image } }, rfl, serves _ rfl, rfl⟩

/-- A file was created and opened when the shell was run on a byte that is not UTF-8. -/
theorem shell_ends_throughout_unreadable :
  ∃ (start : State) (history : List Step) (host : Host) (e : Error) (session' : Session)
      (host' : Host) (calls : List DeviceCall),
    (Session.format default).exec .zero = (.ok start.session, start.image)
    ∧ host.disk.image = (start.run history).image ∧ host.Serves Set.univ
    ∧ ((Shell.run (.ofInput [0xFF])).run (start.run history).session).run Host.serve.recorded
        (host, []) = ((.error e, session'), host', calls)
    ∧ Shell.EndsSaved (start.lastCopies (start.copies fun _ => none) history)
        (start.run history) (.ofInput [0xFF]) host (.error e) session' host' calls
  := by
  obtain ⟨start, hformat, throughout⟩ := shell_ends_throughout default .zero
  let history : List Step := [⟨.createFile "a", default⟩, ⟨.openPath "a", default⟩]
  obtain ⟨host, hdisk, serves, room⟩ := Host.exists_serving (start.run history).image
  obtain ⟨result, session', host', calls, hrun, saved⟩ :=
    throughout history [0xFF] host hdisk serves
  have script : Shell.Script.ofInput [0xFF] = .unreadable := by
    have undecoded : Utf8.decode? [0xFF] = none := by decide
    have lines : Shell.lines [0xFF] = [[0xFF]] := by decide
    rw [Shell.Script.ofInput, lines, Shell.Script.ofLines, undecoded]
  have ends : Shell.Ends (.ofInput [0xFF]) (start.run history).session host .inputFailed := by
    rw [script]
    exact .unreadable (Shell.runIn_prompt_of_room room)
  obtain ⟨e, rfl⟩ := saved.error_iff.mpr (.inl ends)
  exact ⟨start, history, host, e, session', host', calls, hformat, hdisk, serves, hrun, saved⟩

end FatVolume
