import FatVolume.Proofs.CheckedHistories
import FatVolume.Proofs.Listing
import FatVolume.Proofs.SavedDisks

/-!
# Closing and remounting

Closing, shutting down and mounting again are quiet: what absolute paths list and what files hold is
the same before and after.  The same is shown by a session that begins on the disk after it was
saved in a host file and loaded from there.
-/

namespace FatVolume

/-! ### Absolute paths -/

/-- An absolute path means the same in every session. -/
theorem Session.target_of_isAbsolute {path : String} (h : Path.isAbsolute path = true)
    (session session' : Session) :
  session'.target path = session.target path
  := by
  rw [target, target, absolute, absolute, Path.resolve, Path.resolve, if_pos h, if_pos h]

/-! ### Mounting again -/

namespace Session

open SessionM

variable {session session' : Session} {image : Image}

/-- When everything is up to date on disk, a change of the open files is quiet. -/
theorem Coherent.quiet_of_clean (h : session.Coherent image) (h' : session'.Tracking image)
    (superblock : session'.superblock = session.superblock)
    (clean : ∀ handle file, session.openFiles.get? handle = some file → file.dirty = false)
    (clean' : ∀ handle file, session'.openFiles.get? handle = some file → file.dirty = false) :
  session.Quiet image session' image
  := by
  apply h.quiet superblock h'
  intro names e hnames he record hne
  constructor
  · rintro ⟨handle, file, hfile, hpath, rfl⟩
    rw [← superblock] at he
    exact (hne (h'.upToDate hfile (clean' handle file hfile) names e hnames hpath he)).elim
  · rintro ⟨handle, file, hfile, hpath, rfl⟩
    exact (hne (h.upToDate hfile (clean handle file hfile) names e hnames hpath he)).elim

/-- When everything is up to date on disk, mounting the disk begins a session that shows the same
tree. -/
theorem Coherent.exec_mount (h : session.Coherent image)
    (clean : ∀ handle file, session.openFiles.get? handle = some file → file.dirty = false)
    (clock : Timestamp) :
  ∃ mounted, (mount clock).exec image = (.ok mounted, image)
    ∧ session.Quiet image mounted image
    ∧ mounted.openFiles = .ofRoot (rootFile image mounted.superblock.root)
  := by
  have valid : (Superblock.ofBlock (image.block superblockAt)).isValid = true := by
    rw [h.described, h.valid]
  have sound := h.sound_of_clean clean
  rw [Superblock.root_of_isValid h.valid] at sound
  obtain ⟨mounted, hmount, coherent, -, openFiles⟩ := Session.exec_mount clock valid sound
  have superblock : mounted.superblock = session.superblock := by
    rw [← coherent.described, h.described]
  refine ⟨mounted, hmount, ?_, openFiles⟩
  exact h.quiet_of_clean coherent.toTracking superblock clean (clean_of_ofRoot openFiles)

/-- In a session in which only the root is open, every file can be opened and read. -/
theorem Coherent.exec_openPath_readAll (h : session.Coherent image)
    (openFiles : session.openFiles = .ofRoot (rootFile image session.superblock.root))
    {path : String} {blocks : List Nat} {content : Bytes}
    (held : session.node? image (session.target path) = some (.file blocks content)) :
  ∃ handle opened session', (openPath path).exec session image = (.ok handle, opened, image)
    ∧ (readAll handle).exec opened image = (.ok content, session', image)
  := by
  obtain ⟨absolute, normal⟩ := h.absolute_eq path
  obtain ⟨e, he, hnode⟩ := Option.map_eq_some_iff.mp held
  rw [nodeOf] at hnode
  split_ifs at hnode with hdir
  obtain ⟨-, rfl⟩ := Node.file.inj hnode
  have isFile : e.record.isDirectory = false := by simpa using hdir
  have length : session.lengthOf (session.target path) e = e.record.length.toNat := by
    apply h.lengthOf_of_same
    rintro hnames record ⟨handle, file, hfile, hpath, rfl⟩
    exact h.upToDate hfile (clean_of_ofRoot openFiles handle file hfile) _ e hnames hpath he
  have unopened : session.openFiles.find? (session.absolute path) = none := by
    rw [OpenTable.find?_eq_none_iff, openFiles]
    intro handle file hfile same
    obtain ⟨-, rfl⟩ := OpenTable.get?_ofRoot_eq_some.mp hfile
    rw [absolute] at same
    rw [← Path.Normal.nil.render_inj normal same] at he
    simp [(h.sound.standsFor_root he).2.1] at isFile
  obtain ⟨openFiles', hinsert, hfile⟩ : ∃ openFiles', session.openFiles.insert
      { record := e.record, path := session.absolute path } = .ok (1, openFiles')
        ∧ openFiles'.get? 1 = some { record := e.record, path := session.absolute path } := by
    rw [openFiles, OpenTable.insert_ofRoot]
    exact ⟨_, rfl, OpenTable.get?_set_self _ (by decide) _⟩
  have hopen := h.exec_openPath unopened he hinsert
  have quiet := alwaysQuiet_openPath path session image h
  rw [SessionM.QuietAt, hopen] at quiet
  obtain ⟨session', hread⟩ := quiet.coherent.exec_readAll hfile isFile
  rw [length]
  exact ⟨1, _, session', hopen, hread⟩

end Session

/-! ### What a state shows -/

/-- What listing a path gives. -/
def State.listing (state : State) (path : String) : Except Error (List Entry) :=
  ((Session.list (some path)).exec state.session state.image).1

/-- A session in its surroundings lists at absolute paths what the state does.  Each file of the
state can be opened and read. -/
structure Session.Shows {σ : Type} (session : Session) (serve : Surroundings σ) (s : σ)
    (state : State) : Prop where
  listing : ∀ path, Path.isAbsolute path = true →
    ((list (some path)).runIn serve session s).1 = state.listing path
  content : ∀ path blocks content, Path.isAbsolute path = true →
    state.tree (state.session.target path) = some (.file blocks content) →
    ∃ handle opened s', (openPath path).runIn serve session s = (.ok handle, opened, s')
      ∧ ((readAll handle).runIn serve opened s').1 = .ok content

namespace State.Coherent

variable {state : State} (h : state.Coherent) (standard : state.tree.Standard)
include h

/-- A quiet operation leads to a state that differs quietly. -/
theorem quiet_next {operation : Operation} (quiet : operation.isQuiet = true) (now : Timestamp) :
  state.session.Quiet state.image (Step.next ⟨operation, now⟩ state).session
    (Step.next ⟨operation, now⟩ state).image
  := by
  have later : state.session.Quiet state.image (state.session.atTime now) state.image :=
    Session.Coherent.quiet_of_eq h rfl rfl
  exact later.trans (Operation.alwaysQuiet_perform quiet _ _ later.coherent)

include standard

/-- What differs quietly lists the same. -/
theorem listing_of_quiet {session' : Session} {after : Image}
    (quiet : state.session.Quiet state.image session' after) {path : String}
    (absolute : Path.isAbsolute path = true) :
  State.listing ⟨session', after⟩ path = state.listing path
  := by
  have standard' : Tree.Standard (session'.node? after) := by
    rw [quiet.node?_eq]
    exact standard
  have before := Session.Coherent.exec_list h standard (some path)
  have later := quiet.coherent.exec_list standard' (some path)
  dsimp only [State.listing]
  rw [before, later, Option.getD_some,
    Session.target_of_isAbsolute absolute state.session session', quiet.listing_eq h]

/-- A session in which only the root is open shows the state from which it differs quietly. -/
theorem shows_of_quiet {session' : Session} {after : Image}
    (quiet : state.session.Quiet state.image session' after)
    (openFiles : session'.openFiles
      = .ofRoot (Session.rootFile after session'.superblock.root)) :
  session'.Shows Image.serve after state
  := by
  constructor
  · intro path absolute
    exact h.listing_of_quiet standard quiet absolute
  · intro path blocks content absolute held
    have held' : session'.node? after (session'.target path) = some (.file blocks content) := by
      rw [quiet.node?_eq, Session.target_of_isAbsolute absolute state.session session']
      exact held
    obtain ⟨handle, opened, _, hopen, hread⟩ := quiet.coherent.exec_openPath_readAll openFiles held'
    exact ⟨handle, opened, after, hopen, congrArg Prod.fst hread⟩

end State.Coherent

/-- What a session shows on a working device it shows on a host whose device can be read. -/
theorem Session.Shows.of_serves {session : Session} {host : Host} {state : State}
    (shows : session.Shows Image.serve host.disk.image state) (serves : host.Serves {.read}) :
  session.Shows Host.serve host state
  := by
  have reads : DeviceCall.read ∈ ({.read} : Set DeviceCall) := rfl
  constructor
  · intro path absolute
    obtain ⟨_, hlist, -⟩ := (uses_list reads (some path)).runIn_host session serves
    rw [hlist]
    exact shows.listing path absolute
  · intro path blocks content absolute held
    obtain ⟨handle, opened, after, hopen, hread⟩ := shows.content path blocks content absolute held
    obtain ⟨host', hopen', hdisk, serves'⟩ := (uses_openPath reads path).runIn_host session serves
    rw [SessionM.exec_eq_runIn, hopen] at hopen' hdisk
    obtain ⟨_, hread', -⟩ := (uses_readAll reads handle).runIn_host opened serves'
    refine ⟨handle, opened, host', hopen', ?_⟩
    rw [hread', hdisk]
    exact hread

/-! ### Histories -/

/-- Closing, shutting down and mounting again do not change what a state shows. -/
structure State.Persists (state : State) : Prop where
  close : ∀ handle now path, Path.isAbsolute path = true →
    (Step.next ⟨.close handle, now⟩ state).listing path = state.listing path
  closeAll : ∀ now path, Path.isAbsolute path = true →
    (Step.next ⟨.closeAll, now⟩ state).listing path = state.listing path
  shutdown : ∀ now, Step.result ⟨.shutdown, now⟩ state = .ok .done
    ∧ ∀ path, Path.isAbsolute path = true →
      (Step.next ⟨.shutdown, now⟩ state).listing path = state.listing path
  /-- The disk can be mounted after shutting down. -/
  mount : ∀ now clock, ∃ mounted,
    (Session.mount clock).exec (Step.next ⟨.shutdown, now⟩ state).image
        = (.ok mounted, (Step.next ⟨.shutdown, now⟩ state).image)
      ∧ mounted.Shows Image.serve (Step.next ⟨.shutdown, now⟩ state).image state
  /-- The disk is saved in its host file by shutting down, and can be loaded from there by any host
  that finds the file as it was left. -/
  load : ∀ now clock path (host : Host), host.disk = ⟨state.image, some path⟩ →
    host.faults = .none → host.files.Writable path →
    ∃ session' host', Session.shutdown.runIn Host.serve (state.session.atTime now) host
        = (.ok (), session', host')
      ∧ ∀ again : Host, again.faults = .none →
          again.files.read path = host'.files.read path →
          ∃ loaded mounted host'', (Disk.load path).runIn Host.serve again = (.ok false, loaded)
            ∧ loaded.disk = host'.disk
            ∧ (Session.mount clock).runIn Host.serve loaded = (.ok mounted, host'')
            ∧ mounted.Shows Host.serve host'' state

namespace State.Coherent

variable {state : State} (h : state.Coherent) (standard : state.tree.Standard)
include h standard

/-- The session that begins on the disk after shutting down shows what was there before. -/
theorem exec_shutdown_mount (now clock : Timestamp) :
  ∃ session' after mounted, Session.shutdown.exec (state.session.atTime now) state.image
      = (.ok (), session', after)
    ∧ (Session.mount clock).exec after = (.ok mounted, after)
    ∧ mounted.Shows Image.serve after state
  := by
  have later : state.session.Quiet state.image (state.session.atTime now) state.image :=
    Session.Coherent.quiet_of_eq h rfl rfl
  obtain ⟨session', after, hexec, quiet, clean⟩ := later.coherent.exec_shutdown
  obtain ⟨mounted, hmount, again, openFiles⟩ := quiet.coherent.exec_mount clean clock
  have whole := (later.trans quiet).trans again
  exact ⟨session', after, mounted, hexec, hmount, h.shows_of_quiet standard whole openFiles⟩

/-- The disk that was saved in a host file is loaded from there and shows what was there before. -/
theorem runIn_shutdown_load (now clock : Timestamp) {path : String} {host : Host}
    (hdisk : host.disk = ⟨state.image, some path⟩) (works : host.faults = .none)
    (writable : host.files.Writable path) :
  ∃ session' host', Session.shutdown.runIn Host.serve (state.session.atTime now) host
      = (.ok (), session', host')
    ∧ ∀ again : Host, again.faults = .none → again.files.read path = host'.files.read path →
        ∃ loaded mounted host'', (Disk.load path).runIn Host.serve again = (.ok false, loaded)
          ∧ loaded.disk = host'.disk
          ∧ (Session.mount clock).runIn Host.serve loaded = (.ok mounted, host'')
          ∧ mounted.Shows Host.serve host'' state
  := by
  have serves : host.Serves Set.univ := by
    refine ⟨by simp [works, Faults.none], ?_⟩
    rintro - _ hbacking
    rw [hdisk] at hbacking
    obtain rfl := Option.some.inj hbacking
    exact writable
  have coherent : (state.session.atTime now).Coherent host.disk.image := by
    rw [hdisk]
    exact h.at_time now
  obtain ⟨session', host', hrun, hexec, backing, saved⟩ := coherent.runIn_shutdown serves
  obtain ⟨_, after, mounted, hexec', hmount, shows⟩ := h.exec_shutdown_mount standard now clock
  refine ⟨session', host', hrun, ?_⟩
  intro again works' found
  rw [hdisk] at hexec backing saved
  obtain ⟨-, rfl⟩ : session' = _ ∧ host'.disk.image = after := by
    simpa [hexec] using hexec'
  rw [saved path rfl] at found
  obtain ⟨loaded, hload, hdisk', faults⟩ := DiskM.runIn_load found
  rw [Image.ofBytes_toBytes] at hdisk'
  have same : loaded.disk = host'.disk :=
    hdisk'.trans (congrArg (Disk.mk host'.disk.image) backing.symm)
  have serves' : loaded.Serves {.read} := ⟨by simp [faults, works', Faults.none], by simp⟩
  obtain ⟨host'', hmount', hdisk'', serves''⟩ :=
    (Session.uses_mount (Set.mem_singleton _) clock).runIn_host serves'
  rw [same, hmount] at hmount' hdisk''
  refine ⟨loaded, mounted, host'', hload, same, hmount', Session.Shows.of_serves ?_ serves''⟩
  rw [hdisk'']
  exact shows

/-- Closing, shutting down and mounting again are invisible in every coherent state. -/
theorem persists :
  state.Persists
  := by
  have invisible {operation : Operation} (quiet : operation.isQuiet = true) (now : Timestamp)
      (path : String) (absolute : Path.isAbsolute path = true) :
      (Step.next ⟨operation, now⟩ state).listing path = state.listing path :=
    h.listing_of_quiet standard (h.quiet_next quiet now) absolute
  constructor
  case close => exact fun handle now => invisible rfl now
  case closeAll => exact fun now => invisible rfl now
  case shutdown =>
    intro now
    obtain ⟨_, _, _, hexec, -⟩ := h.exec_shutdown_mount standard now now
    have hstep : Step.exec ⟨.shutdown, now⟩ state = _ := SessionM.exec_bind_of_ok hexec
    rw [SessionM.exec_pure] at hstep
    exact ⟨Step.result_of_exec hstep, invisible rfl now⟩
  case mount =>
    intro now clock
    obtain ⟨session', after, mounted, hexec, hmount, shows⟩ :=
      h.exec_shutdown_mount standard now clock
    have hstep : Step.exec ⟨.shutdown, now⟩ state = _ := SessionM.exec_bind_of_ok hexec
    rw [SessionM.exec_pure] at hstep
    rw [Step.next_of_exec hstep]
    exact ⟨mounted, hmount, shows⟩
  case load =>
    intro now clock path host hdisk works writable
    exact h.runIn_shutdown_load standard now clock hdisk works writable

end State.Coherent

/-- A session begins by formatting any disk.  Closing, shutting down and mounting again are
invisible in every state that it reaches. -/
theorem persists_throughout (clock : Timestamp) (image : Image) :
  ∃ start : State, (Session.format clock).exec image = (.ok start.session, start.image)
    ∧ ∀ history, (start.run history).Persists
  := by
  obtain ⟨start, hformat, throughout⟩ := exists_formatted clock image
  refine ⟨start, hformat, ?_⟩
  intro history
  obtain ⟨coherent, standard⟩ := throughout history
  exact coherent.persists standard

end FatVolume
