import FatVolume.Proofs.FreshVolumes
import FatVolume.Proofs.LostCursors
import FatVolume.Proofs.TypedContent
import FatVolume.Proofs.Writing

/-!
# Write commands that fail

A `write` command takes its content, reads its operands, looks the open file up, moves the cursor if
a position is given, and writes.  On a working device it leaves the disk alone if it fails, and the
session as well if it fails before it writes.  Only a lack of space is noticed after that, and then
the cursor was moved already.
-/

namespace FatVolume

/-! ### Channels that take everything -/

/-- The channels of a host take everything. -/
structure Host.Roomy (host : Host) : Prop where
  out : host.out.room = none
  err : host.err.room = none

theorem Channel.write_of_room {c : Channel} (h : c.room = none) (bytes : Bytes) :
  c.write bytes = (.ok (), { c with text := c.text ++ bytes })
  := by
  rw [write, h]

namespace Host

variable {host : Host} (h : host.Roomy)
include h

theorem Roomy.log (event : Event) :
  (host.log event).Roomy
  := by
  unfold Host.log
  split
  · rw [Channel.write_of_room h.err]
    exact ⟨h.out, h.err⟩
  · exact h

/-- Serving a request leaves room in the channels. -/
theorem Roomy.serve (request : Request) :
  (Host.serve request host).2.Roomy
  := by
  cases request with
  | readBlock b =>
      cases refused : host.faults host.calls .read with
      | true => rw [Host.serve, host.readBlock_of_refused refused]; exact ⟨h.out, h.err⟩
      | false => rw [Host.serve, host.readBlock_of_served refused]; exact ⟨h.out, h.err⟩
  | writeBlock b data =>
      cases refused : host.faults host.calls .write with
      | true => rw [Host.serve, host.writeBlock_of_refused refused]; exact ⟨h.out, h.err⟩
      | false =>
          rw [Host.serve, host.writeBlock_of_served refused]
          split <;> exact ⟨h.out, h.err⟩
  | flush =>
      cases refused : host.faults host.calls .flush with
      | true => rw [Host.serve, host.flush_of_refused refused]; exact ⟨h.out, h.err⟩
      | false =>
          rw [Host.serve, host.flush_of_served refused, persist]
          split
          · exact ⟨h.out, h.err⟩
          · split <;> exact ⟨h.out, h.err⟩
  | insert disk => exact ⟨h.out, h.err⟩
  | readFile path => exact h
  | writeFile path bytes =>
      rw [Host.serve]
      split <;> exact ⟨h.out, h.err⟩
  | log event => exact h.log event
  | print bytes =>
      rw [Host.serve, Channel.write_of_room h.out]
      exact ⟨h.out, h.err⟩
  | report bytes =>
      rw [Host.serve, Channel.write_of_room h.err]
      exact ⟨h.out, h.err⟩

/-- Whatever a program does, there is room in the channels after it. -/
theorem Roomy.run {α : Type} (program : Program α) :
  (program.run Host.serve host).2.Roomy
  := by
  induction program generalizing host with
  | done result => exact h
  | ask request next ih => exact ih _ (h.serve request)

theorem Roomy.runIn {α : Type} (action : SessionM α) (session : Session) :
  (action.runIn Host.serve session host).2.2.Roomy
  := h.run (action.run.run session)

end Host

namespace Shell

open Session SessionM

/-- The line that reports the failure of what `subject` names. -/
def reportLine (subject : String) (failure : Error) : String :=
  s!"{subject}: {failure.message}" ++ "\n"

/-- A failure is reported where there is room. -/
theorem run_report_of_room {host : Host} (h : host.Roomy) (subject : String) (failure : Error) :
  (report subject failure).run Host.serve host
    = ((), { host with err := { host.err with
        text := host.err.text ++ Utf8.encode (reportLine subject failure) } })
  := by
  have reported : (Program.request (.report (Utf8.encode
      (s!"{subject}: {failure.message}" ++ "\n")))).run Host.serve host
      = Host.serve (.report (Utf8.encode (reportLine subject failure))) host := rfl
  rw [report, Program.run_bind, reported, Host.serve, Channel.write_of_room h.err]
  rfl

/-- A line is printed where there is room. -/
theorem runIn_printLine_of_room {host : Host} (h : host.Roomy) (text : String) (session : Session) :
  ∃ host', (liftM (printLine text) : SessionM Unit).runIn Host.serve session host
    = (.ok (), session, host')
  := by
  have printed : (printLine text).runIn Host.serve host
      = Host.serve (.print (Utf8.encode (text ++ "\n"))) host := rfl
  rw [Host.serve, Channel.write_of_room h.out] at printed
  exact ⟨_, runIn_lift_of_eq printed⟩

/-! ### Failures before anything is written -/

/-- The content that is taken fails only if a line is not UTF-8. -/
theorem eq_of_takeContentFrom {taken lines rest : List Line} {failure : Error}
    (h : takeContentFrom taken lines = (.error failure, rest)) :
  failure = .io .invalidUtf8
  := by
  induction lines generalizing taken with
  | nil => cases h
  | cons line lines ih =>
      rw [takeContentFrom] at h
      split at h
      · cases h
        rfl
      · split at h
        · cases h
        · exact ih h

/-- Operands of `write` that are bad are refused as such. -/
theorem exists_eq_invalidOperand {operands : List String} {failure : Error}
    (h : Command.parse "write" operands = .error failure) :
  ∃ reason, failure = .invalidOperand reason
  := by
  change Command.parseWrite operands = .error failure at h
  rw [Command.parseWrite] at h
  dsimp only at h
  split at h
  · cases h
  · next path position _ =>
      split_ifs at h
      · cases hnumber : Text.parseNat? position with
        | some number =>
            rw [Command.parseNumber, hnumber] at h
            cases h
        | none =>
            rw [Command.parseNumber, hnumber] at h
            cases h
            exact ⟨_, rfl⟩
      · cases h
        exact ⟨_, rfl⟩
  · cases h
    exact ⟨_, rfl⟩

/-- The session in which the position was sought that the operands of a `write` command give. -/
def positioned (operands : List String) (session : Session) : Session :=
  match Command.parse "write" operands with
  | .ok (.write _ path (some position)) =>
      match session.openFiles.find? (session.absolute path) with
      | some handle => session.sought handle position
      | none => session
  | _ => session

theorem positioned_of_find? {operands : List String} {mode : WriteMode} {path : String}
    {position : Nat}
    (hparse : Command.parse "write" operands = .ok (.write mode path (some position)))
    {session : Session} {handle : Handle}
    (hfind : session.openFiles.find? (session.absolute path) = some handle) :
  positioned operands session = session.sought handle position
  := by
  rw [positioned, hparse]
  dsimp only
  rw [hfind]

section Writing

variable {σ : Type} (serve : Surroundings σ) (session : Session) (s : σ)

theorem runIn_handleOf (path : String) :
  (handleOf path).runIn serve session s
    = ((session.openFiles.find? (session.absolute path)).elim (.error .notOpen) .ok, session, s)
  := by
  rw [handleOf, runIn_bind_of_ok runIn_get]
  cases session.openFiles.find? (session.absolute path) <;> rfl

/-- Writes and says how much that was. -/
def writeThrough (handle : Handle) (content : Bytes) (mode : WriteMode) : SessionM Unit := do
  let written ← Session.write handle content mode
  printLine s!"{written} bytes written"

/-- A `write` command with good operands writes to the file that is open at its path, after the
position it gives was sought.  It asks nothing of its surroundings before. -/
theorem runIn_writing {operands : List String} {mode : WriteMode} {path : String}
    {position : Option Nat}
    (hparse : Command.parse "write" operands = .ok (.write mode path position))
    (content : Bytes) :
  (writing operands (.ok content)).runIn serve session s
    = match session.openFiles.find? (session.absolute path) with
      | none => (.error .notOpen, session, s)
      | some handle =>
          match session.openFiles.get? handle with
          | none => (.error (.invalidHandle handle), session, s)
          | some file =>
              if file.record.isDirectory then (.error .notFile, session, s)
              else (writeThrough handle content mode).runIn serve (positioned operands session) s
  := by
  have opened := runIn_handleOf serve session s path
  rw [writing_of_parse_ok hparse, perform]
  cases hfind : session.openFiles.find? (session.absolute path) with
  | none =>
      rw [hfind] at opened
      exact runIn_bind_of_error opened
  | some handle =>
      rw [hfind] at opened
      rw [runIn_bind_of_ok opened]
      dsimp only
      cases hfile : session.openFiles.get? handle with
      | none =>
          have invalid : (openFile handle).runIn serve session s
              = (.error (.invalidHandle handle), session, s) := by
            rw [openFile, runIn_bind_of_ok runIn_get, OpenTable.get, hfile]
            rfl
          exact runIn_bind_of_error invalid
      | some file =>
          rw [runIn_bind_of_ok (runIn_openFile hfile serve s)]
          dsimp only
          split_ifs with directory
          · exact runIn_bind_of_error (runIn_throw _)
          · cases position with
            | none =>
                have unmoved : positioned operands session = session := by
                  rw [positioned, hparse]
                rw [unmoved]
                rfl
            | some position =>
                have sought : (discard (seek handle position)).runIn serve session s
                    = (.ok (), session.sought handle position, s) :=
                  runIn_bind_of_ok (runIn_seek hfile serve s position)
                rw [positioned_of_find? hparse hfind]
                exact runIn_bind_of_ok sought

end Writing

/-! ### Failures on a working device -/

/-- Seeking the position changes an open file unless its cursor is there. -/
theorem get?_positioned_iff (operands : List String) (session : Session) :
  (∀ handle, (positioned operands session).openFiles.get? handle
      = session.openFiles.get? handle)
    ↔ ∀ mode path position handle file,
        Command.parse "write" operands = .ok (.write mode path (some position)) →
        session.openFiles.find? (session.absolute path) = some handle →
        session.openFiles.get? handle = some file →
        file.cursor = min position file.record.length.toNat
  := by
  unfold positioned
  cases hparse : Command.parse "write" operands with
  | error failure => simp
  | ok command =>
      obtain ⟨mode, path, position, rfl⟩ := eq_write_of_parse hparse
      cases position with
      | none => simp
      | some position =>
          dsimp only
          cases hfind : session.openFiles.find? (session.absolute path) with
          | none =>
              refine ⟨fun _ _ _ _ _ _ same found => ?_, fun _ _ => rfl⟩
              cases same
              cases hfind.symm.trans found
          | some handle =>
              constructor
              · rintro kept _ _ _ _ file ⟨⟩ found hfile
                rw [hfind] at found
                cases found
                exact (session.get?_sought_eq_iff handle position).mp (kept handle) file hfile
              · intro there other
                by_cases same : handle = other
                · subst same
                  rw [session.get?_sought_eq_iff handle position]
                  exact fun file hfile => there _ _ _ _ file rfl hfind hfile
                · exact session.get?_sought_of_ne handle same position

/-- On a working device writing succeeds, or there is no space and nothing changes. -/
theorem runIn_writeThrough {session : Session} {host : Host}
    (coherent : session.Coherent host.disk.image) (serves : host.Serves Set.univ)
    (roomy : host.Roomy) {handle : Handle} {file : OpenFile}
    (hfile : session.openFiles.get? handle = some file)
    (isFile : file.record.isDirectory = false) (content : Bytes) (mode : WriteMode) :
  (∃ session' host', (writeThrough handle content mode).runIn Host.serve session host
      = (.ok (), session', host'))
    ∨ ∃ host', (writeThrough handle content mode).runIn Host.serve session host
        = (.error .outOfSpace, session, host')
      ∧ host'.disk = host.disk
  := by
  obtain ⟨middle, hwrite, hdisk, -⟩ :=
    (uses_write (Set.mem_univ _) (Set.mem_univ _) handle content mode).runIn_host session serves
  have room := roomy.runIn (write handle content mode) session
  rcases coherent.exec_write_cases hfile isFile rfl rfl content mode with
    ⟨-, hexec⟩ | ⟨after, stored, hexec, -⟩
  · rw [hexec] at hwrite hdisk
    exact .inr ⟨middle, runIn_bind_of_error hwrite, hdisk⟩
  · rw [hexec] at hwrite
    rw [hwrite] at room
    obtain ⟨host', hprint⟩ := runIn_printLine_of_room room s!"{content.length} bytes written" _
    exact .inl ⟨_, host', (runIn_bind_of_ok hwrite).trans hprint⟩

/-- What a `write` command leaves that failed on a working device. -/
structure WriteFails (operands : List String) (input : Bytes) (session : Session) (host : Host)
    (failure : Error) (session' : Session) (host' : Host) : Prop where
  disk_eq : host'.disk = host.disk
  /-- The cursor was moved if there is no space, and nothing changed otherwise. -/
  session_eq : session' = if failure = .outOfSpace then positioned operands session else session
  /-- All open files are kept exactly unless that moved a cursor from elsewhere. -/
  kept_iff : (∀ handle, session'.openFiles.get? handle = session.openFiles.get? handle)
    ↔ (failure = .outOfSpace → ∀ mode path position handle file,
        Command.parse "write" operands = .ok (.write mode path (some position)) →
        session.openFiles.find? (session.absolute path) = some handle →
        session.openFiles.get? handle = some file →
        file.cursor = min position file.record.length.toNat)
  /-- The turn of the command reports the failure, and the script goes on. -/
  reported : (liftM (execute (Turn.ofTokens ("write" :: operands) (lines input)).1) :
      SessionM Flow).runIn Host.serve session host
    = (.ok .next, session', { host' with err := { host'.err with
        text := host'.err.text ++ Utf8.encode (reportLine "write" failure) } })

/-- An open file stays open when the position is sought. -/
theorem exists_get?_positioned (operands : List String) {session : Session} {handle : Handle}
    {file : OpenFile} (hfile : session.openFiles.get? handle = some file) :
  ∃ cursor, (positioned operands session).openFiles.get? handle = some { file with cursor }
  := by
  unfold positioned
  split
  · split
    · next other _ =>
        by_cases same : other = handle
        · subst same
          rw [session.get?_sought, hfile]
          exact ⟨_, rfl⟩
        · rw [session.get?_sought_of_ne other same]
          exact ⟨_, hfile⟩
    · exact ⟨_, hfile⟩
  · exact ⟨_, hfile⟩

theorem coherent_positioned (operands : List String) {session : Session} {image : Image}
    (h : session.Coherent image) :
  (positioned operands session).Coherent image
  := by
  unfold positioned
  split
  · split
    · next position _ handle hfind =>
        obtain ⟨file, hfile, -⟩ := OpenTable.exists_of_find? hfind
        rw [sought_of_get? hfile]
        exact (quietAt_putBack h hfile (Nat.min_le_right _ _)).coherent
    · exact h
  · exact h

/-- A failed command leaves the disk alone, and what it leaves of the session is known by the kind
of the failure. -/
theorem session_of_failed {operands : List String} {input : Bytes} {session session' : Session}
    {host host' : Host} {failure : Error} (coherent : session.Coherent host.disk.image)
    (serves : host.Serves Set.univ) (roomy : host.Roomy)
    (failed : (writing operands (takeContent (lines input)).1).runIn Host.serve session host
      = (.error failure, session', host')) :
  host'.disk = host.disk
    ∧ session' = if failure = .outOfSpace then positioned operands session else session
  := by
  cases hcontent : (takeContent (lines input)).1 with
  | error e =>
      obtain rfl : e = .io .invalidUtf8 := eq_of_takeContentFrom (Prod.ext hcontent rfl)
      rw [hcontent, writing, runIn_bind_of_error (runIn_ofExcept _)] at failed
      cases failed
      exact ⟨rfl, rfl⟩
  | ok content =>
      rw [hcontent] at failed
      cases hparse : Command.parse "write" operands with
      | error e =>
          obtain ⟨reason, rfl⟩ := exists_eq_invalidOperand hparse
          rw [writing_of_parse_error hparse] at failed
          cases failed
          exact ⟨rfl, rfl⟩
      | ok command =>
          obtain ⟨mode, path, position, rfl⟩ := eq_write_of_parse hparse
          rw [runIn_writing _ _ _ hparse] at failed
          split at failed
          · cases failed
            exact ⟨rfl, rfl⟩
          · next handle _ =>
              split at failed
              · cases failed
                exact ⟨rfl, rfl⟩
              · next file hfile =>
                  split_ifs at failed with directory
                  · cases failed
                    exact ⟨rfl, rfl⟩
                  · obtain ⟨cursor, held⟩ := exists_get?_positioned operands hfile
                    have isFile : file.record.isDirectory = false := by simpa using directory
                    rcases runIn_writeThrough (coherent_positioned operands coherent) serves roomy
                      held isFile content mode with ⟨_, _, hrun⟩ | ⟨_, hrun, hdisk⟩
                    · rw [hrun] at failed
                      cases failed
                    · rw [hrun] at failed
                      cases failed
                      exact ⟨hdisk, rfl⟩

theorem writeFails_of_failed {operands : List String} {input : Bytes} {session session' : Session}
    {host host' : Host} {failure : Error} (coherent : session.Coherent host.disk.image)
    (serves : host.Serves Set.univ) (roomy : host.Roomy)
    (failed : (writing operands (takeContent (lines input)).1).runIn Host.serve session host
      = (.error failure, session', host')) :
  WriteFails operands input session host failure session' host'
  := by
  obtain ⟨hdisk, hsession⟩ := session_of_failed coherent serves roomy failed
  refine ⟨hdisk, hsession, ?_, ?_⟩
  · rw [hsession]
    split_ifs with lack
    · simpa [lack] using get?_positioned_iff operands session
    · simp [lack]
  · have room := roomy.runIn (writing operands (takeContent (lines input)).1) session
    rw [failed] at room
    have handled : (liftM (report "write" failure) : SessionM Unit).runIn Host.serve session' host'
        = _ := (runIn_program _).trans (by rw [run_report_of_room room])
    rw [Turn.ofTokens]
    exact (congrArg (fun action => SessionM.runIn Host.serve action session host)
      (execute_write operands _)).trans
      (runIn_bind_of_ok ((runIn_tryCatch_of_error failed).trans handled))

end Shell

/-! ### More than fits -/

/-- There is no space for more bytes than the disk has. -/
theorem Session.Coherent.exec_write_of_large {session : Session} {image : Image}
    (h : session.Coherent image) {handle : Handle} {file : OpenFile}
    (hfile : session.openFiles.get? handle = some file)
    (isFile : file.record.isDirectory = false) {content : Bytes}
    (large : numBlocks * blockSize < content.length) (mode : WriteMode) :
  (write handle content mode).exec session image = (.error .outOfSpace, session, image)
  := by
  rcases h.exec_write_cases hfile isFile rfl rfl content mode with
    ⟨-, hexec⟩ | ⟨after, stored, -, hstored⟩
  · exact hexec
  · -- A chain has no more blocks than the disk.
    generalize image.contentOf file.record.first.toNat file.record.length.toNat = old at hstored
    have inside := hstored.isChain.length_le
    have fits := le_blocksFor_mul (mode.written old content file.cursor).length
    have longer : content.length ≤ (mode.written old content file.cursor).length := by
      cases mode <;> simp [WriteMode.written]
      omega
    rw [Image.length_table, hstored.length] at inside
    have := Nat.mul_le_mul_right blockSize inside
    omega

namespace Shell

open Session SessionM

/-- Bytes without a line feed are a line. -/
theorem lines_of_notMem {bytes : Bytes} (nonempty : bytes ≠ []) (h : lineFeed ∉ bytes) :
  lines bytes = [bytes]
  := by
  induction bytes with
  | nil => exact absurd rfl nonempty
  | cons b rest ih =>
      obtain ⟨hb, hrest⟩ := not_or.mp (List.mem_cons.not.mp h)
      have other : (b == lineFeed) = false := by simpa using Ne.symm hb
      have extended : lines (b :: rest) = extendLines b (lines rest) := rfl
      cases rest with
      | nil => simp [lines, extendLines, other]
      | cons c rest =>
          rw [extended, ih (by simp) hrest]
          simp [extendLines, other]

theorem runIn_writeThrough_of_large {session : Session} {host : Host}
    (coherent : session.Coherent host.disk.image) (serves : host.Serves Set.univ)
    {handle : Handle} {file : OpenFile} (hfile : session.openFiles.get? handle = some file)
    (isFile : file.record.isDirectory = false) {content : Bytes}
    (large : numBlocks * blockSize < content.length) (mode : WriteMode) :
  ∃ host', (writeThrough handle content mode).runIn Host.serve session host
    = (.error .outOfSpace, session, host')
  := by
  obtain ⟨host', hwrite, -, -⟩ :=
    (uses_write (Set.mem_univ _) (Set.mem_univ _) handle content mode).runIn_host session serves
  rw [coherent.exec_write_of_large hfile isFile large] at hwrite
  exact ⟨host', runIn_bind_of_error hwrite⟩

/-- A line of one letter only is content. -/
theorem takeContent_replicate (n : Nat) :
  takeContent (lines (List.replicate (n + 1) 0x61)) = (.ok (List.replicate (n + 1) 0x61), [])
  := by
  have ascii : Utf8.IsAscii (List.replicate (n + 1) 'a') := by
    intro c hc
    rw [List.eq_of_mem_replicate hc]
    decide
  have encoded : Utf8.encode (String.ofList (List.replicate (n + 1) 'a'))
      = List.replicate (n + 1) 0x61 := by
    rw [Utf8.encode_of_isAscii ascii, List.map_replicate]
    rfl
  have decoded := Utf8.decode?_encode_of_isAscii ascii
  rw [encoded] at decoded
  have other : isMarker (List.replicate (n + 1) 0x61) = false := by
    rw [isMarker, beq_eq_false_iff_ne, ne_eq, rdropWhile_eq_singleton_iff (by decide)]
    rintro ⟨_, same, -⟩
    rw [List.replicate_succ] at same
    cases same
  have feedless : lineFeed ∉ List.replicate (n + 1) 0x61 := by
    intro feed
    cases List.eq_of_mem_replicate feed
  rw [lines_of_notMem (by simp) feedless, takeContent, takeContentFrom, decoded]
  dsimp only
  rw [endsContent_eq_isMarker decoded, other]
  simp [takeContentFrom]

end Shell

/-- A file that holds a byte is covered from the start with more bytes than the disk has. -/
theorem exists_failed_cover :
  ∃ (start : State) (history : List Step) (file : OpenFile) (host : Host) (input : Bytes)
      (host' : Host),
    (Session.format default).exec .zero = (.ok start.session, start.image)
    ∧ history = [⟨.createFile "/a", default⟩, ⟨.openPath "/a", default⟩,
      ⟨.write 1 [0x61] .overwrite, default⟩]
    ∧ (start.run history).Coherent
    ∧ host.disk.image = (start.run history).image ∧ host.Serves Set.univ ∧ host.Roomy
    ∧ (start.run history).session.openFiles.get? 1 = some file ∧ file.HoldsByte "/a"
    ∧ input = List.replicate (numBlocks * blockSize + 1) 0x61
    ∧ (Shell.writing ["-c", "/a", "0"] (Shell.takeContent (Shell.lines input)).1).runIn Host.serve
        (start.run history).session host
      = (.error .outOfSpace, (start.run history).session.sought 1 0, host')
  := by
  obtain ⟨start, history, file, hformat, hhistory, coherent, hfile, holds⟩ := exists_written
  let host : Host := { disk := { image := (start.run history).image } }
  have serves : host.Serves Set.univ := by
    refine ⟨fun _ _ _ => rfl, ?_⟩
    rintro - path hpath
    cases hpath
  have roomy : host.Roomy := ⟨rfl, rfl⟩
  have hparse : Shell.Command.parse "write" ["-c", "/a", "0"]
      = .ok (.write .cover "/a" (some 0)) := by
    decide
  have hfind : (start.run history).session.openFiles.find?
      ((start.run history).session.absolute "/a") = some 1 := by
    have normal : Path.Normal ["a"] := by decide
    have absolute := coherent.absolute_render normal
    rw [show Path.render ["a"] = "/a" by decide] at absolute
    rw [absolute, ← holds.path_eq]
    exact coherent.distinct.find?_eq hfile
  have moved := Shell.positioned_of_find? hparse hfind
  obtain ⟨cursor, held⟩ := Shell.exists_get?_positioned ["-c", "/a", "0"] hfile
  have coherent' := Shell.coherent_positioned ["-c", "/a", "0"] coherent
  rw [moved] at held coherent'
  have large : numBlocks * blockSize
      < (List.replicate (numBlocks * blockSize + 1) (0x61 : UInt8)).length := by
    rw [List.length_replicate]
    exact Nat.lt_succ_self _
  obtain ⟨host', hrun⟩ :=
    Shell.runIn_writeThrough_of_large coherent' serves held holds.isFile large .cover
  refine ⟨start, history, file, host, _, host', hformat, hhistory, coherent, rfl, serves, roomy,
    hfile, holds, rfl, ?_⟩
  rw [Shell.takeContent_replicate, Shell.runIn_writing _ _ _ hparse, hfind]
  dsimp only
  rw [hfile]
  dsimp only
  rw [if_neg (by simp [holds.isFile]), moved]
  exact hrun

/-! ### Every failure -/

/-- Every `write` command that fails in this state, on a working device and with room in the
channels, leaves the disk and the open files as `Shell.WriteFails` says. -/
def State.FailsWrites (state : State) : Prop :=
  ∀ (host : Host), host.disk.image = state.image → host.Serves Set.univ → host.Roomy →
    ∀ (operands : List String) (input : Bytes) (failure : Error) (session' : Session)
      (host' : Host),
      (Shell.writing operands (Shell.takeContent (Shell.lines input)).1).runIn Host.serve
          state.session host = (.error failure, session', host') →
      Shell.WriteFails operands input state.session host failure session' host'

theorem State.Coherent.failsWrites {state : State} (h : state.Coherent) :
  state.FailsWrites
  := by
  intro host himage serves roomy operands input failure session' host' failed
  have coherent : state.session.Coherent host.disk.image := by
    rw [himage]
    exact h
  exact Shell.writeFails_of_failed coherent serves roomy failed

/-- A session begins by formatting any disk, or by mounting a volume that checks.  In every state
that it reaches, a `write` command that fails leaves the disk alone, and all open files but for the
cursor that it moved if there is no space. -/
theorem failsWrites_throughout (clock : Timestamp) (image : Image) :
  (∃ start : State, (Session.format clock).exec image = (.ok start.session, start.image)
      ∧ ∀ history, (start.run history).FailsWrites)
    ∧ ∀ (start : State) (usage : Usage) (after : Image),
        (Session.mount clock).exec image = (.ok start.session, start.image) →
        Session.check.exec start.session start.image = (.ok usage, start.session, after) →
        ∀ history, (start.run history).FailsWrites
  := by
  constructor
  · obtain ⟨start, hformat, throughout⟩ := exists_formatted clock image
    exact ⟨start, hformat, fun history => (throughout history).1.failsWrites⟩
  · intro start usage after hmount hcheck history
    have coherent : start.Coherent := Session.coherent_of_mount hmount hcheck
    exact (coherent.run history).failsWrites

/-- There is no space for this, and the cursor was moved to the start nevertheless. -/
theorem exists_failed_write_moved :
  ∃ (start : State) (history : List Step) (file : OpenFile) (host host' : Host) (input : Bytes)
      (session' : Session),
    (Session.format default).exec .zero = (.ok start.session, start.image)
    ∧ history = [⟨.createFile "/a", default⟩, ⟨.openPath "/a", default⟩,
      ⟨.write 1 [0x61] .overwrite, default⟩]
    ∧ host.disk.image = (start.run history).image ∧ host.Serves Set.univ ∧ host.Roomy
    ∧ input = List.replicate (numBlocks * blockSize + 1) 0x61
    ∧ (Shell.writing ["-c", "/a", "0"] (Shell.takeContent (Shell.lines input)).1).runIn Host.serve
        (start.run history).session host = (.error .outOfSpace, session', host')
    ∧ (start.run history).session.openFiles.get? 1 = some file ∧ file.cursor = 1
    ∧ session'.openFiles.get? 1 = some { file with cursor := 0 }
  := by
  obtain ⟨start, history, file, host, input, host', hformat, hhistory, -, himage, serves, roomy,
    hfile, holds, hinput, hrun⟩ := exists_failed_cover
  refine ⟨start, history, file, host, host', input, _, hformat, hhistory, himage, serves, roomy,
    hinput, hrun, hfile, holds.cursor_eq, ?_⟩
  rw [Session.get?_sought, hfile, Option.map_some, Nat.zero_min]

/-- What the failed command leaves in a session that mounted the fresh volume. -/
theorem failsWrites_throughout_cover :
  ∃ (start : State) (usage : Usage) (history : List Step) (host host' : Host) (input : Bytes)
      (session' : Session),
    (Session.mount default).exec start.image = (.ok start.session, start.image)
    ∧ Session.check.exec start.session start.image = (.ok usage, start.session, start.image)
    ∧ host.disk.image = (start.run history).image ∧ host.Serves Set.univ ∧ host.Roomy
    ∧ (Shell.writing ["-c", "/a", "0"] (Shell.takeContent (Shell.lines input)).1).runIn Host.serve
        (start.run history).session host = (.error .outOfSpace, session', host')
    ∧ Shell.WriteFails ["-c", "/a", "0"] input (start.run history).session host .outOfSpace
        session' host'
  := by
  obtain ⟨start, history, file, host, input, host', hformat, -, -, himage, serves, roomy, -, -, -,
    hrun⟩ := exists_failed_cover
  obtain ⟨hmount, -, usage, hcheck⟩ := Session.mount_of_format hformat
  have fails := (failsWrites_throughout default start.image).2 start usage start.image hmount hcheck
    history host himage serves roomy _ input _ _ _ hrun
  exact ⟨start, usage, history, host, host', input, _, hmount, hcheck, himage, serves, roomy, hrun,
    fails⟩

end FatVolume
