import FatVolume.Proofs.Coherence

/-!
# What operations do to what a user sees

A session shows a tree of nodes: directories, and files with their chains and contents.  Most
operations leave this tree as it is; they are quiet.  The others give one path another meaning.
-/

namespace FatVolume

/-- What a path leads to, as a session shows it. -/
inductive Node where
  | directory (length : Nat)
  | file (blocks : List Nat) (content : Bytes)
  deriving DecidableEq

/-- The kind of a node. -/
def Node.kind : Node → Kind
  | directory _ => .directory
  | file _ _ => .file

/-- The nodes to which names lead. -/
abbrev Tree : Type := List String → Option Node

/-- The first `length` bytes in the chain that starts at a block. -/
def Image.contentOf (image : Image) (first length : Nat) : Bytes :=
  ((image.blocksOf first).flatMap fun b => (image.block b).toList).take length

/-- The content in a chain is the same if its blocks and what they hold are. -/
theorem Image.contentOf_congr {image after : Image} {first : Nat} (length : Nat)
    (blocks : after.blocksOf first = image.blocksOf first)
    (same : ∀ b ∈ image.blocksOf first, after.block b = image.block b) :
  after.contentOf first length = image.contentOf first length
  := by
  have bytes : (image.blocksOf first).flatMap (fun b => (after.block b).toList)
      = (image.blocksOf first).flatMap (fun b => (image.block b).toList) := by
    apply List.flatMap_congr
    intro b hb
    rw [same b hb]
  rw [contentOf, contentOf, blocks, bytes]

namespace Session

/-- The node of an entry to which names lead. -/
def nodeOf (session : Session) (image : Image) (names : List String) (e : Entry) : Node :=
  if e.record.isDirectory then .directory e.record.length.toNat
  else .file (image.blocksOf e.record.first.toNat)
    (image.contentOf e.record.first.toNat (session.lengthOf names e))

/-- The node to which names lead. -/
def node? (session : Session) (image : Image) (names : List String) : Option Node :=
  (image.find? session.superblock.root names).map (session.nodeOf image names)

theorem node?_eq_none_iff {session : Session} {image : Image} {names : List String} :
  session.node? image names = none ↔ image.find? session.superblock.root names = none
  := Option.map_eq_none_iff

theorem kind_nodeOf (session : Session) (image : Image) (names : List String) (e : Entry) :
  (session.nodeOf image names e).kind = e.record.kind
  := by
  rw [nodeOf, Record.isDirectory]
  cases e.record.kind <;> rfl

/-- The record on disk of an open file is its working copy. -/
def UpToDate (session : Session) (image : Image) (file : OpenFile) : Prop :=
  ∀ names e, Path.Normal names → file.path = Path.render names →
    image.find? session.superblock.root names = some e → file.record = e.record

/-- The state after is coherent and shows the same tree.  The records on disk are the same but for
the lengths of files. -/
structure Quiet (session : Session) (image : Image) (session' : Session) (after : Image) :
    Prop where
  coherent : session'.Coherent after
  superblock : session'.superblock = session.superblock
  node?_eq : session'.node? after = session.node? image
  relengthed : image.Relengthed after

variable {session session' session'' : Session} {image after after' : Image}
  {names : List String} {name : String} {e d : Entry} {handle : Handle} {file : OpenFile}

theorem Coherent.refl (h : session.Coherent image) :
  session.Quiet image session image
  := ⟨h, rfl, rfl, .refl image⟩

theorem Quiet.trans (h : session.Quiet image session' after)
    (h' : session'.Quiet after session'' after') :
  session.Quiet image session'' after'
  := ⟨h'.coherent, h'.superblock.trans h.superblock, h'.node?_eq.trans h.node?_eq,
    h.relengthed.trans h'.relengthed⟩

/-- A file that is not marked is up to date. -/
theorem Tracking.upToDate (h : session.Tracking image)
    (hfile : session.openFiles.get? handle = some file) (clean : file.dirty = false) :
  session.UpToDate image file
  := by
  intro names e hnames hpath he
  apply (h.tracks_of_find? hfile hnames hpath he).clean clean

/-- The path of an open file is not that of the root. -/
theorem Coherent.exists_path (h : session.Coherent image)
    (hfile : session.openFiles.get? handle = some file)
    (isFile : file.record.isDirectory = false) :
  ∃ names name e, Path.Normal (names ++ [name]) ∧ file.path = Path.render (names ++ [name])
    ∧ image.find? session.superblock.root (names ++ [name]) = some e ∧ file.Tracks e
  := by
  obtain ⟨path, e, hnames, hpath, he, tracks⟩ := h.tracks hfile
  rcases List.eq_nil_or_concat' path with rfl | ⟨names, name, rfl⟩
  · have := (h.sound.standsFor_root he).2.1
    rw [← tracks.isDirectory_eq, isFile] at this
    simp at this
  · exact ⟨names, name, e, hnames, hpath, he, tracks⟩

/-! ### Changes of the session -/

/-- The same paths stay open with the same working copies when one slot changes, if its own path and
working copy do. -/
theorem hasCopy_set_iff (hlt : handle < maxOpen) {held : Option OpenFile}
    (openFiles : session'.openFiles = session.openFiles.set handle held) {path : String}
    {record : Record}
    (same : (∃ file, held = some file ∧ file.path = path ∧ file.record = record)
      ↔ ∃ file, session.openFiles.get? handle = some file ∧ file.path = path
          ∧ file.record = record) :
  session'.HasCopy path record ↔ session.HasCopy path record
  := by
  have slots (other : Handle) := OpenTable.get?_set session.openFiles hlt held other
  unfold HasCopy
  rw [openFiles]
  apply exists_congr
  intro other
  by_cases changed : handle = other
  · subst changed
    simpa only [slots, if_true] using same
  · simp only [slots, if_neg changed]

namespace Coherent

variable (h : session.Coherent image) (superblock : session'.superblock = session.superblock)
include h superblock

/-- A change of the table is quiet if the working copies that differ from the records on disk
stay. -/
theorem quiet (tracking : session'.Tracking image)
    (copies : ∀ names e, Path.Normal names → image.find? session.superblock.root names = some e →
      ∀ record, record ≠ e.record → (session'.HasCopy (Path.render names) record
        ↔ session.HasCopy (Path.render names) record)) :
  session.Quiet image session' image
  := by
  have same {names : List String} {e : Entry}
      (he : image.find? session.superblock.root names = some e) :
      session'.lengthOf names e = session.lengthOf names e :=
    h.toTracking.lengthOf_congr tracking fun hnames => copies names e hnames he
  refine ⟨⟨tracking, ?_, ?_, ?_⟩, superblock, ?_, .refl image⟩
  · rw [superblock]
    apply h.sound.of_lengths same
  · rw [superblock, h.described]
  · rw [superblock, h.valid]
  · funext names
    rw [node?, node?, superblock]
    cases he : image.find? session.superblock.root names with
    | none => rfl
    | some e =>
        rw [Option.map_some, Option.map_some, nodeOf, nodeOf, same he]

theorem quiet_of_eq (openFiles : session'.openFiles = session.openFiles) :
  session.Quiet image session' image
  := by
  apply h.quiet superblock (h.toTracking.of_eq superblock openFiles)
  intro names e _ _ record _
  rw [HasCopy, HasCopy, openFiles]

/-- An open file can change its cursor. -/
theorem quiet_set (hfile : session.openFiles.get? handle = some file) {file' : OpenFile}
    (hpath : file'.path = file.path) (hrecord : file'.record = file.record)
    (hdirty : file'.dirty = file.dirty) (within : file'.cursor ≤ file'.record.length.toNat)
    (openFiles : session'.openFiles = session.openFiles.set handle (some file')) :
  session.Quiet image session' image
  := by
  apply h.quiet superblock
  · apply h.toTracking.set superblock hfile hpath _ openFiles
    intro e tracks
    refine ⟨by rw [hrecord, ← tracks.record], ?_, by rw [hdirty]; exact tracks.isFile, within⟩
    rw [hrecord, hdirty]
    apply tracks.clean
  · intro names e _ _ record _
    apply hasCopy_set_iff (OpenTable.lt_of_get? hfile) openFiles
    simp [hfile, hpath, hrecord]

/-- A handle that is up to date on disk can be released. -/
theorem quiet_release (hfile : session.openFiles.get? handle = some file)
    (current : session.UpToDate image file) (hroot : handle ≠ OpenTable.rootHandle)
    (hcurrent : handle ≠ session.openFiles.current)
    (openFiles : session'.openFiles = session.openFiles.set handle none) :
  session.Quiet image session' image
  := by
  have hlt := OpenTable.lt_of_get? hfile
  apply h.quiet superblock (h.toTracking.release superblock hroot hcurrent hlt openFiles)
  intro names e hnames he record hne
  apply hasCopy_set_iff hlt openFiles
  constructor
  · rintro ⟨_, none, -⟩
    simp at none
  · rintro ⟨found, hfound, hpath, rfl⟩
    obtain rfl := Option.some.inj (hfile.symm.trans hfound)
    exact (hne (current names e hnames hpath he)).elim

/-- An entry whose path is not open can be opened. -/
theorem quiet_insert (hfree : session.openFiles.get? handle = none) (hlt : handle < maxOpen)
    (hnames : Path.Normal names) (hpath : file.path = Path.render names)
    (he : image.find? session.superblock.root names = some e) (hrecord : file.record = e.record)
    (clean : file.dirty = false) (start : file.cursor = 0)
    (unopened : session.openFiles.find? file.path = none)
    (openFiles : session'.openFiles = session.openFiles.set handle (some file)) :
  session.Quiet image session' image
  := by
  apply h.quiet superblock
  · apply h.toTracking.insert superblock hfree hlt hnames hpath he _
      (OpenTable.find?_eq_none_iff.mp unopened) openFiles
    exact ⟨by rw [hrecord, Record.withLength_self], fun _ => hrecord, by simp [clean],
      by simp [start]⟩
  · intro names' e' hnames' he' record hne
    apply hasCopy_set_iff hlt openFiles
    constructor
    · rintro ⟨_, ⟨⟩, hpath', rfl⟩
      obtain rfl := hnames.render_inj hnames' (hpath.symm.trans hpath')
      obtain rfl := Option.some.inj (he.symm.trans he')
      exact (hne hrecord).elim
    · rintro ⟨_, hfound, -⟩
      simp [hfree] at hfound

/-- An open directory can become the current one. -/
theorem quiet_enter (hfile : session.openFiles.get? handle = some file)
    (hdir : file.record.isDirectory = true)
    (openFiles : session'.openFiles = { session.openFiles with current := handle }) :
  session.Quiet image session' image
  := by
  apply h.quiet superblock (h.toTracking.enter superblock hfile hdir openFiles)
  intro names e _ _ record _
  rw [HasCopy, HasCopy, openFiles]
  rfl

/-- All handles but that of the root can be released when everything is up to date on disk. -/
theorem quiet_ofRoot {root : OpenFile}
    (hroot : session.openFiles.get? OpenTable.rootHandle = some root)
    (current : ∀ handle file, session.openFiles.get? handle = some file →
      session.UpToDate image file)
    (openFiles : session'.openFiles = .ofRoot root) :
  session.Quiet image session' image
  := by
  obtain ⟨root', hroot', hpath, hdir⟩ := h.root_open
  obtain rfl := Option.some.inj (hroot.symm.trans hroot')
  obtain ⟨e, he, tracks⟩ := h.exists_tracked hroot Path.Normal.nil hpath
  apply h.quiet superblock
  · exact Tracking.of_ofRoot hpath hdir (by rw [superblock, he]) tracks openFiles
  · intro names' e' hnames' he' record hne
    constructor
    · rintro ⟨handle, file, hfile, rest⟩
      rw [openFiles, OpenTable.get?_ofRoot_eq_some] at hfile
      obtain ⟨rfl, rfl⟩ := hfile
      exact ⟨_, _, hroot, rest⟩
    · rintro ⟨handle, file, hfile, hpath, rfl⟩
      exact (hne (current handle file hfile names' e' hnames' hpath he')).elim

end Coherent

/-! ### Changes of the image -/

section Replaced

variable {place : Location} {new : Option Entry} (h : session.Coherent image)
  (replaced : image.Replaced after session.superblock.root names name d place new)
include h replaced

/-- The open files go on tracking their entries, if that of the path tracks the new one. -/
theorem Tracking.of_replaced
    (at_path : ∀ handle file, session.openFiles.get? handle = some file →
      file.path = Path.render (names ++ [name]) → ∃ e, new = some e ∧ file.Tracks e) :
  session.Tracking after
  := by
  refine ⟨h.root_open, h.current_open, ?_, h.distinct⟩
  intro handle file hfile
  obtain ⟨names', e, hnames, hpath, he, tracks⟩ := h.tracks hfile
  by_cases same : names' = names ++ [name]
  · subst same
    obtain ⟨e', hnew, tracks'⟩ := at_path handle file hfile hpath
    refine ⟨_, e', hnames, hpath, ?_, tracks'⟩
    rw [replaced.find?_self h.sound, hnew]
  · refine ⟨names', e, hnames, hpath, ?_, tracks⟩
    rw [replaced.find?_of_ne h.sound same, he]

variable (superblock : session'.superblock = session.superblock)
  (tracking : session'.Tracking after)
  (copies : ∀ other, other ≠ names ++ [name] → Path.Normal other → ∀ record,
    session'.HasCopy (Path.render other) record ↔ session.HasCopy (Path.render other) record)
include superblock tracking copies

/-- The session stays coherent when what a path leads to is replaced. -/
theorem Coherent.of_replaced
    (length : ∀ e, new = some e → (after.blocksOf e.record.first.toNat).length
      = blocksFor (session'.lengthOf (names ++ [name]) e)) :
  session'.Coherent after
  := by
  refine ⟨tracking, ?_, ?_, ?_⟩
  · rw [superblock]
    apply replaced.sound_after h.sound length
    intro other e hne _
    apply h.toTracking.lengthOf_congr tracking
    exact fun hother record _ => copies other hne hother record
  · rw [superblock, replaced.superblock, h.described]
  · rw [superblock, h.valid]

/-- All other paths lead to the same nodes. -/
theorem node?_of_replaced :
  session'.node? after = Function.update (session.node? image) (names ++ [name])
    (new.map (session'.nodeOf after (names ++ [name])))
  := by
  funext other
  by_cases same : other = names ++ [name]
  · subst same
    rw [Function.update_self, node?, superblock, replaced.find?_self h.sound]
  · rw [Function.update_of_ne same, node?, node?, superblock, replaced.find?_of_ne h.sound same]
    cases he : image.find? session.superblock.root other with
    | none => rfl
    | some e =>
        rw [Option.map_some, Option.map_some, nodeOf, nodeOf]
        split_ifs with hdir
        · rfl
        · -- The directory with the slot is not a file, so the blocks of the file are the same.
          have hparent : other ≠ names := by
            rintro rfl
            rw [replaced.parent] at he
            obtain rfl := Option.some.inj he
            apply hdir replaced.directory
          have blocks := replaced.blocksOf_eq h.sound same he
          have length : session'.lengthOf other e = session.lengthOf other e := by
            apply h.toTracking.lengthOf_congr tracking
            exact fun hother record _ => copies other same hother record
          rw [length, blocks, Image.contentOf_congr _ blocks]
          intro b hb
          apply replaced.block_eq h.sound same hparent he hb

end Replaced

end Session

end FatVolume
