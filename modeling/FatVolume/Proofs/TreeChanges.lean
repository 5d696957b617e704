import FatVolume.Proofs.Creation
import FatVolume.Proofs.QuietActions
import FatVolume.Proofs.Removal
import FatVolume.Proofs.Storage

/-!
# Changes of the tree

Creating, removing and writing change the tree that a session shows at one path only, and the
session stays coherent.
-/

namespace FatVolume.Session

variable {session session' : Session} {image after : Image} {names : List String} {name : String}
  {d e : Entry} {handle : Handle} {file : OpenFile}

/-! ### Creating and removing -/

/-- What is not open can be replaced by an entry whose record fits its chain. -/
theorem Coherent.replace {place : Location} {new : Option Entry} (h : session.Coherent image)
    (replaced : image.Replaced after session.superblock.root names name d place new)
    (unopened : ∀ handle file, session.openFiles.get? handle = some file →
      file.path ≠ Path.render (names ++ [name]))
    (length : ∀ e, new = some e → (after.blocksOf e.record.first.toNat).length
      = blocksFor e.record.length.toNat) :
  session.Coherent after
    ∧ session.node? after = Function.update (session.node? image) (names ++ [name])
        (new.map (session.nodeOf after (names ++ [name])))
  := by
  have tracking : session.Tracking after := by
    apply Tracking.of_replaced h replaced
    intro handle file hfile hpath
    exact (unopened handle file hfile hpath).elim
  have copies (other : List String) (_ : other ≠ names ++ [name]) (_ : Path.Normal other)
      (record : Record) : session.HasCopy (Path.render other) record
        ↔ session.HasCopy (Path.render other) record := Iff.rfl
  have own_length (e : Entry) : session.lengthOf (names ++ [name]) e = e.record.length.toNat := by
    apply h.lengthOf_of_same
    rintro - record ⟨handle, file, hfile, hpath, -⟩
    exact (unopened handle file hfile hpath).elim
  refine ⟨?_, node?_of_replaced h replaced rfl tracking copies⟩
  apply h.of_replaced replaced rfl tracking copies
  intro e he
  rw [own_length, length e he]

/-- A path that leads nowhere is not open. -/
theorem Tracking.path_ne_of_find?_eq_none (h : session.Tracking image)
    (hnames : Path.Normal names) (hnone : image.find? session.superblock.root names = none)
    (hfile : session.openFiles.get? handle = some file) :
  file.path ≠ Path.render names
  := by
  intro hpath
  obtain ⟨e, he, -⟩ := h.exists_tracked hfile hnames hpath
  simp [hnone] at he

/-- The node of a new entry whose block is `first`. -/
def newNode (kind : Kind) (first : Nat) : Node :=
  match kind with
  | .directory => .directory blockSize
  | .file => .file [first] []

theorem kind_newNode (kind : Kind) (first : Nat) :
  (newNode kind first).kind = kind
  := by
  cases kind <;> rfl

/-- Creating an entry adds its path to the tree. -/
theorem Coherent.create {now : Timestamp} {kind : Kind} (h : session.Coherent image)
    (hnames : Path.Normal (names ++ [name]))
    (hd : image.find? session.superblock.root names = some d)
    (hdir : d.record.isDirectory = true)
    (hcreation : Directory.creation image now d.record.first.toNat name kind = .ok e) :
  session.Coherent (image.created now d.record e.record e.location)
    ∧ session.node? (image.created now d.record e.record e.location)
      = Function.update (session.node? image) (names ++ [name])
          (some (newNode kind e.record.first.toNat))
  := by
  have replaced := Directory.replaced_created h.sound hd hdir hcreation
  have hnone := Directory.find?_eq_none_of_creation hd hdir hcreation
  have blocks := Image.blocksOf_eq (Directory.isChain_created h.sound hd hcreation)
  have unopened (handle : Handle) (file : OpenFile)
      (hfile : session.openFiles.get? handle = some file) :=
    h.path_ne_of_find?_eq_none hnames hnone hfile
  obtain ⟨kind_eq, length_eq⟩ := Directory.record_of_creation hcreation
  obtain ⟨coherent, nodes⟩ := h.replace replaced unopened (by
    rintro _ ⟨⟩
    rw [blocks, length_eq, Directory.blocksFor_initialLength]
    rfl)
  refine ⟨coherent, ?_⟩
  rw [nodes, Option.map_some, nodeOf, Record.isDirectory, kind_eq, length_eq, blocks]
  cases kind with
  | directory => rfl
  | file =>
      have empty : session.lengthOf (names ++ [name]) e = 0 := by
        rw [h.lengthOf_of_same, length_eq]
        · rfl
        · rintro - record ⟨handle, file, hfile, hpath, -⟩
          exact (unopened handle file hfile hpath).elim
      rw [empty, Image.contentOf, List.take_zero]
      rfl

/-- Removing an entry that is not open removes its path from the tree. -/
theorem Coherent.remove (h : session.Coherent image)
    (he : image.find? session.superblock.root (names ++ [name]) = some e)
    (childless : e.record.isDirectory = true → image.listed e.record.first.toNat = [])
    (unopened : ∀ handle file, session.openFiles.get? handle = some file →
      file.path ≠ Path.render (names ++ [name])) :
  ∃ after, (Directory.remove e).exec image = (.ok (), after) ∧ session.Coherent after
    ∧ session.node? after = Function.update (session.node? image) (names ++ [name]) none
  := by
  obtain ⟨d, hd, -, -⟩ := Image.find?_concat_eq_some.mp he
  obtain ⟨after, hexec, replaced⟩ := Directory.exec_remove h.sound he childless hd
  obtain ⟨coherent, nodes⟩ := h.replace replaced unopened (by simp)
  exact ⟨after, hexec, coherent, nodes⟩

/-! ### Writing -/

/-- Storing a content in an open file, whose working copy gets the new length, changes the chain
and the content at its path. -/
theorem Coherent.store (session' : Session) (file' : OpenFile) {stored : List Nat}
    {content : Bytes} (h : session.Coherent image) (hfile : session.openFiles.get? handle = some file)
    (isFile : file.record.isDirectory = false)
    (hstored : image.Stored after file.record.first.toNat
      (image.blocksOf file.record.first.toNat) stored content)
    (path : file'.path = file.path)
    (record : file'.record = file.record.withLength (UInt32.ofNat content.length))
    (dirty : file'.dirty = true) (within : file'.cursor ≤ content.length)
    (superblock : session'.superblock = session.superblock)
    (openFiles : session'.openFiles = session.openFiles.set handle (some file')) :
  ∃ names blocks old bytes, Path.Normal names ∧ file.path = Path.render names
    ∧ session.node? image names = some (.file blocks old)
    ∧ session'.Coherent after
    ∧ session'.node? after
      = Function.update (session.node? image) names (some (.file stored bytes))
  := by
  obtain ⟨names, name, e, hnames, hpath, he, tracks⟩ := h.exists_path hfile isFile
  obtain ⟨d, hd, -, -⟩ := Image.find?_concat_eq_some.mp he
  have first := tracks.first_eq
  have hdir : e.record.isDirectory = false := by
    rw [← tracks.isDirectory_eq, isFile]
  rw [first] at hstored
  have replaced := hstored.replaced h.sound he hdir hd
  have blocks := Image.blocksOf_eq hstored.isChain
  have hlt := OpenTable.lt_of_get? hfile
  have new_length : file'.record.length.toNat = content.length := by
    rw [record, Record.length_withLength]
    apply OpenFile.toNat_ofNat_of_blocksFor_le
    rw [← hstored.length, ← Image.length_table after]
    exact hstored.isChain.length_le
  have tracking : session.Tracking after := by
    apply Tracking.of_replaced h replaced
    intro other found hfound hpath'
    obtain rfl := h.distinct _ _ _ _ hfound hfile (hpath'.trans hpath.symm)
    obtain rfl := Option.some.inj (hfile.symm.trans hfound)
    exact ⟨e, rfl, tracks⟩
  have tracking' : session'.Tracking after := by
    apply tracking.set superblock hfile path _ openFiles
    intro e' tracks'
    refine ⟨?_, by simp [dirty], fun _ => by rw [← tracks'.isDirectory_eq, isFile], ?_⟩
    · rw [record, tracks'.record]
      rfl
    · rw [new_length]
      exact within
  have length : session'.lengthOf (names ++ [name]) e = content.length := by
    have hfile' : session'.openFiles.get? handle = some file' := by
      rw [openFiles, OpenTable.get?_set_self session.openFiles hlt]
    rw [tracking'.lengthOf_of_open hnames hfile' (path.trans hpath), new_length]
  have copies (other : List String) (hne : other ≠ names ++ [name]) (hother : Path.Normal other)
      (record : Record) : session'.HasCopy (Path.render other) record
        ↔ session.HasCopy (Path.render other) record := by
    have elsewhere : file.path ≠ Path.render other := fun same =>
      hne (hother.render_inj hnames (same.symm.trans hpath))
    apply hasCopy_set_iff hlt openFiles
    simp [hfile, path, elsewhere]
  refine ⟨names ++ [name], image.blocksOf e.record.first.toNat,
    image.contentOf e.record.first.toNat (session.lengthOf (names ++ [name]) e),
    after.contentOf e.record.first.toNat content.length, hnames, hpath, ?_, ?_, ?_⟩
  · rw [node?, he, Option.map_some, nodeOf, hdir]
    rfl
  · apply h.of_replaced replaced superblock tracking' copies
    rintro _ ⟨⟩
    rw [blocks, length, hstored.length]
  · rw [node?_of_replaced h replaced superblock tracking' copies, Option.map_some, nodeOf, hdir,
      blocks, length]
    rfl

/-- Writing to an open file changes the chain and the content at its path, or it fails and changes
nothing. -/
theorem Coherent.exec_write (h : session.Coherent image) (handle : Handle) (content : Bytes)
    (mode : WriteMode) :
  (∃ error, (write handle content mode).exec session image = (.error error, session, image))
    ∨ ∃ file session' after, session.openFiles.get? handle = some file
        ∧ (write handle content mode).exec session image = (.ok content.length, session', after)
        ∧ session'.superblock = session.superblock
        ∧ ∃ names blocks old stored bytes, Path.Normal names ∧ file.path = Path.render names
          ∧ session.node? image names = some (.file blocks old)
          ∧ session'.Coherent after
          ∧ session'.node? after
            = Function.update (session.node? image) names (some (.file stored bytes))
  := by
  have hopen := exec_openFile session image handle
  cases hget : session.openFiles.get handle with
  | error error =>
      rw [hget] at hopen
      left
      exact ⟨error, SessionM.exec_bind_of_error hopen⟩
  | ok file =>
      rw [hget] at hopen
      have hfile := OpenTable.get_eq_ok.mp hget
      rw [write, SessionM.exec_bind_of_ok hopen]
      obtain ⟨hchain, low⟩ := h.isChain_of_open hfile
      rcases OpenFile.exec_write content mode hchain h.sound.mirrored low
        (fun b => h.sound.partitioned.reservedSpan_le_of_free) with ⟨error, hwrite⟩ | written
      · left
        exact ⟨error, SessionM.exec_bind_of_error (SessionM.exec_lift_of_eq hwrite)⟩
      · right
        obtain ⟨after, stored, whole, position, isFile, within, hwrite, hstored⟩ := written
        let moved : OpenFile :=
          { file with
            record := file.record.withLength (UInt32.ofNat whole.length)
            cursor := position
            dirty := true }
        let session' : Session :=
          { session with openFiles := session.openFiles.set handle (some moved) }
        obtain ⟨names, blocks, old, bytes, rest⟩ :=
          h.store session' moved hfile isFile hstored rfl rfl rfl within rfl rfl
        refine ⟨file, session', after, hfile, ?_, rfl, names, blocks, old, stored, bytes, rest⟩
        rw [SessionM.exec_bind_of_ok (SessionM.exec_lift_of_eq hwrite),
          SessionM.exec_bind_of_ok (exec_putBack _ _), SessionM.exec_pure]
        rfl

end FatVolume.Session
