import FatVolume.Session.Basic
import FatVolume.Proofs.OpenFiles
import FatVolume.Proofs.Rewriting

/-!
# Coherent sessions

While a session works on an image, each open file tracks the entry to which its path leads: the
working copy of its record differs from the record on disk in the length only, and only if the
file is out of date on disk.  The image is sound with the lengths of the working copies.
-/

namespace FatVolume

/-- The working copy is that of an entry.  It differs from the record on disk only in the length
of a file that is out of date.  The cursor is not past its end. -/
structure OpenFile.Tracks (file : OpenFile) (e : Entry) : Prop where
  record : file.record = e.record.withLength file.record.length
  clean : file.dirty = false → file.record = e.record
  isFile : file.dirty = true → e.record.isDirectory = false
  within : file.cursor ≤ file.record.length.toNat

theorem OpenFile.Tracks.isDirectory_eq {file : OpenFile} {e : Entry} (h : file.Tracks e) :
  file.record.isDirectory = e.record.isDirectory
  := by
  rw [h.record, Record.isDirectory_withLength]

theorem OpenFile.Tracks.first_eq {file : OpenFile} {e : Entry} (h : file.Tracks e) :
  file.record.first = e.record.first
  := by
  rw [h.record, Record.first_withLength]

namespace Session

/-- The length in the working copy of an open path. -/
def workingLength (session : Session) (names : List String) : Option Nat :=
  if Path.Normal names then
    ((session.openFiles.find? (Path.render names)).bind session.openFiles.get?).map
      (·.record.length.toNat)
  else none

/-- The length of what names lead to, that of the working copy if it is open. -/
def lengthOf (session : Session) (names : List String) (e : Entry) : Nat :=
  (session.workingLength names).getD e.record.length.toNat

/-- A path is open with the given working copy. -/
def HasCopy (session : Session) (path : String) (record : Record) : Prop :=
  ∃ handle file, session.openFiles.get? handle = some file ∧ file.path = path
    ∧ file.record = record

/-- Each open file tracks an entry of the image. -/
structure Tracking (session : Session) (image : Image) : Prop where
  root_open : ∃ file, session.openFiles.get? OpenTable.rootHandle = some file
    ∧ file.path = Path.root ∧ file.record.isDirectory = true
  current_open : ∃ file, session.openFiles.get? session.openFiles.current = some file
    ∧ file.record.isDirectory = true
  tracks : ∀ {handle file}, session.openFiles.get? handle = some file →
    ∃ names e, Path.Normal names ∧ file.path = Path.render names
      ∧ image.find? session.superblock.root names = some e ∧ file.Tracks e
  distinct : session.openFiles.Distinct

/-- The open files track entries, and with their lengths the image is sound.  The superblock is the
one on disk. -/
structure Coherent (session : Session) (image : Image) : Prop extends
    Tracking session image where
  sound : image.Sound session.superblock.root session.workingLength
  described : Superblock.ofBlock (image.block superblockAt) = session.superblock
  valid : session.superblock.isValid = true

variable {session session' : Session} {image after : Image} {names : List String} {e : Entry}
  {handle : Handle} {file : OpenFile}

/-! ### Lengths -/

namespace Tracking

/-- An open file has the length of its working copy. -/
theorem lengthOf_of_open (h : session.Tracking image) (hnames : Path.Normal names)
    (hfile : session.openFiles.get? handle = some file) (hpath : file.path = Path.render names) :
  session.lengthOf names e = file.record.length.toNat
  := by
  have found := h.distinct.find?_eq hfile
  rw [hpath] at found
  rw [lengthOf, workingLength, if_pos hnames, found]
  simp [hfile]

/-- An entry has the length of its record, unless it is open with another working copy. -/
theorem lengthOf_of_same (h : session.Tracking image)
    (same : Path.Normal names → ∀ record, session.HasCopy (Path.render names) record →
      record = e.record) :
  session.lengthOf names e = e.record.length.toNat
  := by
  by_cases hnames : Path.Normal names
  · cases hfound : session.openFiles.find? (Path.render names) with
    | none =>
        rw [lengthOf, workingLength, if_pos hnames, hfound]
        rfl
    | some handle =>
        obtain ⟨file, hfile, hpath⟩ := OpenTable.exists_of_find? hfound
        rw [h.lengthOf_of_open hnames hfile hpath]
        rw [same hnames file.record ⟨handle, file, hfile, hpath, rfl⟩]
  · rw [lengthOf, workingLength, if_neg hnames]
    rfl

/-- Lengths depend only on the working copies that differ from the records on disk. -/
theorem lengthOf_congr (h : session.Tracking image) (h' : session'.Tracking after)
    (copies : Path.Normal names → ∀ record, record ≠ e.record →
      (session'.HasCopy (Path.render names) record
        ↔ session.HasCopy (Path.render names) record)) :
  session'.lengthOf names e = session.lengthOf names e
  := by
  by_cases differs : Path.Normal names
      ∧ ∃ record, session.HasCopy (Path.render names) record ∧ record ≠ e.record
  · obtain ⟨hnames, record, hcopy, hne⟩ := differs
    obtain ⟨handle', file', hfile', hpath', rfl⟩ := (copies hnames record hne).mpr hcopy
    obtain ⟨handle, file, hfile, hpath, same⟩ := hcopy
    rw [h'.lengthOf_of_open hnames hfile' hpath', h.lengthOf_of_open hnames hfile hpath, same]
  · simp only [not_and, not_exists, not_not] at differs
    rw [h.lengthOf_of_same differs, h'.lengthOf_of_same]
    intro hnames record hcopy
    by_contra hne
    apply hne (differs hnames record ((copies hnames record hne).mp hcopy))

/-- No cursor is past the end of its file. -/
theorem cursor_le (h : session.Tracking image)
    (hfile : session.openFiles.get? handle = some file) :
  file.cursor ≤ file.record.length.toNat
  := by
  obtain ⟨-, e, -, -, -, tracks⟩ := h.tracks hfile
  exact tracks.within

/-- The paths of open files are normal. -/
theorem exists_path_of_get? (h : session.Tracking image) (handle : Handle) (file : OpenFile)
    (hfile : session.openFiles.get? handle = some file) :
  ∃ names, Path.Normal names ∧ file.path = Path.render names
  := by
  obtain ⟨names, -, hnames, hpath, -⟩ := h.tracks hfile
  exact ⟨names, hnames, hpath⟩

section Path

variable (h : session.Tracking image) (hfile : session.openFiles.get? handle = some file)
  (hnames : Path.Normal names) (hpath : file.path = Path.render names)
include h hfile hnames hpath

/-- A normal path is rendered from no other names, so the path of an open file leads to the entry
that the file tracks. -/
theorem exists_tracked :
  ∃ e, image.find? session.superblock.root names = some e ∧ file.Tracks e
  := by
  obtain ⟨names', e, hnames', hpath', he, tracks⟩ := h.tracks hfile
  obtain rfl := hnames.render_inj hnames' (hpath.symm.trans hpath')
  exact ⟨e, he, tracks⟩

theorem tracks_of_find? (he : image.find? session.superblock.root names = some e) :
  file.Tracks e
  := by
  obtain ⟨e', he', tracks⟩ := h.exists_tracked hfile hnames hpath
  obtain rfl := Option.some.inj (he.symm.trans he')
  exact tracks

end Path

/-! ### Changes of the table -/

section Table

variable (h : session.Tracking image) (superblock : session'.superblock = session.superblock)
include h superblock

/-- The table does not matter beyond what its slots hold. -/
theorem of_eq (openFiles : session'.openFiles = session.openFiles) :
  session'.Tracking image
  := by
  constructor
  · rw [openFiles]
    apply h.root_open
  · rw [openFiles]
    apply h.current_open
  · rw [openFiles, superblock]
    exact h.tracks
  · rw [openFiles]
    exact h.distinct

variable (hfile : session.openFiles.get? handle = some file)

include hfile in
/-- An open file can be replaced by one that tracks the same entry. -/
theorem set {file' : OpenFile} (path : file'.path = file.path)
    (tracks : ∀ e, file.Tracks e → file'.Tracks e)
    (openFiles : session'.openFiles = session.openFiles.set handle (some file')) :
  session'.Tracking image
  := by
  have hlt := OpenTable.lt_of_get? hfile
  have held (other : Handle) := OpenTable.get?_set session.openFiles hlt (some file') other
  have kind : file'.record.isDirectory = file.record.isDirectory := by
    obtain ⟨-, e, -, -, -, htracks⟩ := h.tracks hfile
    rw [(tracks e htracks).isDirectory_eq, htracks.isDirectory_eq]
  constructor
  · obtain ⟨root, hroot, hpath, hdir⟩ := h.root_open
    rw [openFiles, held]
    split_ifs with same
    · rw [← same, hfile] at hroot
      obtain rfl := Option.some.inj hroot
      exact ⟨file', rfl, path.trans hpath, kind.trans hdir⟩
    · exact ⟨root, hroot, hpath, hdir⟩
  · obtain ⟨current, hcurrent, hdir⟩ := h.current_open
    rw [openFiles, OpenTable.current_set, held]
    split_ifs with same
    · rw [← same, hfile] at hcurrent
      obtain rfl := Option.some.inj hcurrent
      exact ⟨file', rfl, kind.trans hdir⟩
    · exact ⟨current, hcurrent, hdir⟩
  · intro other found hfound
    rw [openFiles, held] at hfound
    rw [superblock]
    split_ifs at hfound with same
    · obtain rfl := Option.some.inj hfound
      obtain ⟨names, e, hnames, hpath, he, htracks⟩ := h.tracks hfile
      exact ⟨names, e, hnames, path.trans hpath, he, tracks e htracks⟩
    · apply h.tracks hfound
  · have old {other : Handle} {found : OpenFile}
        (hfound : session'.openFiles.get? other = some found) :
        ∃ found', session.openFiles.get? other = some found' ∧ found'.path = found.path := by
      rw [openFiles, held] at hfound
      split_ifs at hfound with same
      · obtain rfl := Option.some.inj hfound
        exact ⟨file, same ▸ hfile, path.symm⟩
      · exact ⟨found, hfound, rfl⟩
    intro other other' found found' hfound hfound' same
    obtain ⟨before, hbefore, hpath⟩ := old hfound
    obtain ⟨before', hbefore', hpath'⟩ := old hfound'
    apply h.distinct _ _ _ _ hbefore hbefore'
    rw [hpath, hpath', same]

/-- A handle other than those of the root and of the current directory can be released. -/
theorem release (hroot : handle ≠ OpenTable.rootHandle)
    (hcurrent : handle ≠ session.openFiles.current) (hlt : handle < maxOpen)
    (openFiles : session'.openFiles = session.openFiles.set handle none) :
  session'.Tracking image
  := by
  have held (other : Handle) := OpenTable.get?_set session.openFiles hlt none other
  have old {other : Handle} {found : OpenFile}
      (hfound : session'.openFiles.get? other = some found) :
      session.openFiles.get? other = some found := by
    rw [openFiles, held] at hfound
    split_ifs at hfound
    apply hfound
  constructor
  · rw [openFiles, held, if_neg hroot]
    apply h.root_open
  · rw [openFiles, OpenTable.current_set, held, if_neg hcurrent]
    apply h.current_open
  · intro other found hfound
    rw [superblock]
    apply h.tracks (old hfound)
  · intro other other' found found' hfound hfound' same
    apply h.distinct _ _ _ _ (old hfound) (old hfound') same

/-- A file that tracks an entry can be put into a slot, if its path is not open. -/
theorem insert (hfree : session.openFiles.get? handle = none) (hlt : handle < maxOpen)
    (hnames : Path.Normal names) (hpath : file.path = Path.render names)
    (he : image.find? session.superblock.root names = some e) (tracks : file.Tracks e)
    (unopened : ∀ other held, session.openFiles.get? other = some held → held.path ≠ file.path)
    (openFiles : session'.openFiles = session.openFiles.set handle (some file)) :
  session'.Tracking image
  := by
  have held (other : Handle) := OpenTable.get?_set session.openFiles hlt (some file) other
  have occupied {other : Handle} {found : OpenFile}
      (hfound : session.openFiles.get? other = some found) : handle ≠ other := by
    rintro rfl
    simp [hfree] at hfound
  constructor
  · obtain ⟨root, hroot, hpath⟩ := h.root_open
    rw [openFiles, held, if_neg (occupied hroot)]
    exact ⟨root, hroot, hpath⟩
  · obtain ⟨current, hcurrent, hdir⟩ := h.current_open
    rw [openFiles, OpenTable.current_set, held, if_neg (occupied hcurrent)]
    exact ⟨current, hcurrent, hdir⟩
  · intro other found hfound
    rw [openFiles, held] at hfound
    rw [superblock]
    split_ifs at hfound
    · obtain rfl := Option.some.inj hfound
      exact ⟨names, e, hnames, hpath, he, tracks⟩
    · apply h.tracks hfound
  · intro other other' found found' hfound hfound' same
    rw [openFiles, held] at hfound hfound'
    split_ifs at hfound with at_handle
    · obtain rfl := Option.some.inj hfound
      split_ifs at hfound' with at_handle'
      · rw [← at_handle, ← at_handle']
      · exact (unopened _ _ hfound' same.symm).elim
    · split_ifs at hfound' with at_handle'
      · obtain rfl := Option.some.inj hfound'
        exact (unopened _ _ hfound same).elim
      · apply h.distinct _ _ _ _ hfound hfound' same

include hfile in
/-- An open directory can become the current one. -/
theorem enter (hdir : file.record.isDirectory = true)
    (openFiles : session'.openFiles = { session.openFiles with current := handle }) :
  session'.Tracking image
  := by
  constructor
  · rw [openFiles]
    apply h.root_open
  · rw [openFiles]
    exact ⟨file, hfile, hdir⟩
  · rw [openFiles, superblock]
    exact h.tracks
  · rw [openFiles]
    exact h.distinct

end Table

/-- A table with nothing but the root directory open. -/
theorem of_ofRoot {root : OpenFile} (path : root.path = Path.root)
    (hdir : root.record.isDirectory = true)
    (he : image.find? session.superblock.root [] = some e) (tracks : root.Tracks e)
    (openFiles : session.openFiles = .ofRoot root) :
  session.Tracking image
  := by
  constructor
  · refine ⟨root, ?_, path, hdir⟩
    rw [openFiles, OpenTable.get?_ofRoot]
  · refine ⟨root, ?_, hdir⟩
    rw [openFiles]
    apply OpenTable.get?_ofRoot
  · intro handle file hfile
    rw [openFiles, OpenTable.get?_ofRoot_eq_some] at hfile
    obtain ⟨rfl, rfl⟩ := hfile
    exact ⟨[], e, Path.Normal.nil, path, he, tracks⟩
  · intro handle other file file' hfile hfile' _
    rw [openFiles, OpenTable.get?_ofRoot_eq_some] at hfile hfile'
    rw [hfile.1, hfile'.1]

end Tracking

/-- The chain of an open file is that of the entry that it tracks, so it ends, and it has no
reserved block. -/
theorem Coherent.isChain_of_open (h : session.Coherent image)
    (hfile : session.openFiles.get? handle = some file) :
  image.table.IsChain file.record.first.toNat (image.blocksOf file.record.first.toNat)
    ∧ ∀ b ∈ image.blocksOf file.record.first.toNat, reservedSpan ≤ b
  := by
  obtain ⟨_, e, -, -, he, tracks⟩ := h.tracks hfile
  rw [tracks.first_eq]
  exact ⟨h.sound.isChain he, h.sound.above he⟩

end Session

end FatVolume
