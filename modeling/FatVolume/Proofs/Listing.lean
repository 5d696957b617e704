import FatVolume.Proofs.Histories

/-!
# Listings

A listing shows the entries on disk with the working copies of those that are open, which are found
by their paths.  Each entry is shown as it is on disk, but for the length of a file, which is that
of its working copy.  Therefore a listing does not show whether records were written back.
-/

namespace FatVolume

/-! ### Images that differ in lengths -/

namespace Image

variable {image after : Image} {root : UInt16} {lengths : List String → Option Nat}
  {names : List String} {e : Entry} {first : Nat}

namespace Relengthed

variable (h : image.Relengthed after)
include h

/-- The entry that stands where another one stood is the same with another length. -/
theorem exists_withLength (he : image.entryAt e.location = e) :
  ∃ length, after.entryAt e.location = e.withLength length
  := by
  obtain ⟨length, hrecord⟩ := h.record e.location
  refine ⟨length, ?_⟩
  rw [he] at hrecord
  rw [Entry.withLength, ← hrecord]
  rfl

theorem slots (first : Nat) :
  after.slots first = (image.slots first).map fun e => after.entryAt e.location
  := by
  rw [Image.slots, Image.slots, blocksOf_congr h.table, List.map_map]
  rfl

/-- The entries of a directory for itself and its parent are the same. -/
theorem take_slots {first parent : UInt16} (dots : image.HasDots first parent) :
  (after.slots first.toNat).take 2 = (image.slots first.toNat).take 2
  := by
  obtain ⟨self, up, rest, hslots, hself, hup⟩ := dots
  have same {e : Entry} (he : e ∈ image.slots first.toNat) (hdir : e.record.isDirectory = true) :
      after.entryAt e.location = e := by
    have stands := entryAt_of_mem_slots he
    rw [h.directory _ (by rw [stands, hdir]), stands]
  rw [h.slots, hslots]
  simp [same (e := self) (by simp [hslots]) hself.2.1, same (e := up) (by simp [hslots]) hup.2.1]

theorem listed (first : Nat) :
  after.listed first = (image.listed first).map fun e => after.entryAt e.location
  := by
  rw [Image.listed, Image.listed, h.slots, ← List.map_drop, List.filter_map]
  congr 1
  apply List.filter_congr
  intro e he
  obtain ⟨length, hlength⟩ :=
    h.exists_withLength (entryAt_of_mem_slots (List.mem_of_mem_drop he))
  rw [Function.comp_apply, hlength]
  rfl

theorem child? (first : Nat) (name : String) :
  after.child? first name = (image.child? first name).map fun e => after.entryAt e.location
  := by
  rw [Image.child?, Image.child?, h.listed, List.find?_map]
  congr 1
  apply List.find?_congr
  intro e he
  obtain ⟨length, hlength⟩ :=
    h.exists_withLength (entryAt_of_mem_slots (mem_slots_of_mem_listed he))
  rw [Function.comp_apply, hlength]
  rfl

/-- Names lead to what stands where they led before. -/
theorem find? (root : UInt16) (names : List String) :
  after.find? root names = (image.find? root names).map fun e => after.entryAt e.location
  := by
  induction names using List.reverseRecOn with
  | nil => rfl
  | append_singleton names name ih =>
      rw [find?_concat, find?_concat, ih]
      cases he : image.find? root names with
      | none => rfl
      | some e =>
          obtain ⟨length, hlength⟩ := h.exists_withLength (entryAt_of_find? he)
          rw [Option.map_some, Option.bind_some, Option.bind_some, hlength, descend?, descend?]
          rw [Entry.withLength, Record.isDirectory_withLength, Record.first_withLength]
          split_ifs
          · apply h.child?
          · rfl

end Relengthed

end Image

/-! ### What is shown -/

namespace Session

open SessionM

variable {session session' : Session} {image after : Image} {names : List String} {e : Entry}

/-- An entry as it is shown, with the length of its working copy. -/
def shown (session : Session) (names : List String) (e : Entry) : Entry :=
  e.withLength (UInt32.ofNat (session.lengthOf names e))

/-- The entries that are shown for what names lead to. -/
def listing (session : Session) (image : Image) (names : List String) :
    Except Error (List Entry) :=
  match image.find? session.superblock.root names with
  | none => .error .notFound
  | some e =>
      if e.record.isDirectory then
        .ok ((image.slots e.record.first.toNat).take 2
          ++ (image.listed e.record.first.toNat).map fun child =>
            session.shown (names ++ [child.record.fullName]) child)
      else .ok [session.shown names e]

/-- The working copy of an entry is found by its path. -/
theorem Tracking.withWorkingCopy_eq (h : session.Tracking image) (hnames : Path.Normal names)
    (he : image.find? session.superblock.root names = some e) :
  session.withWorkingCopy (Path.render names) e = session.shown names e
  := by
  rw [withWorkingCopy]
  cases hfound : session.openFiles.find? (Path.render names) with
  | none =>
      rw [shown, lengthOf, workingLength, if_pos hnames, hfound]
      simp [Entry.withLength]
  | some handle =>
      obtain ⟨file, hfile, hpath⟩ := OpenTable.exists_of_find? hfound
      have tracks := h.tracks_of_find? hfile hnames hpath he
      rw [Option.bind_some, hfile, shown, h.lengthOf_of_open hnames hfile hpath,
        UInt32.ofNat_toNat, Entry.withLength, ← tracks.record]

/-- The entries of a directory are found by their names. -/
theorem Coherent.find?_of_mem_listed (h : session.Coherent image) {child : Entry}
    (he : image.find? session.superblock.root names = some e)
    (hdir : e.record.isDirectory = true) (hchild : child ∈ image.listed e.record.first.toNat) :
  image.find? session.superblock.root (names ++ [child.record.fullName]) = some child
  := Image.find?_concat_eq_some.mpr
    ⟨e, he, hdir, Image.child?_of_mem (h.sound.distinct he hdir) hchild⟩

/-- The working copy of an entry of a directory is found by its name. -/
theorem Coherent.withWorkingCopy_child (h : session.Coherent image)
    (standard : Tree.Standard (session.node? image)) {child : Entry}
    (he : image.find? session.superblock.root names = some e)
    (hdir : e.record.isDirectory = true) (hchild : child ∈ image.listed e.record.first.toNat) :
  session.withWorkingCopy (Path.resolve (Path.render names) child.record.fullName) child
    = session.shown (names ++ [child.record.fullName]) child
  := by
  have hfind := h.find?_of_mem_listed he hdir hchild
  have hname : Path.Normal (names ++ [child.record.fullName]) := by
    have node : session.node? image (names ++ [child.record.fullName])
        = some (session.nodeOf image (names ++ [child.record.fullName]) child) := by
      rw [node?, hfind]
      rfl
    exact standard.normal node
  obtain ⟨normal, plain⟩ := Path.normal_concat.mp hname
  rw [Path.resolve_render normal, Path.resolved_of_plain plain, h.withWorkingCopy_eq hname hfind]

/-- Listing gives the entries that are shown for the target. -/
theorem Coherent.exec_list (h : session.Coherent image)
    (standard : Tree.Standard (session.node? image)) (path : Option String) :
  (list path).exec session image
    = (session.listing image (session.target (path.getD Name.dot)), session, image)
  := by
  obtain ⟨absolute, normal⟩ := h.absolute_eq (path.getD Name.dot)
  have hentry := h.exec_entryAt normal
  rw [list, exec_bind_of_ok exec_get, absolute, listing]
  cases he : image.find? session.superblock.root (session.target (path.getD Name.dot)) with
  | none =>
      rw [he] at hentry
      rw [exec_bind_of_error hentry]
  | some e =>
      rw [he] at hentry
      rw [exec_bind_of_ok hentry]
      dsimp only
      cases hdir : e.record.isDirectory with
      | false =>
          rw [h.withWorkingCopy_eq normal he]
          rfl
      | true =>
          obtain ⟨parent, dots⟩ := h.sound.exists_hasDots he hdir
          have entries := Directory.exec_entries dots.isChain
          obtain ⟨self, up, rest, hslots, hself, hup⟩ := id dots
          have occupied : (image.slots e.record.first.toNat).filter (·.record.occupied)
              = [self, up] ++ image.listed e.record.first.toNat := by
            simp [Image.listed, hslots, hself.1, hup.1]
          rw [occupied] at entries
          rw [if_neg (by simp), exec_bind_of_ok (exec_lift_of_eq entries), exec_pure,
            List.map_append, hslots]
          have children : ∀ child ∈ image.listed e.record.first.toNat,
              (if child.record.isDot then child
                else session.withWorkingCopy (Path.resolve
                  (Path.render (session.target (path.getD Name.dot))) child.record.fullName) child)
              = session.shown
                  (session.target (path.getD Name.dot) ++ [child.record.fullName]) child := by
            intro child hchild
            rw [if_neg (by simp [h.sound.named he hdir child hchild]),
              h.withWorkingCopy_child standard he hdir hchild]
          rw [List.map_congr_left children]
          simp only [List.map_cons, List.map_nil, hself.isDot (.inl rfl), hup.isDot (.inr rfl),
            if_true, List.take_succ_cons, List.take_zero]

/-! ### Quiet changes -/

/-- The content that a file shows has the length that it shows. -/
theorem Coherent.length_contentOf (h : session.Coherent image)
    (he : image.find? session.superblock.root names = some e)
    (isFile : e.record.isDirectory = false) :
  (image.contentOf e.record.first.toNat (session.lengthOf names e)).length
    = session.lengthOf names e
  := by
  cases names using List.reverseRecOn with
  | nil => simp [(h.sound.standsFor_root he).2.1] at isFile
  | append_singleton names name => exact Image.length_contentOf (h.sound.spans he).ge

/-- After a quiet change an entry has the length that it had before. -/
theorem Quiet.lengthOf_eq (quiet : session.Quiet image session' after)
    (h : session.Coherent image) (he : image.find? session.superblock.root names = some e)
    {e' : Entry} (he' : after.find? session'.superblock.root names = some e') :
  session'.lengthOf names e' = session.lengthOf names e
  := by
  have nodes := congrFun quiet.node?_eq names
  rw [node?, node?, he, he', Option.map_some, Option.map_some, Option.some_inj] at nodes
  have kinds := congrArg Node.kind nodes
  rw [kind_nodeOf, kind_nodeOf] at kinds
  have same : e'.record.isDirectory = e.record.isDirectory := by
    rw [Record.isDirectory, kinds, Record.isDirectory]
  cases hdir : e.record.isDirectory with
  | true =>
      rw [hdir] at same
      rw [nodeOf, nodeOf, if_pos same, if_pos hdir, Node.directory.injEq] at nodes
      rw [quiet.coherent.lengthOf_of_isDirectory he' same, h.lengthOf_of_isDirectory he hdir, nodes]
  | false =>
      rw [hdir] at same
      rw [nodeOf, nodeOf, if_neg (by simp [same]), if_neg (by simp [hdir]), Node.file.injEq] at nodes
      rw [← quiet.coherent.length_contentOf he' same, ← h.length_contentOf he hdir, nodes.2]

/-- A quiet change shows every entry as it was. -/
theorem Quiet.shown_eq (quiet : session.Quiet image session' after) (h : session.Coherent image)
    (he : image.find? session.superblock.root names = some e) :
  session'.shown names (after.entryAt e.location) = session.shown names e
  := by
  obtain ⟨length, hlength⟩ := quiet.relengthed.exists_withLength (Image.entryAt_of_find? he)
  have he' : after.find? session'.superblock.root names = some (after.entryAt e.location) := by
    rw [quiet.superblock, quiet.relengthed.find?, he, Option.map_some]
  rw [shown, shown, quiet.lengthOf_eq h he he', hlength]
  rfl

/-- A quiet change does not change any listing. -/
theorem Quiet.listing_eq (quiet : session.Quiet image session' after) (h : session.Coherent image)
    (names : List String) :
  session'.listing after names = session.listing image names
  := by
  rw [listing, listing, quiet.superblock, quiet.relengthed.find?]
  cases he : image.find? session.superblock.root names with
  | none => rfl
  | some e =>
      obtain ⟨length, hlength⟩ := quiet.relengthed.exists_withLength (Image.entryAt_of_find? he)
      have shown := quiet.shown_eq h he
      rw [Option.map_some]
      rw [hlength] at shown ⊢
      dsimp only
      rw [shown, Entry.withLength, Record.isDirectory_withLength, Record.first_withLength]
      split_ifs with hdir
      · rw [quiet.relengthed.take_slots (h.sound.exists_hasDots he hdir).choose_spec,
          quiet.relengthed.listed, List.map_map]
        congr 2
        apply List.map_congr_left
        intro child hchild
        have hfind := h.find?_of_mem_listed he hdir hchild
        obtain ⟨length', hlength'⟩ :=
          quiet.relengthed.exists_withLength (Image.entryAt_of_find? hfind)
        have same := quiet.shown_eq h hfind
        rw [hlength'] at same
        rw [Function.comp_apply, hlength']
        exact same
      · rfl

end Session

end FatVolume
