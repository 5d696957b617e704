import FatVolume.Proofs.TreeChanges

/-!
# Creating and removing at a path

Whether an entry can be created or removed at a path is decided before anything is changed.
`Session.creating` and `Session.removing` are these decisions.
-/

namespace FatVolume.Session

open SessionM

variable {session : Session} {image : Image} {names : List String} {name : String} {d e : Entry}
  {kind : Kind}

/-! ### Creating -/

/-- The directory and the entry that is created at a path, or the reason why none is. -/
def creating (session : Session) (image : Image) (path : String) (kind : Kind) :
    Except Error (Entry × Entry) :=
  match Path.splitParent (session.absolute path) with
  | .error _ => .error .alreadyExists
  | .ok (parentPath, name) =>
      match image.find? session.superblock.root (Path.segments parentPath) with
      | none => .error .notFound
      | some d =>
          if d.record.isDirectory then
            (Directory.creation image session.clock d.record.first.toNat name kind).map (d, ·)
          else .error .notDirectory

/-- An entry is created exactly when its path has a parent, which is a directory that takes it. -/
theorem creating_eq_ok_iff (h : session.Tracking image) {path : String} :
  session.creating image path kind = .ok (d, e)
    ↔ ∃ names name, session.target path = names ++ [name]
        ∧ image.find? session.superblock.root names = some d ∧ d.record.isDirectory = true
        ∧ Directory.creation image session.clock d.record.first.toNat name kind = .ok e
  := by
  obtain ⟨absolute, normal⟩ := h.absolute_eq path
  unfold creating
  rw [absolute]
  rcases List.eq_nil_or_concat' (session.target path) with root | ⟨names, name, hpath⟩
  · rw [root, Path.splitParent_root]
    simp
  · rw [hpath] at normal
    rw [hpath, Path.splitParent_render normal]
    dsimp only
    rw [(Path.normal_concat.mp normal).1.segments_render]
    constructor
    · intro hcreating
      split at hcreating
      · simp at hcreating
      · next d' hd =>
          split_ifs at hcreating with hdir
          cases hcreation : Directory.creation image session.clock d'.record.first.toNat name kind
            with
          | error error =>
              rw [hcreation] at hcreating
              simp [Except.map] at hcreating
          | ok e' =>
              rw [hcreation] at hcreating
              obtain ⟨rfl, rfl⟩ := Prod.mk.inj (Except.ok.inj hcreating)
              exact ⟨names, name, rfl, hd, hdir, hcreation⟩
    · rintro ⟨names', name', same, hd, hdir, hcreation⟩
      obtain ⟨rfl, rfl⟩ : names = names' ∧ name = name' := by simpa using same
      rw [hd]
      dsimp only
      rw [if_pos hdir, hcreation]
      rfl

/-- Creating an entry at a path does what was decided. -/
theorem Coherent.exec_createAt (h : session.Coherent image) (path : String) (kind : Kind) :
  (createAt path kind).exec session image
    = match session.creating image path kind with
      | .ok (d, e) =>
          (.ok e, session, image.created session.clock d.record e.record e.location)
      | .error error => (.error error, session, image)
  := by
  obtain ⟨absolute, normal⟩ := h.absolute_eq path
  unfold creating
  rw [createAt, exec_bind_of_ok exec_get, absolute]
  rcases List.eq_nil_or_concat' (session.target path) with root | ⟨names, name, hpath⟩
  · rw [root, Path.splitParent_root]
    rfl
  · rw [hpath] at normal
    have hparent := (Path.normal_concat.mp normal).1
    have hentry := h.exec_entryAt hparent
    rw [hpath, Path.splitParent_render normal]
    dsimp only
    rw [hparent.segments_render]
    cases hd : image.find? session.superblock.root names with
    | none =>
        rw [hd] at hentry
        rw [exec_bind_of_error hentry]
    | some d =>
        rw [hd] at hentry
        rw [exec_bind_of_ok hentry]
        dsimp only
        cases hdir : d.record.isDirectory with
        | false =>
            rw [Bool.not_false, if_pos rfl, exec_bind_of_error (exec_throw _)]
            rfl
        | true =>
            obtain ⟨parent, dots⟩ := h.sound.exists_hasDots hd hdir
            have hcreate := Directory.exec_create hdir dots session.clock name kind
            rw [Bool.not_true, if_neg Bool.false_ne_true, if_pos rfl]
            cases hcreation : Directory.creation image session.clock d.record.first.toNat name kind
              with
            | error error =>
                rw [hcreation] at hcreate
                exact exec_lift_of_eq hcreate
            | ok e =>
                rw [hcreation] at hcreate
                exact exec_lift_of_eq hcreate

/-- Creating an entry adds its path to the tree, or it fails and changes nothing. -/
theorem Coherent.createAt_cases (h : session.Coherent image) (path : String) (kind : Kind) :
  (∃ error, session.creating image path kind = .error error
      ∧ (createAt path kind).exec session image = (.error error, session, image))
    ∨ ∃ d e after, session.creating image path kind = .ok (d, e)
        ∧ (createAt path kind).exec session image = (.ok e, session, after)
        ∧ session.Coherent after
        ∧ session.node? image (session.target path) = none
        ∧ session.node? after = Function.update (session.node? image) (session.target path)
            (some (newNode kind e.record.first.toNat))
        ∧ after.find? session.superblock.root (session.target path) = some e
        ∧ e.record.kind = kind ∧ e.record.length = Directory.initialLength kind
  := by
  have hexec := h.exec_createAt path kind
  cases hcreating : session.creating image path kind with
  | error error =>
      rw [hcreating] at hexec
      exact .inl ⟨error, rfl, hexec⟩
  | ok created =>
      obtain ⟨d, e⟩ := created
      rw [hcreating] at hexec
      obtain ⟨names, name, hpath, hd, hdir, hcreation⟩ :=
        (creating_eq_ok_iff h.toTracking).mp hcreating
      have normal := (h.absolute_eq path).2
      rw [hpath] at normal ⊢
      obtain ⟨coherent, nodes⟩ := h.create normal hd hdir hcreation
      refine .inr ⟨d, e, _, rfl, hexec, coherent, ?_, nodes, ?_,
        Directory.record_of_creation hcreation⟩
      · rw [node?_eq_none_iff]
        exact Directory.find?_eq_none_of_creation hd hdir hcreation
      · exact (Directory.replaced_created h.sound hd hdir hcreation).find?_self h.sound

/-! ### Removing -/

/-- Removes a file or a directory. -/
def removeAt (path : String) (kind : Kind) : SessionM Unit :=
  match kind with
  | .directory => removeDirectory path
  | .file => removeFile path

/-- The entry that is removed at a path, or the reason why none is. -/
def removing (session : Session) (image : Image) (path : String) (kind : Kind) :
    Except Error Entry :=
  if kind = .directory ∧ session.target path = [] ∨ Path.endsInDot path then
    .error .notPermitted
  else
    match image.find? session.superblock.root (session.target path) with
    | none => .error .notFound
    | some e =>
        if e.record.kind ≠ kind then
          .error (match kind with | .directory => .notDirectory | .file => .notFile)
        else if session.openFiles.isBusy (session.absolute path) then .error .busy
        else if kind = .directory ∧ image.listed e.record.first.toNat ≠ [] then .error .notEmpty
        else .ok e

/-- An entry is removed exactly when it has a name, is of the given kind, is not busy and, if it is
a directory, lists nothing. -/
theorem removing_eq_ok_iff (h : session.Coherent image) {path : String} :
  session.removing image path kind = .ok e
    ↔ Path.endsInDot path = false
        ∧ session.target path ≠ []
        ∧ image.find? session.superblock.root (session.target path) = some e
        ∧ e.record.kind = kind
        ∧ session.openFiles.isBusy (session.absolute path) = false
        ∧ (kind = .directory → image.listed e.record.first.toNat = [])
  := by
  unfold removing
  constructor
  · intro hremoving
    by_cases refused : kind = .directory ∧ session.target path = [] ∨ Path.endsInDot path = true
    · simp [refused] at hremoving
    rw [if_neg refused] at hremoving
    simp only [not_or, not_and, Bool.not_eq_true] at refused
    cases he : image.find? session.superblock.root (session.target path) with
    | none => simp [he] at hremoving
    | some e' =>
        rw [he] at hremoving
        dsimp only at hremoving
        split_ifs at hremoving with hkind busy full
        obtain rfl := Except.ok.inj hremoving
        simp only [ne_eq, not_not] at hkind
        simp only [not_and, ne_eq, not_not] at full
        refine ⟨refused.2, ?_, rfl, hkind, by simpa using busy, full⟩
        intro root
        rw [root] at he
        have := (h.sound.standsFor_root he).2.1
        rw [Record.isDirectory, hkind, beq_iff_eq] at this
        exact refused.1 this root
  · rintro ⟨named, nonempty, he, hkind, busy, empty⟩
    have allowed : ¬(kind = .directory ∧ session.target path = []
        ∨ Path.endsInDot path = true) := by
      simp [nonempty, named]
    have listed : ¬(kind = .directory ∧ image.listed e.record.first.toNat ≠ []) := by
      rintro ⟨hdir, full⟩
      exact full (empty hdir)
    rw [if_neg allowed, he]
    dsimp only
    rw [if_neg (not_not.mpr hkind), busy, if_neg Bool.false_ne_true, if_neg listed]

section Removing

variable (h : session.Coherent image) (path : String)
include h

theorem Coherent.exec_removeDirectory :
  (removeDirectory path).exec session image
    = match session.removing image path .directory with
      | .ok e => (liftM (Directory.remove e) : SessionM Unit).exec session image
      | .error error => (.error error, session, image)
  := by
  obtain ⟨absolute, normal⟩ := h.absolute_eq path
  have hentry := h.exec_entryAt_absolute path
  have root : (session.absolute path == Path.root || Path.endsInDot path) = true
      ↔ Kind.directory = .directory ∧ session.target path = [] ∨ Path.endsInDot path := by
    rw [Bool.or_eq_true, beq_iff_eq, absolute, Path.render_eq_root_iff normal]
    simp
  unfold removing
  rw [removeDirectory, exec_bind_of_ok exec_get]
  dsimp only
  by_cases refused : Kind.directory = .directory ∧ session.target path = [] ∨ Path.endsInDot path
  · rw [if_pos (root.mpr refused), if_pos refused, exec_bind_of_error (exec_throw _)]
  rw [if_neg (mt root.mp refused), if_neg refused]
  cases he : image.find? session.superblock.root (session.target path) with
  | none =>
      rw [he] at hentry
      rw [exec_bind_of_error hentry]
  | some e =>
      rw [he] at hentry
      rw [exec_bind_of_ok hentry]
      dsimp only
      by_cases hdir : e.record.kind = .directory
      · have directory : e.record.isDirectory = true := by simp [Record.isDirectory, hdir]
        rw [if_neg (not_not.mpr hdir), directory, Bool.not_true, if_neg Bool.false_ne_true]
        by_cases busy : session.openFiles.isBusy (session.absolute path) = true
        · rw [if_pos busy, if_pos busy, exec_bind_of_error (exec_throw _)]
        rw [if_neg busy, if_neg busy, exec_bind_of_ok
          (exec_lift_of_eq (Directory.exec_isEmpty h.sound he directory))]
        cases image.listed e.record.first.toNat with
        | nil => simp
        | cons first rest =>
            simp only [List.isEmpty_cons, Bool.not_false, ↓reduceIte, ne_eq, reduceCtorEq,
              not_false_eq_true, and_self]
            rw [exec_bind_of_error (exec_throw _)]
      · have file : e.record.isDirectory = false := by simp [Record.isDirectory, hdir]
        rw [if_pos hdir, file, Bool.not_false, if_pos rfl, exec_bind_of_error (exec_throw _)]

theorem Coherent.exec_removeFile :
  (removeFile path).exec session image
    = match session.removing image path .file with
      | .ok e => (liftM (Directory.remove e) : SessionM Unit).exec session image
      | .error error => (.error error, session, image)
  := by
  have hentry := h.exec_entryAt_absolute path
  unfold removing
  rw [removeFile, exec_bind_of_ok exec_get]
  dsimp only
  by_cases refused : Path.endsInDot path = true
  · rw [if_pos refused, if_pos (.inr refused), exec_bind_of_error (exec_throw _)]
  have allowed : ¬(Kind.file = .directory ∧ session.target path = []
      ∨ Path.endsInDot path = true) := by
    simp [refused]
  rw [if_neg refused, if_neg allowed]
  cases he : image.find? session.superblock.root (session.target path) with
  | none =>
      rw [he] at hentry
      rw [exec_bind_of_error hentry]
  | some e =>
      rw [he] at hentry
      rw [exec_bind_of_ok hentry]
      dsimp only
      by_cases hfile : e.record.kind = .file
      · have file : e.record.isDirectory = false := by simp [Record.isDirectory, hfile]
        rw [if_neg (not_not.mpr hfile), file, if_neg Bool.false_ne_true]
        by_cases busy : session.openFiles.isBusy (session.absolute path) = true
        · rw [if_pos busy, if_pos busy, exec_bind_of_error (exec_throw _)]
        · rw [if_neg busy, if_neg busy, if_neg (by simp)]
      · have directory : e.record.isDirectory = true := by
          cases hkind : e.record.kind with
          | directory => simp [Record.isDirectory, hkind]
          | file => exact (hfile hkind).elim
        rw [if_pos hfile, directory, if_pos rfl, exec_bind_of_error (exec_throw _)]

/-- Removing the entry at a path does what was decided. -/
theorem Coherent.exec_removeAt (kind : Kind) :
  (removeAt path kind).exec session image
    = match session.removing image path kind with
      | .ok e => (liftM (Directory.remove e) : SessionM Unit).exec session image
      | .error error => (.error error, session, image)
  := by
  cases kind with
  | directory => exact h.exec_removeDirectory path
  | file => exact h.exec_removeFile path

/-- Removing an entry removes its path from the tree, or it fails and changes nothing. -/
theorem Coherent.removeAt_cases (kind : Kind) :
  (∃ error, session.removing image path kind = .error error
      ∧ (removeAt path kind).exec session image = (.error error, session, image))
    ∨ ∃ e after, session.removing image path kind = .ok e
        ∧ (removeAt path kind).exec session image = (.ok (), session, after)
        ∧ session.Coherent after
        ∧ (session.node? image (session.target path)).map Node.kind = some kind
        ∧ session.node? after
          = Function.update (session.node? image) (session.target path) none
  := by
  have hexec := h.exec_removeAt path kind
  cases hremoving : session.removing image path kind with
  | error error =>
      rw [hremoving] at hexec
      exact .inl ⟨error, rfl, hexec⟩
  | ok e =>
      rw [hremoving] at hexec
      obtain ⟨-, nonempty, he, hkind, busy, empty⟩ := (removing_eq_ok_iff h).mp hremoving
      obtain ⟨absolute, normal⟩ := h.absolute_eq path
      obtain ⟨names, name, hpath⟩ := (List.eq_nil_or_concat' _).resolve_left nonempty
      have childless (hdir : e.record.isDirectory = true) :
          image.listed e.record.first.toNat = [] := by
        rw [Record.isDirectory, hkind, beq_iff_eq] at hdir
        exact empty hdir
      have unopened (handle : Handle) (file : OpenFile)
          (hfile : session.openFiles.get? handle = some file) :
          file.path ≠ Path.render (session.target path) := by
        rw [absolute] at busy
        intro same
        apply (OpenTable.isBusy_eq_false_iff normal h.exists_path_of_get?).mp busy handle file hfile
        rw [same, normal.segments_render]
      have held : (session.node? image (session.target path)).map Node.kind = some kind := by
        rw [node?, he, Option.map_some, Option.map_some, kind_nodeOf, hkind]
      rw [hpath] at he unopened held ⊢
      obtain ⟨after, hremove, coherent, nodes⟩ := h.remove he childless unopened
      refine .inr ⟨e, after, rfl, ?_, coherent, held, nodes⟩
      rw [hexec]
      exact exec_lift_of_eq hremove

end Removing

end FatVolume.Session
