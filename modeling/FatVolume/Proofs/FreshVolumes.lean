import FatVolume.Proofs.CheckSteps
import FatVolume.Proofs.TreeRefinement

/-!
# What a fresh volume takes

The root directory of a volume that was just formatted takes one entry after the other, as long as
it has slots and the disk has blocks for them.  What was put into it can be opened and removed.
-/

namespace FatVolume

namespace Table

/-- A block that is taken is not free any more. -/
theorem countFree_set_last {table : Table} {b : Nat} (free : table[b]? = some .free) :
  countFree (table.set b .last) + 1 = table.countFree
  := by
  obtain ⟨inside, hfree⟩ := List.getElem?_eq_some_iff.mp free
  have positive : 0 < table.countFree := List.count_pos_iff.mpr (List.mem_of_getElem? free)
  rw [countFree, List.count_set inside, hfree]
  simp only [beq_self_eq_true, if_true]
  rw [if_neg (by decide), Nat.add_zero]
  exact Nat.sub_add_cancel positive

theorem countFree_fresh :
  fresh.countFree = numBlocks - dataStart
  := by
  have length : fresh.length = numBlocks := by
    rw [fresh, linkRun, List.length_set, length_foldl_set, reserved, length_foldl_set,
      List.length_replicate]
  have total := fresh.countP_add_countFree
  rw [countP_fresh, length] at total
  exact Nat.eq_sub_of_add_eq' total

end Table

/-! ### Trees of one directory -/

namespace KindTree

/-- The tree with the given entries in its root directory and nothing else. -/
def flat (entries : List (String × Kind)) : KindTree
  | [] => some .directory
  | [name] => entries.lookup name
  | _ => none

variable {entries : List (String × Kind)} {name : String} {kind : Kind}

theorem flat_cons :
  flat ((name, kind) :: entries) = Function.update (flat entries) [name] (some kind)
  := by
  funext path
  match path with
  | [] => rw [Function.update_of_ne (by simp), flat, flat]
  | [other] =>
      by_cases same : other = name
      · rw [same, Function.update_self, flat, List.lookup_cons_self]
      · rw [Function.update_of_ne (by simpa using same), flat, flat, List.lookup_cons,
          beq_eq_false_iff_ne.mpr same]
  | _ :: _ :: _ =>
      rw [Function.update_of_ne (by simp)]
      rfl

/-- While slots are left the root directory takes an entry with a name that is not used. -/
theorem admits_flat (few : entries.length < 62) (unused : entries.lookup name = none)
    {parts : List Char × List Char} (hsplit : Name.split name kind = .ok parts) :
  (flat entries).Admits [name] kind
  := by
  refine ⟨[], name, rfl, rfl, ⟨parts, hsplit⟩, unused, ?_⟩
  have used : (flat entries).children [] ⊆ (entries.map Prod.fst).toFinset := by
    intro other leads
    rw [List.coe_toFinset, Set.mem_ofPred_eq]
    by_contra unlisted
    apply leads
    apply List.lookup_eq_none_iff.mpr
    intro entry hentry
    apply bne_iff_ne.mpr
    rintro rfl
    exact unlisted (List.mem_map_of_mem hentry)
  calc ((flat entries).children []).encard
      ≤ ((entries.map Prod.fst).toFinset : Set String).encard := Set.encard_le_encard used
    _ = (entries.map Prod.fst).toFinset.card := Set.encard_coe_eq_coe_finsetCard _
    _ ≤ entries.length := by
        exact_mod_cast (List.toFinset_card_le _).trans_eq (List.length_map _)
    _ < capacity [] := by
        rw [capacity, if_pos rfl]
        exact_mod_cast few

/-- Every entry can be given up. -/
theorem releases_flat (held : entries.lookup name = some kind) :
  (flat entries).Releases [name] kind
  := by
  refine ⟨by simp, held, ?_⟩
  intro _ more nonempty
  obtain ⟨first, rest, rfl⟩ := List.exists_cons_of_ne_nil nonempty
  rfl

end KindTree

/-! ### States -/

namespace State

variable {state : State} {entries : List (String × Kind)} {free : Nat} {name : String} {kind : Kind}

/-- A new entry takes one free block. -/
theorem Coherent.countFree_create (h : state.Coherent) {path : String} {now : Timestamp}
    {answer : Answer} (created : Step.result ⟨.create path kind, now⟩ state = .ok answer) :
  (Step.next ⟨.create path kind, now⟩ state).image.table.countFree + 1
    = state.image.table.countFree
  := by
  obtain ⟨d, e, hcreating, hnext⟩ := h.creating_of_created created
  obtain ⟨names, name, -, hd, -, hcreation⟩ : ∃ names name,
      state.session.target path = names ++ [name]
      ∧ state.image.find? state.session.superblock.root names = some d
      ∧ d.record.isDirectory = true
      ∧ Directory.creation state.image now d.record.first.toNat name kind = .ok e :=
    (Session.creating_eq_ok_iff (h.at_time now).toTracking).mp hcreating
  rw [hnext, Directory.table_created (Session.Coherent.sound h) hd hcreation]
  exact Table.countFree_set_last (Directory.free_of_creation hcreation)

/-- The tree has the given entries in its root directory and nothing else, and so many blocks are
free. -/
structure Flat (state : State) (entries : List (String × Kind)) (free : Nat) : Prop where
  coherent : state.Coherent
  standard : state.tree.Standard
  kinds : state.kinds = KindTree.flat entries
  free : state.image.table.countFree = free

namespace Flat

variable (h : state.Flat entries free) (normal : Path.Normal [name])
include h

theorem refines :
  state.RefinesTree
  := refinesTree_of_standard h.coherent h.standard

include normal

theorem target :
  state.session.target (Path.render [name]) = [name]
  := by
  rw [Session.target, Session.Tracking.absolute_render h.coherent.toTracking normal,
    normal.segments_render]

theorem admits (few : entries.length < 62) (unused : entries.lookup name = none)
    {parts : List Char × List Char} (hsplit : Name.split name kind = .ok parts) :
  state.kinds.Admits (state.session.target (Path.render [name])) kind
  := by
  rw [h.target normal, h.kinds]
  exact KindTree.admits_flat few unused hsplit

/-- The slot and the block of an entry with a name that is not used are found. -/
theorem exists_creation (few : entries.length < 62) (unused : entries.lookup name = none)
    {parts : List Char × List Char} (hsplit : Name.split name kind = .ok parts)
    (available : 0 < free) (now : Timestamp) :
  ∃ d e, state.image.find? state.session.superblock.root [] = some d
    ∧ d.record.isDirectory = true
    ∧ Directory.creation state.image now d.record.first.toNat name kind = .ok e
  := by
  have target : (state.session.atTime now).target (Path.render [name]) = [] ++ [name] :=
    h.target normal
  obtain ⟨d, e, hcreating⟩ :=
    (creating_eq_ok_iff h.coherent h.standard (Path.render [name]) now).mpr
      ⟨h.admits normal few unused hsplit, h.free.symm ▸ available⟩
  obtain ⟨names, other, htarget, hd, hdir, hcreation⟩ :=
    (Session.creating_eq_ok_iff (h.coherent.at_time now).toTracking).mp hcreating
  obtain ⟨rfl, same⟩ := List.append_inj' (target.symm.trans htarget) rfl
  obtain rfl := List.singleton_inj.mp same
  exact ⟨d, e, hd, hdir, hcreation⟩

/-- An entry is created with a name that is not used. -/
theorem create (few : entries.length < 62) (unused : entries.lookup name = none)
    {parts : List Char × List Char} (hsplit : Name.split name kind = .ok parts)
    (available : 0 < free) (now : Timestamp) :
  ∃ e, Step.result ⟨.create (Path.render [name]) kind, now⟩ state = .ok (.entry e)
    ∧ (Step.next ⟨.create (Path.render [name]) kind, now⟩ state).Flat ((name, kind) :: entries)
      (free - 1)
    ∧ (Step.next ⟨.create (Path.render [name]) kind, now⟩ state).session = state.session.atTime now
  := by
  obtain ⟨answer, created⟩ := (h.refines.create (Path.render [name]) kind now).mpr
    ⟨h.admits normal few unused hsplit, h.free.symm ▸ available⟩
  obtain ⟨kinds, e, rfl, -⟩ := h.refines.created _ _ _ _ created
  have taken := h.coherent.countFree_create created
  obtain ⟨coherent, change⟩ := h.coherent.change ⟨.create (Path.render [name]) kind, now⟩
  refine ⟨e, created, ⟨coherent, change.standard h.standard, ?_, ?_⟩, ?_⟩
  · rw [kinds, h.target normal, h.kinds, KindTree.flat_cons]
  · rw [h.free] at taken
    exact Nat.eq_sub_of_add_eq taken
  · obtain ⟨_, _, -, hnext⟩ := h.coherent.creating_of_created created
    rw [hnext]

/-- An entry is opened at the handle of the first free slot. -/
theorem openPath (held : entries.lookup name = some kind)
    (unopened : ∀ handle file, state.session.openFiles.get? handle = some file →
      file.path ≠ Path.render [name])
    {handle : Handle} (hinsert : ∀ file, state.session.openFiles.insert file
      = .ok (handle, state.session.openFiles.set handle (some file))) (now : Timestamp) :
  ∃ e : Entry, Step.result ⟨.openPath (Path.render [name]), now⟩ state = .ok (.handle handle)
    ∧ (Step.next ⟨.openPath (Path.render [name]), now⟩ state).Flat entries free
    ∧ (Step.next ⟨.openPath (Path.render [name]), now⟩ state).session.openFiles
      = state.session.openFiles.set handle (some { record := e.record, path := Path.render [name] })
    ∧ e.record.kind = kind
  := by
  have coherent : (state.session.atTime now).Coherent state.image := h.coherent.at_time now
  have target := h.target normal
  have path : (state.session.atTime now).absolute (Path.render [name]) = Path.render [name] :=
    coherent.absolute_render normal
  have shown : state.kinds [name] = some kind := (congrFun h.kinds [name]).trans held
  obtain ⟨e, he, hkind⟩ := (kinds_eq_some_iff h.coherent h.standard).mp shown
  have closed : (state.session.atTime now).openFiles.find?
      ((state.session.atTime now).absolute (Path.render [name])) = none := by
    rw [OpenTable.find?_eq_none_iff, path]
    exact unopened
  have hopen := coherent.exec_openPath closed (target.symm ▸ he) (hinsert _)
  have hexec : Step.exec ⟨.openPath (Path.render [name]), now⟩ state = _ :=
    SessionM.exec_bind_of_ok hopen
  obtain ⟨coherent', change⟩ := h.coherent.change ⟨.openPath (Path.render [name]), now⟩
  refine ⟨e, Step.result_of_exec hexec, ⟨coherent', change.standard h.standard, ?_, ?_⟩, ?_, hkind⟩
  · have same := h.refines.others ⟨.openPath (Path.render [name]), now⟩
      (by rintro _ (_ | _) <;> simp [Operation.create, Operation.remove]) (by simp)
    rw [same, h.kinds]
  · rw [Step.next_of_exec hexec]
    exact h.free
  · rw [Step.next_of_exec hexec, path]
    rfl

/-- An entry at or below which nothing is open can be removed. -/
theorem remove (held : entries.lookup name = some kind)
    (unopened : ∀ handle file, state.session.openFiles.get? handle = some file →
      ¬[name] <+: Path.segments file.path) (now : Timestamp) :
  ∃ answer, Step.result ⟨.remove (Path.render [name]) kind, now⟩ state = .ok answer
  := by
  have target := h.target normal
  apply (h.refines.remove (Path.render [name]) kind now).mpr
  rw [target, h.kinds, normal.segments_render]
  refine ⟨?_, KindTree.releases_flat held, unopened⟩
  rintro _ ⟨⟩
  obtain ⟨-, -, notDot⟩ := normal name (by simp)
  exact notDot

end Flat

end State

/-! ### Fresh volumes -/

/-- Nothing but the root is open when a session begins. -/
theorem unopened_ofRoot {root : OpenFile} (path : root.path = Path.render []) {name : String}
    (normal : Path.Normal [name]) (handle : Handle) (file : OpenFile)
    (hfile : (OpenTable.ofRoot root).get? handle = some file) :
  file.path ≠ Path.render [name]
  := by
  obtain ⟨-, rfl⟩ := OpenTable.get?_ofRoot_eq_some.mp hfile
  rw [path]
  intro same
  cases Path.Normal.nil.render_inj normal same

section Format

variable {clock : Timestamp} {image : Image} {start : State} {name : String} {kind : Kind}
  {parts : List Char × List Char}
  (hformat : (Session.format clock).exec image = (.ok start.session, start.image))
include hformat

/-- A volume that was just formatted has only its root directory, which alone is open. -/
theorem flat_of_format :
  start.Flat [] (numBlocks - dataStart) ∧ ∃ root, start.session.openFiles = .ofRoot root
    ∧ root.path = Path.render []
  := by
  obtain ⟨prepared, hprepared, hbegun⟩ := Session.exec_format_begun clock image
  have fresh := hprepared.fresh clock
  obtain ⟨sessions, images⟩ := Prod.mk.inj (hformat.symm.trans hbegun)
  obtain ⟨coherent, bare⟩ := Session.coherent_begun fresh clock
  have openFiles : (Session.begun (prepared.withRoot clock) clock).openFiles = .ofRoot _ := rfl
  rw [← Except.ok.inj sessions, ← images] at coherent bare
  rw [← Except.ok.inj sessions] at openFiles
  rw [← images] at fresh
  have standard : start.tree.Standard := bare.standard
  refine ⟨⟨coherent, standard, ?_, ?_⟩, _, openFiles, rfl⟩
  · funext path
    obtain ⟨⟨length, root⟩, nothing⟩ := bare
    have kinds := congrFun (State.kinds_eq coherent standard) path
    match path with
    | [] =>
        rw [kinds, Function.comp_apply, State.tree, root]
        rfl
    | [name] =>
        rw [kinds, Function.comp_apply, State.tree, nothing _ (by simp)]
        rfl
    | _ :: _ :: _ =>
        rw [kinds, Function.comp_apply, State.tree, nothing _ (by simp)]
        rfl
  · rw [fresh.table, Table.countFree_fresh]

variable (normal : Path.Normal [name]) (hsplit : Name.split name kind = .ok parts)
include normal hsplit

/-- A session that begins by formatting can create an entry with a proper name. -/
theorem exists_created (now : Timestamp) :
  ∃ e, Step.result ⟨.create (Path.render [name]) kind, now⟩ start = .ok (.entry e)
  := by
  obtain ⟨flat, -⟩ := flat_of_format hformat
  obtain ⟨e, created, -⟩ := flat.create normal (by decide) rfl hsplit (by decide) now
  exact ⟨e, created⟩

/-- The entry can be removed again. -/
theorem exists_removed (now now' : Timestamp) :
  ∃ answer, Step.result ⟨.remove (Path.render [name]) kind, now'⟩
    (start.run [⟨.create (Path.render [name]) kind, now⟩]) = .ok answer
  := by
  obtain ⟨flat, root, openFiles, path⟩ := flat_of_format hformat
  obtain ⟨-, -, flat, session⟩ := flat.create normal (by decide) rfl hsplit (by decide) now
  apply flat.remove normal List.lookup_cons_self
  intro handle file hfile
  rw [session, Session.openFiles_atTime, openFiles] at hfile
  obtain ⟨-, rfl⟩ := OpenTable.get?_ofRoot_eq_some.mp hfile
  rw [path, Path.Normal.nil.segments_render]
  simp

end Format

section Opened

variable (clock : Timestamp) (image : Image) {name name' : String} {kind kind' : Kind}
  {parts parts' : List Char × List Char} (normal : Path.Normal [name])
  (hsplit : Name.split name kind = .ok parts)
include normal hsplit

/-- A session that begins by formatting can create an entry with a proper name, and then open it
at the first handle after that of the root. -/
theorem exists_opened :
  ∃ (start : State) (e : Entry),
    (Session.format clock).exec image = (.ok start.session, start.image)
      ∧ Step.result ⟨.openPath (Path.render [name]), clock⟩
          (start.run [⟨.create (Path.render [name]) kind, clock⟩]) = .ok (.handle 1)
      ∧ (start.run [⟨.create (Path.render [name]) kind, clock⟩,
          ⟨.openPath (Path.render [name]), clock⟩]).session.openFiles.get? 1
        = some { record := e.record, path := Path.render [name] }
      ∧ e.record.kind = kind
  := by
  obtain ⟨start, hformat, -⟩ := exists_formatted clock image
  obtain ⟨flat, root, openFiles, path⟩ := flat_of_format hformat
  obtain ⟨-, -, flat, session⟩ := flat.create normal (by decide) rfl hsplit (by decide) clock
  rw [← Session.openFiles_atTime start.session clock, ← session] at openFiles
  obtain ⟨e, hopen, -, opened, hkind⟩ := flat.openPath normal List.lookup_cons_self
    (by rw [openFiles]; exact unopened_ofRoot path normal)
    (fun _ => by rw [openFiles, OpenTable.insert_ofRoot]) clock
  refine ⟨start, e, hformat, hopen, ?_, hkind⟩
  exact (congrArg (OpenTable.get? · 1) opened).trans (OpenTable.get?_set_self _ (by decide) _)

/-- It can create two entries with different names, and then open both. -/
theorem exists_opened_two (normal' : Path.Normal [name'])
    (hsplit' : Name.split name' kind' = .ok parts') (apart : name ≠ name') :
  ∃ (start : State) (history : List Step) (e e' : Entry),
    (Session.format clock).exec image = (.ok start.session, start.image)
      ∧ history = [⟨.create (Path.render [name]) kind, clock⟩,
          ⟨.create (Path.render [name']) kind', clock⟩, ⟨.openPath (Path.render [name]), clock⟩,
          ⟨.openPath (Path.render [name']), clock⟩]
      ∧ (start.run history).session.openFiles.get? 1
        = some { record := e.record, path := Path.render [name] }
      ∧ (start.run history).session.openFiles.get? 2
        = some { record := e'.record, path := Path.render [name'] }
      ∧ e.record.kind = kind ∧ e'.record.kind = kind'
  := by
  obtain ⟨start, hformat, -⟩ := exists_formatted clock image
  obtain ⟨flat, root, openFiles, path⟩ := flat_of_format hformat
  have unused : List.lookup name' [(name, kind)] = none := by
    rw [List.lookup_cons, beq_eq_false_iff_ne.mpr apart.symm, List.lookup_nil]
  have held : List.lookup name [(name', kind'), (name, kind)] = some kind := by
    rw [List.lookup_cons, beq_eq_false_iff_ne.mpr apart, List.lookup_cons_self]
  obtain ⟨-, -, flat, session⟩ := flat.create normal (by decide) rfl hsplit (by decide) clock
  obtain ⟨-, -, flat, session'⟩ := flat.create normal' (by simp) unused hsplit' (by decide) clock
  rw [← Session.openFiles_atTime start.session clock, ← session,
    ← Session.openFiles_atTime _ clock, ← session'] at openFiles
  obtain ⟨e, -, flat, opened, hkind⟩ := flat.openPath normal held
    (by rw [openFiles]; exact unopened_ofRoot path normal)
    (fun file => by rw [openFiles, OpenTable.insert_ofRoot]) clock
  rw [openFiles] at opened
  have inserts (file : OpenFile) :=
    OpenTable.insert_set_ofRoot root { record := e.record, path := Path.render [name] } file
  rw [← opened] at inserts
  obtain ⟨e', -, -, opened', hkind'⟩ := flat.openPath normal' List.lookup_cons_self
    (by
      intro handle file hfile same
      rw [opened, OpenTable.get?_set _ (by decide)] at hfile
      split_ifs at hfile with first
      · obtain rfl := Option.some.inj hfile
        exact apart (List.cons.inj (normal.render_inj normal' same)).1
      · exact unopened_ofRoot path normal' handle file hfile same)
    inserts clock
  rw [opened] at opened'
  refine ⟨start, _, e, e', hformat, rfl, ?_, ?_, hkind, hkind'⟩
  · simp only [State.run, List.foldl_cons, List.foldl_nil]
    rw [opened', OpenTable.get?_set_of_ne _ (by decide), OpenTable.get?_set_self _ (by decide)]
  · simp only [State.run, List.foldl_cons, List.foldl_nil]
    rw [opened', OpenTable.get?_set_self _ (by decide)]

end Opened

end FatVolume
