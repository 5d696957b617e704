import Mathlib.Data.Set.Card
import FatVolume.Proofs.Histories

/-!
# The namespace is a tree

What can be looked up by paths in normal form is a tree of files and directories.  On a volume
that was formatted, the operations of a session are those of such a tree: whether an entry can be
created or removed is decided by the tree, by the free blocks and by what is open, and it is
added to the tree or taken from it, and nothing else changes.
-/

namespace FatVolume

/-- Which paths of a tree lead somewhere, and to entries of which kind. -/
abbrev KindTree : Type := List String → Option Kind

namespace KindTree

variable (kinds : KindTree) (path : List String) (kind : Kind)

/-- The names of what is in a directory. -/
def children : Set String :=
  {name | kinds (path ++ [name]) ≠ none}

/-- How many entries a directory holds besides those for itself and its parent. -/
def capacity : ℕ∞ :=
  if path = [] then 62 else 30

/-- The path leads nowhere, but its parent is a directory with room for an entry of the kind and
of its last name. -/
def Admits : Prop :=
  ∃ names name, path = names ++ [name] ∧ kinds names = some .directory
    ∧ (∃ parts, Name.split name kind = .ok parts)
    ∧ kinds path = none
    ∧ (kinds.children names).encard < capacity names

/-- The path leads to an entry of the kind other than the root, with nothing below. -/
def Releases : Prop :=
  path ≠ [] ∧ kinds path = some kind
    ∧ (kind = .directory → ∀ more, more ≠ [] → kinds (path ++ more) = none)

end KindTree

namespace Change

variable {session : Session} {tree after : Tree} {operation : Operation}
  {result : Except Error Answer} (h : Change session tree operation result after)
include h

/-- What fails changes nothing. -/
theorem eq_of_error {error : Error} (failed : result = .error error) :
  after = tree
  := by
  cases h with
  | unchanged => rfl
  | created | removed | written | reformatted => simp at failed

/-- What neither creates nor removes nor reformats changes the kind of nothing. -/
theorem kind_eq
    (keeps : ∀ path kind, operation ≠ .create path kind ∧ operation ≠ .remove path kind)
    (formatted : ∀ full, operation ≠ .reformat full) :
  Option.map Node.kind ∘ after = Option.map Node.kind ∘ tree
  := by
  cases h with
  | unchanged => rfl
  | created => exact ((keeps _ _).1 rfl).elim
  | removed => exact ((keeps _ _).2 rfl).elim
  | written hfile hpath held =>
      rw [Function.comp_update, Function.update_eq_self_iff, Function.comp_apply, held]
      rfl
  | reformatted => exact (formatted _ rfl).elim

end Change

/-! ### The tree of a session -/

namespace State

/-- The entry that is looked up by the path of the given names. -/
def entry (state : State) (names : List String) : Except Error Entry :=
  ((Session.entryAt (Path.render names)).exec state.session state.image).1

/-- The kinds of what can be looked up by paths in normal form. -/
def kinds (state : State) : KindTree := fun names =>
  if Path.Normal names then
    match state.entry names with
    | .ok e => some e.record.kind
    | .error _ => none
  else none

variable {state : State} {names : List String} {d : Entry} {kind : Kind}

theorem kinds_eq (h : state.Coherent) (standard : state.tree.Standard) :
  state.kinds = Option.map Node.kind ∘ state.tree
  := by
  funext names
  rw [kinds, Function.comp_apply]
  split_ifs with hnames
  · rw [entry, Session.Coherent.exec_entryAt h hnames, tree, Session.node?]
    cases state.image.find? state.session.superblock.root names with
    | none => rfl
    | some e =>
        rw [Option.map_some, Option.map_some, Session.kind_nodeOf]
        rfl
  · cases hnode : state.tree names with
    | none => rfl
    | some node => exact (hnames (standard.normal hnode)).elim

section

variable (h : state.Coherent) (standard : state.tree.Standard)
include h standard

theorem kinds_eq_none_iff :
  state.kinds names = none ↔ state.image.find? state.session.superblock.root names = none
  := by
  rw [kinds_eq h standard, Function.comp_apply, Option.map_eq_none_iff]
  exact Session.node?_eq_none_iff

theorem kinds_eq_some_iff :
  state.kinds names = some kind
    ↔ ∃ e, state.image.find? state.session.superblock.root names = some e
        ∧ e.record.kind = kind
  := by
  rw [kinds_eq h standard, Function.comp_apply, tree, Session.node?, Option.map_map,
    Option.map_eq_some_iff]
  simp only [Function.comp_apply, Session.kind_nodeOf]

/-! ### Creating -/

section Directory

variable (hd : state.image.find? state.session.superblock.root names = some d)
  (hdir : d.record.isDirectory = true)
include hd hdir

/-- The names in a directory of the tree are those of the entries that are listed. -/
theorem encard_children :
  (state.kinds.children names).encard = (state.image.listed d.record.first.toNat).length
  := by
  have sound := Session.Coherent.sound h
  have distinct := sound.distinct hd hdir
  have same : state.kinds.children names
      = ((state.image.listed d.record.first.toNat).map (·.record.fullName)).toFinset := by
    ext name
    rw [KindTree.children, Set.mem_ofPred_eq, Ne, kinds_eq_none_iff h standard, List.coe_toFinset,
      Set.mem_ofPred_eq, List.mem_map]
    constructor
    · intro leads
      obtain ⟨e, he⟩ := Option.ne_none_iff_exists'.mp leads
      obtain ⟨d', hd', -, hchild⟩ := Image.find?_concat_eq_some.mp he
      obtain rfl := Option.some.inj (hd.symm.trans hd')
      exact ⟨e, Image.mem_listed_of_child? hchild, Image.fullName_of_child? hchild⟩
    · rintro ⟨e, he, rfl⟩
      simp [sound.find?_of_mem hd hdir he]
  rw [same, Set.encard_coe_eq_coe_finsetCard, List.toFinset_card_of_nodup distinct, List.length_map]

/-- The root directory fills two blocks and every other directory fills one. -/
theorem length_blocksOf :
  (state.image.blocksOf d.record.first.toNat).length = if names = [] then 2 else 1
  := by
  have sound := Session.Coherent.sound h
  rcases List.eq_nil_or_concat' names with rfl | ⟨names, name, rfl⟩
  · rw [if_pos rfl, (sound.standsFor_root hd).2.2.2, sound.root_span]
  · rw [if_neg (by simp), sound.spans hd]
    have node : state.tree (names ++ [name]) = some (.directory d.record.length.toNat) := by
      rw [tree, Session.node?, hd, Option.map_some, Session.nodeOf, if_pos hdir]
    have fills := standard.fills node (by simp)
    have length := h.toTracking.lengthOf_of_isDirectory hd hdir
    rw [Session.lengthOf] at length
    rw [length, fills]
    decide

/-- A directory has a free slot exactly when the tree has room in it. -/
theorem freeSlot_ne_none_iff :
  state.image.freeSlot d.record.first.toNat ≠ none
    ↔ (state.kinds.children names).encard < KindTree.capacity names
  := by
  obtain ⟨parent, dots⟩ := (Session.Coherent.sound h).exists_hasDots hd hdir
  rw [Ne, Image.freeSlot_eq_none_iff dots, encard_children h standard hd hdir,
    length_blocksOf h standard hd hdir, KindTree.capacity, not_le]
  have slots : slotsPerBlock = 32 := rfl
  split_ifs with top
  · have : ((62 : ℕ) : ℕ∞) = 62 := rfl
    rw [← this, Nat.cast_lt]
    omega
  · have : ((30 : ℕ) : ℕ∞) = 30 := rfl
    rw [← this, Nat.cast_lt]
    omega

end Directory

/-- Whether an entry is created is decided by the tree and by the free blocks. -/
theorem creating_eq_ok_iff (path : String) (now : Timestamp) :
  (∃ d e, (state.session.atTime now).creating state.image path kind = .ok (d, e))
    ↔ state.kinds.Admits (state.session.target path) kind ∧ 0 < state.image.table.countFree
  := by
  have free : 0 < state.image.table.countFree
      ↔ ∃ fresh, state.image.table.firstFit 1 = some fresh := by
    rw [Nat.pos_iff_ne_zero, Ne, ← Table.firstFit_one_eq_none_iff, ← Ne,
      Option.ne_none_iff_exists']
  constructor
  · rintro ⟨d, e, hcreating⟩
    obtain ⟨names, name, hpath, hd, hdir, hcreation⟩ :=
      (Session.creating_eq_ok_iff (h.at_time now).toTracking).mp hcreating
    have absent := Directory.find?_eq_none_of_creation hd hdir hcreation
    obtain ⟨base, extension, place, fresh, hsplit, -, hplace, hfresh, -⟩ :=
      Directory.creation_eq_ok_iff.mp hcreation
    rw [Session.target_atTime] at hpath
    refine ⟨⟨names, name, hpath, ?_, ⟨_, hsplit⟩, ?_, ?_⟩, free.mpr ⟨fresh, hfresh⟩⟩
    · exact (kinds_eq_some_iff h standard).mpr ⟨d, hd, by simpa [Record.isDirectory] using hdir⟩
    · rw [hpath]
      exact (kinds_eq_none_iff h standard).mpr absent
    · apply (freeSlot_ne_none_iff h standard hd hdir).mp
      simp [hplace]
  · rintro ⟨⟨names, name, hpath, hparent, ⟨⟨base, extension⟩, hsplit⟩, absent, room⟩, available⟩
    obtain ⟨d, hd, hkind⟩ := (kinds_eq_some_iff h standard).mp hparent
    have hdir : d.record.isDirectory = true := by simp [Record.isDirectory, hkind]
    obtain ⟨place, hplace⟩ := Option.ne_none_iff_exists'.mp
      ((freeSlot_ne_none_iff h standard hd hdir).mpr room)
    obtain ⟨fresh, hfresh⟩ := free.mp available
    have unused : state.image.child? d.record.first.toNat name = none := by
      rw [hpath, kinds_eq_none_iff h standard, Image.find?_concat, hd] at absent
      simpa [Image.descend?, hdir] using absent
    have hcreation : Directory.creation state.image now d.record.first.toNat name kind = .ok _ :=
      Directory.creation_eq_ok_iff.mpr
        ⟨base, extension, place, fresh, hsplit, unused, hplace, hfresh, rfl⟩
    exact ⟨d, _, (Session.creating_eq_ok_iff (h.at_time now).toTracking).mpr
      ⟨names, name, hpath, hd, hdir, hcreation⟩⟩

/-! ### Removing -/

/-- A directory lists nothing exactly when no path of the tree lies below it. -/
theorem listed_eq_nil_iff
    (hd : state.image.find? state.session.superblock.root names = some d)
    (hdir : d.record.isDirectory = true) :
  state.image.listed d.record.first.toNat = []
    ↔ ∀ more, more ≠ [] → state.kinds (names ++ more) = none
  := by
  constructor
  · intro empty more nonempty
    obtain ⟨name, more, rfl⟩ := List.exists_cons_of_ne_nil nonempty
    have unused : state.image.child? d.record.first.toNat name = none := by
      rw [Image.child?, empty, List.find?_nil]
    have absent : state.image.find? state.session.superblock.root (names ++ [name]) = none := by
      rw [Image.find?_concat, hd, Option.bind_some, Image.descend?, if_pos hdir, unused]
    rw [kinds_eq_none_iff h standard, List.append_cons]
    exact Image.find?_append_of_eq_none absent more
  · intro below
    apply List.eq_nil_iff_forall_not_mem.mpr
    intro e he
    have absent := below [e.record.fullName] (by simp)
    rw [kinds_eq_none_iff h standard,
      (Session.Coherent.sound h).find?_of_mem hd hdir he] at absent
    simp at absent

/-- Whether an entry is removed is decided by the last segment of the path that is given, by the
tree and by what is open. -/
theorem removing_eq_ok_iff (path : String) :
  (∃ e, state.session.removing state.image path kind = .ok e)
    ↔ (∀ name, (Path.segments path).getLast? = some name → name ≠ "." ∧ name ≠ "..")
      ∧ state.kinds.Releases (state.session.target path) kind
      ∧ ∀ handle file, state.session.openFiles.get? handle = some file →
          ¬state.session.target path <+: Path.segments file.path
  := by
  obtain ⟨absolute, normal⟩ := h.toTracking.absolute_eq path
  have unopened := OpenTable.isBusy_eq_false_iff normal h.toTracking.exists_path_of_get?
  rw [← absolute] at unopened
  have named : Path.endsInDot path = false
      ↔ ∀ name, (Path.segments path).getLast? = some name → name ≠ "." ∧ name ≠ ".." := by
    rw [Path.endsInDot]
    cases (Path.segments path).getLast? <;> simp
  rw [← named, ← unopened]
  constructor
  · rintro ⟨e, hremoving⟩
    obtain ⟨dots, nonempty, he, hkind, idle, empty⟩ := (Session.removing_eq_ok_iff h).mp hremoving
    refine ⟨dots, ⟨nonempty, (kinds_eq_some_iff h standard).mpr ⟨e, he, hkind⟩, ?_⟩, idle⟩
    intro directory
    apply (listed_eq_nil_iff h standard he _).mp (empty directory)
    simp [Record.isDirectory, hkind, directory]
  · rintro ⟨dots, ⟨nonempty, held, below⟩, idle⟩
    obtain ⟨e, he, hkind⟩ := (kinds_eq_some_iff h standard).mp held
    refine ⟨e, (Session.removing_eq_ok_iff h).mpr ⟨dots, nonempty, he, hkind, idle, ?_⟩⟩
    intro directory
    apply (listed_eq_nil_iff h standard he _).mpr (below directory)
    simp [Record.isDirectory, hkind, directory]

end

/-! ### Steps -/

/-- The operations of a session in a state are those of its tree. -/
structure RefinesTree (state : State) : Prop where
  /-- A path means the path in normal form of its target. -/
  absolute : ∀ path, Path.Normal (state.session.target path)
    ∧ state.session.absolute path = Path.render (state.session.target path)
  lookup : ∀ path now,
    (∃ answer, Step.result ⟨.lookup path, now⟩ state = .ok answer)
      ↔ state.kinds (state.session.target path) ≠ none
  create : ∀ path kind now,
    (∃ answer, Step.result ⟨.create path kind, now⟩ state = .ok answer)
      ↔ state.kinds.Admits (state.session.target path) kind ∧ 0 < state.image.table.countFree
  created : ∀ path kind now answer,
    Step.result ⟨.create path kind, now⟩ state = .ok answer →
      (Step.next ⟨.create path kind, now⟩ state).kinds
          = Function.update state.kinds (state.session.target path) (some kind)
        ∧ ∃ e, answer = .entry e
          ∧ (Step.next ⟨.create path kind, now⟩ state).entry (state.session.target path) = .ok e
          ∧ e.record.length.toNat = match kind with | .file => 0 | .directory => 1024
  remove : ∀ path kind now,
    (∃ answer, Step.result ⟨.remove path kind, now⟩ state = .ok answer)
      ↔ (∀ name, (Path.segments path).getLast? = some name → name ≠ "." ∧ name ≠ "..")
        ∧ state.kinds.Releases (state.session.target path) kind
        ∧ ∀ handle file, state.session.openFiles.get? handle = some file →
            ¬state.session.target path <+: Path.segments file.path
  removed : ∀ path kind now answer,
    Step.result ⟨.remove path kind, now⟩ state = .ok answer →
      (Step.next ⟨.remove path kind, now⟩ state).kinds
        = Function.update state.kinds (state.session.target path) none
  /-- What fails changes nothing. -/
  failed : ∀ (step : Step) error, step.result state = .error error →
    (step.next state).kinds = state.kinds
  /-- What neither creates nor removes nor reformats changes nothing. -/
  others : ∀ step : Step,
    (∀ path kind, step.operation ≠ .create path kind ∧ step.operation ≠ .remove path kind) →
    (∀ full, step.operation ≠ .reformat full) →
    (step.next state).kinds = state.kinds

variable (h : state.Coherent) (standard : state.tree.Standard) (path : String) (now : Timestamp)
include h

theorem result_lookup_eq_ok_iff :
  (∃ answer, Step.result ⟨.lookup path, now⟩ state = .ok answer)
    ↔ state.image.find? state.session.superblock.root (state.session.target path) ≠ none
  := by
  rw [Step.result_of_exec (h.exec_lookup path now)]
  cases state.image.find? state.session.superblock.root (state.session.target path) with
  | none => simp [found, Except.map]
  | some e => simp [found, Except.map]

include standard

/-- What is at one path of the tree changes as the node there does. -/
theorem kinds_next {step : Step} {names : List String} {new : Option Node}
    (changed : (step.next state).tree = Function.update state.tree names new) :
  (step.next state).kinds = Function.update state.kinds names (new.map Node.kind)
  := by
  obtain ⟨coherent', change⟩ := h.change step
  rw [kinds_eq coherent' (change.standard standard), changed, Function.comp_update,
    kinds_eq h standard]

/-- A step that changes the kind of nothing leaves the tree as it is. -/
theorem kinds_next_of_kind_eq {step : Step}
    (same : Option.map Node.kind ∘ (step.next state).tree = Option.map Node.kind ∘ state.tree) :
  (step.next state).kinds = state.kinds
  := by
  obtain ⟨coherent', change⟩ := h.change step
  rw [kinds_eq coherent' (change.standard standard), same, kinds_eq h standard]

theorem refinesTree_of_standard :
  state.RefinesTree
  := by
  constructor
  case absolute =>
    intro path
    exact (h.toTracking.absolute_eq path).symm
  case lookup =>
    intro path now
    rw [result_lookup_eq_ok_iff h, Ne, Ne, kinds_eq_none_iff h standard]
  case create =>
    intro path kind now
    rw [← creating_eq_ok_iff h standard path now]
    rcases h.exec_create path kind now with ⟨error, hcreating, hexec⟩ |
      ⟨d, e, after, hcreating, hexec, -⟩
    · rw [Step.result_of_exec hexec, hcreating]
      simp
    · rw [Step.result_of_exec hexec, hcreating]
      simp
  case created =>
    intro path kind now answer ok
    rcases h.exec_create path kind now with ⟨error, -, hexec⟩ |
      ⟨d, e, after, -, hexec, coherent, -, nodes, he, hkind, hlength⟩
    · rw [Step.result_of_exec hexec] at ok
      simp at ok
    · rw [Step.result_of_exec hexec] at ok
      have changed : (Step.next ⟨.create path kind, now⟩ state).tree = _ :=
        (congrArg State.tree (Step.next_of_exec hexec)).trans nodes
      refine ⟨?_, e, (Except.ok.inj ok).symm, ?_, ?_⟩
      · rw [kinds_next h standard changed, Option.map_some, Session.kind_newNode]
      · have found := coherent.exec_entryAt (h.toTracking.absolute_eq path).2
        rw [Session.superblock_atTime, he] at found
        rw [Step.next_of_exec hexec, entry, found]
        rfl
      · rw [hlength]
        cases kind <;> rfl
  case remove =>
    intro path kind now
    rw [← removing_eq_ok_iff h standard path]
    rcases h.exec_remove path kind now with ⟨error, hremoving, hexec⟩ |
      ⟨e, after, hremoving, hexec, -⟩
    · rw [Step.result_of_exec hexec, hremoving]
      simp
    · rw [Step.result_of_exec hexec, hremoving]
      simp
  case removed =>
    intro path kind now answer ok
    rcases h.exec_remove path kind now with ⟨error, -, hexec⟩ |
      ⟨e, after, -, hexec, -, -, nodes⟩
    · rw [Step.result_of_exec hexec] at ok
      simp at ok
    · have changed : (Step.next ⟨.remove path kind, now⟩ state).tree = _ :=
        (congrArg State.tree (Step.next_of_exec hexec)).trans nodes
      rw [kinds_next h standard changed, Option.map_none]
  case failed =>
    intro step error failed
    apply kinds_next_of_kind_eq h standard
    rw [(h.change step).2.eq_of_error failed]
  case others =>
    intro step keeps formatted
    apply kinds_next_of_kind_eq h standard
    exact (h.change step).2.kind_eq keeps formatted

end State

/-- In every state to which a history leads that began with formatting, the operations of the
session are those of its tree. -/
theorem refines_tree (clock : Timestamp) (image : Image) :
  ∃ start : State, (Session.format clock).exec image = (.ok start.session, start.image)
    ∧ ∀ history, (start.run history).RefinesTree
  := by
  obtain ⟨start, hformat, throughout⟩ := exists_formatted clock image
  refine ⟨start, hformat, ?_⟩
  intro history
  obtain ⟨coherent, standard⟩ := throughout history
  exact State.refinesTree_of_standard coherent standard

end FatVolume
