import Mathlib
import FatVolume.Program.Files

/-!
# Files that are written and read back

A file that can be written to at a path is found at this path afterwards, with what was written to
it, and it can be written to again.
-/

namespace FatVolume.Files

variable {files : Files} {place other : List String} {path : String} {bytes : Array UInt8}

/-- A file can be written at the path: it names a place that is not a directory. -/
def Writable (files : Files) (path : String) : Prop :=
  ∃ place, files.locate path = .ok place ∧ files.node? place ≠ some .directory
    ∧ namesDirectory path = false

theorem node?_insert_of_ne (files : Files) (node : HostNode) (h : other ≠ place) :
  (files.insert place node).node? other = files.node? other
  := by
  have apart : (other == place) = false := beq_false_of_ne h
  have kept : (files.nodes.filter (·.1 != place)).lookup other = files.nodes.lookup other := by
    induction files.nodes with
    | nil => rfl
    | cons entry rest ih =>
        obtain ⟨at_place, held⟩ := entry
        by_cases same : at_place = place
        · subst same
          rw [List.filter_cons_of_neg (by simp), ih, List.lookup_cons, apart]
        · rw [List.filter_cons_of_pos (by simpa using same), List.lookup_cons, List.lookup_cons, ih]
  rw [node?, node?, insert, List.lookup_cons, apart]
  dsimp only
  rw [kept]

/-- A file does not stand in the way of a walk, which passes directories only. -/
theorem walk_insert {start target : List String} {segments : List String}
    (hplace : files.node? place ≠ some .directory) (h : files.walk start segments = .ok target)
    (node : HostNode) :
  (files.insert place node).walk start segments = .ok target
  := by
  induction segments generalizing start with
  | nil => exact h
  | cons segment rest ih =>
      unfold walk at h ⊢
      cases hstart : files.node? start with
      | none =>
          rw [hstart] at h
          simp at h
      | some held =>
          rw [hstart] at h
          cases held with
          | file bytes => simp at h
          | directory =>
              have apart : start ≠ place := by
                rintro rfl
                exact hplace hstart
              rw [node?_insert_of_ne files node apart, hstart]
              dsimp only at h ⊢
              split_ifs at h ⊢ with long
              exact ih h

/-- A file at a path does not change what the path names. -/
theorem locate_insert (hplace : files.node? place ≠ some .directory)
    (h : files.locate path = .ok other) (node : HostNode) :
  (files.insert place node).locate path = .ok other
  := by
  unfold locate at h ⊢
  split_ifs at h ⊢
  exact walk_insert hplace h node

/-- Writing succeeds where a file can be written.  Afterwards the file is read back, and it can be
written again. -/
theorem write_of_writable (h : files.Writable path) (bytes : Array UInt8) :
  ∃ after, files.write path bytes = .ok after ∧ after.read path = .ok bytes
    ∧ after.Writable path
  := by
  obtain ⟨place, hplace, notDirectory, name⟩ := h
  have nonempty : place ≠ [] := by
    rintro rfl
    exact notDirectory rfl
  have again := locate_insert notDirectory hplace (.file bytes)
  have held := node?_insert_self files (.file bytes) nonempty
  refine ⟨files.insert place (.file bytes), ?_, ?_, place, again, ?_, name⟩
  · rw [write, hplace]
    cases hnode : files.node? place with
    | none => simp [bind, Except.bind, hnode, name]
    | some node =>
        cases node with
        | directory => exact (notDirectory hnode).elim
        | file old => simp [bind, Except.bind, hnode, name]
  · rw [read, again]
    simp [bind, Except.bind, held, name]
  · simp [held]

end FatVolume.Files
