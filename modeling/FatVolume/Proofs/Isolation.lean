import FatVolume.Proofs.Histories

/-!
# Isolation of contents

No step changes the chain or the content of a file, unless it writes through the handle that is
open on the file, removes the file or reformats.
-/

namespace FatVolume

/-- An operation with the given result writes through a handle that is open on a path, removes the
file at the path, or reformats. -/
def Operation.Touches (operation : Operation) (session : Session)
    (result : Except Error Answer) (names : List String) : Prop :=
  match operation with
  | write handle _ _ =>
      ∃ file, session.openFiles.get? handle = some file ∧ file.path = Path.render names
  | removeFile path => result = .ok .done ∧ session.target path = names
  | reformat _ => True
  | _ => False

/-- What is not touched stays the file that it is. -/
theorem Change.eq_of_not_touches {session : Session} {tree after : Tree} {operation : Operation}
    {result : Except Error Answer} (h : Change session tree operation result after)
    {names : List String} {blocks : List Nat} {content : Bytes}
    (held : tree names = some (.file blocks content))
    (untouched : ¬operation.Touches session result names) :
  after names = some (.file blocks content)
  := by
  cases h with
  | unchanged => exact held
  | @created path kind e normal absent =>
      rw [Function.update_of_ne, held]
      rintro rfl
      simp [held] at absent
  | @removed path kind kept =>
      rw [Function.update_of_ne, held]
      rintro rfl
      rw [held] at kept
      obtain rfl : Kind.file = kind := by simpa [Node.kind] using kept
      exact untouched ⟨rfl, rfl⟩
  | @written handle file content' old bytes mode names' blocks' stored hfile hpath held' =>
      rw [Function.update_of_ne, held]
      rintro rfl
      exact untouched ⟨file, hfile, hpath⟩
  | reformatted => exact (untouched trivial).elim

/-- In every state to which a history leads that began with formatting, each step leaves the chain
and the content of every file as they are that it does not touch. -/
theorem contents_isolated (clock : Timestamp) (image : Image) :
  ∃ start : State, (Session.format clock).exec image = (.ok start.session, start.image)
    ∧ ∀ (history : List Step) (step : Step) (names : List String) (blocks : List Nat)
        (content : Bytes),
      (start.run history).tree names = some (.file blocks content) →
      ¬step.operation.Touches (start.run history).session (step.result (start.run history))
        names →
      (step.next (start.run history)).tree names = some (.file blocks content)
  := by
  obtain ⟨start, hformat, throughout⟩ := exists_formatted clock image
  refine ⟨start, hformat, ?_⟩
  intro history step names blocks content held untouched
  obtain ⟨-, changed⟩ := (throughout history).1.change step
  apply changed.eq_of_not_touches held untouched

end FatVolume
