import FatVolume.Proofs.Surroundings

/-!
# Results of actions

`Program.Results` says that every result a program can have satisfies a predicate, whatever its
surroundings answer.  `DiskM.Returns` says so of the results with which an action of a disk
succeeds.
-/

namespace FatVolume

namespace Program

variable {α β σ : Type}

/-- Every result that the program can have satisfies `P`. -/
def Results (P : α → Prop) : Program α → Prop
  | done a => P a
  | ask _ next => ∀ answer, (next answer).Results P

theorem Results.mono {P Q : α → Prop} {p : Program α} (h : p.Results P) (implies : ∀ a, P a → Q a) :
  p.Results Q
  := by
  induction p with
  | done a => exact implies a h
  | ask r next ih => exact fun answer => ih answer (h answer)

theorem Results.bind {P : β → Prop} {Q : α → Prop} {p : Program α} {f : α → Program β}
    (h : p.Results Q) (h' : ∀ a, Q a → (f a).Results P) :
  (p >>= f).Results P
  := by
  induction p with
  | done a => exact h' a h
  | ask r next ih => exact fun answer => ih answer (h answer)

/-- What holds of all results holds of the one that the program has in given surroundings. -/
theorem Results.run {P : α → Prop} {p : Program α} (h : p.Results P) (serve : Surroundings σ)
    (s : σ) :
  P (p.run serve s).1
  := by
  induction p generalizing s with
  | done a => exact h
  | ask r next ih => exact ih _ (h _) _

/-- Programs that go on in the same way from every result that is possible are the same. -/
theorem Results.bind_congr {P : α → Prop} {p : Program α} {f g : α → Program β} (h : p.Results P)
    (same : ∀ a, P a → f a = g a) :
  p >>= f = p >>= g
  := by
  induction p with
  | done a => exact same a h
  | ask r next ih =>
      rw [bind_eq, bind_eq, bind_ask, bind_ask]
      congr 1
      funext answer
      exact ih answer (h answer)

end Program

namespace DiskM

variable {α β σ : Type} {P Q : α → Prop} {R : β → Prop} {action other : DiskM α}
  {next : α → DiskM β}

/-- Every result with which the action can succeed satisfies `P`. -/
def Returns (action : DiskM α) (P : α → Prop) : Prop :=
  Program.Results (fun result => ∀ a, result = .ok a → P a) action.run

theorem returns_pure {a : α} (h : P a) :
  (pure a : DiskM α).Returns P
  := by
  rintro _ ⟨rfl⟩
  exact h

theorem returns_throw (e : Error) :
  (throw e : DiskM α).Returns P
  := by
  rintro _ ⟨⟩

theorem returns_ofExcept {result : Except Error α} (h : ∀ a, result = .ok a → P a) :
  (ofExcept result).Returns P
  := h

theorem Returns.mono (h : action.Returns P) (implies : ∀ a, P a → Q a) :
  action.Returns Q
  := Program.Results.mono h fun _ holds a ha => implies a (holds a ha)

theorem Returns.bind (h : action.Returns P) (h' : ∀ a, P a → (next a).Returns R) :
  (action >>= next).Returns R
  := by
  apply Program.Results.bind h
  intro result holds
  cases result with
  | ok a => exact h' a (holds a rfl)
  | error e => exact fun _ failed => by cases failed

/-- An action of which nothing is known returns something. -/
theorem returns_true (action : DiskM α) :
  action.Returns fun _ => True
  := by
  have all (p : Program (Except Error α)) : p.Results fun result => ∀ a, result = .ok a → True := by
    induction p with
    | done result => exact fun _ _ => trivial
    | ask r next ih => exact ih
  exact all action.run

/-- What an action returns after another does not depend on the result of that. -/
theorem returns_bind (h : ∀ a, (next a).Returns R) :
  (action >>= next).Returns R
  := (returns_true action).bind fun a _ => h a

theorem returns_ite {p : Prop} [Decidable p] (h : action.Returns P) (h' : other.Returns P) :
  (if p then action else other).Returns P
  := by
  split_ifs
  · exact h
  · exact h'

/-- What goes on only under a condition returns what the rest does under this condition. -/
theorem returns_unless {p : Prop} [Decidable p] {e : Error} {rest : DiskM α}
    (h : ¬p → rest.Returns P) :
  (if p then (throw e : DiskM PUnit) >>= fun _ => rest else rest).Returns P
  := by
  split_ifs with hp
  · exact (returns_throw (P := fun _ => False) e).bind fun _ impossible => impossible.elim
  · exact h hp

theorem Returns.runIn (h : action.Returns P) (serve : Surroundings σ) (s : σ) {a : α} {s' : σ}
    (hrun : action.runIn serve s = (.ok a, s')) :
  P a
  := by
  have holds := Program.Results.run h serve s
  have same : (Program.run serve action.run s).1 = .ok a := congrArg Prod.fst hrun
  exact holds a same

/-- Actions that go on in the same way from every result that is possible are the same. -/
theorem Returns.bind_congr {next' : α → DiskM β} (h : action.Returns P)
    (same : ∀ a, P a → next a = next' a) :
  action >>= next = action >>= next'
  := by
  apply Program.Results.bind_congr h
  intro result holds
  cases result with
  | ok a => exact same a (holds a rfl)
  | error e => rfl

end DiskM

end FatVolume
