import Mathlib.Logic.Relation
import Mathlib.Data.List.Basic

/-!
# Runs of labelled transition systems

A transition system is a relation `R : σ → α → σ → Prop`: from one state, under one label, to
another.  `Run R s as t` says that the labels `as`, executed in order, lead from `s` to `t`.

The module collects the rules the later developments use: an invariant that every step keeps holds
along every run (`Run.invariant`), a run can be cut and extended (`Run.append`, `Run.snoc`), a run
may be restricted to steps that meet a side condition (`Restrict`), a projection that maps steps to
steps or to stuttering maps runs to runs (`Run.simulate`), and a system may be run together with history
variables that record what its steps do (`Recorded`, or `Observed` if they look at the next state too).

`Leads R P s` is about the steps themselves, not about their labels: they cannot but lead to `P`.
-/

namespace Suspenders.Lib

variable {σ τ α β : Type*}

/-- `Run R s as t`: executing the labels `as` one after the other leads from `s` to `t`. -/
inductive Run (R : σ → α → σ → Prop) : σ → List α → σ → Prop
  | nil (s : σ) : Run R s [] s
  | cons {s : σ} {a : α} {t : σ} {as : List α} {u : σ} :
      R s a t → Run R t as u → Run R s (a :: as) u

/-- The states that some run from `s₀` ends in. -/
def Reachable (R : σ → α → σ → Prop) (s₀ s : σ) : Prop := ∃ as, Run R s₀ as s

/-- The steps of `R` that meet the side condition `C`. -/
def Restrict (R : σ → α → σ → Prop) (C : σ → α → σ → Prop) : σ → α → σ → Prop :=
  fun s a t => R s a t ∧ C s a t

/-- The system with history variables: `upd` says what a step records.  The history does not influence
the steps. -/
def Recorded {μ : Type*} (R : σ → α → σ → Prop) (upd : μ → σ → α → μ) :
    σ × μ → α → σ × μ → Prop :=
  fun p a q => R p.1 a q.1 ∧ q.2 = upd p.2 p.1 a

/-- The system with history variables that see the state a step leads to. -/
def Observed {μ : Type*} (R : σ → α → σ → Prop) (upd : μ → σ → α → σ → μ) :
    σ × μ → α → σ × μ → Prop :=
  fun p a q => R p.1 a q.1 ∧ q.2 = upd p.2 p.1 a q.1

/-- The transition relation of an executable step function. -/
def StepOf (f : σ → α → Option σ) : σ → α → σ → Prop := fun s a t => f s a = some t

namespace Run

variable {R : σ → α → σ → Prop} {s t u : σ} {as bs : List α}

/-- Two runs, the second starting where the first ends, are one run. -/
theorem append (h₁ : Run R s as t) (h₂ : Run R t bs u) : Run R s (as ++ bs) u := by
  induction h₁ with
  | nil => exact h₂
  | cons hstep _ ih => exact .cons hstep (ih h₂)

/-- A run extended by one step at its end. -/
theorem snoc {a : α} (h : Run R s as t) (hstep : R t a u) : Run R s (as ++ [a]) u :=
  h.append (.cons hstep (.nil u))

/-- The invariant rule: what every step keeps, every run keeps. -/
theorem invariant {I : σ → Prop} (hI : ∀ s a t, I s → R s a t → I t)
    (h : Run R s as t) : I s → I t := by
  induction h with
  | nil => exact id
  | cons hstep _ ih => exact fun hs => ih (hI _ _ _ hs hstep)

/-- A run of restricted steps is a run. -/
theorem of_restrict {C : σ → α → σ → Prop} (h : Run (Restrict R C) s as t) : Run R s as t := by
  induction h with
  | nil => exact .nil _
  | cons hstep _ ih => exact .cons hstep.1 ih

/-- Simulation rule: if every step is mapped to a step or to no change of the image, then the image
of the end of a run is reachable from the image of its start. -/
theorem simulate {S : τ → β → τ → Prop} {f : σ → τ}
    (hf : ∀ s a t, R s a t → f t = f s ∨ ∃ b, S (f s) b (f t))
    (h : Run R s as t) : Reachable S (f s) (f t) := by
  induction h with
  | nil => exact ⟨[], .nil _⟩
  | cons hstep _ ih =>
    obtain ⟨bs, hbs⟩ := ih
    rcases hf _ _ _ hstep with heq | ⟨b, hb⟩
    · exact ⟨bs, heq ▸ hbs⟩
    · exact ⟨b :: bs, .cons hb hbs⟩

/-- A recorded run extended by a step at its start. -/
theorem record_cons {μ : Type*} {upd : μ → σ → α → μ} {m : μ} {a : α} {q : σ × μ} (h : R s a t)
    (hrun : Run (Recorded R upd) (t, upd m s a) as q) :
    Run (Recorded R upd) (s, m) (a :: as) q :=
  .cons (show Recorded R upd (s, m) a (t, upd m s a) from ⟨h, rfl⟩) hrun

/-- A recorded run is a run. -/
theorem of_recorded {μ : Type*} {upd : μ → σ → α → μ} {p q : σ × μ}
    (h : Run (Recorded R upd) p as q) : Run R p.1 as q.1 := by
  induction h with
  | nil => exact .nil _
  | cons hstep _ ih => exact .cons hstep.1 ih

/-- An observed run extended by a step at its start. -/
theorem observe_cons {μ : Type*} {upd : μ → σ → α → σ → μ} {m : μ} {a : α} {q : σ × μ} (h : R s a t)
    (hrun : Run (Observed R upd) (t, upd m s a t) as q) :
    Run (Observed R upd) (s, m) (a :: as) q :=
  .cons (show Observed R upd (s, m) a (t, upd m s a t) from ⟨h, rfl⟩) hrun

/-- A restricted observed run extended by a step at its start. -/
theorem observe_restrict_cons {μ : Type*} {upd : μ → σ → α → σ → μ} {C : σ × μ → α → σ × μ → Prop}
    {m : μ} {a : α} {q : σ × μ} (h : R s a t) (hC : C (s, m) a (t, upd m s a t))
    (hrun : Run (Restrict (Observed R upd) C) (t, upd m s a t) as q) :
    Run (Restrict (Observed R upd) C) (s, m) (a :: as) q :=
  .cons (show Restrict (Observed R upd) C (s, m) a (t, upd m s a t) from ⟨⟨h, rfl⟩, hC⟩) hrun

/-- An observed run is a run. -/
theorem of_observed {μ : Type*} {upd : μ → σ → α → σ → μ} {p q : σ × μ}
    (h : Run (Observed R upd) p as q) : Run R p.1 as q.1 := by
  induction h with
  | nil => exact .nil _
  | cons hstep _ ih => exact .cons hstep.1 ih

end Run

namespace Reachable

variable {R : σ → α → σ → Prop} {s₀ s t : σ}

/-- The start of a run is reachable. -/
theorem refl (R : σ → α → σ → Prop) (s : σ) : Reachable R s s := ⟨[], .nil s⟩

/-- One more step from a reachable state. -/
theorem step {a : α} (h : Reachable R s₀ s) (hstep : R s a t) : Reachable R s₀ t := by
  obtain ⟨as, has⟩ := h
  exact ⟨as ++ [a], has.snoc hstep⟩

/-- The invariant rule for reachable states. -/
theorem invariant {I : σ → Prop} (h₀ : I s₀) (hI : ∀ s a t, I s → R s a t → I t)
    (h : Reachable R s₀ s) : I s := by
  obtain ⟨as, has⟩ := h
  exact has.invariant hI h₀

/-- The invariant rule with an invariant `J` that is already known. -/
theorem invariant_of {I J : σ → Prop} (hJ : ∀ s, Reachable R s₀ s → J s) (h₀ : I s₀)
    (hI : ∀ s a t, J s → J t → I s → R s a t → I t) (h : Reachable R s₀ s) : I s := by
  have key : Reachable R s₀ s ∧ I s := by
    refine invariant (I := fun s => Reachable R s₀ s ∧ I s) ⟨refl R s₀, h₀⟩ ?_ h
    rintro s a t ⟨hs, hIs⟩ hstep
    exact ⟨hs.step hstep, hI s a t (hJ s hs) (hJ t (hs.step hstep)) hIs hstep⟩
  exact key.2

/-- A state reached by restricted steps is reachable. -/
theorem of_restrict {C : σ → α → σ → Prop} (h : Reachable (Restrict R C) s₀ s) : Reachable R s₀ s := by
  obtain ⟨as, has⟩ := h
  exact ⟨as, has.of_restrict⟩

/-- A state reached with history variables is reachable. -/
theorem of_recorded {μ : Type*} {upd : μ → σ → α → μ} {p q : σ × μ}
    (h : Reachable (Recorded R upd) p q) : Reachable R p.1 q.1 := by
  obtain ⟨as, has⟩ := h
  exact ⟨as, has.of_recorded⟩

/-- A state reached with history variables that see the next state is reachable. -/
theorem of_observed {μ : Type*} {upd : μ → σ → α → σ → μ} {p q : σ × μ}
    (h : Reachable (Observed R upd) p q) : Reachable R p.1 q.1 := by
  obtain ⟨as, has⟩ := h
  exact ⟨as, has.of_observed⟩

end Reachable

/-- Whatever steps of `R` are taken, a state with `P` is reached, and until then there is a step to take. -/
inductive Leads (R : σ → σ → Prop) (P : σ → Prop) : σ → Prop
  | now {s : σ} : P s → Leads R P s
  | next {s t : σ} : R s t → (∀ u, R s u → Leads R P u) → Leads R P s

/-- Steps that decrease a rank lead to `P` if there is one wherever `P` does not hold. -/
theorem Leads.of_rank {R : σ → σ → Prop} {P : σ → Prop} (W : σ → ℕ → Prop)
    (hW : ∀ s t n, W s n → R s t → ∃ k < n, W t k) (hP : ∀ s n, W s n → ¬ P s → ∃ t, R s t) {s : σ} {n : ℕ}
    (hs : W s n) : Leads R P s := by
  induction n using Nat.strongRecOn generalizing s with
  | _ n ih =>
    by_cases h : P s
    · exact .now h
    · obtain ⟨t, ht⟩ := hP s n hs h
      refine .next ht fun u hu => ?_
      obtain ⟨k, hk, hu⟩ := hW s u n hs hu
      exact ih k hk hu

/-- The rank may be a measure on the states that an invariant describes. -/
theorem Leads.of_measure {R : σ → σ → Prop} {P I : σ → Prop} (μ : σ → ℕ)
    (hI : ∀ s t, I s → R s t → I t) (hμ : ∀ s t, I s → R s t → μ t < μ s)
    (hP : ∀ s, I s → ¬ P s → ∃ t, R s t) {s : σ} (hs : I s) : Leads R P s := by
  refine of_rank (fun s n => I s ∧ μ s = n) ?_ (fun s n h => hP s h.1) ⟨hs, rfl⟩
  rintro s t n ⟨hs, rfl⟩ ht
  exact ⟨μ t, hμ s t hs ht, hI s t hs ht, rfl⟩

/-- Steps lead to `Q` if they lead to `P` and from there to `Q`. -/
theorem Leads.trans {R : σ → σ → Prop} {P Q I : σ → Prop} (hI : ∀ s t, I s → R s t → I t)
    (hPQ : ∀ s, I s → P s → Leads R Q s) {s : σ} (h : Leads R P s) (hs : I s) : Leads R Q s := by
  induction h with
  | now hp => exact hPQ _ hs hp
  | next ht _ ih => exact .next ht fun u hu => ih u hu (hI _ _ hs hu)

/-- What is true wherever `P` is, along steps that keep `I`, is led to as well. -/
theorem Leads.imp {R : σ → σ → Prop} {P Q I : σ → Prop} (hI : ∀ s t, I s → R s t → I t)
    (hPQ : ∀ s, I s → P s → Q s) {s : σ} (h : Leads R P s) (hs : I s) : Leads R Q s :=
  h.trans hI (fun s hs hp => .now (hPQ s hs hp)) hs

/-- Steps do not lead to `P` if one can always be taken that avoids it. -/
theorem Leads.not_of {R : σ → σ → Prop} {P I : σ → Prop} (hP : ∀ s, I s → ¬ P s) (hI : ∀ s, I s → ∃ t, R s t ∧ I t)
    {s : σ} (hs : I s) : ¬ Leads R P s := by
  intro h
  induction h with
  | now hp => exact hP _ hs hp
  | next _ _ ih =>
    obtain ⟨t, ht, htI⟩ := hI _ hs
    exact ih t ht htI

end Suspenders.Lib
