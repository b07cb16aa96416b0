import Mathlib.Logic.Basic

/-!
# Programs that may fail

A program over a state returns a value or fails.  What it has done to the state before it fails stays done, as in C
code that returns an error code.

`Spec P x Q E` says what a run from a state with `P` leads to: if it returns a value, to `Q`, and if it fails, to `E`.
`Keeps P x` says that `P` is kept, whether the program fails or not.
-/

namespace Suspenders.Lib

/-- A program over the states `σ` that returns an `α` or fails. -/
def Prog (σ α : Type) : Type := σ → Option α × σ

namespace Prog

variable {σ α β : Type}

instance : Monad (Prog σ) where
  pure a := fun s => (some a, s)
  bind x f := fun s =>
    match x s with
    | (some a, s') => f a s'
    | (none, s') => (none, s')

/-- Fail here. -/
def fail : Prog σ α := fun s => (none, s)

/-- The state. -/
def get : Prog σ σ := fun s => (some s, s)

/-- Change the state. -/
def modify (f : σ → σ) : Prog σ Unit := fun s => (some (), f s)

/-- Fail unless `p`. -/
def require (p : Prop) [Decidable p] : Prog σ Unit := if p then pure () else fail

/-- Fail if there is no value. -/
def ofOption : Option α → Prog σ α
  | some a => pure a
  | none => fail

@[simp] lemma pure_apply (a : α) (s : σ) : (pure a : Prog σ α) s = (some a, s) := rfl

@[simp] lemma get_apply (s : σ) : get s = (some s, s) := rfl

@[simp] lemma modify_apply (f : σ → σ) (s : σ) : modify f s = (some (), f s) := rfl

lemma bind_apply (x : Prog σ α) (f : α → Prog σ β) (s : σ) :
    (x >>= f) s = match x s with
      | (some a, s') => f a s'
      | (none, s') => (none, s') := rfl

/-- A program goes on with the value of its first part. -/
lemma bind_of_eq {x : Prog σ α} {f : α → Prog σ β} {s s' : σ} {a : α} (h : x s = (some a, s')) :
    (x >>= f) s = f a s' := by
  rw [bind_apply, h]

lemma map_of_eq {x : Prog σ α} (f : α → β) {s s' : σ} {a : α} (h : x s = (some a, s')) :
    (f <$> x) s = (some (f a), s') := by
  change (x >>= fun a => pure (f a)) s = _
  rw [bind_of_eq h, pure_apply]

/-- A program fails if its first part does. -/
lemma bind_of_none {x : Prog σ α} {f : α → Prog σ β} {s s' : σ} (h : x s = (none, s')) :
    (x >>= f) s = (none, s') := by
  rw [bind_apply, h]

lemma map_of_none {x : Prog σ α} (f : α → β) {s s' : σ} (h : x s = (none, s')) : (f <$> x) s = (none, s') := by
  change (x >>= fun a => pure (f a)) s = _
  rw [bind_of_none h]

@[simp] lemma get_bind (f : σ → Prog σ β) (s : σ) : (get >>= f) s = f s s := rfl

@[simp] lemma modify_bind (g : σ → σ) (f : Unit → Prog σ β) (s : σ) : (modify g >>= f) s = f () (g s) := rfl

@[simp] lemma pure_bind_apply (a : α) (f : α → Prog σ β) : (pure a >>= f) = f a := rfl

@[simp] lemma fail_bind (f : α → Prog σ β) (s : σ) : ((fail : Prog σ α) >>= f) s = (none, s) := rfl

lemma require_of {p : Prop} [Decidable p] (hp : p) : (require p : Prog σ Unit) = pure () := if_pos hp

lemma require_of_not {p : Prop} [Decidable p] (hp : ¬ p) : (require p : Prog σ Unit) = fail := if_neg hp

lemma require_bind {p : Prop} [Decidable p] (hp : p) (f : Unit → Prog σ β) (s : σ) : (require p >>= f) s = f () s := by
  rw [require_of hp]
  rfl

lemma ofOption_bind {o : Option α} {a : α} (h : o = some a) (f : α → Prog σ β) (s : σ) : (ofOption o >>= f) s = f a s := by
  rw [h]
  rfl

lemma bind_assoc {γ : Type} (x : Prog σ α) (f : α → Prog σ β) (g : β → Prog σ γ) :
    x >>= f >>= g = x >>= fun a => f a >>= g := by
  funext s
  simp only [bind_apply]
  rcases x s with ⟨- | a, s'⟩ <;> rfl

lemma ofOption_bind_option (o : Option α) (f : α → Option β) :
    (ofOption (o.bind f) : Prog σ β) = ofOption o >>= fun a => ofOption (f a) := by
  cases o with
  | none => rfl
  | some a => rfl

/-- A run from `P` that returns a value ends in `Q`, and one that fails ends in `E`. -/
def Spec (P : σ → Prop) (x : Prog σ α) (Q : α → σ → Prop) (E : σ → Prop) : Prop :=
  ∀ s, P s → match x s with
    | (some a, s') => Q a s'
    | (none, s') => E s'

namespace Spec

variable {P E : σ → Prop} {Q : α → σ → Prop}

lemma pure {a : α} (h : ∀ s, P s → Q a s) : Spec P (Pure.pure a) Q E := h

lemma fail (h : ∀ s, P s → E s) : Spec P (Prog.fail : Prog σ α) Q E := h

lemma bind {x : Prog σ α} {f : α → Prog σ β} {R : β → σ → Prop} (hx : Spec P x Q E)
    (hf : ∀ a, Spec (Q a) (f a) R E) : Spec P (x >>= f) R E := by
  intro s hs
  have hs' := hx s hs
  rw [bind_apply]
  cases h : x s with
  | mk o s' =>
    rw [h] at hs'
    cases o with
    | none => exact hs'
    | some a => exact hf a s' hs'

/-- What the state is may be used afterwards. -/
lemma get_bind {f : σ → Prog σ β} {R : β → σ → Prop} (hf : ∀ s, Spec (fun t => t = s ∧ P s) (f s) R E) :
    Spec P (get >>= f) R E :=
  fun s hs => hf s s ⟨rfl, hs⟩

/-- That there was a state with `P` may be used afterwards. -/
lemma get_bind_of {f : σ → Prog σ β} {R : β → σ → Prop} (hf : ∀ s, P s → Spec P (f s) R E) : Spec P (get >>= f) R E :=
  fun s hs => hf s hs s hs

lemma modify_bind {g : σ → σ} {f : Unit → Prog σ β} {R : β → σ → Prop} {T : σ → Prop} (hg : ∀ s, P s → T (g s))
    (hf : Spec T (f ()) R E) : Spec P (Prog.modify g >>= f) R E :=
  fun s hs => hf (g s) (hg s hs)

lemma modify {f : σ → σ} {Q : Unit → σ → Prop} (h : ∀ s, P s → Q () (f s)) : Spec P (Prog.modify f) Q E := h

lemma require {p : Prop} [Decidable p] {Q : Unit → σ → Prop} (h : ∀ s, p → P s → Q () s)
    (hE : ∀ s, ¬ p → P s → E s) : Spec P (Prog.require p) Q E := by
  unfold Prog.require
  split
  next hp => exact pure fun s hs => h s hp hs
  next hp => exact fail fun s hs => hE s hp hs

lemma ofOption {o : Option α} (h : ∀ a s, o = some a → P s → Q a s) (hE : ∀ s, o = none → P s → E s) :
    Spec P (Prog.ofOption o) Q E := by
  cases o with
  | none => exact fail fun s hs => hE s rfl hs
  | some a => exact pure fun s hs => h a s rfl hs

/-- What the value is may be used afterwards. -/
lemma ofOption_bind {o : Option α} {f : α → Prog σ β} {R : β → σ → Prop} (hf : ∀ a, o = some a → Spec P (f a) R E)
    (hE : ∀ s, P s → E s) : Spec P (Prog.ofOption o >>= f) R E := by
  cases o with
  | none => exact hE
  | some a => exact hf a rfl

lemma ite {p : Prop} [Decidable p] {x y : Prog σ α} (hx : p → Spec P x Q E) (hy : ¬ p → Spec P y Q E) :
    Spec P (if p then x else y) Q E := by
  split
  next h => exact hx h
  next h => exact hy h

lemma mono {P' E' : σ → Prop} {Q' : α → σ → Prop} {x : Prog σ α} (h : Spec P x Q E) (hP : ∀ s, P' s → P s)
    (hQ : ∀ a s, Q a s → Q' a s) (hE : ∀ s, E s → E' s) : Spec P' x Q' E' := by
  intro s hs
  have hs' := h s (hP s hs)
  cases hx : x s with
  | mk o s' =>
    rw [hx] at hs'
    cases o with
    | none => exact hE s' hs'
    | some a => exact hQ a s' hs'

/-- A specification that does not look at the value. -/
lemma of_snd {x : Prog σ α} {R : σ → Prop} (h : ∀ s, P s → R (x s).2) : Spec P x (fun _ => R) R := by
  intro s hs
  have hs' := h s hs
  cases hx : x s with
  | mk o s' =>
    rw [hx] at hs'
    cases o with
    | none => exact hs'
    | some a => exact hs'

/-- What does not depend on the state stays true. -/
lemma const (p : Prop) (x : Prog σ α) : Spec (fun _ => p) x (fun _ _ => p) fun _ => True := by
  intro s hp
  cases x s with
  | mk o s' =>
    cases o with
    | none => trivial
    | some a => exact hp

/-- A specification together with what is known of the value in any case. -/
lemma and {x : Prog σ α} {R : α → σ → Prop} (h : Spec P x Q E) (hR : Spec (fun _ => True) x R fun _ => True) :
    Spec P x (fun a s => Q a s ∧ R a s) E := by
  intro s hs
  have hs' := h s hs
  have hR' := hR s trivial
  cases hx : x s with
  | mk o s' =>
    rw [hx] at hs' hR'
    cases o with
    | none => exact hs'
    | some a => exact ⟨hs', hR'⟩

/-- A specification, read at a run that returns a value. -/
lemma of_some {x : Prog σ α} (h : Spec P x Q E) {s s' : σ} {a : α} (hs : P s) (hx : x s = (some a, s')) : Q a s' := by
  have hs' := h s hs
  rw [hx] at hs'
  exact hs'

/-- A specification, read at a run that does not fail. -/
lemma of_isSome {x : Prog σ α} {R : σ → Prop} (h : Spec P x (fun _ => R) E) {s : σ} (hs : P s)
    (hx : (x s).1.isSome = true) : R (x s).2 := by
  have hs' := h s hs
  cases hxs : x s with
  | mk o s' =>
    rw [hxs] at hs' hx
    cases o with
    | none => cases hx
    | some a => exact hs'

/-- What a run ends in, whether it fails or not. -/
lemma apply {x : Prog σ α} {R : σ → Prop} (h : Spec P x (fun _ => R) E) (hR : ∀ s, R s → E s) {s : σ} (hs : P s) :
    E (x s).2 := by
  have hs' := h s hs
  cases hx : x s with
  | mk o s' =>
    rw [hx] at hs'
    cases o with
    | none => exact hs'
    | some a => exact hR s' hs'

end Spec

/-- `P` is kept. -/
def Keeps (P : σ → Prop) (x : Prog σ α) : Prop := Spec P x (fun _ => P) P

namespace Keeps

variable {P : σ → Prop}

lemma apply {x : Prog σ α} (h : Keeps P x) {s : σ} (hs : P s) : P (x s).2 := Spec.apply h (fun _ hs => hs) hs

/-- What is kept, as a specification with another condition on failure. -/
lemma spec {x : Prog σ α} {E : σ → Prop} (h : Keeps P x) (hE : ∀ s, P s → E s) : Spec P x (fun _ => P) E :=
  Spec.mono h (fun _ hs => hs) (fun _ _ hs => hs) hE

lemma pure (a : α) : Keeps P (Pure.pure a : Prog σ α) := fun _ h => h

lemma fail : Keeps P (Prog.fail : Prog σ α) := fun _ h => h

lemma bind {x : Prog σ α} {f : α → Prog σ β} (hx : Keeps P x) (hf : ∀ a, Keeps P (f a)) : Keeps P (x >>= f) :=
  Spec.bind hx hf

lemma get_bind {f : σ → Prog σ β} (hf : ∀ s, P s → Keeps P (f s)) : Keeps P (get >>= f) :=
  fun s hs => hf s hs s hs

lemma modify {f : σ → σ} (hf : ∀ s, P s → P (f s)) : Keeps P (Prog.modify f) := hf

lemma require {p : Prop} [Decidable p] : Keeps P (Prog.require p) :=
  Spec.require (fun _ _ hs => hs) fun _ _ hs => hs

lemma ofOption (o : Option α) : Keeps P (Prog.ofOption o) :=
  Spec.ofOption (fun _ _ _ hs => hs) fun _ _ hs => hs

lemma ite {p : Prop} [Decidable p] {x y : Prog σ α} (hx : p → Keeps P x) (hy : ¬ p → Keeps P y) :
    Keeps P (if p then x else y) :=
  Spec.ite hx hy

end Keeps

end Prog

end Suspenders.Lib
