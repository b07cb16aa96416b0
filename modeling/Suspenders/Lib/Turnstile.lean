import Mathlib.Data.List.Basic
import Mathlib.Logic.Function.Basic
import Mathlib.Logic.Relation

/-!
# Turnstiles

Several parties go through a turnstile.  Most of them share it, and are counted; some want to be alone.  Such a party
reserves the turnstile, so that nobody can come in any more, and goes in when everybody has left.

At most one party has reserved the turnstile, and when it is inside, nobody else is (`Turnstile.Inv`).
-/

namespace Suspenders.Lib

variable {δ : Type*} [DecidableEq δ]

/-- Where a party is. -/
inductive Role
  | outside
  /-- The turnstile is reserved, and the others have not left yet. -/
  | settling
  /-- Inside, alone. -/
  | alone
  /-- Inside, together with others. -/
  | shared
  deriving DecidableEq

/-- The parties, and the variables that they share. -/
structure Turnstile (δ : Type*) where
  role : δ → Role
  active : ℕ
  pending : Bool

namespace Turnstile

/-- A step of one party. -/
inductive Step : Turnstile δ → Turnstile δ → Prop
  | claim {g : Turnstile δ} {d : δ} :
      g.role d = .outside → g.pending = false →
      Step g { g with role := Function.update g.role d .settling, pending := true }
  | letIn {g : Turnstile δ} {d : δ} :
      g.role d = .settling → g.active = 0 →
      Step g { g with role := Function.update g.role d .alone }
  | count {g : Turnstile δ} {d : δ} :
      g.role d = .outside → g.pending = false →
      Step g { g with role := Function.update g.role d .shared, active := g.active + 1 }
  | release {g : Turnstile δ} {d : δ} :
      g.role d = .alone →
      Step g { g with role := Function.update g.role d .outside, pending := false }
  | uncount {g : Turnstile δ} {d : δ} :
      g.role d = .shared →
      Step g { g with role := Function.update g.role d .outside, active := g.active - 1 }

variable (g : Turnstile δ)

/-- Party `d` has reserved the turnstile. -/
def Exclusive (d : δ) : Prop := g.role d = .settling ∨ g.role d = .alone

/-- The invariant of a turnstile. -/
structure Inv : Prop where
  active : ∃ l : List δ, l.Nodup ∧ (∀ d, d ∈ l ↔ g.role d = .shared) ∧ g.active = l.length
  pending : g.pending = true ↔ ∃ d, g.Exclusive d
  unique : ∀ d e, g.Exclusive d → g.Exclusive e → d = e
  alone : ∀ d, g.role d = .alone → g.active = 0

omit [DecidableEq δ] in
lemma inv_init : Inv (⟨fun _ => .outside, 0, false⟩ : Turnstile δ) where
  active := ⟨[], List.nodup_nil, by simp, rfl⟩
  pending := by simp [Exclusive]
  unique := by simp [Exclusive]
  alone := by simp

variable {g} {g' : Turnstile δ}

omit [DecidableEq δ] in
/-- Nobody shares a turnstile that is empty. -/
lemma Inv.not_shared (h : g.Inv) (h0 : g.active = 0) (d : δ) : g.role d ≠ .shared := by
  intro hd
  obtain ⟨l, -, hl, hlen⟩ := h.active
  have hnil : l = [] := List.length_eq_zero_iff.mp (hlen.symm.trans h0)
  simpa [hnil, hd] using hl d

omit [DecidableEq δ] in
/-- Who is alone inside is alone. -/
lemma Inv.alone_unique (h : g.Inv) {d e : δ} (hd : g.role d = .alone) (he : g.role e = .alone ∨ g.role e = .shared) :
    e = d := by
  rcases he with he | he
  · exact h.unique e d (.inr he) (.inr hd)
  · exact absurd he (h.not_shared (h.alone d hd) e)

section Step

variable {d : δ}

lemma exclusive_update {r : Role} {p : Bool} {n : ℕ} {e : δ} (he : e ≠ d) :
    Exclusive ⟨Function.update g.role d r, n, p⟩ e ↔ g.Exclusive e := by
  simp [Exclusive, he]

omit [DecidableEq δ] in
/-- A turnstile that is not reserved. -/
lemma Inv.not_exclusive (h : g.Inv) (hp : g.pending = false) (e : δ) : ¬ g.Exclusive e :=
  fun he => by simpa [hp] using h.pending.mpr ⟨e, he⟩

/-- The list of those who share it does not change. -/
lemma Inv.active_of_ne (h : g.Inv) {r : Role} (hd : g.role d ≠ .shared) (hr : r ≠ .shared) :
    ∃ l : List δ, l.Nodup ∧ (∀ e, e ∈ l ↔ Function.update g.role d r e = .shared) ∧ g.active = l.length := by
  obtain ⟨l, hnd, hl, hlen⟩ := h.active
  refine ⟨l, hnd, fun e => ?_, hlen⟩
  by_cases he : e = d
  · simp [he, hl, hd, hr]
  · simp [he, hl]

lemma Inv.claim (h : g.Inv) (hd : g.role d = .outside) (hp : g.pending = false) :
    Inv { g with role := Function.update g.role d .settling, pending := true } where
  active := h.active_of_ne (by simp [hd]) (by simp)
  pending := by simpa using ⟨d, by simp [Exclusive]⟩
  unique := by
    have hother (e : δ) (he : Exclusive ⟨Function.update g.role d .settling, g.active, true⟩ e) : e = d := by
      by_contra hne
      exact h.not_exclusive hp e ((exclusive_update hne).mp he)
    exact fun e f he hf => (hother e he).trans (hother f hf).symm
  alone := by
    intro e he
    by_cases hed : e = d
    · simp [hed] at he
    · exact absurd (.inr (by simpa [hed] using he)) (h.not_exclusive hp e)

lemma Inv.letIn (h : g.Inv) (hd : g.role d = .settling) (h0 : g.active = 0) :
    Inv { g with role := Function.update g.role d .alone } := by
  have hiff (e : δ) : Exclusive { g with role := Function.update g.role d .alone } e ↔ g.Exclusive e := by
    by_cases he : e = d
    · simp [Exclusive, he, hd]
    · exact exclusive_update he
  refine ⟨h.active_of_ne (by simp [hd]) (by simp), ?_, ?_, fun _ _ => h0⟩
  · simpa only [hiff] using h.pending
  · simpa only [hiff] using h.unique

lemma Inv.count (h : g.Inv) (hd : g.role d = .outside) (hp : g.pending = false) :
    Inv { g with role := Function.update g.role d .shared, active := g.active + 1 } := by
  have hnot (e : δ) :
      ¬ Exclusive { g with role := Function.update g.role d .shared, active := g.active + 1 } e := by
    by_cases he : e = d
    · simp [Exclusive, he]
    · exact fun hexc => h.not_exclusive hp e ((exclusive_update he).mp hexc)
  refine ⟨?_, ?_, fun e _ he => absurd he (hnot e), fun e he => absurd (.inr he) (hnot e)⟩
  · obtain ⟨l, hnd, hl, hlen⟩ := h.active
    refine ⟨d :: l, List.nodup_cons.mpr ⟨by simp [hl, hd], hnd⟩, fun e => ?_, by simp [hlen]⟩
    by_cases he : e = d
    · simp [he]
    · simp [he, hl]
  · exact ⟨fun hp' => by simp [hp] at hp', fun ⟨e, he⟩ => absurd he (hnot e)⟩

lemma Inv.release (h : g.Inv) (hd : g.role d = .alone) :
    Inv { g with role := Function.update g.role d .outside, pending := false } := by
  have hnot (e : δ) : ¬ Exclusive { g with role := Function.update g.role d .outside, pending := false } e := by
    by_cases he : e = d
    · simp [Exclusive, he]
    · exact fun hexc => he (h.unique e d ((exclusive_update he).mp hexc) (.inr hd))
  refine ⟨h.active_of_ne (by simp [hd]) (by simp), ?_, fun e _ he => absurd he (hnot e),
    fun e he => absurd (.inr he) (hnot e)⟩
  simp only [hnot, exists_false, Bool.false_eq_true]

lemma Inv.uncount (h : g.Inv) (hd : g.role d = .shared) :
    Inv { g with role := Function.update g.role d .outside, active := g.active - 1 } := by
  have hiff (e : δ) :
      Exclusive { g with role := Function.update g.role d .outside, active := g.active - 1 } e ↔ g.Exclusive e := by
    by_cases he : e = d
    · simp [Exclusive, he, hd]
    · exact exclusive_update he
  refine ⟨?_, ?_, ?_, fun e he => ?_⟩
  · obtain ⟨l, hnd, hl, hlen⟩ := h.active
    refine ⟨l.erase d, hnd.erase d, fun e => ?_, ?_⟩
    · by_cases he : e = d
      · simp [he, hnd.not_mem_erase]
      · simp [he, hl, List.mem_erase_of_ne he]
    · simp [List.length_erase_of_mem ((hl d).mpr hd), hlen]
  · simpa only [hiff] using h.pending
  · simpa only [hiff] using h.unique
  · have hne : e ≠ d := fun hed => by simp [hed] at he
    have h0 := h.alone e (by simpa [hne] using he)
    exact Nat.sub_eq_zero_of_le (h0 ▸ Nat.zero_le 1)

end Step

/-- Every step keeps the invariant. -/
theorem Inv.step (h : g.Inv) (hstep : Step g g') : g'.Inv := by
  cases hstep with
  | claim hd hp => exact h.claim hd hp
  | letIn hd h0 => exact h.letIn hd h0
  | count hd hp => exact h.count hd hp
  | release hd => exact h.release hd
  | uncount hd => exact h.uncount hd

theorem Inv.stutter (h : g.Inv) (hstep : Relation.ReflGen Step g g') : g'.Inv := by
  cases hstep with
  | refl => exact h
  | single hstep => exact h.step hstep

end Turnstile

end Suspenders.Lib
