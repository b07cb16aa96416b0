import Mathlib.Data.Option.Basic
import Mathlib.Logic.Function.Basic

/-!
# Accounts of resources

Resources of a type `ρ` are in use or not, and owners of a type `ω` own at most one of them each.  `Accounted` says
that the resources in use are those that were in use from the beginning and those that are owned, and that no
resource has two owners.

A resource is acquired (`Accounted.acquire`), released (`Accounted.release`) and passed on (`Accounted.pass`).  One
whose owner forgets it is as if it had been in use from the beginning (`Accounted.forget`): nobody will release it.
-/

namespace Suspenders.Lib

variable {ω ρ : Type*}

/-- What is in use was in use from the beginning, or somebody owns it, and nobody else does. -/
structure Accounted (base used : ρ → Prop) (owns : ω → Option ρ) : Prop where
  used_iff : ∀ r, used r ↔ base r ∨ ∃ o, owns o = some r
  not_base : ∀ {o r}, owns o = some r → ¬ base r
  unique : ∀ {o p r}, owns o = some r → owns p = some r → o = p

namespace Accounted

variable {base used used' : ρ → Prop} {owns owns' : ω → Option ρ} {o p : ω} {r : ρ}

/-- At the beginning nobody owns a resource. -/
lemma start (hnone : ∀ o, owns o = none) : Accounted base base owns := by
  refine ⟨fun r => by simp [hnone], ?_, ?_⟩
  · intro o r ho
    rw [hnone o] at ho
    cases ho
  · intro o p r ho
    rw [hnone o] at ho
    cases ho

lemma used_of (h : Accounted base used owns) (ho : owns o = some r) : used r := (h.used_iff r).mpr (.inr ⟨o, ho⟩)

lemma base_used (h : Accounted base used owns) (hr : base r) : used r := (h.used_iff r).mpr (.inl hr)

/-- What is not in use is not owned. -/
lemma ne_of_not_used (h : Accounted base used owns) (hr : ¬ used r) (o : ω) : owns o ≠ some r :=
  fun ho => hr (h.used_of ho)

/-- A resource in use that was not in use from the beginning has one owner. -/
lemma owner (h : Accounted base used owns) (hr : used r) (hb : ¬ base r) : ∃! o, owns o = some r := by
  rcases (h.used_iff r).mp hr with hbase | ⟨o, ho⟩
  · exact absurd hbase hb
  · exact ⟨o, ho, fun p hp => h.unique hp ho⟩

/-- When nobody owns a resource, those are in use that were in use from the beginning. -/
lemma all_returned (h : Accounted base used owns) (hnone : ∀ o, owns o = none) (r : ρ) : used r ↔ base r := by
  rw [h.used_iff r]
  constructor
  · rintro (hbase | ⟨o, ho⟩)
    · exact hbase
    · rw [hnone o] at ho
      cases ho
  · exact .inl

/-- The same resources in use, and the same owners. -/
lemma congr (h : Accounted base used owns) (hused : ∀ r, used' r ↔ used r) (howns : ∀ o, owns' o = owns o) :
    Accounted base used' owns' := by
  obtain rfl : owns' = owns := funext howns
  exact ⟨fun r => (hused r).trans (h.used_iff r), h.not_base, h.unique⟩

/-- An owner without a resource acquires one that is not in use. -/
lemma acquire (h : Accounted base used owns) (hfree : ¬ used r) (hused : ∀ q, used' q ↔ q = r ∨ used q)
    (ho : owns o = none) (hnew : owns' o = some r) (hold : ∀ p, p ≠ o → owns' p = owns p) :
    Accounted base used' owns' := by
  have hcases {p : ω} {q : ρ} (hp : owns' p = some q) : (p = o ∧ q = r) ∨ (p ≠ o ∧ owns p = some q) := by
    by_cases hpo : p = o
    · subst hpo
      exact .inl ⟨rfl, Option.some.inj (hp.symm.trans hnew)⟩
    · exact .inr ⟨hpo, hold p hpo ▸ hp⟩
  refine ⟨fun q => ?_, fun {p q} hp => ?_, fun {p p' q} hp hp' => ?_⟩
  · rw [hused q, h.used_iff q]
    constructor
    · rintro (rfl | hbase | ⟨p, hp⟩)
      · exact .inr ⟨o, hnew⟩
      · exact .inl hbase
      · refine .inr ⟨p, ?_⟩
        rw [hold p fun heq => by rw [heq, ho] at hp; cases hp]
        exact hp
    · rintro (hbase | ⟨p, hp⟩)
      · exact .inr (.inl hbase)
      · rcases hcases hp with ⟨-, rfl⟩ | ⟨-, hp⟩
        · exact .inl rfl
        · exact .inr (.inr ⟨p, hp⟩)
  · rcases hcases hp with ⟨-, rfl⟩ | ⟨-, hp⟩
    · exact fun hbase => hfree (h.base_used hbase)
    · exact h.not_base hp
  · rcases hcases hp with ⟨rfl, rfl⟩ | ⟨-, hp⟩
    · rcases hcases hp' with ⟨rfl, -⟩ | ⟨-, hp'⟩
      · rfl
      · exact absurd hp' (h.ne_of_not_used hfree p')
    · rcases hcases hp' with ⟨rfl, rfl⟩ | ⟨-, hp'⟩
      · exact absurd hp (h.ne_of_not_used hfree p)
      · exact h.unique hp hp'

/-- An owner forgets its resource: it stays in use. -/
lemma forget (h : Accounted base used owns) (ho : owns o = some r) (hnew : owns' o = none)
    (hold : ∀ p, p ≠ o → owns' p = owns p) : Accounted (fun q => q = r ∨ base q) used owns' := by
  have hcases {p : ω} {q : ρ} (hp : owns' p = some q) : p ≠ o ∧ owns p = some q := by
    have hpo : p ≠ o := fun heq => by rw [heq, hnew] at hp; cases hp
    exact ⟨hpo, hold p hpo ▸ hp⟩
  refine ⟨fun q => ?_, fun {p q} hp => ?_, fun {p p' q} hp hp' => h.unique (hcases hp).2 (hcases hp').2⟩
  · rw [h.used_iff q]
    constructor
    · rintro (hbase | ⟨p, hp⟩)
      · exact .inl (.inr hbase)
      · by_cases hpo : p = o
        · subst hpo
          exact .inl (.inl (Option.some.inj (hp.symm.trans ho)))
        · exact .inr ⟨p, (hold p hpo).trans hp⟩
    · rintro ((rfl | hbase) | ⟨p, hp⟩)
      · exact .inr ⟨o, ho⟩
      · exact .inl hbase
      · exact .inr ⟨p, (hcases hp).2⟩
  · obtain ⟨hpo, hp⟩ := hcases hp
    rintro (rfl | hbase)
    · exact hpo (h.unique hp ho)
    · exact h.not_base hp hbase

/-- An owner releases its resource, if it has one. -/
lemma release (h : Accounted base used owns) (hused : ∀ q, used' q ↔ owns o ≠ some q ∧ used q)
    (hnew : owns' o = none) (hold : ∀ p, p ≠ o → owns' p = owns p) : Accounted base used' owns' := by
  have hcases {p : ω} {q : ρ} (hp : owns' p = some q) : p ≠ o ∧ owns p = some q := by
    have hpo : p ≠ o := fun heq => by rw [heq, hnew] at hp; cases hp
    exact ⟨hpo, hold p hpo ▸ hp⟩
  refine ⟨fun q => ?_, fun {p q} hp => h.not_base (hcases hp).2,
    fun {p p' q} hp hp' => h.unique (hcases hp).2 (hcases hp').2⟩
  rw [hused q, h.used_iff q]
  constructor
  · rintro ⟨hne, hbase | ⟨p, hp⟩⟩
    · exact .inl hbase
    · exact .inr ⟨p, (hold p fun heq => hne (heq ▸ hp)).trans hp⟩
  · rintro (hbase | ⟨p, hp⟩)
    · exact ⟨fun ho => h.not_base ho hbase, .inl hbase⟩
    · obtain ⟨hpo, hp⟩ := hcases hp
      exact ⟨fun ho => hpo (h.unique hp ho), .inr ⟨p, hp⟩⟩

/-- An owner passes its resource on to one that has none. -/
lemma pass (h : Accounted base used owns) (hop : o ≠ p) (ho : owns o = some r) (hp : owns p = none)
    (hnew : owns' o = none) (hnew' : owns' p = some r) (hold : ∀ q, q ≠ o → q ≠ p → owns' q = owns q) :
    Accounted base used owns' := by
  classical
  have hreleased : Accounted base (fun q => owns o ≠ some q ∧ used q) (Function.update owns o none) :=
    h.release (fun _ => Iff.rfl) (Function.update_self ..) fun q hq => Function.update_of_ne hq ..
  refine hreleased.acquire (o := p) (r := r) (fun hr => hr.1 ho) (fun q => ?_) ?_ hnew' fun q hq => ?_
  · constructor
    · intro hq
      by_cases hqr : q = r
      · exact .inl hqr
      · exact .inr ⟨fun heq => hqr (Option.some.inj (heq.symm.trans ho)), hq⟩
    · rintro (rfl | ⟨-, hq⟩)
      · exact h.used_of ho
      · exact hq
  · rw [Function.update_of_ne hop.symm, hp]
  · by_cases hqo : q = o
    · rw [hqo, hnew, Function.update_self]
    · rw [Function.update_of_ne hqo, hold q hqo hq]

end Accounted

end Suspenders.Lib
