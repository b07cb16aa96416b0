import Mathlib.Logic.Relation
import Suspenders.Lib.Family

/-!
# Pools of servers

A pool has a buffer of tasks and servers that take tasks from it and execute them.  A task comes into the buffer, or
directly to a server if the buffer is empty.  The histories say which tasks were accepted, which were started and by
whom, and which are finished.

Every accepted task is in exactly one place, and is started and finished at most once (`Pool.Inv`).  A single server
starts the tasks in the order in which they were accepted, one after the other (`Pool.Serial`).
-/

namespace Suspenders.Lib

variable {δ τ : Type*} [DecidableEq δ] [DecidableEq τ]

/-- The tasks of a pool. -/
structure Pool (δ τ : Type*) where
  /-- The buffer. -/
  buf : List τ
  /-- The task each server has taken and not finished. -/
  hand : δ → Option τ
  /-- Whether the server executes it. -/
  busy : δ → Bool
  accepted : List τ
  started : List (δ × τ)
  finished : List τ

namespace Pool

/-- Nothing has happened. -/
def init : Pool δ τ := ⟨[], fun _ => none, fun _ => false, [], [], []⟩

/-- What can be done with a task. -/
inductive Step : Pool δ τ → Pool δ τ → Prop
  | push {p : Pool δ τ} {t : τ} :
      t ∉ p.accepted → Step p { p with buf := p.buf ++ [t], accepted := p.accepted ++ [t] }
  | give {p : Pool δ τ} {d : δ} {t : τ} :
      t ∉ p.accepted → p.buf = [] → p.hand d = none → p.busy d = false →
      Step p { p with hand := Function.update p.hand d (some t), accepted := p.accepted ++ [t] }
  | take {p : Pool δ τ} {d : δ} {t : τ} {rest : List τ} :
      p.buf = t :: rest → p.hand d = none → p.busy d = false →
      Step p { p with buf := rest, hand := Function.update p.hand d (some t) }
  | start {p : Pool δ τ} {d : δ} {t : τ} :
      p.hand d = some t → p.busy d = false →
      Step p { p with busy := Function.update p.busy d true, started := p.started ++ [(d, t)] }
  | finish {p : Pool δ τ} {d : δ} {t : τ} :
      p.hand d = some t → p.busy d = true →
      Step p { p with
        hand := Function.update p.hand d none
        busy := Function.update p.busy d false
        finished := p.finished ++ [t] }

/-- The places of a task. -/
inductive Place (δ : Type*)
  | buf
  | hand (d : δ)
  | finished
  deriving DecidableEq

variable (p : Pool δ τ)

/-- What is in each place. -/
def places : Place δ → List τ
  | .buf => p.buf
  | .hand d => (p.hand d).toList
  | .finished => p.finished

/-- The invariant of a pool. -/
structure Inv : Prop where
  /-- The accepted tasks, and no others, are somewhere, and in one place only. -/
  part : Partition p.places p.accepted
  nodup : p.accepted.Nodup
  /-- The tasks leave the buffer in the order in which they were accepted. -/
  order : p.buf <:+ p.accepted
  /-- A task that was started is finished or is being executed by the one who started it. -/
  started : ∀ d t, (d, t) ∈ p.started → t ∈ p.finished ∨ p.hand d = some t ∧ p.busy d = true
  once : (p.started.map Prod.snd).Nodup
  busy : ∀ d, p.busy d = true → ∃ t, p.hand d = some t ∧ (d, t) ∈ p.started
  finished : ∀ t ∈ p.finished, ∃ d, (d, t) ∈ p.started

lemma inv_init : (init : Pool δ τ).Inv where
  part := ⟨by simp [init], fun t _ i => by cases i <;> simp [places, init]⟩
  nodup := List.nodup_nil
  order := List.suffix_refl _
  started := by simp [init]
  once := List.nodup_nil
  busy := by simp [init]
  finished := by simp [init]

variable {p} {q : Pool δ τ}

section Step

variable {d : δ} {t : τ}

lemma Inv.push (h : p.Inv) (ht : t ∉ p.accepted) :
    Inv { p with buf := p.buf ++ [t], accepted := p.accepted ++ [t] } where
  part := by
    refine (h.part.add ht (List.perm_append_singleton t _) (i := .buf)).perm (fun i => ?_)
      (List.perm_append_singleton t _)
    cases i <;> simp [places]
  nodup := by simpa [List.nodup_append, h.nodup] using fun u hu => ne_of_mem_of_not_mem hu ht
  order := by
    obtain ⟨l, hl⟩ := h.order
    exact ⟨l, by simp [← hl]⟩
  started := h.started
  once := h.once
  busy := h.busy
  finished := h.finished

lemma Inv.give (h : p.Inv) (ht : t ∉ p.accepted) (hbuf : p.buf = []) (hd : p.hand d = none)
    (hbusy : p.busy d = false) :
    Inv { p with hand := Function.update p.hand d (some t), accepted := p.accepted ++ [t] } where
  part := by
    refine (h.part.add ht (m := [t]) (i := .hand d) (by simp [places, hd])).perm (fun i => ?_)
      (List.perm_append_singleton t _)
    cases i with
    | hand e =>
      by_cases he : e = d
      · simp [places, he]
      · simp [places, he]
    | _ => simp [places]
  nodup := by simpa [List.nodup_append, h.nodup] using fun u hu => ne_of_mem_of_not_mem hu ht
  order := by simp [hbuf]
  started := by
    intro e u hu
    refine (h.started e u hu).imp_right fun hhand => ?_
    have he : e ≠ d := fun he => by simp [he, hd] at hhand
    simpa [he] using hhand
  once := h.once
  busy := by
    intro e he
    have hne : e ≠ d := fun hed => by simp [hed, hbusy] at he
    simpa [hne] using h.busy e he
  finished := h.finished

lemma Inv.take {rest : List τ} (h : p.Inv) (hbuf : p.buf = t :: rest) (hd : p.hand d = none)
    (hbusy : p.busy d = false) :
    Inv { p with buf := rest, hand := Function.update p.hand d (some t) } where
  part := by
    refine (h.part.move (i := .buf) (j := .hand d) (a := t) (by simp [places, hbuf]) (by simp)).perm
      (fun i => ?_) (List.Perm.refl _)
    cases i with
    | hand e =>
      by_cases he : e = d
      · simp [places, he, hd]
      · simp [places, he]
    | _ => simp [places, hbuf]
  nodup := h.nodup
  order := (List.suffix_cons t rest).trans (hbuf ▸ h.order)
  started := by
    intro e u hu
    refine (h.started e u hu).imp_right fun hhand => ?_
    have he : e ≠ d := fun he => by simp [he, hd] at hhand
    simpa [he] using hhand
  once := h.once
  busy := by
    intro e he
    have hne : e ≠ d := fun hed => by simp [hed, hbusy] at he
    simpa [hne] using h.busy e he
  finished := h.finished

/-- A task that somebody has in hand was not started, unless it is being executed. -/
lemma Inv.fresh (h : p.Inv) (hd : p.hand d = some t) (hbusy : p.busy d = false) (e : δ) :
    (e, t) ∉ p.started := by
  intro hmem
  have hhand : t ∈ p.places (.hand d) := by simp [places, hd]
  obtain hfin | ⟨he, hbusy'⟩ := h.started e t hmem
  · have := h.part.unique hhand (show t ∈ p.places .finished from hfin)
    simp at this
  · have := h.part.unique hhand (show t ∈ p.places (.hand e) by simp [places, he])
    simp_all

lemma Inv.start (h : p.Inv) (hd : p.hand d = some t) (hbusy : p.busy d = false) :
    Inv { p with busy := Function.update p.busy d true, started := p.started ++ [(d, t)] } where
  part := h.part
  nodup := h.nodup
  order := h.order
  started := by
    intro e u hu
    rcases List.mem_append.mp hu with hu | hu
    · refine (h.started e u hu).imp_right fun ⟨hhand, he⟩ => ⟨hhand, ?_⟩
      by_cases hed : e = d
      · simp [hed]
      · simpa [hed] using he
    · obtain ⟨rfl, rfl⟩ : e = d ∧ u = t := by simpa using hu
      exact .inr ⟨hd, by simp⟩
  once := by
    have hfresh (u : τ) (hu : u ∈ p.started.map Prod.snd) : u ≠ t := by
      rintro rfl
      obtain ⟨⟨e, u⟩, hmem, rfl⟩ := List.mem_map.mp hu
      exact h.fresh hd hbusy e hmem
    rw [List.map_append]
    exact List.nodup_append.mpr ⟨h.once, by simp, by simpa using hfresh⟩
  busy := by
    intro e he
    by_cases hed : e = d
    · subst hed
      exact ⟨t, hd, by simp⟩
    · obtain ⟨u, hu, hmem⟩ := h.busy e (by simpa [hed] using he)
      exact ⟨u, hu, by simp [hmem]⟩
  finished := by
    intro u hu
    obtain ⟨e, he⟩ := h.finished u hu
    exact ⟨e, by simp [he]⟩

lemma Inv.finish (h : p.Inv) (hd : p.hand d = some t) (hbusy : p.busy d = true) :
    Inv { p with
      hand := Function.update p.hand d none
      busy := Function.update p.busy d false
      finished := p.finished ++ [t] } where
  part := by
    refine (h.part.move (i := .hand d) (j := .finished) (a := t) (by simp [places, hd]) (by simp)).perm
      (fun i => ?_) (List.Perm.refl _)
    cases i with
    | hand e =>
      by_cases he : e = d
      · simp [places, he, hd]
      · simp [places, he]
    | finished => simp [places]
    | buf => simp [places]
  nodup := h.nodup
  order := h.order
  started := by
    intro e u hu
    by_cases hed : e = d
    · subst hed
      obtain hfin | ⟨hhand, -⟩ := h.started e u hu
      · exact .inl (by simp [hfin])
      · exact .inl (by simp_all)
    · obtain hfin | hhand := h.started e u hu
      · exact .inl (by simp [hfin])
      · exact .inr (by simpa [hed] using hhand)
  once := h.once
  busy := by
    intro e he
    have hne : e ≠ d := fun hed => by simp [hed] at he
    simpa [hne] using h.busy e (by simpa [hne] using he)
  finished := by
    intro u hu
    rcases List.mem_append.mp hu with hu | hu
    · exact h.finished u hu
    · obtain rfl : u = t := by simpa using hu
      obtain ⟨v, hv, hmem⟩ := h.busy d hbusy
      obtain rfl : u = v := Option.some.inj (hd.symm.trans hv)
      exact ⟨d, hmem⟩

end Step

/-- Every step keeps the invariant. -/
theorem Inv.step (h : p.Inv) (hstep : Step p q) : q.Inv := by
  cases hstep with
  | push ht => exact h.push ht
  | give ht hbuf hd hbusy => exact h.give ht hbuf hd hbusy
  | take hbuf hd hbusy => exact h.take hbuf hd hbusy
  | start hd hbusy => exact h.start hd hbusy
  | finish hd hbusy => exact h.finish hd hbusy

/-- At most two steps, of which the second one gives no task to a server. -/
def Moves (p p' : Pool δ τ) : Prop :=
  ∃ q, Relation.ReflGen Step p q ∧ Relation.ReflGen Step q p' ∧ q.hand = p'.hand

omit [DecidableEq τ] in
lemma Moves.refl (p : Pool δ τ) : Moves p p := ⟨p, .refl, .refl, rfl⟩

omit [DecidableEq τ] in
lemma Moves.single (h : Step p q) : Moves p q := ⟨q, .single h, .refl, rfl⟩

lemma Inv.moves (h : p.Inv) (hmoves : Moves p q) : q.Inv := by
  obtain ⟨r, h₁, h₂, -⟩ := hmoves
  have hr : r.Inv := by
    cases h₁ with
    | refl => exact h
    | single h₁ => exact h.step h₁
  cases h₂ with
  | refl => exact hr
  | single h₂ => exact hr.step h₂

/-- Server `d` is the only one that takes tasks; it executes them in the order of their acceptance. -/
structure Serial (d : δ) (p : Pool δ τ) : Prop where
  alone : ∀ e, e ≠ d → p.hand e = none
  order : p.accepted = p.finished ++ (p.hand d).toList ++ p.buf
  starts : p.started.map Prod.snd = p.finished ++ if p.busy d = true then (p.hand d).toList else []

omit [DecidableEq δ] [DecidableEq τ] in
lemma serial_init (d : δ) : Serial d (init : Pool δ τ) := ⟨fun _ _ => rfl, rfl, rfl⟩

omit [DecidableEq τ] in
/-- A single server stays in order as long as it is alone. -/
theorem Serial.step {d : δ} (h : Serial d p) (hstep : Step p q) (hq : ∀ e, e ≠ d → q.hand e = none) :
    Serial d q := by
  cases hstep with
  | push => exact ⟨hq, by simp [h.order], h.starts⟩
  | @give e t _ hbuf he hbusy =>
    obtain rfl : e = d := by
      by_contra hne
      simpa using hq e hne
    exact ⟨hq, by simp [h.order, hbuf, he], by simp [h.starts, hbusy]⟩
  | @take e t rest hbuf he hbusy =>
    obtain rfl : e = d := by
      by_contra hne
      simpa using hq e hne
    exact ⟨hq, by simp [h.order, hbuf, he], by simp [h.starts, hbusy]⟩
  | @start e t he hbusy =>
    obtain rfl : e = d := by
      by_contra hne
      simp [h.alone e hne] at he
    exact ⟨hq, h.order, by simp [h.starts, hbusy, he]⟩
  | @finish e t he hbusy =>
    obtain rfl : e = d := by
      by_contra hne
      simp [h.alone e hne] at he
    exact ⟨hq, by simp [h.order, he], by simp [h.starts, hbusy, he]⟩

omit [DecidableEq τ] in
theorem Serial.moves {d : δ} (h : Serial d p) (hmoves : Moves p q) (hq : ∀ e, e ≠ d → q.hand e = none) :
    Serial d q := by
  obtain ⟨r, h₁, h₂, heq⟩ := hmoves
  have hr : Serial d r := by
    cases h₁ with
    | refl => exact h
    | single h₁ => exact h.step h₁ (heq ▸ hq)
  cases h₂ with
  | refl => exact hr
  | single h₂ => exact hr.step h₂ hq

end Pool

end Suspenders.Lib
