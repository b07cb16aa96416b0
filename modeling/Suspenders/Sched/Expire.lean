import Suspenders.Sched.TimerStore

/-!
# The expiry pass

`suspenders_timer_fire_expired` of one worker: it takes the expired timers from the heap one by one, files the
ones that repeat again, and calls the callbacks.  A callback may cancel timers of the same heap, the one it was
called for included, and it may make new ones.

What a callback does besides is open: it is a function on the state of the pass that `Does` relates to a
sequence of calls of the API.
-/

namespace Suspenders.Sched

open Lib

variable {T κ σ : Type*}

/-- What happens in a pass. -/
inductive PassEvent (T : Type*)
  /-- The callback of timer `t` is called; its deadline was `due`. -/
  | fire (t : T) (due : ℕ)
  /-- A timer that repeats could not be filed again. -/
  | lost (t : T)
  /-- A callback cancels timer `t`. -/
  | cancel (t : T)
  /-- A callback makes a timer, in the memory at `t`. -/
  | create (t : T)
  deriving DecidableEq

/-- A pass under way. -/
structure Pass (T κ σ : Type*) where
  store : Store T κ
  /-- Everything else that callbacks read and write. -/
  env : σ
  log : List (PassEvent T)

/-- One call that a callback makes, or what it does to the rest of the world, when the clock was at `now` at the
beginning of the pass.  It does not make timers that have expired. -/
inductive Does [DecidableEq T] (now : ℕ) : Pass T κ σ → Pass T κ σ → Prop
  | env {p : Pass T κ σ} (env : σ) : Does now p { p with env := env }
  | cancel {p : Pass T κ σ} (t : T) : p.store.live t = true →
      Does now p { p with store := p.store.timerCancel t, log := p.log ++ [.cancel t] }
  | create {p : Pass T κ σ} (t : T) (clock : ℕ) (ms : ℤ) (repeats : Bool) (cb : κ) (mem : Bool) :
      p.store.live t = false →
      ((p.store.timerCreate t clock ms repeats cb mem).1 = true → now < (clock + ms.toNat * 1000000) % 2 ^ 64) →
      Does now p { p with
        store := (p.store.timerCreate t clock ms repeats cb mem).2
        log := if (p.store.timerCreate t clock ms repeats cb mem).1 then p.log ++ [.create t] else p.log }
  | trans {p q r : Pass T κ σ} : Does now p q → Does now q r → Does now p r

/-- The loop of `suspenders_timer_fire_expired`, for at most `n` tests of its condition.  `call` is what a callback
does, and `mem` whether there is memory for a bigger heap. -/
def timerFireExpired [DecidableEq T] (call : κ → Pass T κ σ → Pass T κ σ) (mem : σ → Bool) (now : ℕ) :
    ℕ → Pass T κ σ → Option (Pass T κ σ)
  | 0, _ => none
  | n + 1, p =>
    match p.store.heap.data with
    | [] => some p
    | first :: _ =>
      if p.store.due first ≤ now then
        match p.store.heap.pop p.store.due with
        | (none, heap) => timerFireExpired call mem now n { p with store := { p.store with heap := heap } }
        | (some t, heap) =>
          let due := p.store.due t
          let r := { p.store with heap := heap }.settle t now (mem p.env)
          let p := { p with store := r.2, log := p.log ++ (if r.1 then [] else [.lost t]) ++ [.fire t due] }
          timerFireExpired call mem now n (call (r.2.timer t).cb p)
      else some p

/-! ## The loop -/

/-- The timers whose callbacks have been called, with the deadlines they had. -/
def fires (log : List (PassEvent T)) : List (T × ℕ) :=
  log.filterMap fun
    | .fire t due => some (t, due)
    | _ => none

lemma mem_fires {log : List (PassEvent T)} {t : T} {due : ℕ} : (t, due) ∈ fires log ↔ .fire t due ∈ log := by
  unfold fires
  rw [List.mem_filterMap]
  constructor
  · rintro ⟨e, he, heq⟩
    cases e with
    | fire u d =>
      obtain ⟨rfl, rfl⟩ : u = t ∧ d = due := by simpa using heq
      exact he
    | _ => cases heq
  · intro h
    exact ⟨_, h, rfl⟩

lemma fires_append {log l : List (PassEvent T)} : fires (log ++ l) = fires log ++ fires l := List.filterMap_append

/-- Where a pass that began with `s₀` stands. -/
structure Going [DecidableEq T] (now : ℕ) (s₀ : Store T κ) (p : Pass T κ σ) : Prop where
  sound : p.store.Sound
  /-- What is left to do was there at the beginning, and nothing has happened to it. -/
  old : ∀ t ∈ p.store.heap.data, p.store.due t ≤ now → t ∈ s₀.heap.data ∧ p.store.timer t = s₀.timer t ∧
    (∀ d, .fire t d ∉ p.log) ∧ .cancel t ∉ p.log
  /-- No expired timer is forgotten. -/
  all : ∀ t ∈ s₀.heap.data, s₀.due t ≤ now → (t ∈ p.store.heap.data ∧ p.store.timer t = s₀.timer t) ∨
    .fire t (s₀.due t) ∈ p.log ∨ .cancel t ∈ p.log
  fired : ∀ t d, .fire t d ∈ p.log → t ∈ s₀.heap.data ∧ d = s₀.due t ∧ d ≤ now
  once : ((fires p.log).map Prod.fst).Nodup
  sorted : (fires p.log).Pairwise fun x y => x.2 ≤ y.2
  front : ∀ t d, .fire t d ∈ p.log → ∀ u ∈ p.store.heap.data, p.store.due u ≤ now → d ≤ p.store.due u
  /-- No callback is called behind the cancellation of its timer. -/
  before : p.log.Pairwise fun x y => ∀ t d, x = .cancel t → y ≠ .fire t d
  single : ∀ t d, .fire t d ∈ p.log → (s₀.timer t).repeats = false → .create t ∉ p.log →
    t ∉ p.store.heap.data ∧ (p.store.timer t).active = false
  again : ∀ t d, .fire t d ∈ p.log → (s₀.timer t).repeats = true → .cancel t ∉ p.log →
    t ∈ p.store.heap.data ∧
      p.store.timer t = { s₀.timer t with deadlineNs := now + (s₀.timer t).periodMs * 1000000 }
  lives : ∀ t, s₀.live t = true → .cancel t ∉ p.log → p.store.live t = true
  /-- Only memory that was freed becomes a new timer. -/
  reused : ∀ t, s₀.live t = true → .create t ∈ p.log → .cancel t ∈ p.log
  filed : ∀ t, .lost t ∉ p.log

section Loop

variable [DecidableEq T] {now : ℕ} {s₀ : Store T κ} {p q : Pass T κ σ} {t : T}

/-- One call in a callback, which is about timer `t` and is recorded as `l`. -/
structure Quiet (now : ℕ) (t : T) (l : List (PassEvent T)) (p q : Pass T κ σ) : Prop where
  sound : q.store.Sound
  log : q.log = p.log ++ l
  recorded : l = [] ∨ l = [.cancel t] ∨ l = [.create t]
  timer : ∀ u, u ≠ t → q.store.timer u = p.store.timer u
  live : ∀ u, u ≠ t → q.store.live u = p.store.live u
  heap : ∀ u, u ≠ t → (u ∈ q.store.heap.data ↔ u ∈ p.store.heap.data)
  /-- A timer that leaves the heap has been canceled, and one that comes is new and has not expired. -/
  leaves : t ∈ p.store.heap.data → .cancel t ∈ l
  comes : t ∈ q.store.heap.data → .create t ∈ l ∧ now < q.store.due t
  free : .create t ∈ l → p.store.live t = false
  dies : .cancel t ∉ l → p.store.live t = true → q.store.live t = true
  off : .create t ∉ l → q.store.timer t = p.store.timer t ∨ (q.store.timer t).active = false

lemma quiet_cancel (hs : p.store.Sound) (t : T) :
    Quiet now t [.cancel t] p { p with store := p.store.timerCancel t, log := p.log ++ [.cancel t] } := by
  obtain ⟨hsound, hmem, hrest, hself, hlive⟩ := Store.timerCancel_spec hs t
  refine ⟨hsound, rfl, by simp, hrest, hlive, ?_, by simp, ?_, by simp, by simp, ?_⟩
  · intro u hu
    rw [hmem u]
    exact and_iff_left hu
  · intro ht
    exact absurd rfl ((hmem t).mp ht).2
  · intro _
    right
    show ((p.store.timerCancel t).timer t).active = false
    rw [hself]

lemma quiet_create {clock : ℕ} {ms : ℤ} {repeats : Bool} {cb : κ} {mem : Bool} (hs : p.store.Sound)
    (hfree : p.store.live t = false)
    (hlate : (p.store.timerCreate t clock ms repeats cb mem).1 = true → now < (clock + ms.toNat * 1000000) % 2 ^ 64) :
    ∃ l, Quiet now t l p { p with
      store := (p.store.timerCreate t clock ms repeats cb mem).2
      log := if (p.store.timerCreate t clock ms repeats cb mem).1 then p.log ++ [.create t] else p.log } := by
  obtain ⟨harm, hdue⟩ := @Store.timerCreate_spec _ _ _ _ t mem clock ms repeats cb hs hfree
  generalize p.store.timerCreate t clock ms repeats cb mem = r at *
  have hnot : t ∉ p.store.heap.data := by
    intro ht
    rw [hs.live t ht] at hfree
    cases hfree
  obtain ⟨ok, s⟩ := r
  cases ok with
  | true =>
    refine ⟨[.create t], harm.sound, by simp, by simp, harm.rest, harm.live, ?_, fun h => absurd h hnot, ?_, fun _ => hfree,
      ?_, by simp⟩
    · intro u hu
      simpa [hu] using harm.heap u
    · intro _
      refine ⟨by simp, ?_⟩
      show now < s.due t
      rw [hdue rfl]
      exact hlate rfl
    · intro _ hl
      rw [hfree] at hl
      cases hl
  | false =>
    refine ⟨[], harm.sound, by simp, by simp, harm.rest, harm.live, ?_, fun h => absurd h hnot, ?_, by simp, ?_,
      fun _ => harm.off rfl⟩
    · intro u hu
      simpa using harm.heap u
    · intro ht
      exact absurd ((harm.heap t).mp ht) (by simp [hnot])
    · intro _ hl
      rw [hfree] at hl
      cases hl

/-- A call in a callback makes no new work for the pass, and it does not undo what has been done. -/
lemma Going.quiet {l : List (PassEvent T)} (h : Going now s₀ p) (hq : Quiet now t l p q) : Going now s₀ q := by
  have hnf : ∀ u d, .fire u d ∉ l := by
    intro u d
    rcases hq.recorded with rfl | rfl | rfl <;> simp
  have hfire : ∀ u d, .fire u d ∈ q.log ↔ .fire u d ∈ p.log := by
    intro u d
    rw [hq.log, List.mem_append]
    exact or_iff_left (hnf u d)
  have hfires : fires q.log = fires p.log := by
    have hl : fires l = [] := by
      rcases hq.recorded with rfl | rfl | rfl <;> rfl
    rw [hq.log, fires_append, hl, List.append_nil]
  have hmem : ∀ e, e ∈ p.log → e ∈ q.log := by
    intro e he
    rw [hq.log]
    exact List.mem_append_left _ he
  have hdue : ∀ u, u ≠ t → q.store.due u = p.store.due u := by
    intro u hu
    rw [Store.due, hq.timer u hu, Store.due]
  -- what is expired and in the heap now is not `t`
  have hne : ∀ u ∈ q.store.heap.data, q.store.due u ≤ now → u ≠ t := by
    rintro u hu hd rfl
    exact absurd hd (Nat.not_le.mpr (hq.comes hu).2)
  have hcancel : ∀ u, u ≠ t → (.cancel u ∈ q.log ↔ .cancel u ∈ p.log) := by
    intro u hu
    rw [hq.log, List.mem_append]
    refine or_iff_left ?_
    rcases hq.recorded with rfl | rfl | rfl <;> simp [hu]
  constructor
  · exact hq.sound
  · intro u hu hd
    have hut := hne u hu hd
    obtain ⟨hu₀, htimer, hf, hc⟩ := h.old u ((hq.heap u hut).mp hu) (by rwa [← hdue u hut])
    exact ⟨hu₀, (hq.timer u hut).trans htimer, fun d => by rw [hfire]; exact hf d, by rwa [hcancel u hut]⟩
  · intro u hu hd
    rcases h.all u hu hd with ⟨hin, htimer⟩ | hf | hc
    · by_cases hut : u = t
      · subst hut
        refine Or.inr (Or.inr ?_)
        rw [hq.log]
        exact List.mem_append_right _ (hq.leaves hin)
      · exact Or.inl ⟨(hq.heap u hut).mpr hin, (hq.timer u hut).trans htimer⟩
    · exact Or.inr (Or.inl (hmem _ hf))
    · exact Or.inr (Or.inr (hmem _ hc))
  · intro u d hf
    exact h.fired u d ((hfire u d).mp hf)
  · rw [hfires]
    exact h.once
  · rw [hfires]
    exact h.sorted
  · intro u d hf v hv hd
    have hvt := hne v hv hd
    rw [hdue v hvt] at hd ⊢
    exact h.front u d ((hfire u d).mp hf) v ((hq.heap v hvt).mp hv) hd
  · rw [hq.log, List.pairwise_append]
    refine ⟨h.before, ?_, ?_⟩
    · rcases hq.recorded with rfl | rfl | rfl <;> simp
    · rintro x - y hy u d - rfl
      exact hnf u d hy
  · intro u d hf hr hc
    have hc' : .create u ∉ p.log := fun hin => hc (hmem _ hin)
    obtain ⟨hnot, hact⟩ := h.single u d ((hfire u d).mp hf) hr hc'
    by_cases hut : u = t
    · subst hut
      have hcl : .create u ∉ l := fun hin => hc (by rw [hq.log]; exact List.mem_append_right _ hin)
      refine ⟨fun hu => hcl (hq.comes hu).1, ?_⟩
      rcases hq.off hcl with heq | hoff
      · rw [heq]
        exact hact
      · exact hoff
    · rw [hq.heap u hut, hq.timer u hut]
      exact ⟨hnot, hact⟩
  · intro u d hf hr hc
    obtain ⟨hin, htimer⟩ := h.again u d ((hfire u d).mp hf) hr fun hin => hc (hmem _ hin)
    have hut : u ≠ t := by
      rintro rfl
      refine hc ?_
      rw [hq.log]
      exact List.mem_append_right _ (hq.leaves hin)
    exact ⟨(hq.heap u hut).mpr hin, (hq.timer u hut).trans htimer⟩
  · intro u hl hc
    have hl' := h.lives u hl fun hin => hc (hmem _ hin)
    by_cases hut : u = t
    · subst hut
      exact hq.dies (fun hin => hc (by rw [hq.log]; exact List.mem_append_right _ hin)) hl'
    · rw [hq.live u hut]
      exact hl'
  · intro u hl hc
    by_contra hno
    have hl' := h.lives u hl fun hin => hno (hmem _ hin)
    rw [hq.log, List.mem_append] at hc
    rcases hc with hc | hc
    · exact hno (hmem _ (h.reused u hl hc))
    · have hut : u = t := by
        rcases hq.recorded with rfl | rfl | rfl <;> simp at hc
        exact hc
      subst hut
      rw [hq.free hc] at hl'
      cases hl'
  · intro u hu
    rw [hq.log, List.mem_append] at hu
    rcases hu with hu | hu
    · exact h.filed u hu
    · rcases hq.recorded with rfl | rfl | rfl <;> simp at hu

/-- The expired timers that are in the heap. -/
def Pass.expired (now : ℕ) (p : Pass T κ σ) : List T := p.store.heap.data.filter fun t => p.store.due t ≤ now

omit [DecidableEq T] in
lemma mem_expired : t ∈ p.expired now ↔ t ∈ p.store.heap.data ∧ p.store.due t ≤ now := by
  simp [Pass.expired]

/-- What a callback does keeps the pass going, with no more work than before. -/
lemma Going.does (h : Going now s₀ p) (hd : Does now p q) :
    Going now s₀ q ∧ ∀ u ∈ q.expired now, u ∈ p.expired now := by
  have quiet {p q : Pass T κ σ} {t : T} {l : List (PassEvent T)} (h : Going now s₀ p) (hq : Quiet now t l p q) :
      Going now s₀ q ∧ ∀ u ∈ q.expired now, u ∈ p.expired now := by
    refine ⟨h.quiet hq, ?_⟩
    intro u hu
    obtain ⟨hu, hdue⟩ := mem_expired.mp hu
    have hut : u ≠ t := by
      rintro rfl
      exact absurd hdue (Nat.not_le.mpr (hq.comes hu).2)
    rw [Store.due, hq.timer u hut] at hdue
    exact mem_expired.mpr ⟨(hq.heap u hut).mp hu, hdue⟩
  induction hd with
  | env e => exact ⟨{ h with }, fun _ hu => hu⟩
  | cancel t _ => exact quiet h (quiet_cancel h.sound t)
  | create t clock ms repeats cb mem hfree hlate =>
    obtain ⟨l, hq⟩ := quiet_create h.sound hfree hlate
    exact quiet h hq
  | trans _ _ ih₁ ih₂ =>
    obtain ⟨h₁, hsub₁⟩ := ih₁ h
    obtain ⟨h₂, hsub₂⟩ := ih₂ h₁
    exact ⟨h₂, fun u hu => hsub₁ u (hsub₂ u hu)⟩

/-- The pass takes an expired timer from the heap and is about to call its callback. -/
lemma Going.fire {s : Store T κ} (h : Going now s₀ p) (hs : Store.Settled p.store now t s)
    (hdue : p.store.due t ≤ now) :
    Going now s₀ { p with store := s, log := p.log ++ [.fire t (p.store.due t)] } := by
  obtain ⟨ht₀, htimer, hnf, hnc⟩ := h.old t hs.mem hdue
  have hdue₀ : p.store.due t = s₀.due t := by rw [Store.due, htimer, Store.due]
  have hdues : ∀ u, u ≠ t → s.due u = p.store.due u := by
    intro u hu
    rw [Store.due, hs.rest u hu, Store.due]
  have hfire : ∀ u d, PassEvent.fire u d ∈ p.log ++ [.fire t (p.store.due t)] →
      .fire u d ∈ p.log ∨ (u = t ∧ d = p.store.due t) := by
    intro u d hf
    simpa using hf
  have hcancel : ∀ u, PassEvent.cancel u ∈ p.log ++ [.fire t (p.store.due t)] ↔ .cancel u ∈ p.log := by simp
  have hcreate : ∀ u, PassEvent.create u ∈ p.log ++ [.fire t (p.store.due t)] ↔ .create u ∈ p.log := by simp
  have hfires : fires (p.log ++ [.fire t (p.store.due t)]) = fires p.log ++ [(t, p.store.due t)] := fires_append
  constructor
  · exact hs.sound
  · intro u hu hd
    obtain ⟨hut, hu', hd'⟩ := hs.left hu hd
    obtain ⟨hu₀, htimer', hf, hc⟩ := h.old u hu' hd'
    refine ⟨hu₀, (hs.rest u hut).trans htimer', ?_, by rwa [hcancel]⟩
    intro d hin
    rcases hfire u d hin with hin | ⟨heq, -⟩
    · exact hf d hin
    · exact hut heq
  · intro u hu hd
    by_cases hut : u = t
    · subst hut
      refine Or.inr (Or.inl ?_)
      rw [← hdue₀]
      simp
    · rcases h.all u hu hd with ⟨hin, htimer'⟩ | hf | hc
      · exact Or.inl ⟨(hs.heap u).mpr (Or.inl ⟨hin, hut⟩), (hs.rest u hut).trans htimer'⟩
      · exact Or.inr (Or.inl (List.mem_append_left _ hf))
      · exact Or.inr (Or.inr (List.mem_append_left _ hc))
  · intro u d hf
    rcases hfire u d hf with hf | ⟨rfl, rfl⟩
    · exact h.fired u d hf
    · exact ⟨ht₀, hdue₀, hdue⟩
  · rw [hfires, List.map_append, List.nodup_append]
    refine ⟨h.once, by simp, ?_⟩
    rintro u hu v hv rfl
    obtain ⟨⟨u', d⟩, hin, rfl⟩ := List.mem_map.mp hu
    obtain rfl : u' = t := by simpa using hv
    exact hnf d (mem_fires.mp hin)
  · rw [hfires, List.pairwise_append]
    refine ⟨h.sorted, by simp, ?_⟩
    rintro ⟨u, d⟩ hin y hy
    obtain rfl : y = (t, p.store.due t) := by simpa using hy
    exact h.front u d (mem_fires.mp hin) t hs.mem hdue
  · intro u d hf v hv hd
    obtain ⟨hvt, hv', hd'⟩ := hs.left hv hd
    show d ≤ s.due v
    rw [hdues v hvt]
    rcases hfire u d hf with hf | ⟨-, rfl⟩
    · exact h.front u d hf v hv' hd'
    · exact hs.first v hv'
  · rw [List.pairwise_append]
    refine ⟨h.before, by simp, ?_⟩
    rintro x hx y hy u d rfl
    obtain rfl : y = .fire t (p.store.due t) := by simpa using hy
    rintro heq
    obtain ⟨rfl, -⟩ : t = u ∧ p.store.due t = d := by simpa using heq
    exact hnc hx
  · intro u d hf hr hc
    rw [hcreate] at hc
    by_cases hut : u = t
    · subst hut
      rw [← htimer] at hr
      refine ⟨?_, ?_⟩
      · intro hu
        rcases (hs.heap u).mp hu with ⟨-, hne⟩ | ⟨-, hr'⟩
        · exact hne rfl
        · rw [hr] at hr'
          cases hr'
      · show (s.timer u).active = false
        rw [hs.once hr]
    · rcases hfire u d hf with hf | ⟨heq, -⟩
      · obtain ⟨hnot, hact⟩ := h.single u d hf hr hc
        refine ⟨?_, ?_⟩
        · intro hu
          rcases (hs.heap u).mp hu with ⟨hu', -⟩ | ⟨heq, -⟩
          · exact hnot hu'
          · exact hut heq
        · show (s.timer u).active = false
          rw [hs.rest u hut]
          exact hact
      · exact absurd heq hut
  · intro u d hf hr hc
    rw [hcancel] at hc
    by_cases hut : u = t
    · subst hut
      rw [← htimer] at hr
      refine ⟨(hs.heap u).mpr (Or.inr ⟨rfl, hr⟩), ?_⟩
      rw [← htimer]
      exact hs.again hr
    · rcases hfire u d hf with hf | ⟨heq, -⟩
      · obtain ⟨hin, htimer'⟩ := h.again u d hf hr hc
        exact ⟨(hs.heap u).mpr (Or.inl ⟨hin, hut⟩), (hs.rest u hut).trans htimer'⟩
      · exact absurd heq hut
  · intro u hl hc
    rw [hcancel] at hc
    show s.live u = true
    rw [hs.live]
    exact h.lives u hl hc
  · intro u hl hc
    rw [hcreate] at hc
    rw [hcancel]
    exact h.reused u hl hc
  · intro u hu
    exact h.filed u (by simpa using hu)

variable {call : κ → Pass T κ σ → Pass T κ σ} {mem : σ → Bool}

/-- A round of the loop. -/
lemma timerFireExpired_round {first : T} {rest : List T} {n : ℕ} (h : Going now s₀ p)
    (hov : ∀ t ∈ s₀.heap.data, (s₀.timer t).repeats = true → now + (s₀.timer t).periodMs * 1000000 < 2 ^ 64)
    (hd : p.store.heap.data = first :: rest) (hdue : p.store.due first ≤ now) :
    ∃ s, Store.Settled p.store now first s ∧ timerFireExpired call mem now (n + 1) p =
      timerFireExpired call mem now n (call (s.timer first).cb
        { p with store := s, log := p.log ++ [.fire first (p.store.due first)] }) := by
  obtain ⟨heap, hp⟩ : ∃ heap, p.store.heap.pop p.store.due = (some first, heap) := by
    rw [TimerHeap.pop, hd]
    exact ⟨_, rfl⟩
  have hmem : first ∈ p.store.heap.data := by simp [hd]
  obtain ⟨hin, htimer, -, -⟩ := h.old first hmem hdue
  obtain ⟨hfiled, hsettled⟩ := @Store.settle_spec _ _ _ _ _ (mem p.env) _ _ h.sound hp
    (by rw [htimer]; exact hov first hin)
  refine ⟨_, hsettled, ?_⟩
  rw [timerFireExpired]
  simp only [hd, if_pos hdue, hp, hfiled, if_true, List.append_nil]

/-- The loop ends when no expired timer is left; every round takes one. -/
lemma Going.loop (hcall : ∀ cb p, Does now p (call cb p))
    (hov : ∀ t ∈ s₀.heap.data, (s₀.timer t).repeats = true → now + (s₀.timer t).periodMs * 1000000 < 2 ^ 64)
    {n : ℕ} (h : Going now s₀ p) (hn : (p.expired now).length < n) :
    ∃ q, timerFireExpired call mem now n p = some q ∧ Going now s₀ q ∧
      ∀ t ∈ q.store.heap.data, now < q.store.due t := by
  induction n generalizing p with
  | zero => cases hn
  | succ n ih =>
    cases hd : p.store.heap.data with
    | nil =>
      refine ⟨p, ?_, h, by simp [hd]⟩
      rw [timerFireExpired, hd]
    | cons first rest =>
      have hmem : first ∈ p.store.heap.data := by simp [hd]
      by_cases hdue : p.store.due first ≤ now
      · obtain ⟨s, hs, hround⟩ := @timerFireExpired_round _ _ _ _ _ _ _ call mem _ _ n h hov hd hdue
        obtain ⟨hnext, hsub⟩ := (h.fire hs hdue).does (hcall (s.timer first).cb _)
        rw [hround]
        refine ih hnext ?_
        have hnodup : (first :: (call (s.timer first).cb
            { p with store := s, log := p.log ++ [.fire first (p.store.due first)] }).expired now).Nodup := by
          refine List.nodup_cons.mpr ⟨?_, hnext.sound.nodup.filter _⟩
          intro hin
          obtain ⟨hin, hle⟩ := mem_expired.mp (hsub first hin)
          exact (hs.left hin hle).1 rfl
        have hlen := (@List.subperm_of_subset _ _ (p.expired now) hnodup (by
          intro u hu
          rcases List.mem_cons.mp hu with rfl | hu
          · exact mem_expired.mpr ⟨hmem, hdue⟩
          · obtain ⟨hin, hle⟩ := mem_expired.mp (hsub u hu)
            exact mem_expired.mpr (hs.left hin hle).2)).length_le
        rw [List.length_cons] at hlen
        omega
      · refine ⟨p, ?_, h, ?_⟩
        · rw [timerFireExpired, hd]
          simp only [if_neg hdue]
        · intro t ht
          obtain ⟨l, hpop⟩ : ∃ l, MinHeap.pop p.store.due p.store.heap.data = some (first, l) := by
            rw [hd]
            exact ⟨_, rfl⟩
          have hle := h.sound.holds.ordered.pop_le hpop ht
          omega

/-- More rounds make no difference when the loop has ended. -/
lemma timerFireExpired_mono {n m : ℕ} (hnm : n ≤ m) (h : timerFireExpired call mem now n p = some q) :
    timerFireExpired call mem now m p = some q := by
  induction n generalizing p m with
  | zero => cases h
  | succ n ih =>
    obtain ⟨m, rfl⟩ : ∃ k, m = k + 1 := ⟨m - 1, by omega⟩
    rw [timerFireExpired] at h ⊢
    split at h
    · exact h
    · split at h
      · rename_i hdue
        rw [if_pos hdue]
        split at h
        · exact ih (by omega) h
        · exact ih (by omega) h
      · rename_i hdue
        rw [if_neg hdue]
        exact h

/-- A pass begins. -/
lemma Going.start (hs : s₀.Sound) (env : σ) : Going now s₀ ⟨s₀, env, []⟩ := by
  constructor
  · exact hs
  · intro t ht _
    exact ⟨ht, rfl, by simp, by simp⟩
  · intro t ht _
    exact Or.inl ⟨ht, rfl⟩
  all_goals simp [fires]

end Loop

variable [DecidableEq T] {call : κ → Pass T κ σ → Pass T κ σ} {mem : σ → Bool} {now : ℕ} {s₀ : Store T κ}

/-- A pass over a heap of timers ends, whatever the callbacks cancel and make.  The callback of an expired timer
is called unless the timer has been canceled before; each is called once, they come in the order of the
deadlines, and no other callback is called.  A timer that does not repeat is out of the heap afterwards, and one
that does and has not been canceled is armed for the next period, with memory or without.  No expired timer is
left. -/
theorem expiry_pass (hs : s₀.Sound) (env : σ) (hcall : ∀ cb p, Does now p (call cb p))
    (hov : ∀ t ∈ s₀.heap.data, (s₀.timer t).repeats = true → now + (s₀.timer t).periodMs * 1000000 < 2 ^ 64) :
    ∃ q, (∀ n, s₀.heap.data.length < n → timerFireExpired call mem now n ⟨s₀, env, []⟩ = some q) ∧
      (∀ t ∈ s₀.heap.data, s₀.due t ≤ now → .fire t (s₀.due t) ∈ q.log ∨ .cancel t ∈ q.log) ∧
      (q.log.Pairwise fun x y => ∀ t d, x = .cancel t → y ≠ .fire t d) ∧
      (∀ t d, .fire t d ∈ q.log → t ∈ s₀.heap.data ∧ d = s₀.due t ∧ d ≤ now) ∧
      ((fires q.log).map Prod.fst).Nodup ∧
      ((fires q.log).Pairwise fun x y => x.2 ≤ y.2) ∧
      (∀ t d, .fire t d ∈ q.log → (s₀.timer t).repeats = false → .create t ∉ q.log →
        t ∉ q.store.heap.data ∧ (q.store.timer t).active = false) ∧
      (∀ t d, .fire t d ∈ q.log → (s₀.timer t).repeats = true → .cancel t ∉ q.log →
        t ∈ q.store.heap.data ∧ (q.store.timer t).active = true ∧
          q.store.due t = now + (s₀.timer t).periodMs * 1000000) ∧
      (∀ t ∈ s₀.heap.data, .create t ∈ q.log → .cancel t ∈ q.log) ∧
      (∀ t, .lost t ∉ q.log) ∧
      q.store.Sound ∧ ∀ t ∈ q.store.heap.data, now < q.store.due t := by
  have hstart : Going now s₀ ⟨s₀, env, []⟩ := .start hs env
  have hlen : ((⟨s₀, env, []⟩ : Pass T κ σ).expired now).length ≤ s₀.heap.data.length := List.length_filter_le _ _
  obtain ⟨q, hq, h, hleft⟩ := @Going.loop _ _ _ _ _ _ _ _ mem hcall hov _ hstart (Nat.lt_succ_of_le hlen)
  refine ⟨q, ?_, ?_, h.before, h.fired, h.once, h.sorted, h.single, ?_, ?_, h.filed, h.sound, hleft⟩
  · intro n hn
    exact timerFireExpired_mono hn hq
  · intro t ht hdue
    rcases h.all t ht hdue with ⟨hin, heq⟩ | hf | hc
    · have hlate := hleft t hin
      rw [Store.due, heq] at hlate
      exact absurd hdue (Nat.not_le.mpr hlate)
    · exact Or.inl hf
    · exact Or.inr hc
  · intro t d hf hr hc
    obtain ⟨hin, heq⟩ := h.again t d hf hr hc
    refine ⟨hin, h.sound.active t hin, ?_⟩
    rw [Store.due, heq]
  · intro t ht hc
    exact h.reused t (hs.live t ht) hc

/-- Timer `0` with deadline 3, timer `2` with deadline 4, and timer `1` with deadline 5 and a period of one
millisecond. -/
def threeTimers : Store ℕ ℕ where
  heap := ⟨[0, 1, 2], 16⟩
  timer t :=
    { deadlineNs := [3, 5, 4].getD t 0
      periodMs := 1
      repeats := t == 1
      active := true
      heapAllocated := true
      cb := t
      period_pos := fun _ => Nat.one_pos }
  live t := t < 3

/-- The callback of timer `0` cancels timer `2`. -/
def cancelTwo (cb : ℕ) (p : Pass ℕ ℕ Unit) : Pass ℕ ℕ Unit :=
  if cb = 0 ∧ p.store.live 2 = true then
    { p with store := p.store.timerCancel 2, log := p.log ++ [.cancel 2] }
  else p

/-- The clock is at 10: timers `0` and `1` fire, `1` stays in the heap, and `2` has been canceled. -/
theorem expiry_pass_of_three : ∃ q, timerFireExpired cancelTwo (fun _ => false) 10 4 ⟨threeTimers, (), []⟩ = some q ∧
    fires q.log = [(0, 3), (1, 5)] ∧ .cancel 2 ∈ q.log ∧ q.store.heap.data = [1] ∧ q.store.due 1 = 1000010 := by
  have hs : threeTimers.Sound := by
    refine ⟨⟨?_, by decide, rfl⟩, by decide, fun _ _ => rfl, by decide⟩
    intro i hi hlt
    obtain rfl | rfl : i = 1 ∨ i = 2 := by
      simp only [threeTimers, List.length_cons, List.length_nil] at hlt
      omega
    · decide
    · decide
  have hcall : ∀ cb p, Does 10 p (cancelTwo cb p) := by
    intro cb p
    unfold cancelTwo
    split
    · rename_i h
      exact .cancel 2 h.2
    · exact .env p.env
  obtain ⟨q, hq, -, -, -, -, -, -, hagain, -, -, -, -⟩ :=
    @expiry_pass _ _ _ _ _ (fun _ => false) _ _ hs () hcall (by decide)
  have hq4 := hq 4 (by decide)
  have hlog : q.log = [.fire 0 3, .cancel 2, .fire 1 5] := by
    have hrun : (timerFireExpired cancelTwo (fun _ => false) 10 4 ⟨threeTimers, (), []⟩).map Pass.log =
        some [.fire 0 3, .cancel 2, .fire 1 5] := by decide
    rw [hq4] at hrun
    exact Option.some.inj hrun
  have hdata : q.store.heap.data = [1] := by
    have hrun : (timerFireExpired cancelTwo (fun _ => false) 10 4 ⟨threeTimers, (), []⟩).map
        (fun q => q.store.heap.data) = some [1] := by decide
    rw [hq4] at hrun
    exact Option.some.inj hrun
  refine ⟨q, hq4, by rw [hlog]; rfl, by simp [hlog], hdata, ?_⟩
  exact (hagain 1 5 (by simp [hlog]) rfl (by simp [hlog])).2.2

end Suspenders.Sched
