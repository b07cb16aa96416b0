import Mathlib.Data.List.FinRange
import Suspenders.Base
import Suspenders.Lib.Run

/-!
# The ready lists of a worker

A worker has four ready lists.  A coroutine is filed by the level it has when it is put on a list, and the
worker runs the head of the first list that is not empty.  A boost changes the level of a coroutine wherever
it is, and it leaves a coroutine on the list it was filed on.

`Worker` is one worker with the coroutines that are pinned to it, and everything that runs on its thread is
one step.  Which coroutine owns a mutex, and which wait a wake ends, is left open: a lock call may boost
anybody, and a wake may be for anybody.  Levels are plain integers, the lower the more urgent; a call may
pass any, and `clampQos` brings them into the range of the lists.
-/

namespace Suspenders.Ready

open Lib

/-- `suspenders_clamp_qos` -/
def clampQos (qos : ℤ) : Fin 4 :=
  if qos < 0 then 0 else if h : 4 ≤ qos then 3 else ⟨qos.toNat, by omega⟩

/-- A worker and its coroutines. -/
structure Worker where
  /-- `state`; `none` if there is no such coroutine on this worker yet -/
  state : CrId → Option CrState
  /-- `base_qos` -/
  base : CrId → ℤ
  /-- `effective_qos` -/
  eff : CrId → ℤ
  /-- The lists from `ready_queue_heads[q]` to `ready_queue_tails[q]`. -/
  ready : Fin 4 → List CrId
  /-- `suspenders_running`, unless it is the scheduler's own context -/
  running : Option CrId
  /-- How often a coroutine was put on a list so far.  This and the next two are not in the code. -/
  now : ℕ
  /-- The time at which a coroutine was put on a list last. -/
  stamp : CrId → ℕ
  /-- Whether its `effective_qos` has changed since. -/
  moved : CrId → Bool

namespace Worker

/-- A worker without coroutines. -/
def init : Worker where
  state := fun _ => none
  base := fun _ => 0
  eff := fun _ => 0
  ready := fun _ => []
  running := none
  now := 0
  stamp := fun _ => 0
  moved := fun _ => false

variable (w : Worker) (c : CrId)

/-- The state of `c` becomes `x`. -/
def setState (x : CrState) : Worker := { w with state := Function.update w.state c (some x) }

/-- A store to `effective_qos` of `c`. -/
def setEff (qos : ℤ) : Worker :=
  { w with
    eff := Function.update w.eff c qos
    moved := Function.update w.moved c (w.moved c || decide (qos ≠ w.eff c)) }

/-- `suspenders_ready_enqueue` -/
def readyEnqueue : Worker :=
  { w.setState c .ready with
    ready := Function.update w.ready (clampQos (w.eff c)) (w.ready (clampQos (w.eff c)) ++ [c])
    now := w.now + 1
    stamp := Function.update w.stamp c w.now
    moved := Function.update w.moved c false }

/-- One round of the loop in `suspenders_ready_dequeue`. -/
def takeHead (q : Fin 4) : Option (CrId × Worker) :=
  match w.ready q with
  | [] => none
  | c :: rest => some (c, { w with ready := Function.update w.ready q rest })

/-- `suspenders_ready_dequeue` -/
def readyDequeue : Option (CrId × Worker) := (List.finRange 4).findSome? w.takeHead

/-- The switch to coroutine `c`. -/
def switchTo : Worker := { w.setState c .running with running := some c }

/-- The switch back to the scheduler. -/
def switchOut : Worker := { w with running := none }

/-- `suspenders_yield` -/
def yield : Worker :=
  match w.running with
  | none => w
  | some r => (w.readyEnqueue r).switchOut

/-- `suspenders_suspend` -/
def suspend : Worker :=
  match w.running with
  | none => w
  | some r => (if w.state r = some .running then w.setState r .suspended else w).switchOut

/-- What ends `suspenders_resume` and `s_wait_finish_wake`: a wake of a coroutine of level `qos` makes a
running coroutine yield that is less urgent. -/
def preempt (qos : ℤ) : Worker :=
  match w.running with
  | none => w
  | some r => if qos < w.eff r then w.yield else w

/-- `suspenders_resume` of a coroutine of this worker -/
def resume : Worker := if w.state c = some .suspended then (w.readyEnqueue c).preempt (w.eff c) else w

/-- `s_wake_no_preempt`, and the wakes from the inbox, timers and I/O. -/
def wakeNoPreempt : Worker := if w.state c = some .suspended then w.readyEnqueue c else w

/-- `s_wait_finish_wake` -/
def waitFinishWake : Worker := (w.wakeNoPreempt c).preempt (w.eff c)

/-- `suspenders_boost` -/
def boost (newQos : ℤ) : Worker := if newQos < w.eff c then w.setEff c newQos else w

/-- `s_spawn_impl` on the only worker there is -/
def spawn (qos : ℤ) : Worker :=
  { w with base := Function.update w.base c qos, eff := Function.update w.eff c qos }.readyEnqueue c

/-- `s_injector_take` and the switch to the coroutine, which somebody may have boosted meanwhile. -/
def injectorTake (base eff : ℤ) : Worker :=
  { w with base := Function.update w.base c base, eff := Function.update w.eff c eff }.switchTo c

end Worker

/-- What happens on the worker, or to its coroutines. -/
inductive Event
  | spawn (c : CrId) (qos : ℤ)
  | injectorTake (c : CrId) (base eff : ℤ)
  /-- `suspenders_ready_dequeue` and the switch to the coroutine. -/
  | dispatch
  | yield
  | suspend
  | exit
  | resume (c : CrId)
  | wakeNoPreempt (c : CrId)
  | waitFinishWake (c : CrId)
  | boost (c : CrId) (newQos : ℤ)
  /-- The running coroutine waits for a mutex of `owner`, in `suspenders_mutex_lock_dl` before the block. -/
  | lock (owner : CrId)
  /-- `suspenders_mutex_unlock` drops the boost of the running coroutine. -/
  | unlock
  deriving DecidableEq

/-- One step, if it can be taken. -/
def step (w : Worker) : Event → Option Worker
  | .spawn c qos => if w.state c = none then some (w.spawn c qos) else none
  | .injectorTake c base eff =>
    if w.state c = none ∧ w.running = none ∧ w.readyDequeue.isNone then some (w.injectorTake c base eff)
    else none
  | .dispatch =>
    if w.running = none then w.readyDequeue.map fun p => p.2.switchTo p.1 else none
  | .yield => some w.yield
  | .suspend => some w.suspend
  | .exit => w.running.map fun r => (w.setState r .done).switchOut
  | .resume c => some (w.resume c)
  | .wakeNoPreempt c => some (w.wakeNoPreempt c)
  | .waitFinishWake c => some (w.waitFinishWake c)
  | .boost c newQos => some (w.boost c newQos)
  | .lock owner => w.running.map fun r => w.boost owner (w.eff r)
  | .unlock => w.running.map fun r => w.setEff r (w.base r)

/-- The coroutine is on a ready list. -/
def Worker.Listed (w : Worker) (c : CrId) : Prop := ∃ q, c ∈ w.ready q

/-- The step calls `suspenders_boost` for `c` with level `newQos`. -/
def Boosts (w : Worker) (c : CrId) (newQos : ℤ) : Event → Prop
  | .boost c' q => c' = c ∧ q = newQos
  | .lock owner => owner = c ∧ ∃ r, w.running = some r ∧ w.eff r = newQos
  | _ => False

/-- No boost gives a coroutine that is on a ready list a level that belongs to another list. -/
def Keeps (w : Worker) (e : Event) (_ : Worker) : Prop :=
  ∀ c newQos, Boosts w c newQos e → w.Listed c → newQos < w.eff c → clampQos newQos = clampQos (w.eff c)

/-- What is known of the lists.  If `strict` holds then every coroutine is on the list of its level, else
those are whose `effective_qos` has not changed since they were filed. -/
structure Filed (strict : Prop) (w : Worker) : Prop where
  ready : ∀ c q, c ∈ w.ready q → w.state c = some .ready
  apart : ∀ c p q, c ∈ w.ready p → c ∈ w.ready q → p = q
  sorted : ∀ q, (w.ready q).Pairwise fun c d => w.stamp c < w.stamp d
  past : ∀ c q, c ∈ w.ready q → w.stamp c < w.now
  level : ∀ c q, c ∈ w.ready q → strict ∨ w.moved c = false → clampQos (w.eff c) = q
  run : ∀ c, w.running = some c → w.state c = some .running

section steps

variable {strict : Prop} {w w' : Worker} {c : CrId} {e : Event}

lemma takeHead_eq_none {q : Fin 4} : w.takeHead q = none ↔ w.ready q = [] := by
  unfold Worker.takeHead
  split <;> simp_all

lemma takeHead_eq_some {q : Fin 4} (h : w.takeHead q = some (c, w')) :
    ∃ rest, w.ready q = c :: rest ∧ w' = { w with ready := Function.update w.ready q rest } := by
  unfold Worker.takeHead at h
  split at h
  · cases h
  · rename_i d rest heq
    simp only [Option.some.injEq, Prod.mk.injEq] at h
    obtain ⟨rfl, rfl⟩ := h
    exact ⟨rest, heq, rfl⟩

/-- The worker takes the head of a list, and the lists of more urgent levels are empty. -/
lemma readyDequeue_eq_some (h : w.readyDequeue = some (c, w')) :
    ∃ q rest, w.ready q = c :: rest ∧ (∀ p < q, w.ready p = []) ∧
      w' = { w with ready := Function.update w.ready q rest } := by
  obtain ⟨l₁, q, l₂, hl, hq, hnone⟩ := List.findSome?_eq_some_iff.mp h
  obtain ⟨rest, hrest, rfl⟩ := takeHead_eq_some hq
  refine ⟨q, rest, hrest, ?_, rfl⟩
  intro p hp
  have hsorted : (l₁ ++ q :: l₂).Pairwise (· < ·) := hl ▸ List.pairwise_lt_finRange 4
  have hmem : p ∈ l₁ ++ q :: l₂ := hl ▸ List.mem_finRange p
  rcases List.mem_append.mp hmem with h₁ | h₂
  · exact takeHead_eq_none.mp (hnone p h₁)
  · rcases List.mem_cons.mp h₂ with rfl | h₂
    · exact absurd hp (lt_irrefl p)
    · have hlt : q < p := (List.pairwise_cons.mp (List.pairwise_append.mp hsorted).2.1).1 p h₂
      exact absurd hp hlt.asymm

lemma mem_readyEnqueue {d : CrId} {q : Fin 4} :
    d ∈ (w.readyEnqueue c).ready q ↔ d ∈ w.ready q ∨ d = c ∧ q = clampQos (w.eff c) := by
  by_cases hq : q = clampQos (w.eff c)
  · subst hq
    simp [Worker.readyEnqueue]
  · simp [Worker.readyEnqueue, hq]

namespace Filed

/-- A coroutine that is not `READY` is on no list. -/
lemma not_mem (h : Filed strict w) (hc : w.state c ≠ some .ready) (q : Fin 4) : c ∉ w.ready q :=
  fun hmem => hc (h.ready c q hmem)

/-- The lists and the fields the invariant looks at decide it. -/
lemma congr (h : Filed strict w) (hready : w'.ready = w.ready) (hnow : w'.now = w.now)
    (hsame : ∀ c q, c ∈ w.ready q → w'.state c = w.state c ∧ w'.stamp c = w.stamp c ∧
      w'.moved c = w.moved c ∧ w'.eff c = w.eff c)
    (hrun : ∀ c, w'.running = some c → w'.state c = some .running) : Filed strict w' where
  ready c q hc := by
    rw [hready] at hc
    rw [(hsame c q hc).1]
    exact h.ready c q hc
  apart := by
    rw [hready]
    exact h.apart
  sorted q := by
    rw [hready]
    refine (h.sorted q).imp_of_mem ?_
    intro c d hc hd hlt
    rw [(hsame c q hc).2.1, (hsame d q hd).2.1]
    exact hlt
  past c q hc := by
    rw [hready] at hc
    rw [(hsame c q hc).2.1, hnow]
    exact h.past c q hc
  level c q hc hmoved := by
    rw [hready] at hc
    obtain ⟨-, -, hm, he⟩ := hsame c q hc
    rw [he]
    exact h.level c q hc (hm ▸ hmoved)
  run := hrun

/-- Filing a coroutine that is on no list.  The running coroutine may be filed when it switches out. -/
lemma readyEnqueue (h : Filed strict w) (hc : w.state c ≠ some .ready) (run : Option CrId)
    (hrun : ∀ d, run = some d → d ≠ c ∧ w.state d = some .running) :
    Filed strict { w.readyEnqueue c with running := run } := by
  have hne : ∀ d q, d ∈ w.ready q → d ≠ c := by
    rintro d q hd rfl
    exact h.not_mem hc q hd
  -- nothing changes for those who were listed before
  have hold : ∀ d q, d ∈ w.ready q → (w.readyEnqueue c).stamp d = w.stamp d := by
    intro d q hd
    exact Function.update_of_ne (hne d q hd) _ _
  have hnew : (w.readyEnqueue c).stamp c = w.now := Function.update_self _ _ _
  constructor
  · intro d q hd
    rcases mem_readyEnqueue.mp hd with hd | ⟨rfl, -⟩
    · exact (Function.update_of_ne (hne d q hd) _ _).trans (h.ready d q hd)
    · exact Function.update_self _ _ _
  · intro d p q hp hq
    rcases mem_readyEnqueue.mp hp with hp' | ⟨rfl, rfl⟩
    · rcases mem_readyEnqueue.mp hq with hq' | ⟨rfl, -⟩
      · exact h.apart d p q hp' hq'
      · exact absurd hp' (h.not_mem hc p)
    · rcases mem_readyEnqueue.mp hq with hq' | ⟨-, rfl⟩
      · exact absurd hq' (h.not_mem hc q)
      · rfl
  · intro q
    have hsorted : (w.ready q).Pairwise fun d d' =>
        (w.readyEnqueue c).stamp d < (w.readyEnqueue c).stamp d' := by
      refine (h.sorted q).imp_of_mem ?_
      intro d d' hd hd' hlt
      rw [hold d q hd, hold d' q hd']
      exact hlt
    by_cases hq : q = clampQos (w.eff c)
    · have hlist : (w.readyEnqueue c).ready q = w.ready q ++ [c] := by
        subst hq
        exact Function.update_self _ _ _
      show List.Pairwise _ ((w.readyEnqueue c).ready q)
      rw [hlist, List.pairwise_append]
      refine ⟨hsorted, List.pairwise_singleton _ c, ?_⟩
      intro d hd d' hd'
      rw [List.mem_singleton.mp hd', hold d q hd, hnew]
      exact h.past d q hd
    · have hlist : (w.readyEnqueue c).ready q = w.ready q := Function.update_of_ne hq _ _
      show List.Pairwise _ ((w.readyEnqueue c).ready q)
      rw [hlist]
      exact hsorted
  · intro d q hd
    show (w.readyEnqueue c).stamp d < w.now + 1
    rcases mem_readyEnqueue.mp hd with hd | ⟨rfl, -⟩
    · rw [hold d q hd]
      exact (h.past d q hd).trans (Nat.lt_succ_self _)
    · rw [hnew]
      exact Nat.lt_succ_self _
  · intro d q hd hmoved
    rcases mem_readyEnqueue.mp hd with hd | ⟨rfl, rfl⟩
    · refine h.level d q hd (hmoved.imp_right ?_)
      intro hm
      exact (Function.update_of_ne (hne d q hd) _ _).symm.trans hm
    · rfl
  · intro d hd
    obtain ⟨hdc, hst⟩ := hrun d hd
    exact (Function.update_of_ne hdc _ _).trans hst

/-- A store to the state of a coroutine that is on no list. -/
lemma setState (h : Filed strict w) (hc : w.state c ≠ some .ready) {x : CrState} (run : Option CrId)
    (hrun : ∀ d, run = some d → (w.setState c x).state d = some .running) :
    Filed strict { w.setState c x with running := run } := by
  refine h.congr rfl rfl ?_ hrun
  intro d q hd
  have hne : d ≠ c := by
    rintro rfl
    exact h.not_mem hc q hd
  exact ⟨Function.update_of_ne hne _ _, rfl, rfl, rfl⟩

/-- Taking the head of a list, and running it. -/
lemma dispatch (h : Filed strict w) {q : Fin 4} {rest : List CrId} (hq : w.ready q = c :: rest) :
    Filed strict ({ w with ready := Function.update w.ready q rest }.switchTo c) := by
  have hmem : c ∈ w.ready q := hq ▸ List.mem_cons_self
  have hrest : ∀ d ∈ rest, w.stamp c < w.stamp d := (List.pairwise_cons.mp (hq ▸ h.sorted q)).1
  have hsub : ∀ d p, d ∈ Function.update w.ready q rest p → d ∈ w.ready p ∧ d ≠ c := by
    intro d p hd
    by_cases hp : p = q
    · subst hp
      rw [Function.update_self] at hd
      refine ⟨hq ▸ List.mem_cons_of_mem c hd, ?_⟩
      rintro rfl
      exact lt_irrefl _ (hrest d hd)
    · rw [Function.update_of_ne hp] at hd
      refine ⟨hd, ?_⟩
      rintro rfl
      exact hp (h.apart d p q hd hmem)
  constructor
  · intro d p hd
    obtain ⟨hd, hne⟩ := hsub d p hd
    exact (Function.update_of_ne hne _ _).trans (h.ready d p hd)
  · intro d p p' hp hp'
    exact h.apart d p p' (hsub d p hp).1 (hsub d p' hp').1
  · intro p
    show (Function.update w.ready q rest p).Pairwise _
    by_cases hp : p = q
    · subst hp
      rw [Function.update_self]
      exact (List.pairwise_cons.mp (hq ▸ h.sorted p)).2
    · rw [Function.update_of_ne hp]
      exact h.sorted p
  · intro d p hd
    exact h.past d p (hsub d p hd).1
  · intro d p hd
    exact h.level d p (hsub d p hd).1
  · rintro d hd
    obtain rfl : c = d := Option.some.inj hd
    exact Function.update_self _ _ _

lemma yield (h : Filed strict w) : Filed strict w.yield := by
  unfold Worker.yield
  split
  · exact h
  · rename_i r hr
    refine h.readyEnqueue ?_ none ?_
    · rw [h.run r hr]
      simp
    · simp

lemma preempt (h : Filed strict w) (qos : ℤ) : Filed strict (w.preempt qos) := by
  unfold Worker.preempt
  split
  · exact h
  · split
    · exact h.yield
    · exact h

lemma wakeNoPreempt (h : Filed strict w) (c : CrId) : Filed strict (w.wakeNoPreempt c) := by
  unfold Worker.wakeNoPreempt
  split
  · rename_i hst
    refine h.readyEnqueue (by simp [hst]) w.running ?_
    intro d hd
    refine ⟨?_, h.run d hd⟩
    rintro rfl
    simp [h.run d hd] at hst
  · exact h

/-- A store to the level of a coroutine.  If it is on a list then it stays on the right one, or it counts as
moved. -/
lemma setEff (h : Filed strict w) {qos : ℤ}
    (hk : strict → w.Listed c → clampQos qos = clampQos (w.eff c)) : Filed strict (w.setEff c qos) where
  ready := h.ready
  apart := h.apart
  sorted := h.sorted
  past := h.past
  level d q hd hmoved := by
    by_cases hdc : d = c
    · subst hdc
      have heff : (w.setEff d qos).eff d = qos := Function.update_self _ _ _
      have hm : (w.setEff d qos).moved d = (w.moved d || decide (qos ≠ w.eff d)) := Function.update_self _ _ _
      rw [heff]
      rcases hmoved with hs | hmoved
      · rw [hk hs ⟨q, hd⟩]
        exact h.level d q hd (Or.inl hs)
      · rw [hm, Bool.or_eq_false_iff, decide_eq_false_iff_not, not_not] at hmoved
        rw [hmoved.2]
        exact h.level d q hd (Or.inr hmoved.1)
    · have heff : (w.setEff c qos).eff d = w.eff d := Function.update_of_ne hdc _ _
      have hm : (w.setEff c qos).moved d = w.moved d := Function.update_of_ne hdc _ _
      rw [heff]
      exact h.level d q hd (hm ▸ hmoved)
  run := h.run

lemma boost (h : Filed strict w) {newQos : ℤ}
    (hk : strict → w.Listed c → newQos < w.eff c → clampQos newQos = clampQos (w.eff c)) :
    Filed strict (w.boost c newQos) := by
  unfold Worker.boost
  split
  · rename_i hlt
    exact h.setEff fun hs hl => hk hs hl hlt
  · exact h

/-- New levels for a coroutine that is on no list. -/
lemma fresh (h : Filed strict w) (hc : w.state c ≠ some .ready) (base eff : ℤ) :
    Filed strict { w with base := Function.update w.base c base, eff := Function.update w.eff c eff } := by
  refine h.congr rfl rfl ?_ h.run
  intro d q hd
  have hne : d ≠ c := by
    rintro rfl
    exact h.not_mem hc q hd
  exact ⟨rfl, rfl, rfl, Function.update_of_ne hne _ _⟩

end Filed

/-- What one step does to the lists. -/
lemma filed_step (h : Filed strict w) (hstep : step w e = some w') (hk : strict → Keeps w e w') :
    Filed strict w' := by
  cases e with
  | spawn c qos =>
    obtain ⟨hst, rfl⟩ : w.state c = none ∧ w.spawn c qos = w' := by simpa [step] using hstep
    have hc : w.state c ≠ some .ready := by simp [hst]
    refine (h.fresh hc qos qos).readyEnqueue hc w.running ?_
    intro d hd
    refine ⟨?_, h.run d hd⟩
    rintro rfl
    simp [h.run d hd] at hst
  | injectorTake c base eff =>
    obtain ⟨⟨hst, -⟩, rfl⟩ : (w.state c = none ∧ w.running = none ∧ w.readyDequeue.isNone) ∧
        w.injectorTake c base eff = w' := by simpa [step] using hstep
    have hc : w.state c ≠ some .ready := by simp [hst]
    refine (h.fresh hc base eff).setState hc (some c) ?_
    intro d hd
    obtain rfl : c = d := Option.some.inj hd
    exact Function.update_self _ _ _
  | dispatch =>
    obtain ⟨-, c, w₁, hdeq, rfl⟩ : w.running = none ∧ ∃ c w₁, w.readyDequeue = some (c, w₁) ∧
        w₁.switchTo c = w' := by simpa [step] using hstep
    obtain ⟨q, rest, hq, -, rfl⟩ := readyDequeue_eq_some hdeq
    exact h.dispatch hq
  | yield =>
    obtain rfl : w.yield = w' := by simpa [step] using hstep
    exact h.yield
  | suspend =>
    obtain rfl : w.suspend = w' := by simpa [step] using hstep
    unfold Worker.suspend
    split
    · exact h
    · rename_i r hr
      have hst := h.run r hr
      rw [if_pos hst]
      exact h.setState (by simp [hst]) none (by simp)
  | exit =>
    obtain ⟨r, hr, rfl⟩ : ∃ r, w.running = some r ∧ (w.setState r .done).switchOut = w' := by
      simpa [step] using hstep
    exact h.setState (by simp [h.run r hr]) none (by simp)
  | resume c =>
    obtain rfl : w.resume c = w' := by simpa [step] using hstep
    unfold Worker.resume
    split
    · rename_i hst
      have hw := h.wakeNoPreempt c
      rw [Worker.wakeNoPreempt, if_pos hst] at hw
      exact hw.preempt _
    · exact h
  | wakeNoPreempt c =>
    obtain rfl : w.wakeNoPreempt c = w' := by simpa [step] using hstep
    exact h.wakeNoPreempt c
  | waitFinishWake c =>
    obtain rfl : w.waitFinishWake c = w' := by simpa [step] using hstep
    exact (h.wakeNoPreempt c).preempt _
  | boost c newQos =>
    obtain rfl : w.boost c newQos = w' := by simpa [step] using hstep
    exact h.boost fun hs hl => hk hs c newQos ⟨rfl, rfl⟩ hl
  | lock owner =>
    obtain ⟨r, hr, rfl⟩ : ∃ r, w.running = some r ∧ w.boost owner (w.eff r) = w' := by
      simpa [step] using hstep
    exact h.boost fun hs hl => hk hs owner (w.eff r) ⟨rfl, r, hr, rfl⟩ hl
  | unlock =>
    obtain ⟨r, hr, rfl⟩ : ∃ r, w.running = some r ∧ w.setEff r (w.base r) = w' := by
      simpa [step] using hstep
    refine h.setEff ?_
    rintro - ⟨q, hq⟩
    exact absurd hq (h.not_mem (by simp [h.run r hr]) q)

lemma filed_init : Filed strict .init := by
  constructor <;> simp [Worker.init]

lemma filed_reachable (h : Reachable (StepOf step) .init w) : Filed False w := by
  refine h.invariant filed_init ?_
  intro s e t hs hstep
  exact filed_step hs hstep False.elim

lemma filed_of_keeps (h : Reachable (Restrict (StepOf step) Keeps) .init w) : Filed True w := by
  refine h.invariant filed_init ?_
  intro s e t hs hstep
  exact filed_step hs hstep.1 fun _ => hstep.2

/-- Of the coroutines on the list of its level, the one that is taken was filed first. -/
lemma Filed.first (h : Filed strict w) (hdeq : w.readyDequeue = some (c, w')) {d : CrId} {q : Fin 4}
    (hd : d ∈ w.ready q) (hne : d ≠ c) (hc : strict ∨ w.moved c = false) (hd' : strict ∨ w.moved d = false)
    (heq : clampQos (w.eff d) = clampQos (w.eff c)) : w.stamp c < w.stamp d := by
  obtain ⟨p, rest, hp, -, -⟩ := readyDequeue_eq_some hdeq
  have hcp : clampQos (w.eff c) = p := h.level c p (hp ▸ List.mem_cons_self) hc
  have hdq : clampQos (w.eff d) = q := h.level d q hd hd'
  obtain rfl : q = p := by rw [← hdq, heq, hcp]
  have hrest : d ∈ rest := by
    rw [hp] at hd
    exact (List.mem_cons.mp hd).resolve_left hne
  exact (List.pairwise_cons.mp (hp ▸ h.sorted q)).1 d hrest

end steps

/-- Whichever coroutine the worker takes from its lists, it was filed before every other one that has the
same level, as long as neither has changed its level since.  In every run in which no boost moves a listed
coroutine to the level of another list, its level is minimal among all that are listed, and it was filed
before every other one of that level. -/
theorem dispatch_by_level {w w' : Worker} {c : CrId} (hdeq : w.readyDequeue = some (c, w')) :
    (Reachable (StepOf step) .init w → w.moved c = false →
      ∀ d, w.Listed d → d ≠ c → w.moved d = false → clampQos (w.eff d) = clampQos (w.eff c) →
        w.stamp c < w.stamp d) ∧
    (Reachable (Restrict (StepOf step) Keeps) .init w →
      (∀ d, w.Listed d → clampQos (w.eff c) ≤ clampQos (w.eff d)) ∧
      ∀ d, w.Listed d → d ≠ c → clampQos (w.eff d) = clampQos (w.eff c) → w.stamp c < w.stamp d) := by
  refine ⟨?_, fun h => ⟨?_, ?_⟩⟩
  · rintro h hc d ⟨q, hd⟩ hne hmoved heq
    exact (filed_reachable h).first hdeq hd hne (Or.inr hc) (Or.inr hmoved) heq
  · rintro d ⟨q, hd⟩
    have hf := filed_of_keeps h
    obtain ⟨p, rest, hp, hempty, -⟩ := readyDequeue_eq_some hdeq
    rw [hf.level c p (hp ▸ List.mem_cons_self) (Or.inl trivial), hf.level d q hd (Or.inl trivial)]
    by_contra hlt
    rw [hempty q (not_le.mp hlt)] at hd
    simp at hd
  · rintro d ⟨q, hd⟩ hne heq
    exact (filed_of_keeps h).first hdeq hd hne (Or.inl trivial) (Or.inl trivial) heq

/-- Three coroutines are spawned, the first with `SUSPENDERS_QOS_NORMAL` and the others with
`SUSPENDERS_QOS_HIGH`. -/
def spawned : Worker := ((Worker.init.spawn 0 2).spawn 1 1).spawn 2 1

/-- The second one is taken first: its level is minimal, and it was filed before the third. -/
theorem dispatch_by_level_spawned : (spawned.readyDequeue.map Prod.fst = some 1) ∧
    clampQos (spawned.eff 1) ≤ clampQos (spawned.eff 0) ∧ spawned.stamp 1 < spawned.stamp 2 := by
  have hrun : Reachable (Restrict (StepOf step) Keeps) .init spawned :=
    ⟨[.spawn 0 2, .spawn 1 1, .spawn 2 1], .cons ⟨rfl, fun _ _ h => h.elim⟩ <|
      .cons ⟨rfl, fun _ _ h => h.elim⟩ <| .cons ⟨rfl, fun _ _ h => h.elim⟩ <| .nil _⟩
  have hdeq : spawned.readyDequeue = some (1, _) := rfl
  obtain ⟨hmin, hfirst⟩ := (dispatch_by_level hdeq).2 hrun
  exact ⟨rfl, hmin 0 ⟨2, by decide⟩, hfirst 2 ⟨1, by decide⟩ (by decide) rfl⟩

/-- A coroutine that is boosted while it is on the list of `SUSPENDERS_QOS_LOW` stays there: one of
`SUSPENDERS_QOS_NORMAL` is taken before it although it has `SUSPENDERS_QOS_REALTIME` now. -/
theorem boosted_waits_behind : ¬ ∀ w w' c, Reachable (StepOf step) .init w →
    w.readyDequeue = some (c, w') → ∀ d, w.Listed d → clampQos (w.eff c) ≤ clampQos (w.eff d) := by
  intro h
  have hrun : Reachable (StepOf step) .init (((Worker.init.spawn 0 2).spawn 1 3).boost 1 0) :=
    ⟨[.spawn 0 2, .spawn 1 3, .boost 1 0], .cons rfl <| .cons rfl <| .cons rfl <| .nil _⟩
  have hdeq : (((Worker.init.spawn 0 2).spawn 1 3).boost 1 0).readyDequeue = some (0, _) := rfl
  have hle := h _ _ 0 hrun hdeq 1 ⟨3, by decide⟩
  exact absurd hle (by decide)

end Suspenders.Ready
