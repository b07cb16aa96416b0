import Suspenders.Sched.Timeout

/-!
# Sleeps

`suspenders_sleep_ns` adds the time to the clock and passes the sum, which is a number of 64 bits, to
`suspenders_sleep_dl`.  That returns `SUSPENDERS_OK` only when the clock has reached its deadline: a sleep that
does not return at once has a timer in the heap of its worker, and its wait is decided `SUSPENDERS_OK` by the
callback of this timer and by nothing else.

So a sleep is as long as it should be, unless the sum does not fit in 64 bits; then it is short.  The same holds
for `suspenders_queue_after`, whose coroutine sleeps and submits the task when it wakes up.
-/

namespace Suspenders.Sched

open Lib Wait

/-- What `suspenders_sleep_ns` passes to `suspenders_sleep_dl` when the clock is at `now`. -/
def sleepNs (now ns : ℕ) : ℕ := (now + ns) % 2 ^ 64

/-- The places of a sleep. -/
def inSleep : Pc → Bool
  | .pre .sleep | .sleep | .blk .sleep none | .susp .sleep none | .sync .sleep none | .ret _ => true
  | _ => false

/-- The code a sleep is going to return, where `st` is the status of its coroutine's node. -/
def sleepCode (st : Status) : Pc → Option Code
  | .blk .sleep none | .susp .sleep none | .sync .sleep none =>
    match st with
    | .decided code => some code
    | .waiting => none
  | .ret code => some code
  | _ => none

/-! ## Steps of the wait protocol -/

section Wait

variable {s t : Core} {c : CrId}

lemma inSleep_frame {k : Frame} {l : Option ListId}
    (h : inSleep (.blk k l) = true ∨ inSleep (.susp k l) = true ∨ inSleep (.sync k l) = true) :
    k = .sleep ∧ l = none := by
  cases k with
  | sleep =>
    cases l with
    | none => exact ⟨rfl, rfl⟩
    | some l => simp [inSleep] at h
  | _ => simp [inSleep] at h

/-- A step of a coroutine in a sleep, up to its return.  A sleep that does not wait has found its deadline passed,
or it cannot arm its timer. -/
lemma inSleep_own {act : Act} (hstep : Step s ⟨.co c, act⟩ t) (hin : inSleep (s.pc (.co c)) = true)
    (hret : ∀ code, act ≠ .ret code) : inSleep (t.pc (.co c)) = true ∧
      ∀ code, sleepCode (t.heap.waits.node (.wq c)).status (t.pc (.co c)) = some code →
        sleepCode (s.heap.waits.node (.wq c)).status (s.pc (.co c)) = some code ∨
        code = .canceled ∨ code = .timedout ∨
        (act = .tau ∧ s.pc (.co c) = .sleep ∧ t.pc (.co c) = .ret code ∧ (code = .ok ∨ code = .nomem)) := by
  -- the call is at none of the other places
  have away {pc : Pc} {P : Prop} (hpc : s.pc (.co c) = pc) (hno : inSleep pc = false) : P := by
    rw [hpc, hno] at hin
    cases hin
  cases hstep with
  | «local» _ hl =>
    simp only [Core.setPc_pc_self]
    generalize hpc : s.pc (.co c) = pc at hl hin
    cases hl with
    | @preCanceled _ e =>
      cases e with
      | sleep =>
        refine ⟨rfl, ?_⟩
        intro code hcode
        obtain rfl : Code.canceled = code := by simpa [Entry.fail, sleepCode] using hcode
        exact Or.inr (Or.inl rfl)
      | _ => cases hin
    | @preExpired _ e =>
      cases e with
      | sleep =>
        refine ⟨rfl, ?_⟩
        intro code hcode
        obtain rfl : Code.timedout = code := by simpa [Entry.fail, sleepCode] using hcode
        exact Or.inr (Or.inr (Or.inl rfl))
      | _ => cases hin
    | @preGo _ e r =>
      cases e with
      | sleep => exact ⟨rfl, fun code hcode => by cases hcode⟩
      | _ => cases hin
    | ret => exact absurd rfl (hret _)
    | sleepNow =>
      refine ⟨rfl, ?_⟩
      intro code hcode
      obtain rfl : Code.ok = code := by simpa [sleepCode] using hcode
      exact Or.inr (Or.inr (Or.inr ⟨rfl, rfl, rfl, Or.inl rfl⟩))
    | sleepNomem =>
      refine ⟨rfl, ?_⟩
      intro code hcode
      obtain rfl : Code.nomem = code := by simpa [sleepCode] using hcode
      exact Or.inr (Or.inr (Or.inr ⟨rfl, rfl, rfl, Or.inr rfl⟩))
    | _ => cases hin
  | @testWaiting _ k l hpc _ hst =>
    rw [hpc] at hin
    simp only [Core.setPc_pc_self]
    obtain ⟨rfl, rfl⟩ := inSleep_frame (Or.inl hin)
    exact ⟨rfl, fun code hcode => Or.inl (by rw [hpc]; exact hcode)⟩
  | @testDecided _ k l hpc _ hst =>
    rw [hpc] at hin
    simp only [Core.setPc_pc_self]
    obtain ⟨rfl, rfl⟩ := inSleep_frame (Or.inl hin)
    exact ⟨rfl, fun code hcode => Or.inl (by rw [hpc]; exact hcode)⟩
  | @suspend _ k l hpc _ =>
    rw [hpc] at hin
    simp only [Core.setPc_pc_self]
    obtain ⟨rfl, rfl⟩ := inSleep_frame (Or.inr (Or.inl hin))
    exact ⟨rfl, fun code hcode => Or.inl (by rw [hpc]; exact hcode)⟩
  | @decided _ k l st hpc _ _ hst =>
    rw [hpc] at hin
    simp only [Core.setPc_pc_self]
    obtain ⟨rfl, rfl⟩ := inSleep_frame (Or.inr (Or.inr hin))
    refine ⟨rfl, fun code hcode => Or.inl ?_⟩
    rw [hpc, hst]
    exact hcode
  | wake _ | unlock _ => exact ⟨hin, fun code hcode => Or.inl hcode⟩
  | @fin _ n rest _ =>
    refine ⟨hin, fun code hcode => Or.inl ?_⟩
    simpa using hcode
  | sleepPark hpc _ =>
    simp only [Core.setPc_pc_self]
    refine ⟨rfl, ?_⟩
    intro code hcode
    simp [sleepCode, Waits.parkNone] at hcode
  | crit hpc | flip hpc | selTry hpc | selInit hpc | selReady hpc | selPark hpc | selRegEnd hpc | selWaiting hpc
  | selDecided hpc | selSuspend hpc | selUnreg hpc | selLeave hpc | selAgain _ hpc | selRetry hpc | selRescanEnd hpc
  | selSync hpc | selSync2 hpc | selWon hpc | selScanned hpc | selFailed hpc => exact away hpc rfl

/-- A step of somebody else decides a sleep `SUSPENDERS_OK` only if it is the callback of its timer. -/
lemma inSleep_other {e : Event} (hinv : Inv s) (hstep : Step s e t) (hne : e.ctx ≠ .co c)
    (hin : inSleep (s.pc (.co c)) = true) {code : Code}
    (hcode : sleepCode (t.heap.waits.node (.wq c)).status (t.pc (.co c)) = some code) :
    sleepCode (s.heap.waits.node (.wq c)).status (s.pc (.co c)) = some code ∨ code = .canceled ∨ code = .timedout ∨
      (code = .ok ∧ ∃ w, e = ⟨.sched w, .sleepFire c⟩) := by
  have hf := step_footprint hinv hstep
  have hpc := hf.pc (.co c) (Ne.symm hne)
  rw [hpc] at hcode
  by_cases hmem : .wq c ∈ e.act.decides
  · obtain ⟨hwait, hst, -⟩ := hf.waits.decided _ hmem
    have hon : (s.pc (.co c)).waitOn = some none := by
      cases hon : (s.pc (.co c)).waitOn with
      | none => exact absurd hwait ((hinv.node c).out hon).2
      | some l =>
        generalize s.pc (.co c) = pc at hin hon
        unfold inSleep at hin
        split at hin <;> first | exact hon.symm | cases hon | cases hin
    have hout : ∀ l, .wq c ∉ s.heap.waits.queue l := by
      intro l hl
      rw [hinv.wf.mem_iff] at hl
      rcases (hinv.node c).wait none hon with hw | hw
      · rw [hw.2] at hl
        cases hl
      · rw [hw.2] at hl
        cases hl
    have hcode' : code = e.act.code := by
      rw [hst] at hcode
      generalize s.pc (.co c) = pc at hin hon hcode
      unfold inSleep at hin
      split at hin <;> first | exact (Option.some.inj hcode).symm | cases hon | cases hin
    have hgrant {a : Ctx} {op : Op} : .wq c ∉ (exec s.heap a op).2.granted := by
      intro hn
      obtain ⟨l, hl, -⟩ := exec_decider hinv.wf hn
      exact hout l hl
    cases hstep with
    | crit | selTry | selRetry => exact absurd hmem hgrant
    | @sleepFire w d _ _ _ _ =>
      obtain rfl : c = d := by simpa [Act.decides] using hmem
      exact Or.inr (Or.inr (Or.inr ⟨hcode', w, rfl⟩))
    | @flip a f d _ _ _ _ _ _ =>
      rw [hcode']
      cases f <;> simp [Act.code, WakeFor.code]
    | «local» _ hl =>
      rw [hl.decides_nil] at hmem
      cases hmem
    | _ => cases hmem
  · left
    rw [← (hf.waits.kept _ hmem hne).1]
    exact hcode

end Wait

/-! ## The clock and the calls -/

/-- Time may have passed, and coroutine `c` has not made a new call. -/
structure SameCall (c : CrId) (m m' : Timers) : Prop where
  now : m.now ≤ m'.now
  arg : m'.arg c = m.arg c
  inIo : m'.inIo c = m.inIo c

section Calls

variable {r r' : Runtime} {m m' : Timers} {c : CrId} {w : WorkerId}

lemma SameCall.refl (c : CrId) (m : Timers) : SameCall c m m := ⟨le_refl _, rfl, rfl⟩

lemma Kept.sameCall (h : Kept c m m') : SameCall c m m' := ⟨h.now, h.arg, h.inIo⟩

lemma timerDisarm_sameCall (t : TimerId) : SameCall c m (m.timerDisarm w t) := ⟨le_refl _, rfl, rfl⟩

lemma endWait_sameCall (d : CrId) : SameCall c m (m.endWait w d) := by
  unfold Timers.endWait
  split
  · exact timerDisarm_sameCall _
  · exact .refl c m

lemma clearDeadline_sameCall (d : CrId) : SameCall c m (m.clearDeadline w d) := by
  unfold Timers.clearDeadline
  split
  · exact ⟨le_refl _, rfl, rfl⟩
  · exact .refl c m

lemma setDeadline_sameCall (d : CrId) (deadline : ℕ) (ok : Bool) : SameCall c m (m.setDeadline w d deadline ok) := by
  have hclear : SameCall c m (m.clearDeadline w d) := clearDeadline_sameCall d
  unfold Timers.setDeadline
  split
  · exact hclear
  · exact ⟨hclear.now, hclear.arg, hclear.inIo⟩

lemma act_sameCall {d : CrId} {act : Act} {pc : Pc} {deadline : ℕ} {ok : Bool}
    (h : ∀ api, ¬ (d = c ∧ act = .call api)) : SameCall c m (m.act w d act pc deadline ok) := by
  rcases act_cases m w d act pc deadline ok with ⟨api, hact, heq⟩ | ⟨cb, -, heq, -⟩ | ⟨heq, -⟩ | ⟨heq, -⟩
  · have hne : c ≠ d := by
      rintro rfl
      exact h api ⟨rfl, hact⟩
    rw [heq]
    exact (kept_newCall hne).sameCall
  · obtain ⟨hnow, harg, hio, -⟩ := beginWait_rest m w d cb ok
    rw [heq]
    exact ⟨hnow.ge, congrFun harg c, congrFun hio c⟩
  · rw [heq]
    exact endWait_sameCall d
  · rw [heq]
    exact .refl c m

lemma after_sameCall {e : Ev} {deadline : ℕ} {ok : Bool} (h : ∀ api, e ≠ .core ⟨.co c, .call api⟩) :
    SameCall c m (m.after r e deadline ok) := by
  unfold Timers.after
  split
  · rename_i d act
    split
    · refine act_sameCall ?_
      rintro api ⟨rfl, rfl⟩
      exact h api rfl
    · exact .refl c m
  · split
    · exact clearDeadline_sameCall _
    · exact .refl c m
  · exact .refl c m

/-- The callback of a sleep's timer is called when the deadline of the sleep has passed. -/
lemma TimerInv.sleepFire_due {t : TimerId} (h : TimerInv r m) (hf : m.fireExpired w = some (t, m'))
    (hcb : (m.timer t).cb = .sleep c) : m.arg c ≤ m.now := by
  have hspec := fireExpired_spec h.heap hf
  cases t with
  | call d k =>
    obtain ⟨-, -, -, -, -, hdue, -, hcb'⟩ := (h.co d).call w k hspec.mem
    rw [hcb] at hcb'
    obtain rfl : c = d := by simpa using hcb'
    exact hdue ▸ hspec.due
  | deadline d =>
    obtain ⟨-, -, hcb'⟩ := (h.co d).deadline w hspec.mem
    rw [hcb] at hcb'
    cases hcb'
  | user i =>
    have hcb' := h.heap.user w i hspec.mem
    rw [hcb] at hcb'
    cases hcb'

end Calls

/-! ## A sleep -/

/-- If the sleep of coroutine `c` arms its timer in this step, then there is memory for it. -/
def CanArm (c : CrId) (p : Runtime × Timers) (e : TEv) (q : Runtime × Timers) : Prop :=
  e = .run (.core ⟨.co c, .tau⟩) → p.1.core.pc (.co c) = .sleep → q.1.core.pc (.co c) ≠ .ret .nomem

/-- Coroutine `c` is in a sleep until `deadline`; `mem` says that there is memory for its timer. -/
structure InSleep (c : CrId) (deadline : ℕ) (mem : Prop) (p : Runtime × Timers) : Prop where
  arg : p.2.arg c = deadline
  inIo : p.2.inIo c = false
  place : inSleep (p.1.core.pc (.co c)) = true
  outcome : ∀ code, sleepCode (p.1.core.heap.waits.node (.wq c)).status (p.1.core.pc (.co c)) = some code →
    (code = .ok ∧ deadline ≤ p.2.now) ∨ code = .canceled ∨ code = .timedout ∨ (code = .nomem ∧ ¬ mem)

section Steps

variable {r r' : Runtime} {m m' : Timers} {c : CrId} {deadline : ℕ} {mem : Prop} {p q : Runtime × Timers}

/-- A step of the wait protocol in a sleep. -/
lemma InSleep.core {e : Event} (h : InSleep c deadline mem (r, m)) (hinv : Inv r.core) (hstep : Step r.core e r'.core)
    (hm : SameCall c m m') (hret : ∀ code, e ≠ ⟨.co c, .ret code⟩)
    (hnow : e = ⟨.co c, .tau⟩ → r.core.pc (.co c) = .sleep → r'.core.pc (.co c) = .ret .ok → m.arg c ≤ m.now)
    (hmem : e = ⟨.co c, .tau⟩ → r.core.pc (.co c) = .sleep → r'.core.pc (.co c) = .ret .nomem → ¬ mem)
    (hfire : ∀ w, e = ⟨.sched w, .sleepFire c⟩ → m.arg c ≤ m.now) : InSleep c deadline mem (r', m') := by
  have hold : ∀ code, sleepCode (r.core.heap.waits.node (.wq c)).status (r.core.pc (.co c)) = some code →
      (code = .ok ∧ deadline ≤ m'.now) ∨ code = .canceled ∨ code = .timedout ∨ (code = .nomem ∧ ¬ mem) := by
    intro code hcode
    exact (h.outcome code hcode).imp_left fun hok => ⟨hok.1, hok.2.trans hm.now⟩
  have hdue : m.arg c ≤ m.now → deadline ≤ m'.now := fun hle => (h.arg ▸ hle).trans hm.now
  obtain ⟨a, act⟩ := e
  by_cases ha : a = .co c
  · subst ha
    obtain ⟨hplace, hover⟩ := inSleep_own hstep h.place fun code heq => hret code (by rw [heq])
    refine ⟨hm.arg.trans h.arg, hm.inIo.trans h.inIo, hplace, ?_⟩
    intro code hcode
    rcases hover code hcode with hc | hc | hc | ⟨rfl, hpc, hpc', rfl | rfl⟩
    · exact hold code hc
    · exact Or.inr (Or.inl hc)
    · exact Or.inr (Or.inr (Or.inl hc))
    · exact Or.inl ⟨rfl, hdue (hnow rfl hpc hpc')⟩
    · exact Or.inr (Or.inr (Or.inr ⟨rfl, hmem rfl hpc hpc'⟩))
  · have hpc := (step_footprint hinv hstep).pc (.co c) (Ne.symm ha)
    refine ⟨hm.arg.trans h.arg, hm.inIo.trans h.inIo, by rw [hpc]; exact h.place, ?_⟩
    intro code hcode
    rcases inSleep_other hinv hstep ha h.place hcode with hc | hc | hc | ⟨hc, w, heq⟩
    · exact hold code hc
    · exact Or.inr (Or.inl hc)
    · exact Or.inr (Or.inr (Or.inl hc))
    · exact Or.inl ⟨hc, hdue (hfire w heq)⟩

/-- A step inside `s_waiter_wake`. -/
lemma InSleep.waker {e : Event} (h : InSleep c deadline mem (r, m)) (hinv : Inv r.core)
    (hstep : Step r.core e r'.core) (hm : SameCall c m m') (hact : e.act = .waker) :
    InSleep c deadline mem (r', m') := by
  refine h.core hinv hstep hm ?_ ?_ ?_ ?_
  · rintro code rfl
    cases hact
  · rintro rfl
    cases hact
  · rintro rfl
    cases hact
  · rintro w rfl
    cases hact

/-- Somebody else does something outside the wait protocol. -/
lemma InSleep.same (h : InSleep c deadline mem (r, m)) (hcore : r'.core = r.core) (hm : SameCall c m m') :
    InSleep c deadline mem (r', m') := by
  refine ⟨hm.arg.trans h.arg, hm.inIo.trans h.inIo, by rw [hcore]; exact h.place, ?_⟩
  rw [hcore]
  intro code hcode
  exact (h.outcome code hcode).imp_left fun hok => ⟨hok.1, hok.2.trans hm.now⟩

/-- A sleep goes on until it returns. -/
lemma InSleep.step {e : TEv} (h : InSleep c deadline mem p) (ht : TimerInv p.1 p.2) (hinv : Inv p.1.core)
    (hstep : TStep p e q) (hmem : mem → CanArm c p e q) (hret : ∀ code, e ≠ .run (.core ⟨.co c, .ret code⟩)) :
    InSleep c deadline mem q := by
  cases hstep with
  | @run r r' m e deadline' ok hstep hallow =>
    have hcall : ∀ api, e ≠ .core ⟨.co c, .call api⟩ := by
      rintro api rfl
      cases hstep with
      | core _ _ hcore _ =>
        have hpl := h.place
        rw [(step_call hcore).1] at hpl
        cases hpl
    have hm : SameCall c m (m.after r e deadline' ok) := after_sameCall hcall
    rcases rstep_core hstep with hcore | ⟨e', hcore, rfl | hact⟩
    · exact h.same hcore hm
    · refine h.core hinv hcore hm (fun code heq => hret code (by rw [heq])) ?_ ?_ ?_
      · rintro rfl hpc hpc'
        exact (hallow hpc).1 hpc'
      · rintro rfl hpc hpc' hyes
        exact hmem hyes rfl hpc hpc'
      · rintro w rfl
        exact hallow.elim
    · exact h.waker hinv hcore hm hact
  | @fire r r' m m' w t e hat hf hcb hstep =>
    have hm : SameCall c m m' := ((fireExpired_spec ht.heap hf).kept c).sameCall
    have hsched : ∀ act, e = .core ⟨.co c, act⟩ → False := by
      rintro act rfl
      generalize (m.timer t).cb = cb at hcb
      cases cb <;> simp [Callback.Starts] at hcb
    have hfire : ∀ v, e = .core ⟨.sched v, .sleepFire c⟩ → m.arg c ≤ m.now := by
      rintro v rfl
      refine ht.sleepFire_due (t := t) hf ?_
      generalize (m.timer t).cb = cb at hcb
      cases cb <;> simp [Callback.Starts] at hcb
      rw [hcb.2]
    rcases rstep_core hstep with hcore | ⟨e', hcore, rfl | hact⟩
    · exact h.same hcore hm
    · refine h.core hinv hcore hm ?_ ?_ ?_ fun v heq => hfire v (by rw [heq])
      · rintro code rfl
        exact hsched _ rfl
      · rintro rfl
        exact (hsched _ rfl).elim
      · rintro rfl
        exact (hsched _ rfl).elim
    · exact h.waker hinv hcore hm hact
  | @fireIdle r m m' w t hat hf _ => exact h.same rfl ((fireExpired_spec ht.heap hf).kept c).sameCall
  | @fireRepeat r m m' w i period ok hat hf =>
    have hm := ((fireExpired_spec ht.heap hf).kept c).sameCall
    exact h.same rfl ⟨hm.now, hm.arg, hm.inIo⟩
  | tick n => exact h.same rfl ⟨Nat.le_add_right _ _, rfl, rfl⟩
  | deadline d ok _ _ _ _ => exact h.same rfl (setDeadline_sameCall _ _ _)
  | userArm _ _ _ => exact h.same rfl ⟨le_refl _, rfl, rfl⟩
  | userCancel _ => exact h.same rfl (timerDisarm_sameCall _)

/-- A sleep begins. -/
lemma InSleep.begin (hstep : TStep p (.run (.core ⟨.co c, .call .sleep⟩)) q) : InSleep c (q.2.arg c) mem q := by
  cases hstep with
  | @run r r' m e deadline ok hstep hallow =>
    cases hstep with
    | @core a act s hactive hloop hcore hguard =>
      obtain ⟨-, n, hpc⟩ := step_call hcore
      obtain ⟨w, hpin, -⟩ := hactive
      have hafter : m.after r (.core ⟨.co c, .call .sleep⟩) deadline ok = m.newCall c .sleep deadline := by
        simp [Timers.after, hpin, Timers.act]
      rw [hafter]
      refine ⟨rfl, by simp [Timers.newCall, Api.isIo], by simp [hpc, Api.entry, inSleep], ?_⟩
      intro code hcode
      simp [hpc, Api.entry, sleepCode] at hcode

lemma InSleep.run {es : List TEv} {cfg : Config} (hp : Reachable TStep (.init cfg, .init) p)
    (h : InSleep c deadline mem p) (hrun : Run (Restrict TStep fun p e q => mem → CanArm c p e q) p es q)
    (hret : ∀ code, .run (.core ⟨.co c, .ret code⟩) ∉ es) : InSleep c deadline mem q := by
  induction hrun with
  | nil => exact h
  | cons hstep _ ih =>
    refine ih (hp.step hstep.1) ?_ fun code hin => hret code (List.mem_cons_of_mem _ hin)
    exact h.step (timerInv_reachable hp) (core_inv (runtime_reachable hp)) hstep.1 hstep.2
      fun code heq => hret code (by simp [heq])

lemma after_now {e : Ev} {deadline : ℕ} {ok : Bool} : m.now ≤ (m.after r e deadline ok).now := by
  unfold Timers.after
  split
  · split
    · rename_i d act _ w _
      rcases act_cases m w d act (r.core.pc (.co d)) deadline ok with ⟨api, -, heq⟩ | ⟨cb, -, heq, -⟩ | ⟨heq, -⟩ | ⟨heq, -⟩
      · rw [heq]
        exact le_refl _
      · rw [heq]
        exact (beginWait_rest m w d cb ok).1.ge
      · rw [heq]
        exact (endWait_sameCall (c := d) d).now
      · rw [heq]
    · exact le_refl _
  · split
    · exact (clearDeadline_sameCall (c := 0) _).now
    · exact le_refl _
  · exact le_refl _

/-- The clock does not go back. -/
lemma tstep_now {e : TEv} (ht : TimerInv p.1 p.2) (hstep : TStep p e q) : p.2.now ≤ q.2.now := by
  cases hstep with
  | run _ _ _ _ => exact after_now
  | fire _ hf _ _ => exact ((fireExpired_spec ht.heap hf).kept 0).now
  | fireIdle _ hf _ => exact ((fireExpired_spec ht.heap hf).kept 0).now
  | fireRepeat _ _ _ hf => exact ((fireExpired_spec ht.heap hf).kept 0).now
  | tick n => exact Nat.le_add_right _ _
  | deadline d ok _ _ _ _ => exact (setDeadline_sameCall (c := 0) _ _ _).now
  | userArm _ _ _ => exact le_refl _
  | userCancel _ => exact le_refl _

lemma run_now {es : List TEv} {cfg : Config} (hp : Reachable TStep (.init cfg, .init) p) (hrun : Run TStep p es q) :
    p.2.now ≤ q.2.now := by
  induction hrun with
  | nil => exact le_refl _
  | cons hstep _ ih => exact (tstep_now (timerInv_reachable hp) hstep).trans (ih (hp.step hstep))

/-- Coroutine `c` calls `suspenders_sleep_ns(ns)` in state `p` and returns `code` from it to state `q`; `mem` says
that there is memory for its timer. -/
def SleepsNs (c : CrId) (ns : ℕ) (mem : Prop) (p : Runtime × Timers) (code : Code) (q : Runtime × Timers) : Prop :=
  ∃ p₁ p₂ es, TStep p (.run (.core ⟨.co c, .call .sleep⟩)) p₁ ∧ p₁.2.arg c = sleepNs p.2.now ns ∧
    Run (Restrict TStep fun p e q => mem → CanArm c p e q) p₁ es p₂ ∧
    (∀ code, .run (.core ⟨.co c, .ret code⟩) ∉ es) ∧ TStep p₂ (.run (.core ⟨.co c, .ret code⟩)) q

/-- A sleep that is not canceled ends when its deadline has passed, or that of its coroutine. -/
lemma SleepsNs.outcome {cfg : Config} {ns : ℕ} {code : Code} (hp : Reachable TStep (.init cfg, .init) p)
    (h : SleepsNs c ns mem p code q) : Reachable TStep (.init cfg, .init) q ∧
      (code = .canceled ∨ (code = .nomem ∧ ¬ mem) ∨ (code = .timedout ∧ q.2.deadlineArmed c = true) ∨
        sleepNs p.2.now ns ≤ q.2.now) := by
  obtain ⟨p₁, p₂, es, hcall, harg, hrun, hes, hret⟩ := h
  have hp₁ := hp.step hcall
  have hp₂ : Reachable TStep (.init cfg, .init) p₂ := by
    obtain ⟨es₁, hes₁⟩ := hp₁
    exact ⟨_, hes₁.append hrun.of_restrict⟩
  have hin := @InSleep.run _ _ mem _ _ _ _ hp₁ (.begin hcall) hrun hes
  have hover := hin.outcome
  have ht := timerInv_reachable hp₂
  refine ⟨hp₂.step hret, ?_⟩
  cases hret with
  | @run r r' m e deadline ok hstep _ =>
    obtain ⟨s, hcore⟩ := tstep_core (.run deadline ok hstep (by assumption))
    have hm : m.after r (.core ⟨.co c, .ret code⟩) deadline ok = m := by
      unfold Timers.after
      simp only
      split <;> rfl
    have hpc : r.core.pc (.co c) = .ret code := by
      cases hcore with
      | «local» _ hl =>
        generalize r.core.pc (.co c) = pc at hl
        cases hl
        rfl
    rw [hm]
    have harg' : m.arg c = sleepNs p.2.now ns := hin.arg.trans harg
    rcases hover code (by rw [hpc]; rfl) with ⟨-, hle⟩ | hc | rfl | hc
    · rw [harg] at hle
      exact Or.inr (Or.inr (Or.inr hle))
    · exact Or.inl hc
    · have hto := (ht.co c).due (step_ret_timedout hcore (Or.inl rfl)) hin.inIo
      rcases hto with ⟨-, hle⟩ | hexp
      · rw [harg'] at hle
        exact Or.inr (Or.inr (Or.inr hle))
      · exact Or.inr (Or.inr (Or.inl ⟨rfl, hexp.1⟩))
    · exact Or.inr (Or.inl hc)

/-- A deadline that fits in 64 bits is as late as it should be, and one that does not fit is not. -/
lemma sleepNs_due {now ns later : ℕ} (hle : sleepNs now ns ≤ later) (hlater : later < 2 ^ 64) :
    now + ns ≤ later ↔ now + ns < 2 ^ 64 := by
  constructor
  · intro h
    exact h.trans_lt hlater
  · intro h
    rwa [sleepNs, Nat.mod_eq_of_lt h] at hle

end Steps

end Suspenders.Sched
