import Suspenders.Wait.Decide
import Mathlib.Data.List.Perm.Subperm

/-!
# What a step does to the locks

Mutexes, read-write locks, condition variables and wait groups change in critical sections on their own
ticket lock, and their waiter lists lose a node when `s_waiter_wake` decides its wait.  No other step touches
them: `step_sync` says this once, and the modules on the single structures start from it.
-/

namespace Suspenders.Sync

open Lib Wait

/-! ## Lists without select nodes -/

/-- On lists other than those of channels there are embedded nodes only. -/
lemma wq_of_mem {w : Waits} (h : w.WF) {l : ListId} (hl : ¬ l.IsChan) {n : NodeRef}
    (hn : n ∈ w.queue l) : n = .wq n.cr := by
  cases n with
  | wq c => rfl
  | sel c i => exact absurd (h.sel l c i hn) hl

/-- A list that loses no node is the same list. -/
lemma queue_eq_of_subset {w w' : Waits} (h : w.WF) {l : ListId}
    (hsub : (w'.queue l).Sublist (w.queue l)) (hmem : ∀ n ∈ w.queue l, n ∈ w'.queue l) :
    w'.queue l = w.queue l := by
  refine hsub.eq_of_length_le ?_
  exact (List.subperm_of_subset (h.nodup l) hmem).length_le

/-- A critical section leaves the lists of other structures alone, unless they are channels. -/
lemma effect_queue {st : Code} {lk : LockId} {h h' : Heap} {out : Out} (heff : Effect st lk h h' out)
    (hw : h.waits.WF) {l : ListId} (hl : ¬ l.IsChan) (hlk : l.lock ≠ lk) :
    h'.waits.queue l = h.waits.queue l := by
  refine queue_eq_of_subset hw (heff.granted.sublist l) fun n hn => ?_
  have hG : n ∉ out.granted := by
    intro hG
    obtain ⟨l', hl', hlock⟩ := heff.own n hG
    rw [hw.unique hn hl'] at hlk
    exact hlk hlock
  rw [heff.granted.wf.mem_iff]
  rcases heff.granted.other n hG with heq | ⟨c, i, l', rfl, hl', -⟩
  · rw [heq]
    exact (hw.mem_iff l n).mp hn
  · exact absurd (hw.sel l c i hn) hl

/-- Deciding a wait from outside takes its node off its list and leaves the others as they are. -/
lemma decide_queue {w w' : Waits} (h : w.WF) {c : CrId} {st : Code} (hd : w.decide c st = some w')
    (l : ListId) : w'.queue l = (w.queue l).erase (.wq c) := by
  unfold Waits.decide at hd
  split at hd
  · cases hd
    simp only [Waits.grant_queue, Waits.unlink]
    cases hlist : (w.node (.wq c)).waitList with
    | none =>
      have hnot : .wq c ∉ w.queue l := by
        rw [h.mem_iff, hlist]
        simp
      exact (List.erase_of_not_mem hnot).symm
    | some l' =>
      by_cases hl : l = l'
      · subst hl
        simp
      · have hnot : .wq c ∉ w.queue l := by
          rw [h.mem_iff, hlist]
          simpa using Ne.symm hl
        simp [hl, List.erase_of_not_mem hnot]
  · cases hd

/-! ## Steps -/

/-- A step that is neither a critical section nor a decision from outside leaves all locks alone. -/
structure Quiet (s : Core) (e : Event) (t : Core) : Prop where
  /-- Mutexes. -/
  owner : t.heap.owner = s.heap.owner
  /-- Read-write locks. -/
  rw : t.heap.rw = s.heap.rw
  /-- Their waiters. -/
  queue : ∀ l, ¬ l.IsChan → t.heap.waits.queue l = s.heap.waits.queue l
  /-- What the waiters carry. -/
  writer : ∀ l, ¬ l.IsChan → ∀ n ∈ s.heap.waits.queue l,
    (t.heap.waits.node n).writer = (s.heap.waits.node n).writer
  /-- It is no critical section of a call. -/
  not_crit : ∀ op k out, e.act ≠ .crit op k out
  /-- It decides nothing from outside. -/
  not_flip : ∀ c st, e.act ≠ .flip c st
  /-- It parks nobody on such a list. -/
  parks : ∀ c l data, e.parks ≠ some (.wq c, l, data)

/-- Channel operations leave the locks alone. -/
lemma exec_case_owner (h : Heap) (a : Ctx) (k : Case) :
    (exec h a k.op).1.owner = h.owner ∧ (exec h a k.op).1.rw = h.rw := by
  unfold Case.op
  split
  · simp only [exec, chanSendImpl]
    split <;> (try split) <;> exact ⟨rfl, rfl⟩
  · simp only [exec, chanRecvImpl]
    split <;> (try split) <;> exact ⟨rfl, rfl⟩

lemma Case.lockId_op (k : Case) : k.op.lockId = .chan k.ch := by
  unfold Case.op
  split <;> rfl

/-- What a step does to the locks: it is a critical section, a decision from outside, or it leaves them
alone. -/
theorem step_sync {s t : Core} {e : Event} (h : Inv s) (hstep : Step s e t) :
    (∃ op k, s.pc e.ctx = .cs op k ∧ e.act = .crit op k (critical s.heap e.ctx op).2 ∧
      t.heap = (critical s.heap e.ctx op).1 ∧
      t.pc e.ctx = k.next (critical s.heap e.ctx op).2.res) ∨
    (∃ f c lk w, s.pc e.ctx = .wakeLock f c lk ∧ e.act = .flip c f.code ∧
      s.heap.waits.decide c f.code = some w ∧ t.heap = { s.heap with waits := w }) ∨
    Quiet s e t := by
  -- a coroutine's own node that is on no such list changes
  have own : ∀ {n : NodeRef} {x : Node} {s' : Core} {e : Event},
      s'.heap = { s.heap with waits := s.heap.waits.setNode n x } →
      x.writer = (s.heap.waits.node n).writer →
      (∀ op k out, e.act ≠ .crit op k out) → (∀ c st, e.act ≠ .flip c st) →
      (∀ c l data, e.parks ≠ some (.wq c, l, data)) → Quiet s e s' := by
    intro n x s' e hs' hx hcrit hflip hparks
    refine ⟨by rw [hs'], by rw [hs'], fun l _ => by rw [hs']; rfl, fun l _ n' _ => ?_, hcrit, hflip, hparks⟩
    by_cases hn : n' = n
    · subst hn
      simp [hs', hx]
    · simp [hs', hn]
  have still : ∀ {s' : Core} {e : Event}, s'.heap = s.heap → (∀ op k out, e.act ≠ .crit op k out) →
      (∀ c st, e.act ≠ .flip c st) → (∀ c l data, e.parks ≠ some (.wq c, l, data)) → Quiet s e s' :=
    fun hs' hcrit hflip hparks => ⟨by rw [hs'], by rw [hs'], fun _ _ => by rw [hs'],
      fun _ _ _ _ => by rw [hs'], hcrit, hflip, hparks⟩
  have tried : ∀ (a : Ctx) (i : ℕ) (k : Case) {s' : Core}, s'.heap = (exec s.heap a k.op).1 →
      Quiet s ⟨a, .selTry i k (exec s.heap a k.op).2⟩ s' := by
    intro a i k s' hs'
    have heff := exec_effect h.wf a k.op
    have hlk : ∀ l : ListId, ¬ l.IsChan → l.lock ≠ k.op.lockId := by
      intro l hl
      rw [Case.lockId_op]
      cases l <;> first | exact absurd trivial hl | simp [ListId.lock]
    refine ⟨by rw [hs']; exact (exec_case_owner _ _ _).1, by rw [hs']; exact (exec_case_owner _ _ _).2,
      fun l hl => by rw [hs']; exact effect_queue heff h.wf hl (hlk l hl), fun l hl n hn => ?_,
      by simp, by simp, by cases a <;> simp [Event.parks]⟩
    have hG : n ∉ (exec s.heap a k.op).2.granted := by
      intro hG
      obtain ⟨l', hl', hlock⟩ := heff.own n hG
      rw [h.wf.unique hn hl'] at hl
      exact hlk l' hl hlock
    rw [hs']
    rcases heff.granted.other n hG with heq | ⟨c, j, l', rfl, -⟩
    · rw [heq]
    · exact absurd (h.wf.sel l c j hn) hl
  cases hstep with
  | «local» _ hl =>
    refine Or.inr (Or.inr (still rfl ?_ ?_ ?_))
    · rintro op k out rfl
      generalize s.pc _ = pc at hl
      cases hl
    · rintro c st rfl
      generalize s.pc _ = pc at hl
      cases hl
    · simp [hl.parks_none]
  | @crit a op k hpc _ _ => exact Or.inl ⟨op, k, hpc, rfl, rfl, by simp⟩
  | @flip a f c lk w hpc _ _ hd => exact Or.inr (Or.inl ⟨f, c, lk, w, hpc, rfl, hd, rfl⟩)
  | @decided c k l st hpc _ _ hst =>
    exact Or.inr (Or.inr (own (n := .wq c) rfl rfl (by simp) (by simp) (by simp [Event.parks])))
  | @fin a n rest _ =>
    exact Or.inr (Or.inr (own (n := n) rfl rfl (by simp) (by simp) (by cases a <;> simp [Event.parks])))
  | @wake a n rest _ =>
    exact Or.inr (Or.inr (still rfl (by simp) (by simp) (by cases a <;> simp [Event.parks])))
  | @unlock a lk rest _ =>
    exact Or.inr (Or.inr (still rfl (by simp) (by simp) (by cases a <;> simp [Event.parks])))
  | @sleepPark c hpc _ =>
    exact Or.inr (Or.inr (own (n := .wq c) rfl rfl (by simp) (by simp) (by simp [Event.parks])))
  | @sleepFire w c _ _ _ _ =>
    exact Or.inr (Or.inr (own (n := .wq c) rfl rfl (by simp) (by simp) (by simp [Event.parks])))
  | @selTry a ops i rest k hpc _ _ _ => exact Or.inr (Or.inr (tried a i k rfl))
  | @selRetry c ops i rest k hpc _ _ _ => exact Or.inr (Or.inr (tried (.co c) i k rfl))
  | @selInit c ops hpc _ =>
    refine Or.inr (Or.inr ⟨rfl, rfl, fun _ _ => rfl, fun l _ n _ => ?_, by simp, by simp, by simp [Event.parks]⟩)
    by_cases hn : n = .wq c
    · subst hn
      simp [Waits.parkNone]
    · simp [Waits.parkNone, hn]
  | @selPark c ops i k hpc _ _ _ _ =>
    have hne : ∀ l : ListId, ¬ l.IsChan → l ≠ k.list := by
      intro l hl hk
      subst hk
      unfold Case.list at hl
      split at hl <;> exact hl trivial
    refine Or.inr (Or.inr ⟨rfl, rfl, fun l hl => ?_, fun l hl n hn => ?_, by simp, by simp, ?_⟩)
    · simp [Waits.park, hne l hl]
    · have hn' : n ≠ .sel c i := by
        rintro rfl
        exact hl (h.wf.sel l c i hn)
      simp [Waits.park, hn']
    · simp [Event.parks]
  | @selUnreg c ops r j rescan k hpc _ _ _ _ =>
    obtain ⟨hwf, hself, hother, -, hsub⟩ := Waits.unregister_spec h.wf (.sel c j)
    refine Or.inr (Or.inr ⟨rfl, rfl, fun l hl => ?_, fun l hl n hn => ?_, by simp, by simp,
      by simp [Event.parks]⟩)
    · refine queue_eq_of_subset h.wf (hsub l) fun n hn => ?_
      have hn' : n ≠ .sel c j := by
        rintro rfl
        exact hl (h.wf.sel l c j hn)
      rw [Core.setPc_heap, Core.setWaits_waits, hwf.mem_iff, hother n hn']
      exact (h.wf.mem_iff l n).mp hn
    · have hn' : n ≠ .sel c j := by
        rintro rfl
        exact hl (h.wf.sel l c j hn)
      simp [hother n hn']
  | @selWon c ops i scan hpc _ =>
    exact Or.inr (Or.inr (own (n := .wq c) rfl rfl (by simp) (by simp) (by simp [Event.parks])))
  | @selScanned c ops i code hpc _ =>
    exact Or.inr (Or.inr (own (n := .wq c) rfl rfl (by simp) (by simp) (by simp [Event.parks])))
  | @selFailed c ops st hpc _ _ =>
    exact Or.inr (Or.inr (own (n := .wq c) rfl rfl (by simp) (by simp) (by simp [Event.parks])))
  | _ => exact Or.inr (Or.inr (still rfl (by simp) (by simp) (by simp [Event.parks])))

/-! ## The order of the parks -/

/-- When coroutines have parked. -/
structure Stamps where
  /-- The number of steps, from 1. -/
  clock : ℕ
  /-- When each coroutine has parked last. -/
  stamp : CrId → ℕ

namespace Stamps

/-- Nobody has parked. -/
def init : Stamps := ⟨1, fun _ => 0⟩

/-- When each coroutine has parked last, after an event. -/
def stampOf (h : Stamps) (e : Event) (c : CrId) : ℕ :=
  match e.parks with
  | some (.wq c', _, _) => if c' = c then h.clock else h.stamp c
  | _ => h.stamp c

/-- What a step records. -/
def observe (h : Stamps) (e : Event) : Stamps := ⟨h.clock + 1, h.stampOf e⟩

end Stamps

/-- The lists are in the order of the parks. -/
structure StampInv (s : Core) (h : Stamps) : Prop where
  /-- Who is behind has parked later. -/
  order : ∀ l, ¬ l.IsChan → (s.heap.waits.queue l).Pairwise fun n n' => h.stamp n.cr < h.stamp n'.cr
  /-- The time goes on. -/
  clock : ∀ c, h.stamp c < h.clock

lemma stampInv_init (cfg : Config) : StampInv (.init cfg) .init :=
  ⟨fun _ _ => List.Pairwise.nil, fun _ => Nat.zero_lt_one⟩

/-- Whoever parks is on no list, so the stamps of the waiters stay. -/
lemma Stamps.stampOf_eq {s t : Core} {e : Event} (hqueued : Queued s e t) (h : Stamps) {l : ListId}
    {n : NodeRef} (hl : ¬ l.IsChan) (hwf : s.heap.waits.WF) (hn : n ∈ s.heap.waits.queue l) :
    h.stampOf e n.cr = h.stamp n.cr := by
  unfold Stamps.stampOf
  split
  · rename_i c l' data hparks
    have hne : c ≠ n.cr := by
      rintro rfl
      rw [wq_of_mem hwf hl hn] at hn
      exact (hqueued.parked _ _ _ hparks).1 l hn
    simp [hne]
  · rfl

/-- Every step keeps the order. -/
lemma stampInv_step {s t : Core} {e : Event} {h : Stamps} (hI : StampInv s h) (hinv : Inv s)
    (hstep : Step s e t) : StampInv t (h.observe e) where
  order := by
    intro l hl
    have hqueued := step_queued hinv hstep
    have hkept : ∀ q : List NodeRef, q.Sublist (s.heap.waits.queue l) →
        q.Pairwise fun n n' => h.stampOf e n.cr < h.stampOf e n'.cr := by
      intro q hq
      refine List.Pairwise.imp_of_mem (fun {n n'} hn hn' hlt => ?_) ((hI.order l hl).sublist hq)
      rw [h.stampOf_eq hqueued hl hinv.wf (hq.subset hn), h.stampOf_eq hqueued hl hinv.wf (hq.subset hn')]
      exact hlt
    by_cases hp : ∃ n data, e.parks = some (n, l, data)
    · obtain ⟨n, data, hparks⟩ := hp
      obtain ⟨q, hq, heq⟩ := hqueued.append n l data hparks
      have hn : n = .wq n.cr :=
        wq_of_mem (inv_step s e t hinv hstep).wf hl (by rw [heq]; simp)
      rw [heq, List.pairwise_append]
      refine ⟨hkept q hq, List.pairwise_singleton _ _, fun n₁ hn₁ n₂ hn₂ => ?_⟩
      obtain rfl := List.mem_singleton.mp hn₂
      have hnew : h.stampOf e n₂.cr = h.clock := by
        rw [hn] at hparks
        simp [Stamps.stampOf, hparks]
      change h.stampOf e n₁.cr < h.stampOf e n₂.cr
      rw [h.stampOf_eq hqueued hl hinv.wf (hq.subset hn₁), hnew]
      exact hI.clock n₁.cr
    · exact hkept _ (hqueued.sublist l fun n data hparks => hp ⟨n, data, hparks⟩)
  clock := by
    intro c
    have hold : h.stamp c < h.clock := hI.clock c
    change h.stampOf e c < h.clock + 1
    unfold Stamps.stampOf
    split
    · split <;> omega
    · omega

/-! ## How a context goes through a call -/

/-- A place in a call on one of the structures. -/
def inCall : Pc → Bool
  | .pre _ | .cs _ _ | .blk _ _ | .susp _ _ | .sync _ _ | .ret _ => true
  | _ => false

/-- How context `a` moves by its own step. -/
inductive Moves (s : Core) (a : Ctx) (act : Act) (t : Core) : Prop
  /-- It works for others. -/
  | work (w : Work) : act = w.act → t.pc = s.pc → Moves s a act t
  /-- It calls. -/
  | call (api : Api) (r : ℕ) : act = .call api → s.pc a = .idle → api.Valid s.heap →
      t.pc a = api.entry a r → Moves s a act t
  /-- An entry check fails. -/
  | fail {c : CrId} (e : Entry) (st : Code) : a = .co c → act = .preCanceled ∨ act = .preExpired →
      st ≠ .ok → s.pc a = .pre e → t.pc a = e.fail st → Moves s a act t
  /-- The entry checks pass. -/
  | go {c : CrId} (e : Entry) (r : ℕ) : a = .co c → act = .preGo → s.pc a = .pre e →
      t.pc a = e.go s.heap c r → Moves s a act t
  /-- It returns. -/
  | ret (code : Code) : act = .ret code → s.pc a = .ret code → t.pc a = .idle → Moves s a act t
  /-- It executes a critical section. -/
  | crit (op : Op) (k : Frame) : act = .crit op k (critical s.heap a op).2 → s.pc a = .cs op k →
      t.pc a = k.next (critical s.heap a op).2.res → t.heap = (critical s.heap a op).1 →
      Moves s a act t
  /-- It tests whether its wait is decided. -/
  | test {c : CrId} (k : Frame) (l : Option ListId) : a = .co c → act = .test → s.pc a = .blk k l →
      t.pc a = .susp k l ∨ t.pc a = .sync k l → Moves s a act t
  /-- It suspends. -/
  | suspend {c : CrId} (k : Frame) (l : Option ListId) : a = .co c → act = .suspend →
      s.pc a = .susp k l → t.pc a = .blk k l → Moves s a act t
  /-- Its wait is over. -/
  | decided {c : CrId} (k : Frame) (l : Option ListId) (st : Code) : a = .co c →
      act = .decided k st → s.pc a = .sync k l →
      (s.heap.waits.node (.wq c)).status = .decided st → t.pc a = k.after st → Moves s a act t
  /-- It is in another call, which it may be about to leave. -/
  | far : inCall (s.pc a) = false →
      inCall (t.pc a) = false ∨ (∃ code, t.pc a = .ret code) ∨ t.pc a = .blk .sleep none →
      (∀ api, act ≠ .call api) → (∀ code, act ≠ .ret code) → Moves s a act t

/-- Every step of a context moves it in one of these ways. -/
lemma step_moves {s t : Core} {a : Ctx} {act : Act} (hstep : Step s ⟨a, act⟩ t) :
    Moves s a act t := by
  cases hstep with
  | «local» _ hl =>
    have hpc := hl
    generalize hs : s.pc a = pc at hpc
    cases hpc with
    | call api r hv => exact .call api r rfl hs hv (by simp)
    | @preCanceled c e => exact .fail e .canceled rfl (Or.inl rfl) (by simp) hs (by simp)
    | @preExpired c e => exact .fail e .timedout rfl (Or.inr rfl) (by simp) hs (by simp)
    | @preGo c e r => exact .go e r rfl rfl hs (by simp)
    | @ret _ code => exact .ret code rfl hs (by simp)
    | sleepNow | sleepNomem | ioDone | ioCanceled | ioExpired | iouRet | iouCanceled | push =>
      exact .far (by rw [hs]; rfl) (Or.inr (Or.inl ⟨_, by simp; rfl⟩)) (by simp) (by simp)
    | @ioReady c again =>
      refine .far (by rw [hs]; rfl) ?_ (by simp) (by simp)
      cases again
      · exact Or.inr (Or.inl ⟨.ok, by simp⟩)
      · exact Or.inl (by simp [inCall])
    | @wakeGiveUp _ f c =>
      refine .far (by rw [hs]; rfl) ?_ (by simp) (by simp)
      by_cases hf : f = .cancel
      · exact Or.inr (Or.inl ⟨.ok, by simp [hf]⟩)
      · exact Or.inl (by simp [hf, inCall])
    | _ => exact .far (by rw [hs]; rfl) (Or.inl (by simp [inCall])) (by simp) (by simp)
  | @crit _ op k hpc _ _ => exact .crit op k rfl hpc (by simp) rfl
  | testWaiting hpc _ _ => exact .test _ _ rfl rfl hpc (Or.inl (by simp))
  | testDecided hpc _ _ => exact .test _ _ rfl rfl hpc (Or.inr (by simp))
  | suspend hpc _ => exact .suspend _ _ rfl rfl hpc (by simp)
  | decided hpc _ _ hst => exact .decided _ _ _ rfl rfl hpc hst (by simp)
  | wake _ => exact .work (.wake _) rfl rfl
  | unlock _ => exact .work (.unlock _) rfl rfl
  | fin _ => exact .work (.fin _) rfl rfl
  | sleepPark hpc _ =>
    exact .far (by rw [hpc]; rfl) (Or.inr (Or.inr (by simp))) (by simp) (by simp)
  | sleepFire hpc _ _ _ =>
    exact .far (by rw [hpc]; rfl) (Or.inl (by simp [hpc, inCall])) (by simp) (by simp)
  | @flip _ f c lk w hpc _ _ _ =>
    refine .far (by rw [hpc]; rfl) ?_ (by simp) (by simp)
    by_cases hf : f = .cancel
    · exact Or.inr (Or.inl ⟨.ok, by simp [hf]⟩)
    · exact Or.inl (by simp [hf, inCall])
  | selTry hpc _ _ _ | selRetry hpc _ _ _ =>
    refine .far (by rw [hpc]; rfl) (Or.inl ?_) (by simp) (by simp)
    simp only [Core.setWork_pc, Core.setPc_pc_self]
    split <;> rfl
  | selInit hpc _ | selReady hpc _ _ _ _ | selPark hpc _ _ _ _ | selRegEnd hpc _ | selWaiting hpc _ _ _
  | selDecided hpc _ _ | selSuspend hpc _ | selUnreg hpc _ _ _ _ | selLeave hpc _ _
  | selAgain _ hpc _ _ _ | selRescanEnd hpc _ | selSync hpc _ _ | selSync2 hpc _ _ | selWon hpc _
  | selScanned hpc _ | selFailed hpc _ _ =>
    exact .far (by rw [hpc]; rfl) (Or.inl (by simp [inCall])) (by simp) (by simp)

end Suspenders.Sync
