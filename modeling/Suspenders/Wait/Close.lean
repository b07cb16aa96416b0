import Suspenders.Wait.Fifo

/-!
# Closed channels

What happens at a successful `suspenders_chan_close` and after it.  `CloseInv` is the invariant of the
runs that follow a close, relative to the state before it: nothing is sent any more, receives drain
exactly the values that were in the ring, and whoever enters later returns `CLOSED` as soon as the ring
is empty.
-/

namespace Suspenders.Wait

open Lib

/-- A call that entered channel `ch` after the close has ended with `code`: a send is turned away, a receive
got a value or found the ring drained for good. -/
def LateOk (x : Chan) (rcvd : List (ℕ × Bytes)) (r : Call) (t : ℕ) (code : Code) : Prop :=
  if r.isSend then code = .closed
  else code = .ok ∨ (code = .closed ∧ x.contents = [] ∧ ∀ y ∈ rcvd, y.1 < t)

/-- The state `(t, m')` after a close of channel `ch` in state `(s, m)`. -/
structure CloseInv (ch : ℕ) (s : Core) (m : FifoHist) (t : Core) (m' : FifoHist) : Prop where
  /-- The channel is closed. -/
  closed : (t.heap.chan ch).closed = true
  /-- Time has passed. -/
  clock : m.clock < m'.clock
  /-- No send has completed. -/
  sent : m'.sent ch = m.sent ch
  /-- Receives that entered later have drained the ring from its front. -/
  rcvd : ∃ late, m'.rcvd ch = m.rcvd ch ++ late ∧ (∀ x ∈ late, m.clock < x.1) ∧
    late.map Prod.snd ++ (t.heap.chan ch).contents = (s.heap.chan ch).contents
  /-- Calls in progress that entered later are about to return. -/
  call : ∀ a r k, m'.call a = some r → r.ch = ch → r.ticket = some k → m.clock < k →
    ∃ code, t.pc a = .ret code ∧ LateOk (t.heap.chan ch) (m'.rcvd ch) r k code
  /-- Calls that entered later and have returned. -/
  log : ∀ x ∈ m'.log, ∀ k, x.call.ch = ch → x.call.ticket = some k → m.clock < k →
    LateOk (t.heap.chan ch) (m'.rcvd ch) x.call k x.code

/-! ## Critical sections on a closed channel -/

/-- On a closed channel a send is turned away, and a receive gets the oldest value of the ring or is
turned away too. -/
lemma exec_closed {s : Core} (hinv : Inv s) {ch : ℕ} (hcl : (s.heap.chan ch).closed = true) (a : Ctx)
    (tryOnly : Bool) :
    (∀ val, (exec s.heap a (.send ch val tryOnly)).2.res = .ret .closed) ∧
      (exec s.heap a (.recv ch tryOnly)).2.res =
        .ret (if (s.heap.chan ch).contents = [] then .closed else .ok) ∧
      (exec s.heap a (.recv ch tryOnly)).2.value = (s.heap.chan ch).contents.head? := by
  have hx := hinv.chan ch
  have hsnil : s.heap.waits.queue (.senders ch) = [] := (hx.closed hcl).2
  refine ⟨fun val => ?_, ?_⟩
  · obtain ⟨-, heq⟩ | ⟨hopen, -⟩ | ⟨hopen, -⟩ | ⟨hopen, -⟩ :=
      exec_send_cases hinv.wf a ch val tryOnly
    · rw [heq]
      rfl
    all_goals
      rw [hcl] at hopen
      cases hopen
  · have hle := hx.count_le
    have hnot : ∀ tx w', ¬ s.heap.waits.Took .ok (.senders ch) tx w' := by
      intro tx w' htook
      have hmem := htook.mem
      rw [hsnil] at hmem
      cases hmem
    obtain ⟨-, -, tx, w', -, htook⟩ | ⟨hbuf, hcount, w', heq, -⟩ | ⟨-, tx, w', -, htook⟩ |
      ⟨hnone, -, w', heq, -⟩ | ⟨-, hopen, -⟩ := exec_recv_cases hinv.wf a ch tryOnly
    · exact absurd htook (hnot tx w')
    · have hpop := Chan.contents_bufPop (hx.head_lt.resolve_left hbuf) hcount
      rw [heq, hpop]
      exact ⟨rfl, rfl⟩
    · exact absurd htook (hnot tx w')
    · rw [heq, ChanFifo.contents_nil (show (s.heap.chan ch).count = 0 by omega)]
      exact ⟨rfl, rfl⟩
    · rw [hcl] at hopen
      cases hopen

/-- On a closed channel no send completes, and only receives that enter now get a value. -/
lemma closed_moves {s t : Core} {e : Event} (hinv : Inv s) (hstep : Step s e t) {m : FifoHist}
    {ch : ℕ} (hcl : (s.heap.chan ch).closed = true) :
    m.sends s e.act ch = [] ∧ ∀ x ∈ m.recvs e.act ch, x.1 = m.clock := by
  have hsnil : s.heap.waits.queue (.senders ch) = [] := ((hinv.chan ch).closed hcl).2
  cases hl : e.act.locked with
  | none =>
    obtain ⟨hs, hr⟩ := FifoHist.sends_of_none (m := m) (s := s) hl ch
    exact ⟨hs, by simp [hr]⟩
  | some p =>
    obtain ⟨op, out⟩ := p
    obtain ⟨rfl, -⟩ := step_locked hinv hstep hl
    by_cases hlk : op.lockId = .chan ch
    · cases op with
      | send ch' val tryOnly =>
        obtain rfl : ch' = ch := by simpa [Op.lockId] using hlk
        obtain ⟨-, heq⟩ | ⟨hopen, -⟩ | ⟨hopen, -⟩ | ⟨hopen, -⟩ :=
          exec_send_cases hinv.wf e.ctx ch' val tryOnly
        · simp [FifoHist.sends, FifoHist.recvs, hl, heq, Out.ret]
        all_goals
          rw [hcl] at hopen
          cases hopen
      | recv ch' tryOnly =>
        obtain rfl : ch' = ch := by simpa [Op.lockId] using hlk
        have hnot : ∀ tx w', ¬ s.heap.waits.Took .ok (.senders ch') tx w' := by
          intro tx w' htook
          have hmem := htook.mem
          rw [hsnil] at hmem
          cases hmem
        refine ⟨?_, fun x hx => ?_⟩
        · obtain ⟨-, -, tx, w', -, htook⟩ | ⟨-, -, w', heq, -⟩ | ⟨-, tx, w', -, htook⟩ |
            ⟨-, -, w', heq, -⟩ | ⟨-, hopen, -⟩ := exec_recv_cases hinv.wf e.ctx ch' tryOnly
          · exact absurd htook (hnot tx w')
          · simp [FifoHist.sends, hl, heq, Out.grantOne]
          · exact absurd htook (hnot tx w')
          · simp [FifoHist.sends, hl, heq, Out.ret]
          · rw [hcl] at hopen
            cases hopen
        · simp only [FifoHist.recvs, hl, if_true] at hx
          obtain ⟨v, -, rfl⟩ := List.mem_map.mp hx
          rfl
      | close ch' => simp [FifoHist.sends, FifoHist.recvs, hl]
      | _ => simp [Op.lockId] at hlk
    · obtain ⟨hs, hr⟩ := FifoHist.sends_of_ne (m := m) (s := s) hl hlk
      exact ⟨hs, by simp [hr]⟩

/-- What a call that enters a closed channel ends with. -/
lemma closed_crit {s : Core} (hinv : Inv s) {a : Ctx} {op : Op} {r : Call}
    (hcl : (s.heap.chan r.ch).closed = true) (hr : r.Is op) :
    ∃ code, (exec s.heap a op).2.res = .ret code ∧
      if r.isSend then code = .closed
      else code = .ok ∨ (code = .closed ∧ (s.heap.chan r.ch).contents = []) := by
  cases op with
  | send ch val tryOnly =>
    obtain ⟨hs, rfl, rfl⟩ := hr
    exact ⟨.closed, (exec_closed hinv hcl a tryOnly).1 _, by simp [hs]⟩
  | recv ch tryOnly =>
    obtain ⟨hs, rfl⟩ := hr
    refine ⟨_, (exec_closed hinv hcl a tryOnly).2.1, ?_⟩
    by_cases hnil : (s.heap.chan r.ch).contents = []
    · simp [hs, hnil]
    · simp [hs, hnil]
  | _ => exact absurd hr id

/-! ## Steps after the close -/

/-- A late call's end stays as it is. -/
lemma LateOk.mono {x x' : Chan} {rcvd new : List (ℕ × Bytes)} {r : Call} {t : ℕ} {code : Code}
    (hcontents : new.map Prod.snd ++ x'.contents = x.contents) (h : LateOk x rcvd r t code) :
    LateOk x' (rcvd ++ new) r t code := by
  unfold LateOk at h ⊢
  split
  · rename_i hs
    simpa [hs] using h
  · rename_i hs
    simp only [hs, Bool.false_eq_true, if_false] at h
    rcases h with hok | ⟨hcode, hnil, hlt⟩
    · exact Or.inl hok
    · rw [hnil] at hcontents
      obtain ⟨hnew, hnil'⟩ := List.append_eq_nil_iff.mp hcontents
      obtain rfl : new = [] := List.map_eq_nil_iff.mp hnew
      exact Or.inr ⟨hcode, hnil', by simpa using hlt⟩

/-- A context about to return does its pending work, then returns. -/
lemma step_of_ret {s t : Core} {a : Ctx} {act : Act} {code : Code} (hstep : Step s ⟨a, act⟩ t)
    (hpc : s.pc a = .ret code) : act = .ret code ∨ t.pc a = .ret code := by
  cases hstep with
  | «local» _ hl =>
    rw [hpc] at hl
    cases hl
    exact Or.inl rfl
  | wake _ | unlock _ | fin _ => exact Or.inr hpc
  | _ => simp_all

/-- Outside its critical section a call keeps its channel and its ticket. -/
lemma FifoHist.callOf_keep {m : FifoHist} {s : Core} {e : Event} {r : Call}
    (hr : m.callOf s e = some r) :
    (∃ api, e.act = .call api ∧ r.ticket = none) ∨ (∃ op k out, e.act = .crit op k out) ∨
      ((∀ code, e.act ≠ .ret code) ∧ ∃ r₀, m.call e.ctx = some r₀ ∧ r₀.isSend = r.isSend ∧
        r₀.ch = r.ch ∧ r₀.ticket = r.ticket) := by
  obtain ⟨a, act⟩ := e
  cases act with
  | call api =>
    refine Or.inl ⟨api, rfl, ?_⟩
    cases api with
    | op o =>
      cases o with
      | send | recv =>
        cases hr
        rfl
      | _ => cases hr
    | _ => cases hr
  | crit op k out => exact Or.inr (Or.inl ⟨op, k, out, rfl⟩)
  | ret code => cases hr
  | decided k st =>
    obtain ⟨r₀, hr₀, rfl⟩ := Option.map_eq_some_iff.mp hr
    refine Or.inr (Or.inr ⟨by simp, r₀, hr₀, ?_⟩)
    split <;> exact ⟨rfl, rfl, rfl⟩
  | _ => exact Or.inr (Or.inr ⟨by simp, r, hr, rfl, rfl, rfl⟩)

/-- After a close every step keeps the account of the ring. -/
lemma closeInv_step {cfg : Config} {ch : ℕ} {s₀ : Core} {m₀ : FifoHist} {s t : Core} {m : FifoHist}
    {e : Event} (hinv : Inv s) (hp : FifoInv cfg (s, m)) (hq : FifoInv cfg (t, m.record s e))
    (h : CloseInv ch s₀ m₀ s m) (hstep : Step s e t) : CloseInv ch s₀ m₀ t (m.record s e) := by
  have hf := step_footprint hinv hstep
  obtain ⟨hsends, hrecvs⟩ := closed_moves (m := m) hinv hstep h.closed
  have hclock := h.clock
  -- what the step takes out of the ring is what it hands to receives
  have hcontents : (m.recvs e.act ch).map Prod.snd ++ (t.heap.chan ch).contents =
      (s.heap.chan ch).contents := by
    have hvalues := (hq.chan ch).values
    simp only [FifoHist.record, hsends, List.append_nil, List.map_append, (hp.chan ch).values,
      List.append_assoc] at hvalues
    exact (List.append_cancel_left hvalues).symm
  have hlate : ∀ {r : Call} {k : ℕ} {code : Code}, LateOk (s.heap.chan ch) (m.rcvd ch) r k code →
      LateOk (t.heap.chan ch) ((m.record s e).rcvd ch) r k code := fun hl => hl.mono hcontents
  refine ⟨hf.closed ch h.closed, Nat.lt_succ_of_lt hclock, ?_, ?_, fun a r k hr hch hk hlt => ?_,
    fun x hx k hch hk hlt => ?_⟩
  · simp only [FifoHist.record, hsends, List.append_nil]
    exact h.sent
  · obtain ⟨late, hrcvd, hlt, hvals⟩ := h.rcvd
    refine ⟨late ++ m.recvs e.act ch, by simp [FifoHist.record, hrcvd], fun x hx => ?_, ?_⟩
    · rcases List.mem_append.mp hx with hx | hx
      · exact hlt x hx
      · rw [hrecvs x hx]
        exact hclock
    · rw [List.map_append, List.append_assoc, hcontents]
      exact hvals
  · by_cases ha : a = e.ctx
    · subst ha
      have hr' : m.callOf s e = some r := by simpa [FifoHist.record] using hr
      obtain ⟨api, -, hnone⟩ | ⟨op, fr, out, hact⟩ | ⟨hret, r₀, hr₀, hs, hc, ht⟩ :=
        FifoHist.callOf_keep hr'
      · rw [hnone] at hk
        cases hk
      · -- it enters now
        obtain ⟨a, act⟩ := e
        obtain rfl : act = .crit op fr out := hact
        cases hstep with
        | «local» _ hl => exact absurd hl.locked_none (by simp [Act.locked])
        | crit hpc _ _ =>
          obtain ⟨rfl, his, hticket, -⟩ := FifoHist.callOf_crit hpc (hp.call a) hr'
          obtain rfl : m.clock = k := by simpa [hticket] using hk
          subst hch
          obtain ⟨code, hres, hcode⟩ := closed_crit (a := a) hinv h.closed his
          refine ⟨code, by simp [critical, hres, Frame.next, Frame.after], hlate ?_⟩
          unfold LateOk
          split
          · rename_i hs
            simpa [hs] using hcode
          · rename_i hs
            simp only [hs, Bool.false_eq_true, if_false] at hcode
            rcases hcode with hok | ⟨hcl, hnil⟩
            · exact Or.inl hok
            · exact Or.inr ⟨hcl, hnil, (hp.chan r.ch).receivers.done_lt⟩
      · -- it entered earlier and is about to return
        obtain ⟨code, hpc, hok⟩ := h.call e.ctx r₀ k hr₀ (hc.trans hch) (ht.trans hk) hlt
        obtain ⟨a, act⟩ := e
        refine ⟨code, (step_of_ret hstep hpc).resolve_left (hret code), hlate ?_⟩
        simpa only [LateOk, hs] using hok
    · have hr' : m.call a = some r := by simpa [FifoHist.record, ha] using hr
      obtain ⟨code, hpc, hok⟩ := h.call a r k hr' hch hk hlt
      exact ⟨code, by rw [hf.pc a ha]; exact hpc, hlate hok⟩
  · simp only [FifoHist.record, List.mem_append] at hx
    rcases hx with hx | hx
    · exact hlate (h.log x hx k hch hk hlt)
    · obtain ⟨a, act⟩ := e
      cases act with
      | ret code =>
        obtain ⟨r, hr, rfl⟩ := List.mem_map.mp hx
        obtain ⟨code', hpc, hok⟩ := h.call a r k (by simpa using hr) hch hk hlt
        obtain rfl : code' = code := by
          cases hstep with
          | «local» _ hl =>
            rw [hpc] at hl
            cases hl
            rfl
        exact hlate hok
      | _ => cases hx

/-! ## The close itself -/

/-- Tickets are drawn in the past. -/
lemma FifoInv.call_ticket_lt {cfg : Config} {s : Core} {m : FifoHist} (hinv : Inv s)
    (h : FifoInv cfg (s, m)) {a : Ctx} {r : Call} {k : ℕ} (hr : m.call a = some r)
    (hk : r.ticket = some k) : k < m.clock := by
  have hok := h.call a r hr
  have hparked : ∀ {c : CrId} {l : ListId}, a = .co c → (s.pc a).waitOn = some (some l) →
      CallParked s.heap.waits m c r → k < m.clock := by
    rintro c l rfl hwait hp
    obtain rfl : m.tick (.wq c) = k := Option.some.inj (hp.ticket.symm.trans hk)
    cases hst : (s.heap.waits.node (.wq c)).status with
    | waiting =>
      rcases (hinv.node c).wait _ hwait with ⟨-, hlist⟩ | ⟨hne, -⟩
      · exact h.tick.lt l _ ((hinv.wf.mem_iff l _).mpr hlist)
      · exact absurd hst hne
    | decided code => exact (hp.outcome code hst).retired.1
  have hpc : (s.pc a).CallOk s.heap.waits m a r := hok
  generalize hs : s.pc a = pc at hpc hparked
  cases pc with
  | pre e =>
    cases e with
    | op o fr =>
      cases fr with
      | ret => simp [hpc.1] at hk
      | _ => exact absurd hpc id
    | _ => exact absurd hpc id
  | cs o fr =>
    cases fr with
    | ret => simp [hpc.1] at hk
    | _ => exact absurd hpc id
  | blk fr l | susp fr l | sync fr l =>
    cases fr with
    | ret =>
      cases l with
      | some l =>
        obtain ⟨-, c, hc, hp⟩ := hpc
        exact hparked hc rfl hp
      | none => exact absurd hpc id
    | _ => exact absurd hpc id
  | ret code =>
    have hfin : Finished s.heap.waits m r code := hpc
    simp only [Finished, hk] at hfin
    exact hfin.retired.1
  | _ => exact absurd hpc id

lemma FifoInv.log_ticket_lt {cfg : Config} {s : Core} {m : FifoHist} (h : FifoInv cfg (s, m))
    {x : Returned} (hx : x ∈ m.log) {k : ℕ} (hk : x.call.ticket = some k) : k < m.clock := by
  have hfin := h.log x hx
  simp only [Finished, hk] at hfin
  exact hfin.retired.1

/-- A wait is decided with `CLOSED`, if need be through another node of the same select. -/
def Waits.ClosedAt (w : Waits) : NodeRef → Prop
  | .wq c => (w.node (.wq c)).status = .decided .closed
  | .sel c _ => ∃ j, w.winner c = some j ∧ (w.node (.sel c j)).status = .decided .closed

/-- What a close that finds the channel open leaves behind. -/
lemma step_close {s t : Core} {a : Ctx} {ch : ℕ} {k : Frame} {out : Out} (hinv : Inv s)
    (hstep : Step s ⟨a, .crit (.close ch) k out⟩ t) (hout : out.res = .ret .ok) :
    (t.heap.chan ch).closed = true ∧ (t.heap.chan ch).contents = (s.heap.chan ch).contents ∧
      ∀ l n, l.lock = .chan ch → n ∈ s.heap.waits.queue l → s.heap.waits.Usable n →
        t.heap.waits.ClosedAt n := by
  cases hstep with
  | «local» _ hl => exact absurd hl.locked_none (by simp [Act.locked])
  | crit _ _ _ =>
    have hopen : (s.heap.chan ch).closed = false := by
      cases hcl : (s.heap.chan ch).closed with
      | false => rfl
      | true => simp [critical, exec, chanCloseImpl, hcl, Out.ret] at hout
    obtain ⟨hgr, hsnil, hrnil, -⟩ := chanClose_spec hinv.wf ch (s.heap.chan ch)
    have hcrit : (critical s.heap a (.close ch)).1 = { s.heap with
        waits := (chanClose s.heap.waits ch (s.heap.chan ch)).2.1
        chan := Function.update s.heap.chan ch { s.heap.chan ch with closed := true } } := by
      simp [critical, exec, chanCloseImpl, hopen, Out.grantMany, Heap.parkAs, chanClose]
    simp only [Core.setHeld_heap, Core.setWork_heap, Core.setPc_heap, hcrit, Function.update_self]
    refine ⟨trivial, rfl, fun l n hl hn husable => ?_⟩
    have hnil : (chanClose s.heap.waits ch (s.heap.chan ch)).2.1.queue l = [] := by
      cases l <;> simp only [ListId.lock, LockId.chan.injEq, reduceCtorEq] at hl
      · rw [hl]
        exact hsnil
      · rw [hl]
        exact hrnil
    have hclosed : ∀ c j, .sel c j ∈ (chanClose s.heap.waits ch (s.heap.chan ch)).1 →
        (chanClose s.heap.waits ch (s.heap.chan ch)).2.1.ClosedAt (.sel c j) :=
      fun c j hj => ⟨j, (hgr.sel c j hj).2, (hgr.granted _ hj).1⟩
    rcases hgr.mem_of_usable hinv.wf hn husable (by simp [hnil]) with hmem | ⟨c, i, rfl, j, hj⟩
    · cases n with
      | wq c => exact (hgr.granted _ hmem).1
      | sel c i => exact hclosed c i hmem
    · exact hclosed c j hj

/-- Right after the close. -/
lemma closeInv_close {cfg : Config} {s t : Core} {m : FifoHist} {a : Ctx} {ch : ℕ} {k : Frame}
    {out : Out} (hinv : Inv s) (hinv' : Inv t) (hout : out.res = .ret .ok)
    (hstep : Step s ⟨a, .crit (.close ch) k out⟩ t)
    (hq : FifoInv cfg (t, m.record s ⟨a, .crit (.close ch) k out⟩)) :
    CloseInv ch s m t (m.record s ⟨a, .crit (.close ch) k out⟩) := by
  obtain ⟨hclosed, hcontents, -⟩ := step_close hinv hstep hout
  have hnow : ∀ {n : ℕ}, m.clock < n → ¬ n < (m.record s ⟨a, .crit (.close ch) k out⟩).clock := by
    intro n hlt hlt'
    exact absurd hlt (by simpa [FifoHist.record, Nat.lt_succ_iff] using hlt')
  refine ⟨hclosed, Nat.lt_succ_self _, ?_, ⟨[], ?_, by simp, ?_⟩, ?_, ?_⟩
  · simp [FifoHist.record, FifoHist.sends, Act.locked]
  · simp [FifoHist.record, FifoHist.recvs, Act.locked]
  · simpa using hcontents
  · exact fun b r n hr _ hn hlt => absurd (hq.call_ticket_lt hinv' hr hn) (hnow hlt)
  · exact fun x hx n _ hn hlt => absurd (hq.log_ticket_lt hx hn) (hnow hlt)

/-- Every run behind a close keeps its account. -/
lemma closeInv_run {cfg : Config} {s₀ : Core} {m₀ : FifoHist} {ch : ℕ} {p q : Core × FifoHist}
    {es : List Event} (hreach : Reachable (Recorded Step FifoHist.record) (.init cfg, .init) p)
    (hp : CloseInv ch s₀ m₀ p.1 p.2) (hrun : Run (Recorded Step FifoHist.record) p es q) :
    Reachable (Recorded Step FifoHist.record) (.init cfg, .init) q ∧ CloseInv ch s₀ m₀ q.1 q.2 := by
  refine hrun.invariant (I := fun p => Reachable (Recorded Step FifoHist.record)
    (.init cfg, .init) p ∧ CloseInv ch s₀ m₀ p.1 p.2) ?_ ⟨hreach, hp⟩
  rintro ⟨s, m⟩ e ⟨t, m'⟩ ⟨hs, hclose⟩ hstep
  have ht := hs.step hstep
  refine ⟨ht, ?_⟩
  obtain ⟨hcore, rfl⟩ := hstep
  exact closeInv_step (inv_reachable hs.of_recorded) (fifoInv_reachable hs) (fifoInv_reachable ht)
    hclose hcore

end Suspenders.Wait
