import Mathlib.Data.List.Nodup
import Suspenders.Io.Uring

/-!
# The life of an operation on io_uring

`OpsInv` is about the operations, `WakesInv` here about the ready lists.  Together they give `iou_op_lifecycle`: a
coroutine leaves `s_iou_op` behind the one completion of its operation and not before, whatever else wakes it.
-/

namespace Suspenders.Io

open Lib

/-- The coroutines and the ready lists. -/
structure WakesInv (u : Uring) (h : IouHist) : Prop where
  running : ∀ c, u.state c = .running ↔ u.running = some c
  nodup : u.ready.Nodup
  ready : ∀ c, c ∈ u.ready ↔ u.state c = .ready
  puts : ∀ c k, u.pc c = .test k →
    u.state c ≠ .done ∧ h.puts c ≤ 1 ∧ (u.state c = .suspended → h.puts c = 0)

lemma wakesInv_init (size : ℕ) : WakesInv (.init size) .init where
  running := fun c => by simp [Uring.init]
  nodup := List.nodup_nil
  ready := fun c => by simp [Uring.init]
  puts := fun c k hk => by cases hk

section Step

variable {u t : Uring} {e : IouEvent} {h : IouHist}

/-- Coroutine `c` moves without being put on a ready list. -/
lemma WakesInv.puts_of_count {c : CrId} (hcount : t.ready.count c ≤ u.ready.count c) :
    (h.observe u e t).puts c ≤ h.puts c ∧
      (u.state c = .running → t.state c = .suspended → (h.observe u e t).puts c = 0) := by
  simp only [IouHist.observe]
  split
  · exact ⟨Nat.zero_le _, fun _ _ => rfl⟩
  · rename_i hno
    exact ⟨by omega, fun hrun hsusp => absurd (Or.inr ⟨hrun, hsusp⟩) hno⟩

lemma nodup_snoc {l : List CrId} {c : CrId} (hl : l.Nodup) (hc : c ∉ l) : (l ++ [c]).Nodup := by
  rw [(List.perm_append_singleton c l).nodup_iff]
  exact List.nodup_cons.mpr ⟨hc, hl⟩

/-- A wake keeps the lists in order. -/
lemma WakesInv.wake (hW : WakesInv u h) {t' : Uring} {d : CrId} (hstate : t'.state = (u.wake d).state)
    (hready : t'.ready = (u.wake d).ready) (hrun : t'.running = u.running) (hpc : t'.pc = u.pc)
    (he : ∀ c, e ≠ .call c) : WakesInv t' (h.observe u e t') := by
  by_cases hd : u.state d = .suspended
  · have hw : u.wake d = u.enqueue d := if_pos hd
    rw [hw] at hstate hready
    have hst : ∀ c, t'.state c = if c = d then .ready else u.state c := by
      intro c
      rw [hstate]
      by_cases hc : c = d
      · simp [Uring.enqueue, hc]
      · simp [Uring.enqueue, hc]
    have hnot : d ∉ u.ready := by
      rw [hW.ready, hd]
      simp
    refine ⟨?_, ?_, ?_, ?_⟩
    · intro c
      rw [hst, hrun, ← hW.running]
      split
      · rename_i hc
        rw [hc, hd]
        simp
      · exact Iff.rfl
    · rw [hready]
      exact nodup_snoc hW.nodup hnot
    · intro c
      rw [hready, hst]
      by_cases hc : c = d
      · simp [Uring.enqueue, hc]
      · simpa [Uring.enqueue, hc] using hW.ready c
    · intro c k hk
      rw [hpc] at hk
      obtain ⟨hdone, hle, hzero⟩ := hW.puts c k hk
      rw [hst]
      by_cases hc : c = d
      · subst hc
        have hcount : t'.ready.count c = u.ready.count c + 1 := by
          rw [hready]
          simp [Uring.enqueue]
        have hputs : (h.observe u e t').puts c = 1 := by
          simp only [IouHist.observe]
          rw [if_neg (by rw [hd]; simp [he c]), hcount, hzero hd]
          omega
        rw [if_pos rfl, hputs]
        simp
      · have hcount : t'.ready.count c = u.ready.count c := by
          rw [hready]
          simp [Uring.enqueue, Ne.symm hc]
        obtain ⟨hle', -⟩ := WakesInv.puts_of_count (h := h) (e := e) hcount.le
        rw [if_neg hc]
        refine ⟨hdone, hle'.trans hle, fun hs => ?_⟩
        have := hzero hs
        omega
  · have hw : u.wake d = u := if_neg hd
    rw [hw] at hstate hready
    refine ⟨?_, hready ▸ hW.nodup, ?_, ?_⟩
    · intro c
      rw [hstate, hrun]
      exact hW.running c
    · intro c
      rw [hready, hstate]
      exact hW.ready c
    · intro c k hk
      rw [hpc] at hk
      obtain ⟨hdone, hle, hzero⟩ := hW.puts c k hk
      have hcount : t'.ready.count c ≤ u.ready.count c := by rw [hready]
      obtain ⟨hle', -⟩ := WakesInv.puts_of_count (h := h) (e := e) hcount
      rw [hstate]
      refine ⟨hdone, hle'.trans hle, fun hs => ?_⟩
      have := hzero hs
      omega

/-- A step that moves no coroutine between the lists, and none into `s_iou_op`. -/
lemma WakesInv.keep (hW : WakesInv u h) (hstate : t.state = u.state) (hready : t.ready = u.ready)
    (hrun : t.running = u.running) (hpc : ∀ c k, t.pc c = .test k → u.pc c = .test k) :
    WakesInv t (h.observe u e t) := by
  refine ⟨?_, hready ▸ hW.nodup, ?_, ?_⟩
  · intro c
    rw [hstate, hrun]
    exact hW.running c
  · intro c
    rw [hready, hstate]
    exact hW.ready c
  · intro c k hk
    obtain ⟨hdone, hle, hzero⟩ := hW.puts c k (hpc c k hk)
    have hcount : t.ready.count c ≤ u.ready.count c := by rw [hready]
    obtain ⟨hle', -⟩ := WakesInv.puts_of_count (h := h) (e := e) hcount
    rw [hstate]
    refine ⟨hdone, hle'.trans hle, fun hs => ?_⟩
    have := hzero hs
    omega

/-- Coroutine `d` changes its state; the others stay where they are. -/
lemma WakesInv.move (hW : WakesInv u h) {d : CrId} {x : CrState} (hstate : t.state = Function.update u.state d x)
    (hnodup : t.ready.Nodup) (hready : ∀ c, c ∈ t.ready ↔ if c = d then x = .ready else c ∈ u.ready)
    (hrun : ∀ c, t.running = some c ↔ if c = d then x = .running else u.running = some c)
    (hpc : t.pc = u.pc)
    (hd : ∀ k, u.pc d = .test k → x ≠ .done ∧ d ∉ t.ready ∧ (x = .suspended → u.state d = .running)) :
    WakesInv t (h.observe u e t) := by
  have hst : ∀ c, t.state c = if c = d then x else u.state c := by
    intro c
    rw [hstate]
    by_cases hc : c = d
    · simp [hc]
    · simp [hc]
  refine ⟨?_, hnodup, ?_, ?_⟩
  · intro c
    rw [hst, hrun]
    by_cases hc : c = d
    · simp [hc]
    · simpa [hc] using hW.running c
  · intro c
    rw [hst, hready]
    by_cases hc : c = d
    · simp [hc]
    · simpa [hc] using hW.ready c
  · intro c k hk
    rw [hpc] at hk
    obtain ⟨hdone, hle, hzero⟩ := hW.puts c k hk
    by_cases hc : c = d
    · subst hc
      obtain ⟨hx, hnot, hsusp⟩ := hd k hk
      have hcount : t.ready.count c ≤ u.ready.count c := by
        rw [List.count_eq_zero_of_not_mem hnot]
        exact Nat.zero_le _
      obtain ⟨hle', hreset⟩ := WakesInv.puts_of_count (h := h) (e := e) hcount
      rw [hst, if_pos rfl]
      refine ⟨hx, hle'.trans hle, fun hs => hreset (hsusp hs) ?_⟩
      rw [hst, if_pos rfl, hs]
    · have hmem : c ∈ t.ready ↔ c ∈ u.ready := by
        rw [hready, if_neg hc]
      have hcount : t.ready.count c ≤ u.ready.count c := by
        rw [hnodup.count, hW.nodup.count]
        simp [hmem]
      obtain ⟨hle', -⟩ := WakesInv.puts_of_count (h := h) (e := e) hcount
      rw [hst, if_neg hc]
      refine ⟨hdone, hle'.trans hle, fun hs => ?_⟩
      have := hzero hs
      omega

/-- The running coroutine stops. -/
lemma WakesInv.stop (hW : WakesInv u h) {c : CrId} {x : CrState} (hc : u.running = some c)
    (hstate : t.state = Function.update u.state c x) (hready : t.ready = u.ready) (hrun : t.running = none)
    (hpc : t.pc = u.pc) (hx : x ≠ .ready) (hx' : x ≠ .running) (hd : ∀ k, u.pc c = .test k → x ≠ .done) :
    WakesInv t (h.observe u e t) := by
  have hold : u.state c = .running := (hW.running c).mpr hc
  have hnot : c ∉ u.ready := by
    rw [hW.ready, hold]
    simp
  refine hW.move hstate (hready ▸ hW.nodup) ?_ ?_ hpc (fun k hk => ⟨hd k hk, hready ▸ hnot, fun _ => hold⟩)
  · intro c'
    rw [hready]
    by_cases hc' : c' = c
    · simp [hc', hnot, hx]
    · simp [hc']
  · intro c'
    rw [hrun]
    by_cases hc' : c' = c
    · simp [hc', hx']
    · rw [if_neg hc', hc]
      simp [Ne.symm hc']

/-- A coroutine calls `s_iou_op`. -/
lemma WakesInv.call (hW : WakesInv u h) {c : CrId} {k : ℕ} (hstate : t.state = u.state) (hready : t.ready = u.ready)
    (hrun : t.running = u.running) (hc : u.running = some c) (hpc : t.pc = Function.update u.pc c (.test k)) :
    WakesInv t (h.observe u (.call c) t) := by
  refine ⟨?_, hready ▸ hW.nodup, ?_, ?_⟩
  · intro c'
    rw [hstate, hrun]
    exact hW.running c'
  · intro c'
    rw [hready, hstate]
    exact hW.ready c'
  · intro c' k' hk
    rw [hstate]
    by_cases hc' : c' = c
    · subst hc'
      have hputs : (h.observe u (.call c') t).puts c' = 0 := if_pos (Or.inl rfl)
      rw [hputs, (hW.running c').mpr hc]
      simp
    · rw [hpc, Function.update_of_ne hc'] at hk
      obtain ⟨hdone, hle, hzero⟩ := hW.puts c' k' hk
      have hcount : t.ready.count c' ≤ u.ready.count c' := by rw [hready]
      obtain ⟨hle', -⟩ := WakesInv.puts_of_count (h := h) (e := .call c) hcount
      refine ⟨hdone, hle'.trans hle, fun hs => ?_⟩
      have := hzero hs
      omega

lemma wakesInv_step (hW : WakesInv u h) (hstep : IouStep u e t) : WakesInv t (h.observe u e t) := by
  have hidle : ∀ {c}, u.pc c = .idle → ∀ k, u.pc c ≠ .test k := by
    intro c hc k
    rw [hc]
    simp
  cases hstep with
  | call hrun _ _ => exact hW.call rfl rfl rfl hrun rfl
  | @nomem c _ _ _ _ hpc _ =>
    refine hW.keep rfl rfl rfl (fun c' k hk => ?_)
    by_cases hc : c' = c
    · simp [hc] at hk
    · simpa [Function.update_of_ne hc] using hk
  | suspend hrun _ _ => exact hW.stop hrun rfl rfl rfl rfl (by simp) (by simp) (fun _ _ => by simp)
  | @leave c op _ hpc _ =>
    refine hW.keep rfl rfl rfl (fun c' k hk => ?_)
    by_cases hc : c' = c
    · simp [hc] at hk
    · simpa [Function.update_of_ne hc] using hk
  | @ret c r _ hpc =>
    refine hW.keep rfl rfl rfl (fun c' k hk => ?_)
    by_cases hc : c' = c
    · simp [hc] at hk
    · simpa [Function.update_of_ne hc] using hk
  | @run c hrun hmem =>
    have hnot : c ∉ u.ready.erase c := hW.nodup.not_mem_erase
    refine hW.move rfl (hW.nodup.erase c) ?_ ?_ rfl (fun k _ => ⟨by simp, hnot, by simp⟩)
    · intro c'
      by_cases hc : c' = c
      · simp [hc, hnot]
      · simp [hc, List.mem_erase_of_ne]
    · intro c'
      by_cases hc : c' = c
      · simp [hc]
      · simp [hc, Ne.symm hc, hrun]
  | @spawn c hdone =>
    have hnot : c ∉ u.ready := by
      rw [hW.ready, hdone]
      simp
    refine hW.move rfl ?_ ?_ ?_ rfl (fun k hk => absurd hdone (hW.puts c k hk).1)
    · exact nodup_snoc hW.nodup hnot
    · intro c'
      by_cases hc : c' = c
      · simp [Uring.enqueue, hc]
      · simp [Uring.enqueue, hc]
    · intro c'
      by_cases hc : c' = c
      · subst hc
        simp only [if_true, reduceCtorEq, iff_false]
        rw [show (u.enqueue c').running = u.running from rfl, ← hW.running, hdone]
        simp
      · simp [hc, Uring.enqueue]
  | @yield c hrun hpc =>
    have hnot : c ∉ u.ready := by
      rw [hW.ready, (hW.running c).mpr hrun]
      simp
    refine hW.move rfl ?_ ?_ ?_ rfl (fun k hk => absurd hk (hidle hpc k))
    · exact nodup_snoc hW.nodup hnot
    · intro c'
      by_cases hc : c' = c
      · simp [Uring.enqueue, hc]
      · simp [Uring.enqueue, hc]
    · intro c'
      by_cases hc : c' = c
      · simp [hc]
      · rw [if_neg hc, hrun]
        simp [Ne.symm hc]
  | park hrun _ => exact hW.stop hrun rfl rfl rfl rfl (by simp) (by simp) (fun _ _ => by simp)
  | exit hrun hpc => exact hW.stop hrun rfl rfl rfl rfl (by simp) (by simp) (fun k hk => absurd hk (hidle hpc k))
  | cancel | consume _ _ | post _ => exact hW.keep rfl rfl rfl (fun _ _ hk => hk)
  | @wake c =>
    refine hW.wake rfl rfl ?_ ?_ (by simp)
    · unfold Uring.wake
      split <;> rfl
    · unfold Uring.wake
      split <;> rfl
  | @interrupt c =>
    unfold Uring.interrupt
    split
    · exact hW.keep rfl rfl rfl (fun _ _ hk => hk)
    · refine hW.wake rfl rfl ?_ ?_ (by simp)
      · unfold Uring.wake
        split <;> rfl
      · unfold Uring.wake
        split <;> rfl
  | @flush x rest _ hcq =>
    unfold Uring.flushOne
    split
    · exact hW.keep rfl rfl rfl (fun _ _ hk => hk)
    · exact hW.keep rfl rfl rfl (fun _ _ hk => hk)
    · rename_i k _
      refine hW.wake (d := u.cr k) ?_ ?_ ?_ ?_ (by simp)
      · unfold Uring.wake
        split <;> rfl
      · unfold Uring.wake
        split <;> rfl
      · unfold Uring.wake
        split <;> rfl
      · unfold Uring.wake
        split <;> rfl

end Step

/-! ## The result -/

theorem iouInv_reachable {size : ℕ} {p : Uring × IouHist}
    (hp : Reachable (Observed IouStep IouHist.observe) (.init size, .init) p) :
    OpsInv p.1 p.2 ∧ WakesInv p.1 p.2 := by
  refine hp.invariant (I := fun p => OpsInv p.1 p.2 ∧ WakesInv p.1 p.2) ⟨opsInv_init size, wakesInv_init size⟩ ?_
  rintro ⟨u, h⟩ e ⟨t, h'⟩ ⟨hO, hW⟩ ⟨hstep, hobs⟩
  obtain rfl : h' = h.observe u e t := hobs
  exact ⟨opsInv_step hO hstep, wakesInv_step hW hstep⟩

/-- What operations on io_uring promise, in state `u` with history `h`. -/
structure IouContract (u : Uring) (h : IouHist) : Prop where
  /-- Whatever the kernel still has of an operation, its coroutine is in `s_iou_op` with that operation. -/
  alive : ∀ k, 0 < u.outstanding k → ∃ c, u.pc c = .test k ∧ u.pendingIo c = some k
  /-- A coroutine leaves the loop only after the completion of its operation was consumed, which was the only one,
  and what it returns is read off the result. -/
  leave : ∀ c t, IouStep u (.leave c) t → ∃ k res, u.pc c = .test k ∧ h.consumed k = [res] ∧
    t.outstanding k = 0 ∧ t.pendingIo c = none ∧
    (0 ≤ res → t.pc c = .ret ⟨res, none, none⟩ ∧ t.cancelReq c = u.cancelReq c) ∧
    (res = -ecanceled → u.cancelReq c = true →
      t.pc c = .ret ⟨-1, some .canceled, none⟩ ∧ t.cancelReq c = false) ∧
    (res = -ecanceled → u.cancelReq c = false →
      t.pc c = .ret ⟨-1, some .timedout, none⟩ ∧ t.cancelReq c = false) ∧
    (res < 0 → res ≠ -ecanceled →
      t.pc c = .ret ⟨-1, some .error, some (-res)⟩ ∧ t.cancelReq c = u.cancelReq c)
  /-- It does not get out of the loop in another way. -/
  stays : ∀ c k e t, IouStep u e t → u.pc c = .test k → e ≠ .leave c → t.pc c = .test k
  /-- Outside the loop no operation is in flight. -/
  returned : ∀ c, (∀ k, u.pc c ≠ .test k) → u.pendingIo c = none
  /-- While it is in the loop, a coroutine is put on a ready list once for each time it suspends, at most. -/
  puts : ∀ c k, u.pc c = .test k → h.puts c ≤ 1
  /-- It is never on a ready list twice. -/
  nodup : u.ready.Nodup

/-- Only a coroutine that leaves the loop changes its place in it. -/
lemma step_stays {u t : Uring} {e : IouEvent} (hstep : IouStep u e t) {c : CrId} {k : ℕ} (hpc : u.pc c = .test k)
    (he : e ≠ .leave c) : t.pc c = .test k := by
  have hne : ∀ {c'}, u.pc c' = .idle → c ≠ c' := by
    rintro c' hidle rfl
    rw [hidle] at hpc
    cases hpc
  have hwake : ∀ (v : Uring) d, (v.wake d).pc = v.pc := by
    intro v d
    unfold Uring.wake
    split <;> rfl
  cases hstep with
  | call _ hidle _ | nomem _ hidle _ =>
    simp only [Function.update_of_ne (hne hidle)]
    exact hpc
  | @leave c' op _ hpc' _ =>
    have hc : c ≠ c' := by
      rintro rfl
      exact he rfl
    simp only [Function.update_of_ne hc]
    exact hpc
  | @ret c' r _ hpc' =>
    have hc : c ≠ c' := by
      rintro rfl
      rw [hpc'] at hpc
      cases hpc
    simp only [Function.update_of_ne hc]
    exact hpc
  | wake =>
    rw [hwake]
    exact hpc
  | interrupt =>
    unfold Uring.interrupt
    split
    · exact hpc
    · rw [hwake]
      exact hpc
  | flush _ _ =>
    unfold Uring.flushOne
    split
    · exact hpc
    · exact hpc
    · rw [hwake]
      exact hpc
  | suspend _ _ _ | run _ _ | spawn _ | yield _ _ | park _ _ | exit _ _ | cancel | consume _ _ | post _ => exact hpc

/-- In every reachable state the operations keep their contract. -/
theorem iou_op_lifecycle {size : ℕ} {u : Uring} {h : IouHist}
    (hreach : Reachable (Observed IouStep IouHist.observe) (.init size, .init) (u, h)) : IouContract u h := by
  obtain ⟨hO, hW⟩ : OpsInv u h ∧ WakesInv u h := iouInv_reachable hreach
  refine ⟨?_, ?_, ?_, ?_, ?_, hW.nodup⟩
  · intro k hk
    have hlt : k < u.ops := by
      by_contra hge
      have := (hO.fresh k (by omega)).1
      omega
    have honce := hO.once k hlt
    have hnil : h.consumed k = [] := List.eq_nil_of_length_eq_zero (by omega)
    have halive := hO.alive k hlt hnil
    exact ⟨u.cr k, halive, (hO.test _ _ halive).2.2⟩
  · intro c t hstep
    cases hstep with
    | @leave _ op _ hpc hdone =>
      obtain ⟨hlt, -, -⟩ := hO.test c op hpc
      have hne := (hO.completed op hlt).mp hdone
      have honce := hO.once op hlt
      have hlen : (h.consumed op).length = 1 := by
        have hpos := List.length_pos_of_ne_nil hne
        omega
      obtain ⟨res, hres⟩ := List.length_eq_one_iff.mp hlen
      have hresult : u.result op = res := hO.result op res hres
      have hzero : u.outstanding op = 0 := by omega
      refine ⟨op, res, hpc, hres, hzero, by simp, ?_, ?_, ?_, ?_⟩
      · intro hnonneg
        have hnot : ¬ res < 0 := by omega
        simp [hresult, iouFinish, hnot]
      · intro hcan hreq
        simp [hresult, iouFinish, hcan, hreq, ecanceled]
      · intro hcan hreq
        simp [hresult, iouFinish, hcan, hreq, ecanceled]
      · intro hneg hcan
        simp [hresult, iouFinish, hneg, hcan]
  · intro c k e t hstep hpc he
    exact step_stays hstep hpc he
  · intro c hpc
    exact hO.pendingIo_none hpc
  · intro c k hpc
    exact (hW.puts c k hpc).2.1

/-- A coroutine in an operation with a deadline is resumed for nothing, then canceled.  The completion comes with
`-ECANCELED`: it returns canceled, and the request is gone. -/
theorem iou_op_lifecycle_canceled : ∃ (u t : Uring) (h : IouHist),
    Reachable (Observed IouStep IouHist.observe) (.init 4, .init) (u, h) ∧ IouStep u (.leave 0) t ∧
      t.outstanding 0 = 0 ∧ t.pendingIo 0 = none ∧ t.pc 0 = .ret ⟨-1, some .canceled, none⟩ ∧
      t.cancelReq 0 = false := by
  have hreach : Reachable (Observed IouStep IouHist.observe) (.init 4, .init) _ :=
    ⟨_, .observe_cons (.spawn (c := 0) rfl) <|
      .observe_cons (.run (c := 0) rfl (by decide)) <|
      .observe_cons (@IouStep.call _ 0 .recv 5 3 _ rfl rfl rfl) <|
      .observe_cons (.suspend (c := 0) rfl rfl rfl) <|
      .observe_cons (.wake (c := 0)) <|
      .observe_cons (.run (c := 0) rfl (by decide)) <|
      .observe_cons (.suspend (c := 0) rfl rfl rfl) <|
      .observe_cons (.cancel (c := 0)) <|
      .observe_cons (.interrupt (c := 0)) <|
      .observe_cons (@IouStep.post _ .null 0 (by decide)) <|
      .observe_cons (@IouStep.post _ (.op 0) (-125) (by decide)) <|
      .observe_cons (.flush rfl rfl) <|
      .observe_cons (.flush rfl rfl) <|
      .observe_cons (.run (c := 0) rfl (by decide)) <| .nil _⟩
  obtain ⟨u, h, hreach, hrun, hpc, hdone, hcons, hreq⟩ : ∃ (u : Uring) (h : IouHist),
      Reachable (Observed IouStep IouHist.observe) (.init 4, .init) (u, h) ∧ u.running = some 0 ∧
        u.pc 0 = .test 0 ∧ u.completed 0 = true ∧ h.consumed 0 = [-125] ∧ u.cancelReq 0 = true :=
    ⟨_, _, hreach, rfl, rfl, rfl, rfl, rfl⟩
  have hleave := IouStep.leave hrun hpc hdone
  obtain ⟨k, res, hpc', hcons', hzero, hio, -, hcan, -⟩ := (iou_op_lifecycle hreach).leave 0 _ hleave
  obtain rfl : 0 = k := by simpa using hpc.symm.trans hpc'
  obtain rfl : -125 = res := by simpa using hcons.symm.trans hcons'
  exact ⟨u, _, h, hreach, hleave, hzero, hio, hcan rfl hreq⟩

end Suspenders.Io
