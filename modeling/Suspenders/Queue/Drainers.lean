import Mathlib.Data.Finset.Card
import Mathlib.Data.Finset.Range
import Suspenders.Queue.Lists

/-!
# The wait group of the drainers

`drain_wg` is the number of drainers that have not left their loop, provided `suspenders_queue_create` could count them
all.  So the destroyer returns, if it returns to a coroutine, only when all of them are gone.
-/

namespace Suspenders.Queue

open Lib

variable {cfg : Config} {s s' : State} {ev : Event}

lemma waitgroupAdd_iterate {m k : ℕ} (h : k ≤ m) : (fun k => waitgroupAdd k (-1))^[k] (m : ℤ) = (m - k : ℕ) := by
  induction k with
  | zero => simp
  | succ k ih =>
    rw [Function.iterate_succ_apply', ih (by omega)]
    unfold waitgroupAdd
    rw [if_neg (by omega)]
    omega

/-- A small argument counts the drainers right. -/
lemma Config.drainWg_eq (hcfg : cfg.concurrency < 2 ^ 31) : cfg.drainWg = cfg.spawned := by
  have hmax : max cfg.concurrency 1 < 2 ^ 31 := by omega
  have hint : toInt (max cfg.concurrency 1) = (max cfg.concurrency 1 : ℕ) := by
    unfold toInt
    rw [Int.bmod_eq_of_le] <;> omega
  have hadd : waitgroupAdd 0 (toInt (max cfg.concurrency 1)) = (max cfg.concurrency 1 : ℕ) := by
    rw [hint]
    unfold waitgroupAdd
    rw [if_neg (by omega), Int.zero_add]
  rw [Config.drainWg, hadd, waitgroupAdd_iterate (Nat.sub_le _ _), Nat.sub_sub_self cfg.le]

/-- How many drainers have not left. -/
def State.alive (s : State) (cfg : Config) : ℕ := ((Finset.range cfg.spawned).filter fun d => s.dpc d ≠ .exited).card

lemma DStep.ne_exited {d : DrainerId} {p p' : DPc} (h : DStep cfg s d p p') : p ≠ .exited ∧ p' ≠ .exited := by
  cases h with
  | @lockOwn c => exact ⟨by simp, by cases c <;> simp [DCall.after]⟩
  | _ => simp [DCall.after]

/-- What a step does to the wait group of the drainers. -/
lemma exited_step (hstep : Step cfg s ev s') :
    (s'.drainWg = s.drainWg ∧ ∀ e, s'.dpc e = .exited ↔ s.dpc e = .exited) ∨
    ∃ d, s.dpc d = .exit ∧ s'.drainWg = waitgroupAdd s.drainWg (-1) ∧ s'.dpc = Function.update s.dpc d .exited := by
  have hkeep {d : DrainerId} {p q : DPc} (hq : s.dpc d = q) (hqe : q ≠ .exited) (hp : p ≠ .exited)
      (hdpc : s'.dpc = Function.update s.dpc d p) (e : DrainerId) : s'.dpc e = .exited ↔ s.dpc e = .exited := by
    by_cases he : e = d
    · subst he
      simp [hdpc, hp, hq, hqe]
    · simp [hdpc, he]
  cases hstep with
  | control hd => exact .inl ⟨rfl, hkeep rfl hd.ne_exited.1 hd.ne_exited.2 rfl⟩
  | @preFailed d c st hd => exact .inl ⟨rfl, hkeep hd (by simp) (by cases c <;> cases st <;> simp [DCall.after]) rfl⟩
  | @woken d c st hd => exact .inl ⟨rfl, hkeep hd (by simp) (by cases c <;> cases st <;> simp [DCall.after]) rfl⟩
  | condUnlock hd | start hd | unlockEnd hd =>
    rw [State.mutexUnlock_eq] at hkeep ⊢
    exact .inl ⟨rfl, hkeep hd (by simp) (by simp) rfl⟩
  | bodyReturn hd => exact .inl ⟨rfl, hkeep hd (by simp) (by split <;> simp) rfl⟩
  | leave hd => exact .inl ⟨rfl, hkeep hd (by simp) (by split <;> simp) rfl⟩
  | finish hd =>
    simp only [State.setD] at hkeep ⊢
    refine .inl ⟨by split <;> rfl, hkeep (p := .workEnd) hd (by simp) (by simp) (by split <;> rfl)⟩
  | exit hd => exact .inr ⟨_, hd, rfl, rfl⟩
  | lockFree hd hc =>
    obtain rfl | rfl := hc
    · exact .inl ⟨rfl, hkeep hd (by simp) (by simp [DCall.after]) rfl⟩
    · exact .inl ⟨rfl, hkeep hd (by simp) (by simp [DCall.after]) rfl⟩
  | close =>
    unfold State.chanClose
    split <;> exact .inl ⟨rfl, fun _ => Iff.rfl⟩
  | @wake a => cases a <;> exact .inl ⟨rfl, fun _ => Iff.rfl⟩
  | recvPop hd | recvRefill hd | recvDirect hd | recvPark hd | lockPark hd | condPark hd | relockFree hd
  | relockPark hd | enterBarrier hd | enter hd | startSerial hd | leaveBarrier hd | broadcast hd | workEnd hd =>
    exact .inl ⟨rfl, hkeep hd (by simp) (by simp [DCall.after]) rfl⟩
  | _ => exact .inl ⟨rfl, fun _ => Iff.rfl⟩

/-- The wait group of the drainers. -/
structure Drainers (cfg : Config) (s : State) : Prop where
  count : s.drainWg = s.alive cfg
  /-- The destroyer waits for all of them. -/
  woken : s.xpc = .blk → s.node .destroyer = .decided .ok → s.drainWg = 0
  returned : s.xpc = .returned → s.drainWg = 0

lemma drainers_create (hcfg : cfg.concurrency < 2 ^ 31) : Drainers cfg (.create cfg) where
  count := by
    have hall : (Finset.range cfg.spawned).filter (fun d => (State.create cfg).dpc d ≠ .exited) =
        Finset.range cfg.spawned := by
      refine Finset.filter_true_of_mem fun d _ => ?_
      simp only [State.create]
      split <;> simp
    rw [State.alive, hall, Finset.card_range]
    exact Config.drainWg_eq hcfg
  woken := by simp [State.create]
  returned := by simp [State.create]

/-- A drainer that leaves is counted. -/
lemma State.alive_exit {d : DrainerId} (hd : s.dpc d = .exit) (hlt : d < cfg.spawned)
    (hdpc : s'.dpc = Function.update s.dpc d .exited) : s'.alive cfg + 1 = s.alive cfg := by
  have heq : (Finset.range cfg.spawned).filter (fun e => s'.dpc e ≠ .exited) =
      ((Finset.range cfg.spawned).filter fun e => s.dpc e ≠ .exited).erase d := by
    ext e
    by_cases he : e = d
    · simp [he, hdpc]
    · simp [he, hdpc]
  have hmem : d ∈ (Finset.range cfg.spawned).filter fun e => s.dpc e ≠ .exited := by
    simp [hd, hlt]
  rw [State.alive, State.alive, heq, Finset.card_erase_add_one hmem]

lemma drainers_count_step (hchan : Chan cfg s) (h : Drainers cfg s) (hstep : Step cfg s ev s') :
    s'.drainWg = s'.alive cfg ∧ (s.drainWg = 0 → s'.drainWg = 0) := by
  obtain ⟨hwg, hdpc⟩ | ⟨d, hd, hwg, hdpc⟩ := exited_step hstep
  · refine ⟨?_, fun h0 => hwg.trans h0⟩
    rw [hwg, h.count, State.alive, State.alive]
    simp [hdpc]
  · have hlt : d < cfg.spawned := by
      by_contra hge
      simpa [hd] using (hchan.absent d).mpr (Nat.le_of_not_lt hge)
    have halive := State.alive_exit hd hlt hdpc
    have hcount := h.count
    unfold waitgroupAdd at hwg
    rw [if_neg (by omega)] at hwg
    exact ⟨by omega, fun h0 => by omega⟩

/-- Only the last drainer wakes the destroyer. -/
lemma destroyer_step (h : Drainers cfg s) (hstep : Step cfg s ev s') (hzero : s.drainWg = 0 → s'.drainWg = 0) :
    (s'.xpc = .blk → s'.node .destroyer = .decided .ok → s'.drainWg = 0) ∧
      (s'.xpc = .returned → s'.drainWg = 0) := by
  have hkeep (hxpc : s'.xpc = s.xpc) (hnode : s'.node .destroyer = s.node .destroyer) :
      (s'.xpc = .blk → s'.node .destroyer = .decided .ok → s'.drainWg = 0) ∧
      (s'.xpc = .returned → s'.drainWg = 0) := by
    rw [hxpc, hnode]
    exact ⟨fun hx hn => hzero (h.woken hx hn), fun hx => hzero (h.returned hx)⟩
  cases hstep with
  | condUnlock | start | unlockEnd =>
    rw [State.mutexUnlock_eq] at hkeep ⊢
    exact hkeep rfl (State.mutexUnlock_node_of_ne _ (by simp))
  | finish =>
    simp only [State.setD] at hkeep ⊢
    exact hkeep (by split <;> rfl) (by split; exacts [State.syncDone_node (by simp), rfl])
  | exit =>
    refine ⟨fun hx hn => ?_, fun hx => hzero (h.returned hx)⟩
    by_cases hw : waitgroupAdd s.drainWg (-1) = 0
    · exact hw
    · refine hzero (h.woken hx ?_)
      simpa [State.drainDone, hw] using hn
  | close hx =>
    unfold State.chanClose at hkeep ⊢
    constructor
    · split <;> split <;> simp
    · split <;> split <;> simp
  | destroy => simp
  | drainGo => simp
  | drained hx h0 => exact ⟨by simp, fun _ => h0⟩
  | drainPark => simp
  | @drainWoken st hx hn =>
    by_cases hst : st = .ok
    · subst hst
      exact ⟨by simp, fun _ => h.woken hx hn⟩
    · simp [hst]
  | @wake a st hw hst =>
    by_cases ha : a = .destroyer
    · subst ha
      have hok : st ≠ .ok := by
        rintro rfl
        simp at hst
      exact ⟨by simp [hok], fun hx => hzero (h.returned hx)⟩
    · cases a with
      | destroyer => exact absurd rfl ha
      | drainer d => exact hkeep rfl (by simp [State.unlink])
      | caller t => exact hkeep rfl (by simp [State.unlink])
  | _ => exact hkeep rfl (by simp [State.condBroadcast])

lemma drainers_step (hchan : Chan cfg s) (h : Drainers cfg s) (hstep : Step cfg s ev s') : Drainers cfg s' where
  count := (drainers_count_step hchan h hstep).1
  woken := (destroyer_step h hstep (drainers_count_step hchan h hstep).2).1
  returned := (destroyer_step h hstep (drainers_count_step hchan h hstep).2).2

end Suspenders.Queue
