import Suspenders.Wait.Footprint

/-!
# Every wait is decided once

The history of a run records every park made by `s_wait_park`: the list it is on, who has changed its status
from `S_WQ_WAITING`, and, once the blocking call has returned, what the call returned.  `DecideInv` ties
it to the nodes: a park in progress has no decider while its node is on the list and exactly one as soon as
it is not.

The parks of `s_mutex_lock_raw` are special.  `suspenders_cond_wait_dl` reports the status of its own wait
whatever happens while it takes the mutex again, so the status a relock was decided with is not the one
that is returned.
-/

namespace Suspenders.Wait

open Lib

/-! ## What is recorded -/

/-- A park made by `s_wait_park`. -/
structure Park where
  /-- The list it is on. -/
  list : ListId
  /-- Whether it was made by `s_mutex_lock_raw`. -/
  relock : Bool
  /-- The statuses it was decided with, one for each time its status was changed from `S_WQ_WAITING`. -/
  deciders : List Code
  deriving DecidableEq

/-- A blocking call that has returned. -/
structure Finish where
  /-- The parks it has made. -/
  parks : List Park
  /-- What it returned. -/
  code : Code

/-- What is recorded about waits. -/
structure WaitHist where
  /-- The park each coroutine is in. -/
  park : CrId → Option Park
  /-- The parks of its blocking call that are over. -/
  made : CrId → List Park
  /-- The blocking calls that have returned. -/
  log : List Finish

/-- Whether a wait ends in a call made by `suspenders_queue_sync`. -/
def Frame.isQueue : Frame → Bool
  | queueInit _ _ _ | queueSubmit _ | queueWait _ => true
  | _ => false

/-- Park `p` of coroutine `c` after action `act`. -/
def Park.after (p : Park) (act : Act) (c : CrId) : Park :=
  if .wq c ∈ act.decides then { p with deciders := p.deciders ++ [act.code] } else p

namespace WaitHist

/-- Nobody has called anything. -/
def init : WaitHist := ⟨fun _ => none, fun _ => [], []⟩

/-- The park of coroutine `c` after an event. -/
def parkOf (m : WaitHist) (e : Event) (c : CrId) : Option Park :=
  if e.ctx = .co c then
    match e.act with
    | .crit _ k out =>
      match out.res with
      | .park l _ _ => some ⟨l, k.isRelock, []⟩
      | .ret _ => (m.park c).map fun p => p.after e.act c
    | .decided _ _ => none
    | act => (m.park c).map fun p => p.after act c
  else (m.park c).map fun p => p.after e.act c

/-- The parks of a call whose wait is over. -/
def waited (m : WaitHist) (c : CrId) : List Park := m.made c ++ (m.park c).toList

/-- The parks of `c`'s call that are over after an event.  The calls of `suspenders_queue_sync` return as
soon as their wait is over. -/
def madeOf (m : WaitHist) (e : Event) (c : CrId) : List Park :=
  if e.ctx = .co c then
    match e.act with
    | .decided k _ => if k.isQueue then [] else m.waited c
    | .ret _ => []
    | _ => m.made c
  else m.made c

/-- The calls that return by an event. -/
def finished (m : WaitHist) (e : Event) : List Finish :=
  match e.ctx, e.act with
  | .co c, .decided k st => if k.isQueue then [⟨m.waited c, st⟩] else []
  | .co c, .ret code => [⟨m.made c, code⟩]
  | _, _ => []

/-- What a step records. -/
def record (m : WaitHist) (_ : Core) (e : Event) : WaitHist where
  park := m.parkOf e
  made := m.madeOf e
  log := m.log ++ m.finished e

end WaitHist

/-! ## The invariant -/

/-- The list a coroutine is parked on by `s_wait_park`. -/
def Pc.parkedOn (pc : Pc) : Option ListId := pc.waitOn.join

/-- Whether it is parked in `s_mutex_lock_raw`. -/
def Pc.relocking : Pc → Bool
  | blk k _ | susp k _ | sync k _ => k.isRelock
  | _ => false

/-- What a call whose wait is over is going to return. -/
def Pc.returning : Pc → Option Code
  | ret code => some code
  | cs _ (.relock _ st) | blk (.relock _ st) _ | susp (.relock _ st) _ | sync (.relock _ st) _ => some st
  | _ => none

/-- The statuses a wait can be decided with. -/
def FinalCode (st : Code) : Prop := st = .ok ∨ st = .closed ∨ st = .canceled ∨ st = .timedout

/-- The deciders of a park whose node has this status. -/
def Park.Ok (p : Park) : Status → Prop
  | .waiting => p.deciders = []
  | .decided st => p.deciders = [st] ∧ FinalCode st

/-- A park that is over, of a call that returns `code`. -/
def Park.Over (p : Park) (code : Code) : Prop :=
  ∃ st, p.deciders = [st] ∧ FinalCode st ∧ (p.relock = false → st = code)

/-- The history of coroutine `c`, which is at `pc` with node `x`. -/
structure DecideOk (m : WaitHist) (c : CrId) (pc : Pc) (x : Node) : Prop where
  /-- The coroutine is parked exactly if a park is recorded. -/
  parked : pc.parkedOn = (m.park c).map Park.list
  /-- The park is that of the place, and its deciders are those of the node. -/
  park : ∀ p, m.park c = some p → p.relock = pc.relocking ∧ p.Ok x.status
  /-- The parks that are over. -/
  made : m.made c = [] ∨ ∃ code, pc.returning = some code ∧ ∀ p ∈ m.made c, p.Over code

/-- The invariant of the recorded system. -/
structure DecideInv (p : Core × WaitHist) : Prop where
  /-- The coroutines. -/
  co : ∀ c, DecideOk p.2 c (p.1.pc (.co c)) (p.1.heap.waits.node (.wq c))
  /-- The calls that have returned. -/
  log : ∀ x ∈ p.2.log, ∀ q ∈ x.parks, q.Over x.code

/-! ## The acting coroutine -/

/-- Where a coroutine's node is follows from where the coroutine is. -/
lemma Inv.wq_mem_iff {s : Core} (hinv : Inv s) (c : CrId) (l : ListId) :
    .wq c ∈ s.heap.waits.queue l ↔
      (s.pc (.co c)).parkedOn = some l ∧ (s.heap.waits.node (.wq c)).status = .waiting := by
  rw [hinv.wf.mem_iff]
  cases hw : (s.pc (.co c)).waitOn with
  | none => simp [((hinv.node c).out hw).1, Pc.parkedOn, hw]
  | some o =>
    rcases (hinv.node c).wait o hw with ⟨hst, hlist⟩ | ⟨hst, hlist⟩
    · simp [hlist, hst, Pc.parkedOn, hw]
    · simp [hlist, hst]

/-- Nobody decides its own wait. -/
lemma step_self_decides {s t : Core} {c : CrId} {act : Act} (hinv : Inv s)
    (hstep : Step s ⟨.co c, act⟩ t) : .wq c ∉ act.decides := by
  have hcalm : (s.pc (.co c)).parkedOn = none → ∀ l, .wq c ∉ s.heap.waits.queue l := by
    intro hpc l hl
    rw [hinv.wq_mem_iff, hpc] at hl
    cases hl.1
  cases hstep with
  | «local» _ hl => simp [hl.decides_nil]
  | @crit _ op k hpc _ _ =>
    intro hmem
    obtain ⟨l, hl, hlock⟩ := (exec_effect hinv.wf (.co c) op).own _ hmem
    have hok := hinv.ok (.co c)
    rw [hpc] at hok
    cases k with
    | condUnlock m v =>
      -- the node is on the condition variable's list, the lock is the mutex's
      obtain rfl : op = .unlock m := hok
      rw [hinv.wq_mem_iff, hpc] at hl
      obtain rfl : .cond v = l := Option.some.inj hl.1
      simp [ListId.lock, Op.lockId] at hlock
    | _ => exact hcalm (by rw [hpc]; rfl) l hl
  | flip hpc _ _ hd =>
    intro hmem
    obtain rfl : c = _ := by simpa [Act.decides] using hmem
    have hout := ((hinv.node c).out (by rw [hpc]; rfl)).2
    simp [Waits.decide, hout] at hd
  | selTry hpc _ _ _ =>
    intro hmem
    obtain ⟨l, hl, -⟩ := (exec_effect hinv.wf (.co c) _).own _ hmem
    exact hcalm (by rw [hpc]; rfl) l hl
  | selRetry hpc _ _ _ =>
    intro hmem
    obtain ⟨l, hl, -⟩ := (exec_effect hinv.wf (.co c) _).own _ hmem
    exact hcalm (by rw [hpc]; rfl) l hl
  | _ => simp [Act.decides]

/-- A step of a coroutine that does not end its wait either parks it or keeps its park as it is. -/
lemma step_self_park {s t : Core} {c : CrId} {act : Act} (hinv : Inv s)
    (hstep : Step s ⟨.co c, act⟩ t) (hact : ∀ k st, act ≠ .decided k st) :
    (∃ op k out l data writer, act = .crit op k out ∧ out.res = .park l data writer ∧
      (t.pc (.co c)).parkedOn = some l ∧ (t.pc (.co c)).relocking = k.isRelock ∧
      (t.heap.waits.node (.wq c)).status = .waiting) ∨
    ((∀ op k out, act = .crit op k out → ∃ code, out.res = .ret code) ∧
      (t.pc (.co c)).parkedOn = (s.pc (.co c)).parkedOn ∧
      ((s.pc (.co c)).parkedOn ≠ none → (t.pc (.co c)).relocking = (s.pc (.co c)).relocking ∧
        (t.heap.waits.node (.wq c)).status = (s.heap.waits.node (.wq c)).status)) := by
  have hself := step_self_decides hinv hstep
  cases hstep with
  | «local» _ hl =>
    right
    obtain ⟨⟨hfrom, -⟩, hto⟩ := hl.calm (hinv.ok (.co c))
    refine ⟨fun op k out hcrit => ?_, ?_, fun hne => absurd ?_ hne⟩
    · subst hcrit
      generalize s.pc (.co c) = pc at hl
      cases hl
    · simp [Pc.parkedOn, hfrom, hto.waitOn]
    · simp [Pc.parkedOn, hfrom]
  | @crit _ op k hpc _ _ =>
    have hok := hinv.ok (.co c)
    rw [hpc] at hok
    cases hres : (exec s.heap (.co c) op).2.res with
    | park l data writer =>
      left
      refine ⟨op, k, _, l, data, writer, rfl, hres, ?_⟩
      have hstatus : ((critical s.heap (.co c) op).1.waits.node (.wq c)).status = .waiting := by
        simp [critical, hres, Heap.parkAs, Waits.park]
      simp only [critical, hres, Frame.next, Core.setHeld_pc, Core.setWork_pc, Core.setPc_pc_self]
      cases k with
      | condPark m v =>
        obtain rfl : op = .condPark v := hok
        obtain ⟨rfl, -⟩ : .cond v = l ∧ _ := by simpa [exec, Out.park] using hres
        exact ⟨rfl, rfl, by simpa [critical, hres] using hstatus⟩
      | _ => exact ⟨rfl, rfl, by simpa [critical, hres] using hstatus⟩
    | ret code =>
      right
      refine ⟨fun op' k' out hcrit => ?_, ?_⟩
      · cases hcrit
        exact ⟨code, hres⟩
      · simp only [critical, hres, Frame.next, Core.setHeld_pc, Core.setWork_pc, Core.setPc_pc_self,
          hpc, Heap.parkAs]
        have hkeep := (exec_effect hinv.wf (.co c) op).granted.wq_of_not_mem hself
        cases k with
        | condUnlock m v => exact ⟨rfl, fun _ => ⟨rfl, by simp [hkeep]⟩⟩
        | _ =>
          refine ⟨?_, fun hne => absurd rfl hne⟩
          unfold Pc.parkedOn
          rw [Frame.waitOn_after (by simp [Frame.IsCondUnlock])]
          rfl
  | testWaiting hpc _ _ | testDecided hpc _ _ | suspend hpc _ =>
    exact Or.inr ⟨by simp, by simp [hpc, Pc.parkedOn, Pc.waitOn], fun _ => ⟨by simp [hpc, Pc.relocking], rfl⟩⟩
  | decided => exact absurd rfl (hact _ _)
  | wake | unlock => exact Or.inr ⟨by simp, rfl, fun _ => ⟨rfl, rfl⟩⟩
  | @fin _ n _ _ =>
    exact Or.inr ⟨by simp, rfl, fun _ => ⟨rfl, by simp⟩⟩
  | @flip _ f _ _ _ hpc _ _ _ =>
    refine Or.inr ⟨by simp, ?_, fun hne => absurd ?_ hne⟩
    · cases f <;> simp [hpc, Pc.parkedOn, Pc.waitOn]
    · simp [hpc, Pc.parkedOn, Pc.waitOn]
  | @selTry _ ops i rest k hpc _ _ _ =>
    refine Or.inr ⟨by simp, ?_, fun hne => absurd ?_ hne⟩
    · simp only [Core.setWork_pc, Core.setPc_pc_self, hpc]
      split <;> rfl
    · rw [hpc]
      rfl
  | @selRetry _ ops i rest k hpc _ _ _ =>
    refine Or.inr ⟨by simp, ?_, fun hne => absurd ?_ hne⟩
    · simp only [Core.setWork_pc, Core.setPc_pc_self, hpc]
      split <;> rfl
    · rw [hpc]
      rfl
  | sleepPark hpc _ | selInit hpc _ | selReady hpc _ _ _ _ | selPark hpc _ _ _ _ | selRegEnd hpc _
  | selWaiting hpc _ _ _ | selDecided hpc _ _ | selSuspend hpc _ | selUnreg hpc _ _ _ _
  | selLeave hpc _ _ | selAgain _ hpc _ _ _ | selRescanEnd hpc _ | selSync hpc _ _ | selSync2 hpc _ _
  | selWon hpc _ | selScanned hpc _ | selFailed hpc _ _ =>
    exact Or.inr ⟨by simp, by simp [hpc, Pc.parkedOn, Pc.waitOn],
      fun hne => absurd (by simp [hpc, Pc.parkedOn, Pc.waitOn]) hne⟩

/-- No critical section returns `SUSPENDERS_TIMEDOUT` or `SUSPENDERS_CANCELED`. -/
lemma exec_ret_ne (h : Heap) (a : Ctx) (op : Op) :
    (exec h a op).2.res ≠ .ret .timedout ∧ (exec h a op).2.res ≠ .ret .canceled := by
  cases op with
  | send | recv =>
    simp only [exec, chanSendImpl, chanRecvImpl]
    split <;> (try split) <;> (try split) <;> simp [Out.ret, Out.grantOne, Out.park]
  | close =>
    simp only [exec, chanCloseImpl]
    split <;> simp [Out.ret, Out.grantMany]
  | rwUnlock r =>
    simp only [exec, rwlockUnlock, rwlockGrant]
    split_ifs <;> (try split) <;> (try split) <;> simp [Out.ret, Out.grantMany]
  | wgAdd =>
    simp only [exec, waitgroupAdd]
    split_ifs <;> simp [Out.ret, Out.grantMany]
  | condPark => simp [exec, Out.park]
  | broadcast => simp [exec, condBroadcast, Out.grantMany]
  | signal =>
    simp only [exec, condSignal]
    split <;> simp [Out.ret, Out.grantOne]
  | unlock =>
    simp only [exec, mutexUnlock]
    split <;> (try split) <;> simp [Out.ret, Out.grantOne]
  | _ =>
    simp only [exec, mutexLock, mutexTrylock, mutexLockRaw, rwlockRdlock, rwlockTryrdlock, rwlockWrlock,
      rwlockTrywrlock, waitgroupWait]
    split <;> (try split) <;> simp [Out.ret, Out.park]

/-- A call that knows what it is going to return sticks to it. -/
lemma step_self_returning {s t : Core} {c : CrId} {act : Act} (hstep : Step s ⟨.co c, act⟩ t)
    (hact : ∀ k st, act ≠ .decided k st) (hret : ∀ code, act ≠ .ret code) {code : Code}
    (h : (s.pc (.co c)).returning = some code) : (t.pc (.co c)).returning = some code := by
  cases hstep with
  | «local» _ hl =>
    generalize s.pc (.co c) = pc at hl h
    cases hl <;> first | exact absurd rfl (hret _) | cases h
  | @crit _ op k hpc _ _ =>
    rw [hpc] at h
    cases k with
    | relock m st =>
      cases hres : (exec s.heap (.co c) op).2.res with
      | ret st' =>
        simp only [critical, hres, Frame.next, Frame.after, Core.setHeld_pc, Core.setWork_pc,
          Core.setPc_pc_self]
        split <;> exact h
      | park l data writer =>
        simp only [critical, hres, Frame.next, Core.setHeld_pc, Core.setWork_pc, Core.setPc_pc_self]
        exact h
    | _ => cases h
  | @testWaiting _ k _ hpc _ _ | @testDecided _ k _ hpc _ _ | @suspend _ k _ hpc _ =>
    rw [hpc] at h
    rw [Core.setPc_pc_self]
    cases k <;> exact h
  | decided => exact absurd rfl (hact _ _)
  | wake | unlock | fin => exact h
  | flip hpc _ _ _ | selTry hpc _ _ _ | selRetry hpc _ _ _ | sleepPark hpc _ | selInit hpc _
  | selReady hpc _ _ _ _ | selPark hpc _ _ _ _ | selRegEnd hpc _ | selWaiting hpc _ _ _
  | selDecided hpc _ _ | selSuspend hpc _ | selUnreg hpc _ _ _ _ | selLeave hpc _ _
  | selAgain _ hpc _ _ _ | selRescanEnd hpc _ | selSync hpc _ _ | selSync2 hpc _ _ | selWon hpc _
  | selScanned hpc _ | selFailed hpc _ _ =>
    rw [hpc] at h
    cases h

/-- A call whose wait is over knows what it is going to return, or has returned already. -/
lemma DecideOk.decided {m : WaitHist} {c : CrId} {k : Frame} {l : Option ListId} {st : Code}
    {x : Node} (h : DecideOk m c (.sync k l) x) (hst : x.status = .decided st)
    (hk : ¬ k.IsCondUnlock) : ∃ code, (∀ p ∈ m.waited c, p.Over code) ∧
      if k.isQueue then code = st else (k.after st).returning = some code := by
  have hpark : ∀ p ∈ m.park c, p.deciders = [st] ∧ FinalCode st ∧ p.relock = k.isRelock := by
    intro p hp
    obtain ⟨hre, hok⟩ := h.park p hp
    rw [hst] at hok
    exact ⟨hok.1, hok.2, hre⟩
  by_cases hre : k.isRelock = true
  · obtain ⟨mx, st₀, rfl⟩ : ∃ mx st₀, k = .relock mx st₀ := by
      cases k <;> first | exact ⟨_, _, rfl⟩ | cases hre
    refine ⟨st₀, fun p hp => ?_, ?_⟩
    · rcases List.mem_append.mp hp with hp | hp
      · rcases h.made with hnil | ⟨code, hcode, hall⟩
        · rw [hnil] at hp
          cases hp
        · obtain rfl : st₀ = code := Option.some.inj hcode
          exact hall p hp
      · obtain ⟨hd, hfin, hrelock⟩ := hpark p (by simpa using hp)
        exact ⟨st, hd, hfin, fun hfalse => by rw [hrelock] at hfalse; cases hfalse⟩
    · simp only [Frame.isQueue, Bool.false_eq_true, if_false, Frame.after]
      split <;> rfl
  · -- the call has made no park before this one
    have hnil : m.made c = [] := by
      rcases h.made with hnil | ⟨code, hcode, -⟩
      · exact hnil
      · cases k <;> first | exact absurd rfl hre | cases hcode
    refine ⟨st, fun p hp => ?_, ?_⟩
    · obtain ⟨hd, hfin, -⟩ := hpark p (by simpa [WaitHist.waited, hnil] using hp)
      exact ⟨st, hd, hfin, fun _ => rfl⟩
    · cases k <;> first | exact absurd rfl hre | exact absurd trivial hk | rfl

/-! ## The step -/

/-- The status of a wait that somebody has decided. -/
lemma finalCode_of_decidedBy {s t : Core} {act : Act} {n : NodeRef} (h : act.DecidedBy s t n) :
    FinalCode act.code := by
  unfold FinalCode
  rcases h with ⟨l, -, hok | ⟨hcl, -⟩⟩ | ⟨c, -, hca | hto⟩ | ⟨c, -, hok, -⟩ <;> simp [*]

/-- A park somewhere else sees its decider. -/
lemma DecideOk.other {s t : Core} {e : Event} {m : WaitHist} {c : CrId} (hf : Footprint s e t)
    (hne : e.ctx ≠ .co c) (h : DecideOk m c (s.pc (.co c)) (s.heap.waits.node (.wq c))) :
    DecideOk (m.record s e) c (t.pc (.co c)) (t.heap.waits.node (.wq c)) := by
  rw [hf.pc _ (Ne.symm hne)]
  refine ⟨?_, fun p hp => ?_, ?_⟩
  · rw [h.parked]
    simp only [WaitHist.record, WaitHist.parkOf, if_neg hne, Option.map_map]
    congr 1
    funext p
    simp only [Function.comp, Park.after]
    split <;> rfl
  · simp only [WaitHist.record, WaitHist.parkOf, if_neg hne, Option.map_eq_some_iff] at hp
    obtain ⟨p₀, hp₀, rfl⟩ := hp
    obtain ⟨hre, hok⟩ := h.park p₀ hp₀
    by_cases hmem : .wq c ∈ e.act.decides
    · obtain ⟨hwait, hst, -⟩ := hf.waits.decided _ hmem
      have hnil : p₀.deciders = [] := by rwa [hwait] at hok
      simp only [Park.after, if_pos hmem, hst]
      exact ⟨hre, by simp [hnil], finalCode_of_decidedBy (hf.decider _ hmem)⟩
    · simp only [Park.after, if_neg hmem, (hf.waits.kept _ hmem hne).1]
      exact ⟨hre, hok⟩
  · simpa [WaitHist.record, WaitHist.madeOf, hne] using h.made

/-- The end of a wait. -/
lemma step_decided {s t : Core} {c : CrId} {k : Frame} {st : Code}
    (hstep : Step s ⟨.co c, .decided k st⟩ t) : ∃ l, s.pc (.co c) = .sync k l ∧
      (s.heap.waits.node (.wq c)).status = .decided st ∧ t.pc (.co c) = k.after st := by
  cases hstep with
  | «local» _ hl =>
    generalize s.pc (.co c) = pc at hl
    cases hl
  | decided hpc _ _ hst => exact ⟨_, hpc, hst, by simp⟩

/-- A step of the coroutine itself. -/
lemma DecideOk.self {s t : Core} {act : Act} {m : WaitHist} {c : CrId} (hinv : Inv s)
    (hstep : Step s ⟨.co c, act⟩ t)
    (h : DecideOk m c (s.pc (.co c)) (s.heap.waits.node (.wq c))) :
    DecideOk (m.record s ⟨.co c, act⟩) c (t.pc (.co c)) (t.heap.waits.node (.wq c)) := by
  by_cases hdec : ∃ k st, act = .decided k st
  · obtain ⟨k, st, rfl⟩ := hdec
    obtain ⟨l, hpc, hst, ht⟩ := step_decided hstep
    have hk : ¬ k.IsCondUnlock := by
      have hok := hinv.ok (.co c)
      rwa [hpc] at hok
    rw [hpc] at h
    obtain ⟨code, hall, hcode⟩ := h.decided hst hk
    rw [ht]
    refine ⟨?_, ?_, ?_⟩
    · simp [Pc.parkedOn, Frame.waitOn_after hk, WaitHist.record, WaitHist.parkOf]
    · simp [WaitHist.record, WaitHist.parkOf]
    · simp only [WaitHist.record, WaitHist.madeOf, if_true]
      split
      · exact Or.inl rfl
      · rename_i hq
        exact Or.inr ⟨code, by simpa [hq] using hcode, hall⟩
  · have hself := step_self_decides hinv hstep
    have hafter : ∀ p : Park, p.after act c = p := fun p => if_neg hself
    have hnot : ∀ k st, act ≠ .decided k st := fun k st heq => hdec ⟨k, st, heq⟩
    have hmade : (m.record s ⟨.co c, act⟩).made c = [] ∨ ∃ code,
        (t.pc (.co c)).returning = some code ∧
          ∀ p ∈ (m.record s ⟨.co c, act⟩).made c, p.Over code := by
      by_cases hret : ∃ code, act = .ret code
      · obtain ⟨code, rfl⟩ := hret
        exact Or.inl (by simp [WaitHist.record, WaitHist.madeOf])
      · have heq : (m.record s ⟨.co c, act⟩).made c = m.made c := by
          cases act <;> first | rfl | exact absurd rfl (hnot _ _) | exact absurd ⟨_, rfl⟩ hret | simp [WaitHist.record, WaitHist.madeOf]
        rw [heq]
        rcases h.made with hnil | ⟨code, hcode, hall⟩
        · exact Or.inl hnil
        · exact Or.inr ⟨code, step_self_returning hstep hnot (fun code heq => hret ⟨code, heq⟩) hcode,
            hall⟩
    obtain ⟨op, k, out, l, data, writer, rfl, hres, hpark, hre, hst⟩ | ⟨hcrit, hpark, hkeep⟩ :=
      step_self_park hinv hstep hnot
    · have hnew : (m.record s ⟨.co c, .crit op k out⟩).park c = some ⟨l, k.isRelock, []⟩ := by
        simp [WaitHist.record, WaitHist.parkOf, hres]
      refine ⟨by rw [hpark, hnew]; rfl, fun p hp => ?_, hmade⟩
      rw [hnew] at hp
      obtain rfl := Option.some.inj hp
      rw [hst]
      exact ⟨hre.symm, rfl⟩
    · have hsame : (m.record s ⟨.co c, act⟩).park c = m.park c := by
        have hmap : (m.park c).map (fun p => p.after act c) = m.park c := by simp [hafter]
        cases act with
        | crit op k out =>
          obtain ⟨code, hres⟩ := hcrit op k out rfl
          simpa [WaitHist.record, WaitHist.parkOf, hres] using hmap
        | decided k st => exact absurd rfl (hnot k st)
        | _ => simpa [WaitHist.record, WaitHist.parkOf] using hmap
      refine ⟨by rw [hpark, hsame]; exact h.parked, fun p hp => ?_, hmade⟩
      rw [hsame] at hp
      obtain ⟨hre, hst⟩ := hkeep (by rw [h.parked, hp]; simp)
      rw [hre, hst]
      exact h.park p hp

lemma decideInv_init (cfg : Config) : DecideInv (.init cfg, .init) where
  co := fun _ => ⟨rfl, by simp [WaitHist.init], Or.inl rfl⟩
  log := by simp [WaitHist.init]

lemma decideInv_step (p : Core × WaitHist) (e : Event) (q : Core × WaitHist) (hinv : Inv p.1)
    (h : DecideInv p) (hstep : Recorded Step WaitHist.record p e q) : DecideInv q := by
  obtain ⟨s, m⟩ := p
  obtain ⟨t, m'⟩ := q
  obtain ⟨hstep, rfl⟩ := hstep
  change Step s e t at hstep
  refine ⟨fun c => ?_, fun x hx => ?_⟩
  · by_cases hc : e.ctx = .co c
    · obtain ⟨a, act⟩ := e
      obtain rfl : a = .co c := hc
      exact (h.co c).self hinv hstep
    · exact (h.co c).other (step_footprint hinv hstep) hc
  · rcases List.mem_append.mp hx with hx | hx
    · exact h.log x hx
    · obtain ⟨a, act⟩ := e
      cases a with
      | co c =>
        cases act with
        | decided k st =>
          obtain ⟨l, hpc, hst, -⟩ := step_decided hstep
          have hk : ¬ k.IsCondUnlock := by
            have hok := hinv.ok (.co c)
            rwa [hpc] at hok
          have hco := h.co c
          rw [hpc] at hco
          obtain ⟨code, hall, hcode⟩ := hco.decided hst hk
          simp only [WaitHist.finished] at hx
          split at hx
          · rename_i hq
            obtain rfl : code = st := by simpa [hq] using hcode
            obtain rfl := List.mem_singleton.mp hx
            exact hall
          · cases hx
        | ret code =>
          obtain rfl := List.mem_singleton.mp hx
          have hpc : s.pc (.co c) = .ret code := by
            cases hstep with
            | «local» _ hl =>
              generalize s.pc (.co c) = pc at hl
              cases hl
              rfl
          rcases (h.co c).made with hnil | ⟨code', hcode', hall⟩
          · rw [hnil]
            simp
          · rw [hpc] at hcode'
            obtain rfl : code = code' := Option.some.inj hcode'
            exact hall
        | _ => cases hx
      | _ => cases hx

lemma decideInv_reachable {cfg : Config} {p : Core × WaitHist}
    (h : Reachable (Recorded Step WaitHist.record) (.init cfg, .init) p) : DecideInv p := by
  refine h.invariant_of (J := fun p => Inv p.1) (fun q hq => inv_reachable hq.of_recorded)
    (decideInv_init cfg) ?_
  exact fun p e q hp _ hI hstep => decideInv_step p e q hp hI hstep

/-! ## The result -/

end Suspenders.Wait
