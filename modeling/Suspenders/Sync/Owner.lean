import Suspenders.Sync.Step

/-!
# Who owns a mutex

A mutex is free with nobody waiting, or it is owned.  Unlocking hands it to the longest-waiting waiter before
that waiter runs, so a coroutine whose wait on a mutex was decided with `OK` owns it already, and one whose
wait was decided otherwise, or not at all, does not.  `suspenders_cond_wait_dl` owns the mutex until it has
released it, does not own it until `s_mutex_lock_raw` has it back, and owns it from then on.  `OwnerInv` carries
this through every step.
-/

namespace Suspenders.Sync

open Lib Wait

/-! ## Critical sections -/

/-- What a critical section of `a` does to mutex `m`. -/
inductive MutexMove (h : Heap) (a : Ctx) (m : ℕ) (op : Op) (h' : Heap) (out : Out) : Prop
  /-- Nothing: it is about something else, or the attempt has failed. -/
  | keep : h'.owner m = h.owner m → h'.waits.queue (.mutex m) = h.waits.queue (.mutex m) →
      (op.lockId = .mutex m → ∃ code, out.res = .ret code ∧ code ≠ .ok ∧
        (op = .unlock m → h.owner m ≠ some a) ∧ (op = .lock m → h.owner m = some a)) →
      op ≠ .lockRaw m → MutexMove h a m op h' out
  /-- A free mutex is taken. -/
  | take : h.owner m = none → h'.owner m = some a →
      h'.waits.queue (.mutex m) = h.waits.queue (.mutex m) →
      op = .lock m ∨ op = .trylock m ∨ op = .lockRaw m → out.res = .ret .ok →
      MutexMove h a m op h' out
  /-- The caller parks. -/
  | park {c : CrId} {b : Ctx} : a = .co c → h.owner m = some b →
      (op = .lock m ∧ b ≠ a) ∨ op = .lockRaw m → h'.owner m = h.owner m →
      h'.waits.queue (.mutex m) = h.waits.queue (.mutex m) ++ [.wq c] →
      out.res = .park (.mutex m) [] false → MutexMove h a m op h' out
  /-- The owner releases it and nobody waits. -/
  | release : op = .unlock m → h.owner m = some a → h.waits.queue (.mutex m) = [] →
      h'.owner m = none → h'.waits.queue (.mutex m) = [] → out.res = .ret .ok →
      MutexMove h a m op h' out
  /-- The owner hands it to the first waiter. -/
  | hand {c : CrId} {rest : List NodeRef} : op = .unlock m → h.owner m = some a →
      h.waits.queue (.mutex m) = .wq c :: rest → h'.owner m = some (.co c) →
      h'.waits.queue (.mutex m) = rest → out.granted = [.wq c] → out.res = .ret .ok →
      MutexMove h a m op h' out

@[simp] lemma parkAs_owner (h : Heap) (a : Ctx) (res : Res) : (h.parkAs a res).owner = h.owner := by
  unfold Heap.parkAs
  split <;> (try split) <;> rfl

@[simp] lemma parkAs_rw (h : Heap) (a : Ctx) (res : Res) : (h.parkAs a res).rw = h.rw := by
  unfold Heap.parkAs
  split <;> (try split) <;> rfl

/-- Critical sections of other structures do not change who owns a mutex. -/
lemma exec_owner (h : Heap) (a : Ctx) (op : Op) {m : ℕ} (hop : op.lockId ≠ .mutex m) :
    (exec h a op).1.owner m = h.owner m := by
  have hne : ∀ {m' : ℕ}, LockId.mutex m' ≠ .mutex m → m ≠ m' := by
    rintro m' hm rfl
    exact hm rfl
  cases op with
  | lock m' | trylock m' | lockRaw m' =>
    simp only [exec, mutexLock, mutexTrylock, mutexLockRaw]
    split
    · simp [hne hop]
    · first | rfl | (split <;> rfl)
  | unlock m' =>
    simp only [exec, mutexUnlock]
    split
    · split <;> simp [hne hop]
    · rfl
  | send ch val t =>
    simp only [exec, chanSendImpl]
    split <;> (try split) <;> rfl
  | recv ch t =>
    simp only [exec, chanRecvImpl]
    split <;> (try split) <;> rfl
  | close ch =>
    simp only [exec, chanCloseImpl]
    split <;> rfl
  | rwUnlock r =>
    simp only [exec, rwlockUnlock, rwlockGrant]
    repeat' split
    all_goals rfl
  | _ =>
    simp only [exec, rwlockRdlock, rwlockTryrdlock, rwlockWrlock, rwlockTrywrlock, condSignal,
      condBroadcast, waitgroupAdd, waitgroupWait]
    repeat' split
    all_goals rfl

/-- A park on another list leaves a list alone. -/
lemma parkAs_queue {h : Heap} {a : Ctx} {res : Res} {l : ListId}
    (hl : ∀ l' data writer, res = .park l' data writer → l' ≠ l) :
    (h.parkAs a res).waits.queue l = h.waits.queue l := by
  unfold Heap.parkAs
  split
  · rename_i l' data writer
    split
    · simp [Waits.park, Ne.symm (hl l' data writer rfl)]
    · rfl
  · rfl

/-- A critical section of another structure leaves a list without select nodes alone. -/
lemma critical_queue {h : Heap} (hw : h.waits.WF) (a : Ctx) (op : Op) {l : ListId} (hl : ¬ l.IsChan)
    (hop : op.lockId ≠ l.lock) : (critical h a op).1.waits.queue l = h.waits.queue l := by
  have heff := exec_effect hw a op
  refine (parkAs_queue fun l' data writer hres => ?_).trans (effect_queue heff hw hl (Ne.symm hop))
  rintro rfl
  exact hop (heff.park _ _ _ hres).2.symm

/-- Only coroutines get to the critical sections of blocking calls. -/
lemma needsCo {s : Core} (hinv : Inv s) {a : Ctx} {op : Op} {k : Frame} (hpc : s.pc a = .cs op k)
    (hop : op.NeedsCo) : ∃ c, a = .co c := by
  by_contra hnot
  have hforeign := hinv.foreign a fun c hc => hnot ⟨c, hc⟩
  rw [hpc] at hforeign
  exact hforeign.1 hop

/-- What a call's critical section does to mutex `m`. -/
lemma critical_mutex {s : Core} (hinv : Inv s) {a : Ctx} {op : Op} {k : Frame}
    (hpc : s.pc a = .cs op k) (m : ℕ) :
    MutexMove s.heap a m op (critical s.heap a op).1 (critical s.heap a op).2 := by
  have hco : op.NeedsCo → ∃ c, a = .co c := needsCo hinv hpc
  by_cases hop : op.lockId = .mutex m
  · cases op with
    | lock m' =>
      obtain rfl : m' = m := by simpa [Op.lockId] using hop
      obtain ⟨c, rfl⟩ := hco trivial
      cases hown : s.heap.owner m' with
      | none =>
        exact .take hown (by simp [critical, exec, mutexLock, hown])
          (by simp [critical, exec, mutexLock, hown, Out.ret, Heap.parkAs]) (Or.inl rfl)
          (by simp [critical, exec, mutexLock, hown, Out.ret])
      | some b =>
        by_cases hb : b = .co c
        · subst hb
          exact .keep (by simp [critical, exec, mutexLock, hown])
            (by simp [critical, exec, mutexLock, hown, Out.ret, Heap.parkAs])
            (fun _ => ⟨.perm, by simp [critical, exec, mutexLock, hown, Out.ret], by simp, by simp,
              fun _ => hown⟩) (by simp)
        · exact .park rfl hown (Or.inl ⟨rfl, hb⟩) (by simp [critical, exec, mutexLock, hown, hb])
            (by simp [critical, exec, mutexLock, hown, hb, Out.park, Heap.parkAs, Waits.park])
            (by simp [critical, exec, mutexLock, hown, hb, Out.park])
    | trylock m' =>
      obtain rfl : m' = m := by simpa [Op.lockId] using hop
      cases hown : s.heap.owner m' with
      | none =>
        exact .take hown (by simp [critical, exec, mutexTrylock, hown])
          (by simp [critical, exec, mutexTrylock, hown, Out.ret, Heap.parkAs]) (Or.inr (Or.inl rfl))
          (by simp [critical, exec, mutexTrylock, hown, Out.ret])
      | some b =>
        exact .keep (by simp [critical, exec, mutexTrylock, hown])
          (by simp [critical, exec, mutexTrylock, hown, Out.ret, Heap.parkAs])
          (fun _ => ⟨.busy, by simp [critical, exec, mutexTrylock, hown, Out.ret], by simp, by simp,
            by simp⟩) (by simp)
    | lockRaw m' =>
      obtain rfl : m' = m := by simpa [Op.lockId] using hop
      obtain ⟨c, rfl⟩ := hco trivial
      cases hown : s.heap.owner m' with
      | none =>
        exact .take hown (by simp [critical, exec, mutexLockRaw, hown])
          (by simp [critical, exec, mutexLockRaw, hown, Out.ret, Heap.parkAs])
          (Or.inr (Or.inr rfl)) (by simp [critical, exec, mutexLockRaw, hown, Out.ret])
      | some b =>
        exact .park rfl hown (Or.inr rfl) (by simp [critical, exec, mutexLockRaw, hown])
          (by simp [critical, exec, mutexLockRaw, hown, Out.park, Heap.parkAs, Waits.park])
          (by simp [critical, exec, mutexLockRaw, hown, Out.park])
    | unlock m' =>
      obtain rfl : m' = m := by simpa [Op.lockId] using hop
      by_cases hown : s.heap.owner m' = some a
      · cases hq : s.heap.waits.queue (.mutex m') with
        | nil =>
          exact .release rfl hown hq (by simp [critical, exec, mutexUnlock, hown, hq])
            (by simp [critical, exec, mutexUnlock, hown, hq, Out.ret, Heap.parkAs])
            (by simp [critical, exec, mutexUnlock, hown, hq, Out.ret])
        | cons n rest =>
          obtain ⟨c, rfl⟩ : ∃ c, n = .wq c :=
            ⟨n.cr, wq_of_mem hinv.wf (l := .mutex m') (by simp [ListId.IsChan]) (by simp [hq])⟩
          exact .hand rfl hown hq (by simp [critical, exec, mutexUnlock, hown, hq, NodeRef.cr])
            (by simp [critical, exec, mutexUnlock, hown, hq, Out.grantOne, Heap.parkAs])
            (by simp [critical, exec, mutexUnlock, hown, hq, Out.grantOne])
            (by simp [critical, exec, mutexUnlock, hown, hq, Out.grantOne])
      · exact .keep (by simp [critical, exec, mutexUnlock, hown])
          (by simp [critical, exec, mutexUnlock, hown, Out.ret, Heap.parkAs])
          (fun _ => ⟨.perm, by simp [critical, exec, mutexUnlock, hown, Out.ret], by simp,
            fun _ => hown, by simp⟩) (by simp)
    | _ => simp [Op.lockId] at hop
  · refine .keep ?_ (critical_queue hinv.wf a op (by simp [ListId.IsChan]) hop) (fun h => absurd h hop) ?_
    · simp only [critical, parkAs_owner]
      exact exec_owner s.heap a op hop
    · rintro rfl
      exact hop rfl

/-- How a step changes who owns mutex `m`: an owner loses it only by its own unlock, and a context gets it only
by its own lock attempt or by being handed it while it waits. -/
lemma step_owner {s t : Core} {e : Event} (hinv : Inv s) (hstep : Step s e t) (m : ℕ) (a : Ctx) :
    (s.heap.owner m = some a → t.heap.owner m = some a ∨
      (e.ctx = a ∧ ∃ k out, e.act = .crit (.unlock m) k out)) ∧
    (t.heap.owner m = some a → s.heap.owner m = some a ∨
      (e.ctx = a ∧ ∃ op k out, e.act = .crit op k out ∧ op.lockId = .mutex m ∧ out.res = .ret .ok) ∨
      (∃ c, a = .co c ∧ .wq c ∈ s.heap.waits.queue (.mutex m) ∧ .wq c ∈ e.act.decides)) := by
  rcases step_sync hinv hstep with ⟨op, k, hpc, hact, hheap, -⟩ | ⟨f, c, lk, w, -, -, -, hheap⟩ | hq
  · rw [hheap, hact]
    cases critical_mutex hinv hpc m with
    | keep hown _ _ _ => rw [hown]; exact ⟨Or.inl, Or.inl⟩
    | take hnone hown _ hop hres =>
      refine ⟨fun h => absurd (hnone.symm.trans h) (by simp), fun h => ?_⟩
      obtain rfl : e.ctx = a := Option.some.inj (hown.symm.trans h)
      refine Or.inr (Or.inl ⟨rfl, op, k, _, rfl, ?_, hres⟩)
      rcases hop with rfl | rfl | rfl <;> rfl
    | park _ _ _ hown _ _ => rw [hown]; exact ⟨Or.inl, Or.inl⟩
    | release hop hown _ hnone _ _ =>
      subst hop
      exact ⟨fun h => Or.inr ⟨Option.some.inj (hown.symm.trans h), k, _, rfl⟩,
        fun h => absurd (hnone.symm.trans h) (by simp)⟩
    | @hand c rest hop hown hqueue hown' _ hgranted _ =>
      subst hop
      refine ⟨fun h => Or.inr ⟨Option.some.inj (hown.symm.trans h), k, _, rfl⟩, fun h => ?_⟩
      exact Or.inr (Or.inr ⟨c, (Option.some.inj (hown'.symm.trans h)).symm, by simp [hqueue],
        by simp [Act.decides, hgranted]⟩)
  · rw [hheap]
    exact ⟨Or.inl, Or.inl⟩
  · rw [hq.owner]
    exact ⟨Or.inl, Or.inl⟩

/-- How a coroutine's wait on a list without select nodes is decided: by a critical section on the structure,
or from outside. -/
lemma step_decides_wait {s t : Core} {e : Event} (hinv : Inv s) (hstep : Step s e t) {c : CrId}
    {l : ListId} (hl : ¬ l.IsChan) (hpark : (s.pc (.co c)).parkedOn = some l)
    (hdec : .wq c ∈ e.act.decides) :
    (∃ op k out, e.act = .crit op k out ∧ op.lockId = l.lock) ∨ ∃ st, e.act = .flip c st := by
  have hf := step_footprint hinv hstep
  have hlist : ∀ l', .wq c ∈ s.heap.waits.queue l' → l' = l := by
    intro l' hl'
    have hmem := (hinv.wq_mem_iff c l').mp hl'
    rw [hpark] at hmem
    exact (Option.some.inj hmem.1).symm
  cases hact : e.act with
  | crit op k out =>
    left
    refine ⟨op, k, out, rfl, ?_⟩
    rcases step_sync hinv hstep with ⟨op', k', -, hact', -, -⟩ | ⟨_, _, _, _, -, hact', -, -⟩ | hq
    · rw [hact] at hact'
      cases hact'
      rw [hact] at hdec
      obtain ⟨l', hl', hlock⟩ := (exec_effect hinv.wf e.ctx op).own _ hdec
      rw [← hlock, hlist l' hl']
    · rw [hact] at hact'
      cases hact'
    · exact absurd hact (hq.not_crit op k out)
  | flip c' st =>
    rw [hact] at hdec
    obtain rfl : c = c' := by simpa [Act.decides] using hdec
    exact Or.inr ⟨st, rfl⟩
  | selTry i k out =>
    exfalso
    rw [hact] at hdec
    have hsel : ∃ a, out = (exec s.heap a k.op).2 := by
      obtain ⟨a, act⟩ := e
      obtain rfl : act = _ := hact
      cases hstep with
      | «local» _ hloc =>
        generalize s.pc a = pc at hloc
        cases hloc
      | selTry => exact ⟨_, rfl⟩
      | selRetry => exact ⟨_, rfl⟩
    obtain ⟨a, rfl⟩ := hsel
    obtain ⟨l', hl', hlock⟩ := (exec_effect hinv.wf a k.op).own _ hdec
    rw [hlist l' hl', Case.lockId_op] at hlock
    cases l <;> first | exact hl trivial | cases hlock
  | sleepFire c' =>
    exfalso
    rw [hact] at hdec
    obtain rfl : c = c' := by simpa [Act.decides] using hdec
    obtain ⟨a, act⟩ := e
    obtain rfl : act = _ := hact
    cases hstep with
    | «local» _ hloc =>
      generalize s.pc a = pc at hloc
      cases hloc
    | sleepFire _ _ hpc _ =>
      rcases hpc with hpc | hpc <;> rw [hpc] at hpark <;> cases hpark
  | _ =>
    rw [hact] at hdec
    cases hdec

/-! ## The invariant -/

/-- In the part of `suspenders_cond_wait_dl` in which the caller still owns the mutex. -/
def holdsAt (m : ℕ) : Pc → Prop
  | .cs _ (.condPark m' _) | .cs _ (.condUnlock m' _) => m' = m
  | _ => False

/-- In the part of `suspenders_cond_wait_dl` in which the caller does not own the mutex and does not wait for
it. -/
def awayAt (m : ℕ) : Pc → Prop
  | .blk (.condWait m') _ | .susp (.condWait m') _ | .sync (.condWait m') _ => m' = m
  | .cs _ (.relock m' _) => m' = m
  | _ => False

/-- What the frames of `suspenders_cond_wait_dl` wait for. -/
def shapeAt : Pc → Prop
  | .pre (.op o k) => (∀ m, o ≠ .lockRaw m) ∧ (∀ m st, k ≠ .relock m st) ∧ ∀ m, k ≠ .condWait m
  | .cs o k => (∀ m, o = .lockRaw m → ∃ st, k = .relock m st) ∧
      (∀ m st, k = .relock m st → o = .lockRaw m) ∧ (∀ m, k ≠ .condWait m) ∧
      ∀ v, o = .condPark v → ∃ m, k = .condPark m v
  | .blk k l | .susp k l | .sync k l => (∀ m st, k = .relock m st → l = some (.mutex m)) ∧
      (∀ m, k = .condWait m → ∃ v, l = some (.cond v)) ∧
      ∀ v, l = some (.cond v) → ∃ m, k = .condWait m
  | _ => True

/-- The mutexes and the coroutines. -/
structure OwnerInv (s : Core) : Prop where
  /-- Nobody waits for a free mutex. -/
  free : ∀ m, s.heap.owner m = none → s.heap.waits.queue (.mutex m) = []
  /-- Whoever was granted a mutex owns it, and nobody else who waits does. -/
  wait : ∀ c m, (s.pc (.co c)).parkedOn = some (.mutex m) →
    ((s.heap.waits.node (.wq c)).status = .decided .ok ↔ s.heap.owner m = some (.co c))
  /-- A condition wait that has not released its mutex. -/
  holds : ∀ c m, holdsAt m (s.pc (.co c)) → s.heap.owner m = some (.co c)
  /-- A condition wait that has released it. -/
  away : ∀ c m, awayAt m (s.pc (.co c)) → s.heap.owner m ≠ some (.co c)
  /-- What condition waits wait for. -/
  shape : ∀ c, shapeAt (s.pc (.co c))

lemma ownerInv_init (cfg : Config) : OwnerInv (.init cfg) where
  free := fun _ _ => rfl
  wait := fun _ _ h => by cases h
  holds := fun _ _ h => h.elim
  away := fun _ _ h => h.elim
  shape := fun _ => trivial

/-! ## Along a step -/

section Step

variable {s t : Core} {e : Event}

lemma OwnerInv.free_step (hI : OwnerInv s) (hinv : Inv s) (hstep : Step s e t) {m : ℕ}
    (hm : t.heap.owner m = none) : t.heap.waits.queue (.mutex m) = [] := by
  rcases step_sync hinv hstep with ⟨op, k, hpc, -, hheap, -⟩ | ⟨f, c, lk, w, -, -, hd, hheap⟩ | hq
  · rw [hheap] at hm ⊢
    cases critical_mutex hinv hpc m with
    | keep hown hqueue _ _ => exact hqueue.trans (hI.free m (hown.symm.trans hm))
    | take _ hown _ _ _ => exact absurd (hown.symm.trans hm) (by simp)
    | park _ hown _ hkeep _ _ => exact absurd (hown.symm.trans (hkeep.symm.trans hm)) (by simp)
    | release _ _ _ _ hqueue _ => exact hqueue
    | hand _ _ _ hown _ _ _ => exact absurd (hown.symm.trans hm) (by simp)
  · rw [hheap] at hm ⊢
    have hnil : s.heap.waits.queue (.mutex m) = [] := hI.free m hm
    simp [decide_queue hinv.wf hd, hnil]
  · rw [hq.queue _ (by simp [ListId.IsChan])]
    exact hI.free m (by rw [← hq.owner]; exact hm)

/-- A wait for a mutex that somebody decides. -/
lemma OwnerInv.wait_decides (hI : OwnerInv s) (hinv : Inv s) (hstep : Step s e t) {c : CrId}
    {m : ℕ} (hpark : (s.pc (.co c)).parkedOn = some (.mutex m)) (hdec : .wq c ∈ e.act.decides) :
    (t.heap.waits.node (.wq c)).status = .decided .ok ↔ t.heap.owner m = some (.co c) := by
  have hf := step_footprint hinv hstep
  obtain ⟨hwait, hstatus, hlist⟩ := hf.waits.decided _ hdec
  have hmem : .wq c ∈ s.heap.waits.queue (.mutex m) := (hinv.wq_mem_iff c _).mpr ⟨hpark, hwait⟩
  have hgone : .wq c ∉ t.heap.waits.queue (.mutex m) := by
    rw [(inv_step s e t hinv hstep).wf.mem_iff, hlist]
    simp
  rw [hstatus]
  rcases step_sync hinv hstep with ⟨op, k, hpc, hact, hheap, -⟩ | ⟨f, c', lk, w, -, hact, -, hheap⟩ | hq
  · rw [hheap] at hgone ⊢
    cases critical_mutex hinv hpc m with
    | keep _ hqueue _ _ => exact absurd (hqueue ▸ hmem) hgone
    | take _ _ hqueue _ _ => exact absurd (hqueue ▸ hmem) hgone
    | park _ _ _ _ hqueue _ => exact absurd (hqueue ▸ List.mem_append_left _ hmem) hgone
    | release _ _ hnil _ _ _ =>
      rw [hnil] at hmem
      cases hmem
    | hand hop _ _ hown _ hgranted _ =>
      rw [hact] at hdec ⊢
      obtain rfl : c = _ := by simpa [Act.decides, hgranted] using hdec
      subst hop
      simp [hown, Act.code, Op.grantCode]
  · rw [hact] at hdec ⊢
    obtain rfl : c = c' := by simpa [Act.decides] using hdec
    have hno : s.heap.owner m ≠ some (.co c) := by
      rw [Ne, ← (hI.wait c m hpark), hwait]
      simp
    rw [hheap]
    refine ⟨fun hok => ?_, fun hown => absurd hown hno⟩
    cases f <;> simp [Act.code, WakeFor.code] at hok
  · rcases step_decides_wait hinv hstep (by simp [ListId.IsChan]) hpark hdec with
      ⟨op, k, out, hact, -⟩ | ⟨st, hact⟩
    · exact absurd hact (hq.not_crit op k out)
    · exact absurd hact (hq.not_flip c st)

/-- Waiting for a mutex, seen from outside. -/
lemma OwnerInv.wait_other (hI : OwnerInv s) (hinv : Inv s) (hstep : Step s e t) {c : CrId}
    (hne : e.ctx ≠ .co c) {m : ℕ} (hpark : (s.pc (.co c)).parkedOn = some (.mutex m)) :
    (t.heap.waits.node (.wq c)).status = .decided .ok ↔ t.heap.owner m = some (.co c) := by
  have hf := step_footprint hinv hstep
  by_cases hdec : .wq c ∈ e.act.decides
  · exact hI.wait_decides hinv hstep hpark hdec
  · obtain ⟨hlose, hget⟩ := step_owner hinv hstep m (.co c)
    have hold := hI.wait c m hpark
    rw [(hf.waits.kept _ hdec hne).1]
    refine ⟨fun hst => ?_, fun hown => ?_⟩
    · rcases hlose (hold.mp hst) with hown | ⟨hctx, -⟩
      · exact hown
      · exact absurd hctx hne
    · rcases hget hown with hown | ⟨hctx, -⟩ | ⟨c', hc', -, hdec'⟩
      · exact hold.mpr hown
      · exact absurd hctx hne
      · cases hc'
        exact absurd hdec' hdec

/-- Waiting for a mutex, as the waiter goes on. -/
lemma OwnerInv.wait_self (hI : OwnerInv s) (hinv : Inv s) {c : CrId} {act : Act}
    (hstep : Step s ⟨.co c, act⟩ t) {m : ℕ} (hpark : (t.pc (.co c)).parkedOn = some (.mutex m)) :
    (t.heap.waits.node (.wq c)).status = .decided .ok ↔ t.heap.owner m = some (.co c) := by
  by_cases hact : ∃ k st, act = .decided k st
  · obtain ⟨k, st, rfl⟩ := hact
    obtain ⟨l, hpc, -, hpc'⟩ := step_decided hstep
    have hk := hinv.ok (.co c)
    rw [hpc] at hk
    rw [hpc', Pc.parkedOn, Frame.waitOn_after hk] at hpark
    cases hpark
  · have hnot : ∀ k st, act ≠ .decided k st := fun k st heq => hact ⟨k, st, heq⟩
    obtain ⟨op, k, out, l, data, writer, rfl, hres, hl, -, hst⟩ | ⟨-, hsame, hkeep⟩ :=
      step_self_park hinv hstep hnot
    · -- the coroutine has parked because somebody else owns the mutex
      obtain rfl : l = .mutex m := Option.some.inj (hl.symm.trans hpark)
      rcases step_sync hinv hstep with ⟨op', k', hpc, hact, hheap, -⟩ | ⟨_, _, _, _, -, hflip, -⟩ | hq
      · obtain ⟨rfl, rfl, rfl⟩ : op = op' ∧ k = k' ∧ out = _ := by simpa using hact
        have hpc : s.pc (.co c) = .cs op k := hpc
        have hno : t.heap.owner m ≠ some (.co c) := by
          rw [hheap]
          cases critical_mutex hinv hpc m with
          | keep _ _ hret hraw =>
            have hlock : op.lockId = .mutex m :=
              ((exec_effect hinv.wf (.co c) op).park _ _ _ hres).2.symm
            obtain ⟨code, hcode, -⟩ := hret hlock
            rw [hcode] at hres
            cases hres
          | take _ _ _ _ hok =>
            rw [hok] at hres
            cases hres
          | park _ hown hop hkeep _ _ =>
            change (critical s.heap (.co c) op).1.owner m ≠ some (.co c)
            rw [hkeep]
            rcases hop with ⟨-, hb⟩ | rfl
            · rw [hown]
              simpa using hb
            · obtain ⟨hraw, -⟩ := (show shapeAt (.cs (.lockRaw m) k) from hpc ▸ hI.shape c)
              obtain ⟨st, rfl⟩ := hraw m rfl
              exact hI.away c m (by rw [hpc]; rfl)
          | release _ _ _ _ _ hok =>
            rw [hok] at hres
            cases hres
          | hand _ _ _ _ _ _ hok =>
            rw [hok] at hres
            cases hres
        rw [hst]
        simp [hno]
      · cases hflip
      · exact absurd rfl (hq.not_crit _ _ _)
    · have hold : (s.pc (.co c)).parkedOn = some (.mutex m) := hsame.symm.trans hpark
      rw [(hkeep (by simp [hold])).2]
      rcases step_sync hinv hstep with ⟨op, k, hpc, -⟩ | ⟨_, _, _, _, hpc, -⟩ | hq
      · have hpc : s.pc (.co c) = .cs op k := hpc
        rw [hpc] at hold
        cases k <;> cases hold
      · have hpc : s.pc (.co c) = .wakeLock _ _ _ := hpc
        rw [hpc] at hold
        cases hold
      · rw [hq.owner]
        exact hI.wait c m hold

/-- Only critical sections change who owns a mutex. -/
lemma owner_of_not_crit (hinv : Inv s) (hstep : Step s e t)
    (hact : ∀ op k out, e.act ≠ .crit op k out) : t.heap.owner = s.heap.owner := by
  rcases step_sync hinv hstep with ⟨op, k, -, hcrit, -⟩ | ⟨_, _, _, _, -, -, -, hheap⟩ | hq
  · exact absurd hcrit (hact _ _ _)
  · rw [hheap]
  · exact hq.owner

/-- Only `suspenders_cond_wait_dl` parks on conditions. -/
lemma parks_cond {hp : Heap} (hw : hp.waits.WF) {a : Ctx} {op : Op} {v : ℕ} {data : Bytes} {writer : Bool}
    (hres : (exec hp a op).2.res = .park (.cond v) data writer) : op = .condPark v := by
  have hlk := ((exec_effect hw a op).park _ _ _ hres).2
  obtain ⟨_, _, _, _, hl, -⟩ | ⟨_, _, _, _, hl, -⟩ | ⟨hco, -⟩ := exec_park_cases hw hres
  · cases hl
  · cases hl
  · cases op <;> first | exact hco.elim | simp [ListId.lock, Op.lockId] at hlk
    rw [hlk]

lemma shapeAt_after (k : Frame) (st : Code) : shapeAt (k.after st) := by
  cases k <;> simp only [Frame.after] <;> (try split) <;> simp [shapeAt]

lemma shapeAt_of_not_inCall {pc : Pc} (hpc : inCall pc = false) : shapeAt pc := by
  cases pc <;> trivial

/-- Calls start in shape. -/
lemma shapeAt_entry {api : Api} {hp : Heap} (hv : api.Valid hp) (a : Ctx) (r : ℕ) :
    shapeAt (api.entry a r) := by
  cases api with
  | op o => cases a <;> cases o <;>
      first | exact hv.elim | (rename_i b; cases b <;> simp [Api.entry, shapeAt])
  | select ops => cases a <;> simp only [Api.entry] <;> split <;> trivial
  | _ => cases a <;> simp [Api.entry, shapeAt]

/-- The coroutine's own step keeps the shape. -/
lemma OwnerInv.shape_self (hI : OwnerInv s) (hinv : Inv s) {c : CrId} {act : Act}
    (hstep : Step s ⟨.co c, act⟩ t) : shapeAt (t.pc (.co c)) := by
  have hold : shapeAt (s.pc (.co c)) := hI.shape c
  cases step_moves hstep with
  | work w _ hpc => rwa [hpc]
  | call api r _ _ hv hpc => rw [hpc]; exact shapeAt_entry hv _ r
  | fail en st _ _ _ hpc hpc' =>
    rw [hpc']
    cases en <;> first | exact shapeAt_after _ _ | trivial
  | go en r hc _ hpc hpc' =>
    obtain rfl := Ctx.co.inj hc
    rw [hpc] at hold
    rw [hpc']
    cases en with
    | op o k =>
      obtain ⟨hraw, hre, hcw⟩ := hold
      cases o with
      | condPark v =>
        have hok := hinv.ok (.co c)
        rw [hpc] at hok
        obtain ⟨m, rfl⟩ := hok
        simp only [Entry.go]
        split <;> simp [shapeAt]
      | lockRaw m => exact absurd rfl (hraw m)
      | _ => exact ⟨by simp, fun m st hk => absurd hk (hre m st), hcw, by simp⟩
    | _ => trivial
  | ret code _ _ hpc => rw [hpc]; trivial
  | crit op k hact hpc hpc' _ =>
    rw [hpc] at hold
    rw [hpc']
    obtain ⟨hraw, hre, hcw, hcp⟩ := hold
    cases hres : (critical s.heap (.co c) op).2.res with
    | ret code => exact shapeAt_after k code
    | park l data writer =>
      have hl := ((exec_effect hinv.wf (.co c) op).park l data writer hres).2
      have hcond : ∀ v, l = .cond v → op = .condPark v := by
        rintro v rfl
        exact parks_cond hinv.wf hres
      cases k with
      | condPark m v => simp [Frame.next, Frame.parked, shapeAt]
      | condWait m => exact absurd rfl (hcw m)
      | relock m st =>
        obtain rfl := hre m st rfl
        obtain rfl : l = .mutex m := by cases l <;> simp [ListId.lock, Op.lockId] at hl; rw [hl]
        simp [Frame.next, Frame.parked, shapeAt]
      | _ =>
        refine ⟨by simp, by simp, fun v hv => ?_⟩
        obtain ⟨m, hm⟩ := hcp v (hcond v (Option.some.inj hv))
        cases hm
  | test k l _ _ hpc hpc' =>
    rw [hpc] at hold
    rcases hpc' with hpc' | hpc' <;> rw [hpc'] <;> exact hold
  | suspend k l _ _ hpc hpc' =>
    rw [hpc] at hold
    rw [hpc']
    exact hold
  | decided k l st _ _ _ _ hpc' => rw [hpc']; exact shapeAt_after k st
  | far _ hpc' _ _ =>
    rcases hpc' with hpc' | ⟨code, hpc'⟩ | hpc'
    · exact shapeAt_of_not_inCall hpc'
    · rw [hpc']
      trivial
    · rw [hpc']
      simp [shapeAt]

lemma not_holdsAt_after (m : ℕ) (k : Frame) (st : Code) : ¬ holdsAt m (k.after st) := by
  cases k <;> simp only [Frame.after] <;> (try split) <;> exact id

lemma not_holdsAt_of_not_inCall {m : ℕ} {pc : Pc} (hpc : inCall pc = false) : ¬ holdsAt m pc := by
  cases pc <;> first | exact id | cases hpc

lemma not_holdsAt_entry (m : ℕ) (api : Api) (a : Ctx) (r : ℕ) : ¬ holdsAt m (api.entry a r) := by
  cases api with
  | op o => cases a <;> cases o <;> first | exact id | (rename_i b; cases b <;> exact id)
  | select ops => cases a <;> simp only [Api.entry] <;> split <;> exact id
  | _ => cases a <;> exact id

/-- A condition wait owns its mutex until it releases it. -/
lemma OwnerInv.holds_self (hI : OwnerInv s) (hinv : Inv s) {c : CrId} {act : Act}
    (hstep : Step s ⟨.co c, act⟩ t) {m : ℕ} (hm : holdsAt m (t.pc (.co c))) :
    t.heap.owner m = some (.co c) := by
  cases step_moves hstep with
  | work w hact hpc =>
    rw [owner_of_not_crit hinv hstep (by cases w <;> simp [hact, Work.act])]
    exact hI.holds c m (by rwa [hpc] at hm)
  | call api r _ _ _ hpc => rw [hpc] at hm; exact absurd hm (not_holdsAt_entry m api _ r)
  | fail en st _ _ _ _ hpc' =>
    rw [hpc'] at hm
    cases en <;> first | exact absurd hm (not_holdsAt_after m _ _) | exact hm.elim
  | go en r hc hact hpc hpc' =>
    obtain rfl := Ctx.co.inj hc
    rw [owner_of_not_crit hinv hstep (by simp [hact])]
    rw [hpc'] at hm
    have hok := hinv.ok (.co c)
    rw [hpc] at hok
    cases en with
    | op o k =>
      cases o with
      | condPark v =>
        obtain ⟨m', rfl⟩ := hok
        simp only [Entry.go] at hm
        split at hm
        · rename_i hown
          obtain rfl : m' = m := hm
          exact hown
        · exact hm.elim
      | _ =>
        obtain ⟨hcu, hcp⟩ := hok
        cases k with
        | condPark m' v => exact absurd rfl (hcp m' v)
        | condUnlock m' v => exact absurd trivial hcu
        | _ => exact hm.elim
    | _ => exact hm.elim
  | ret code _ _ hpc => rw [hpc] at hm; exact hm.elim
  | crit op k hact hpc hpc' _ =>
    rw [hpc'] at hm
    have hok := hinv.ok (.co c)
    rw [hpc] at hok
    cases hres : (critical s.heap (.co c) op).2.res with
    | ret code => rw [hres] at hm; exact absurd hm (not_holdsAt_after m k code)
    | park l data writer =>
      rw [hres] at hm
      cases k with
      | condPark m' v =>
        obtain rfl : op = .condPark v := hok
        obtain rfl : m' = m := hm
        have hold : s.heap.owner m' = some (.co c) := hI.holds c m' (by rw [hpc]; rfl)
        rcases (step_owner hinv hstep m' (.co c)).1 hold with hown | ⟨-, k', out, hcrit⟩
        · exact hown
        · rw [hact] at hcrit
          cases hcrit
      | _ => exact hm.elim
  | test k l _ _ _ hpc' => rcases hpc' with hpc' | hpc' <;> rw [hpc'] at hm <;> exact hm.elim
  | suspend k l _ _ _ hpc' => rw [hpc'] at hm; exact hm.elim
  | decided k l st _ _ _ _ hpc' => rw [hpc'] at hm; exact absurd hm (not_holdsAt_after m k st)
  | far _ hpc' _ _ =>
    rcases hpc' with hpc' | ⟨code, hpc'⟩ | hpc'
    · exact absurd hm (not_holdsAt_of_not_inCall hpc')
    · rw [hpc'] at hm
      exact hm.elim
    · rw [hpc'] at hm
      exact hm.elim

lemma not_awayAt_of_not_inCall {m : ℕ} {pc : Pc} (hpc : inCall pc = false) : ¬ awayAt m pc := by
  cases pc <;> first | exact id | cases hpc

lemma not_awayAt_entry (m : ℕ) (api : Api) (a : Ctx) (r : ℕ) : ¬ awayAt m (api.entry a r) := by
  cases api with
  | op o => cases a <;> cases o <;> first | exact id | (rename_i b; cases b <;> exact id)
  | select ops => cases a <;> simp only [Api.entry] <;> split <;> exact id
  | _ => cases a <;> exact id

/-- Where a call is away from mutex `m` behind a critical section, an entry check or a wait. -/
lemma awayAt_after {m : ℕ} {k : Frame} {st : Code} (h : awayAt m (k.after st)) :
    (∃ v, k = .condUnlock m v) ∨ k = .condWait m ∨ ∃ st₀, k = .relock m st₀ ∧ st ≠ .ok := by
  cases k with
  | condUnlock m' v =>
    obtain rfl : m' = m := h
    exact Or.inl ⟨v, rfl⟩
  | condWait m' =>
    obtain rfl : m' = m := h
    exact Or.inr (Or.inl rfl)
  | relock m' st₀ =>
    simp only [Frame.after] at h
    split at h
    · exact h.elim
    · obtain rfl : m' = m := h
      exact Or.inr (Or.inr ⟨st₀, rfl, ‹_›⟩)
  | queueSubmit g | queueWait g =>
    simp only [Frame.after] at h
    split at h <;> exact h.elim
  | _ => exact h.elim

/-- A condition wait that has released its mutex does not own it until it has it again. -/
lemma OwnerInv.away_self (hI : OwnerInv s) (hinv : Inv s) {c : CrId} {act : Act}
    (hstep : Step s ⟨.co c, act⟩ t) {m : ℕ} (hm : awayAt m (t.pc (.co c))) :
    t.heap.owner m ≠ some (.co c) := by
  have hshape : shapeAt (s.pc (.co c)) := hI.shape c
  cases step_moves hstep with
  | work w hact hpc =>
    rw [owner_of_not_crit hinv hstep (by cases w <;> simp [hact, Work.act])]
    exact hI.away c m (by rwa [hpc] at hm)
  | call api r _ _ _ hpc => rw [hpc] at hm; exact absurd hm (not_awayAt_entry m api _ r)
  | fail en st _ _ _ hpc hpc' =>
    exfalso
    rw [hpc'] at hm
    rw [hpc] at hshape
    have hok := hinv.ok (.co c)
    rw [hpc] at hok
    cases en with
    | op o k =>
      obtain ⟨-, hre, hcw⟩ := hshape
      rcases awayAt_after hm with ⟨v, rfl⟩ | rfl | ⟨st₀, rfl, -⟩
      · cases o <;> first | exact hok.1 trivial | (obtain ⟨m', hm'⟩ := hok; cases hm')
      · exact hcw m rfl
      · exact hre m st₀ rfl
    | _ => exact hm
  | go en r _ hact hpc hpc' =>
    exfalso
    rw [hpc'] at hm
    rw [hpc] at hshape
    cases en with
    | op o k =>
      obtain ⟨-, hre, -⟩ := hshape
      cases k with
      | relock m' st => exact hre m' st rfl
      | _ => cases o <;> simp only [Entry.go] at hm <;> (try split at hm) <;> exact hm
    | _ => exact hm
  | ret code _ _ hpc => rw [hpc] at hm; exact hm.elim
  | crit op k _ hpc hpc' hheap =>
    rw [hpc'] at hm
    rw [hpc] at hshape
    have hok := hinv.ok (.co c)
    rw [hpc] at hok
    obtain ⟨-, hre, hcw, -⟩ := hshape
    have hmove := critical_mutex hinv hpc m
    rw [hheap]
    cases hres : (critical s.heap (.co c) op).2.res with
    | park l data writer =>
      rw [hres] at hm
      cases k with
      | condWait m' => exact absurd rfl (hcw m')
      | _ => exact hm.elim
    | ret code =>
      rw [hres] at hm
      rcases awayAt_after hm with ⟨v, rfl⟩ | rfl | ⟨st₀, rfl, hne⟩
      · -- the coroutine is on the condition's list, so the mutex is handed to somebody else
        obtain rfl : op = .unlock m := hok
        cases hmove with
        | keep hown _ hret _ =>
          obtain ⟨_, -, -, hno, -⟩ := hret rfl
          rw [hown]
          exact hno rfl
        | release _ _ _ hnone _ _ => simp [hnone]
        | @hand c' rest _ _ hqueue hown _ _ _ =>
          rw [hown]
          rintro hc
          obtain rfl : c' = c := by simpa using hc
          have hmem : .wq c' ∈ s.heap.waits.queue (.mutex m) := by simp [hqueue]
          rw [hinv.wq_mem_iff, hpc] at hmem
          cases hmem.1
        | take _ _ _ hop _ => simp at hop
        | park _ _ hop _ _ _ => simp at hop
      · exact absurd rfl (hcw m)
      · obtain rfl := hre m st₀ rfl
        cases hmove with
        | keep _ _ _ hraw => exact absurd rfl hraw
        | take _ _ _ _ hok =>
          rw [hok] at hres
          cases hres
          exact absurd rfl hne
        | park _ _ _ _ _ hpark =>
          rw [hpark] at hres
          cases hres
        | release hop _ _ _ _ _ => cases hop
        | hand hop _ _ _ _ _ _ => cases hop
  | test k l _ hact hpc hpc' =>
    rw [owner_of_not_crit hinv hstep (by simp [hact])]
    refine hI.away c m ?_
    rw [hpc]
    rcases hpc' with hpc' | hpc' <;> rw [hpc'] at hm <;> cases k <;> exact hm
  | suspend k l _ hact hpc hpc' =>
    rw [owner_of_not_crit hinv hstep (by simp [hact])]
    refine hI.away c m ?_
    rw [hpc]
    rw [hpc'] at hm
    cases k <;> exact hm
  | decided k l st hc hact hpc hst hpc' =>
    obtain rfl := Ctx.co.inj hc
    rw [owner_of_not_crit hinv hstep (by simp [hact])]
    rw [hpc'] at hm
    rw [hpc] at hshape
    have hok := hinv.ok (.co c)
    rw [hpc] at hok
    rcases awayAt_after hm with ⟨v, rfl⟩ | rfl | ⟨st₀, rfl, hne⟩
    · exact absurd trivial hok
    · exact hI.away c m (by rw [hpc]; rfl)
    · -- a relock that was not granted the mutex does not own it
      obtain rfl := hshape.1 m st₀ rfl
      rw [Ne, ← hI.wait c m (by rw [hpc]; rfl), hst]
      simpa using hne
  | far _ hpc' _ _ =>
    rcases hpc' with hpc' | ⟨code, hpc'⟩ | hpc'
    · exact absurd hm (not_awayAt_of_not_inCall hpc')
    · rw [hpc'] at hm
      exact hm.elim
    · rw [hpc'] at hm
      exact hm.elim

/-- A condition wait that is away from its mutex does not wait for it. -/
lemma not_parked_of_awayAt {m : ℕ} {pc : Pc} (hshape : shapeAt pc) (hm : awayAt m pc) :
    pc.parkedOn ≠ some (.mutex m) := by
  cases pc with
  | blk k l | susp k l | sync k l =>
    cases k with
    | condWait m' =>
      obtain ⟨v, rfl⟩ := hshape.2.1 m' rfl
      simp [Pc.parkedOn, Pc.waitOn]
    | _ => exact hm.elim
  | cs o k =>
    cases k with
    | relock m' st => simp [Pc.parkedOn, Pc.waitOn]
    | _ => exact hm.elim
  | _ => exact hm.elim

/-- Every step keeps the invariant. -/
theorem ownerInv_step (hinv : Inv s) (hI : OwnerInv s) (hstep : Step s e t) : OwnerInv t := by
  have hpc : ∀ c, e.ctx ≠ .co c → t.pc (.co c) = s.pc (.co c) :=
    fun c hne => (step_footprint hinv hstep).pc _ (Ne.symm hne)
  obtain ⟨a, act⟩ := e
  refine ⟨fun m hm => hI.free_step hinv hstep hm, fun c m hpark => ?_, fun c m hm => ?_, fun c m hm => ?_,
    fun c => ?_⟩
  all_goals by_cases ha : a = .co c
  · subst ha
    exact hI.wait_self hinv hstep hpark
  · rw [hpc c ha] at hpark
    exact hI.wait_other hinv hstep ha hpark
  · subst ha
    exact hI.holds_self hinv hstep hm
  · rw [hpc c ha] at hm
    rcases (step_owner hinv hstep m (.co c)).1 (hI.holds c m hm) with hown | ⟨hctx, -⟩
    · exact hown
    · exact absurd hctx ha
  · subst ha
    exact hI.away_self hinv hstep hm
  · rw [hpc c ha] at hm
    intro hown
    rcases (step_owner hinv hstep m (.co c)).2 hown with hown | ⟨hctx, -⟩ | ⟨c', hc', hmem, -⟩
    · exact hI.away c m hm hown
    · exact absurd hctx ha
    · cases hc'
      rw [hinv.wq_mem_iff] at hmem
      exact not_parked_of_awayAt (hI.shape c) hm hmem.1
  · subst ha
    exact hI.shape_self hinv hstep
  · rw [hpc c ha]
    exact hI.shape c

end Step

/-- It holds in every reachable state. -/
theorem ownerInv_reachable {cfg : Config} {s : Core} (hs : Reachable Step (.init cfg) s) : OwnerInv s :=
  hs.invariant_of (fun _ => inv_reachable) (ownerInv_init cfg)
    fun _ _ _ hinv _ hI hstep => ownerInv_step hinv hI hstep

end Suspenders.Sync
