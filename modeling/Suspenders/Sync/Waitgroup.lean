import Suspenders.Sync.Owner

/-!
# The wait group contract

The count of a wait group changes in `suspenders_waitgroup_add` only, and its waiters are granted there, all at
once, when the count comes to zero.  `WgInv` is about the states; a history records, for each wait in progress,
whether the count has been zero since it was called, whether it has parked, and whether an add has released it.

As long as nothing overflows, the `int` of the count is an integer.
-/

namespace Suspenders.Sync

open Lib Wait

/-! ## Critical sections -/

/-- What a critical section of `a` does to wait group `g`. -/
inductive WgMove (h : Heap) (a : Ctx) (g : ℕ) (op : Op) (h' : Heap) (out : Out) : Prop
  /-- Nothing: it is about something else. -/
  | other : op.lockId ≠ .waitgroup g → h'.wg g = h.wg g →
      h'.waits.queue (.waitgroup g) = h.waits.queue (.waitgroup g) → WgMove h a g op h' out
  /-- The count would become negative. -/
  | refuse (delta : ℤ) : op = .wgAdd g delta → h.wg g + delta < 0 → h' = h → out = .ret .inval →
      WgMove h a g op h' out
  /-- The count changes. -/
  | add (delta : ℤ) : op = .wgAdd g delta → 0 < h.wg g + delta → h'.wg g = h.wg g + delta →
      h'.waits = h.waits → out = .grantMany [] [] → WgMove h a g op h' out
  /-- The count comes to zero. -/
  | release (delta : ℤ) : op = .wgAdd g delta → h.wg g + delta = 0 → h'.wg g = 0 →
      h'.waits.queue (.waitgroup g) = [] →
      out = .grantMany (h.waits.queue (.waitgroup g)) (h.waits.queue (.waitgroup g)) →
      WgMove h a g op h' out
  /-- There is nothing to wait for. -/
  | pass : op = .wgWait g → h.wg g = 0 → h' = h → out = .ret .ok → WgMove h a g op h' out
  /-- The caller parks. -/
  | park {c : CrId} : a = .co c → op = .wgWait g → h.wg g ≠ 0 → h'.wg g = h.wg g →
      h'.waits.queue (.waitgroup g) = h.waits.queue (.waitgroup g) ++ [.wq c] →
      (h'.waits.node (.wq c)).status = .waiting → out = .park (.waitgroup g) [] false →
      WgMove h a g op h' out

@[simp] lemma parkAs_wg (h : Heap) (a : Ctx) (res : Res) : (h.parkAs a res).wg = h.wg := by
  unfold Heap.parkAs
  split <;> (try split) <;> rfl

/-- Critical sections of other structures leave a wait group alone. -/
lemma exec_wg (h : Heap) (a : Ctx) (op : Op) {g : ℕ} (hop : op.lockId ≠ .waitgroup g) :
    (exec h a op).1.wg g = h.wg g := by
  cases op with
  | wgAdd g' delta =>
    have hne : g ≠ g' := by
      rintro rfl
      exact hop rfl
    simp only [exec, waitgroupAdd]
    split
    · rfl
    · split
      · simp [hne]
      · simp [hne]
  | send ch val t =>
    simp only [exec, chanSendImpl]
    split <;> (try split) <;> rfl
  | recv ch t =>
    simp only [exec, chanRecvImpl]
    split <;> (try split) <;> rfl
  | close ch =>
    simp only [exec, chanCloseImpl]
    split <;> rfl
  | rwUnlock r =>
    simp only [exec, rwlockUnlock, rwlockGrant]
    repeat' split
    all_goals rfl
  | _ =>
    simp only [exec, mutexLock, mutexTrylock, mutexLockRaw, mutexUnlock, rwlockRdlock, rwlockTryrdlock,
      rwlockWrlock, rwlockTrywrlock, condSignal, condBroadcast, waitgroupWait]
    repeat' split
    all_goals rfl

/-- What a call's critical section does to wait group `g`. -/
lemma critical_wg {s : Core} (hinv : Inv s) {a : Ctx} {op : Op} {k : Frame} (hpc : s.pc a = .cs op k) (g : ℕ) :
    WgMove s.heap a g op (critical s.heap a op).1 (critical s.heap a op).2 := by
  by_cases hop : op.lockId = .waitgroup g
  · cases op with
    | wgAdd g' delta =>
      obtain rfl : g' = g := by simpa [Op.lockId] using hop
      by_cases hneg : s.heap.wg g' + delta < 0
      · have hexec : waitgroupAdd s.heap g' delta = _ := if_pos hneg
        exact .refuse delta rfl hneg (by simp [critical, exec, hexec, Out.ret, Heap.parkAs])
          (by simp [critical, exec, hexec])
      · by_cases hzero : s.heap.wg g' + delta = 0
        · have hexec : waitgroupAdd s.heap g' delta = _ := (if_neg hneg).trans (if_pos hzero)
          exact .release delta rfl hzero (by simp [critical, exec, hexec, hzero])
            (by simp [critical, exec, hexec, Out.grantMany, Heap.parkAs]) (by simp [critical, exec, hexec])
        · have hexec : waitgroupAdd s.heap g' delta = _ := (if_neg hneg).trans (if_neg hzero)
          exact .add delta rfl (by omega) (by simp [critical, exec, hexec])
            (by simp [critical, exec, hexec, Out.grantMany, Heap.parkAs]) (by simp [critical, exec, hexec])
    | wgWait g' =>
      obtain rfl : g' = g := by simpa [Op.lockId] using hop
      obtain ⟨c, rfl⟩ : ∃ c, a = .co c := needsCo hinv hpc trivial
      by_cases hzero : s.heap.wg g' = 0
      · have hexec : waitgroupWait s.heap g' = _ := if_pos hzero
        exact .pass rfl hzero (by simp [critical, exec, hexec, Out.ret, Heap.parkAs])
          (by simp [critical, exec, hexec])
      · have hexec : waitgroupWait s.heap g' = _ := if_neg hzero
        exact .park rfl rfl hzero (by simp [critical, exec, hexec])
          (by simp [critical, exec, hexec, Out.park, Heap.parkAs, Waits.park])
          (by simp [critical, exec, hexec, Out.park, Heap.parkAs, Waits.park])
          (by simp [critical, exec, hexec])
    | _ => simp [Op.lockId] at hop
  · refine .other hop ?_ (critical_queue hinv.wf a op (by simp [ListId.IsChan]) hop)
    simp only [critical, parkAs_wg]
    exact exec_wg s.heap a op hop

/-- No other step changes a count. -/
lemma wg_of_not_crit {s t : Core} {e : Event} (hstep : Step s e t) (hact : ∀ op k out, e.act ≠ .crit op k out) :
    t.heap.wg = s.heap.wg := by
  cases hstep with
  | @crit a op k _ _ _ => exact absurd rfl (hact op k _)
  | @selTry a _ _ _ k _ _ _ _ =>
    funext g
    exact exec_wg s.heap a k.op (by rw [Case.lockId_op]; simp)
  | @selRetry c _ _ _ k _ _ _ _ =>
    funext g
    exact exec_wg s.heap (.co c) k.op (by rw [Case.lockId_op]; simp)
  | _ => rfl

/-! ## States -/

/-- The count of a wait group is not negative, and nobody waits for one that is zero. -/
structure WgInv (s : Core) : Prop where
  nonneg : ∀ g, 0 ≤ s.heap.wg g
  parked : ∀ g, s.heap.wg g = 0 → s.heap.waits.queue (.waitgroup g) = []

lemma wgInv_init (cfg : Config) : WgInv (.init cfg) := ⟨fun _ => le_refl _, fun _ _ => rfl⟩

lemma wgInv_step {s t : Core} {e : Event} (hinv : Inv s) (hI : WgInv s) (hstep : Step s e t) : WgInv t := by
  suffices h : ∀ g, 0 ≤ t.heap.wg g ∧ (t.heap.wg g = 0 → t.heap.waits.queue (.waitgroup g) = []) from
    ⟨fun g => (h g).1, fun g => (h g).2⟩
  intro g
  have hnonneg := hI.nonneg g
  have hparked := hI.parked g
  rcases step_sync hinv hstep with ⟨op, k, hpc, -, hheap, -⟩ | ⟨_, c, _, w, -, hact, hd, hheap⟩ | hq
  · rw [hheap]
    cases critical_wg hinv hpc g with
    | other _ hwg hqueue =>
      rw [hwg, hqueue]
      exact ⟨hnonneg, hparked⟩
    | refuse _ _ _ hsame _ | pass _ _ hsame _ =>
      rw [hsame]
      exact ⟨hnonneg, hparked⟩
    | add delta _ hpos hwg _ _ =>
      rw [hwg]
      exact ⟨hpos.le, fun hzero => absurd hzero hpos.ne'⟩
    | release _ _ _ hwg hqueue _ =>
      rw [hwg]
      exact ⟨le_refl _, fun _ => hqueue⟩
    | park _ _ hne hwg _ _ _ =>
      rw [hwg]
      exact ⟨hnonneg, fun hzero => absurd hzero hne⟩
  · have hwg : t.heap.wg = s.heap.wg := by rw [hheap]
    rw [hwg]
    refine ⟨hnonneg, fun hzero => ?_⟩
    rw [hheap, decide_queue hinv.wf hd, hparked hzero]
    rfl
  · rw [wg_of_not_crit hstep hq.not_crit, hq.queue _ (by simp [ListId.IsChan])]
    exact ⟨hnonneg, hparked⟩

theorem wgInv_reachable {cfg : Config} {s : Core} (hs : Reachable Step (.init cfg) s) : WgInv s := by
  have hboth : Inv s ∧ WgInv s := by
    refine hs.invariant (I := fun s => Inv s ∧ WgInv s) ⟨inv_init cfg, wgInv_init cfg⟩ ?_
    rintro s e t ⟨hinv, hI⟩ hstep
    exact ⟨inv_step s e t hinv hstep, wgInv_step hinv hI hstep⟩
  exact hboth.2

/-! ## The waits in progress -/

/-- A `suspenders_waitgroup_wait_dl` in progress. -/
structure WgWait where
  /-- Its wait group. -/
  g : ℕ
  /-- Whether the count has been zero since the call. -/
  zero : Bool
  /-- Whether the caller has parked. -/
  parked : Bool
  /-- Whether an add has released it. -/
  released : Bool

/-- Whether event `e` parks `a`. -/
def parksOnWg (e : Event) (a : Ctx) : Bool :=
  match e.act with
  | .crit (.wgWait _) _ out => e.ctx = a && out.res ≠ .ret .ok
  | _ => false

/-- Whether event `e` is an add that releases `a` from wait group `g`. -/
def releasesFromWg (e : Event) (a : Ctx) (g : ℕ) : Bool :=
  match e.act, a with
  | .crit (.wgAdd g' _) _ out, .co c => g' = g && .wq c ∈ out.granted
  | _, _ => false

/-- The wait of `a` after an event. -/
def WgWait.after (x : WgWait) (e : Event) (t : Core) (a : Ctx) : WgWait where
  g := x.g
  zero := x.zero || t.heap.wg x.g = 0
  parked := x.parked || parksOnWg e a
  released := x.released || releasesFromWg e a x.g

/-- The waits in progress. -/
structure WgHist where
  wait : Ctx → Option WgWait

namespace WgHist

/-- Nobody waits. -/
def init : WgHist := ⟨fun _ => none⟩

/-- The wait of `a` after an event. -/
def waitOf (h : WgHist) (s : Core) (e : Event) (t : Core) (a : Ctx) : Option WgWait :=
  if e.ctx = a then
    match e.act with
    | .call (.op (.wgWait g)) => some ⟨g, s.heap.wg g = 0, false, false⟩
    | .ret _ => none
    | _ => (h.wait a).map fun x => x.after e t a
  else (h.wait a).map fun x => x.after e t a

/-- What a step records. -/
def observe (h : WgHist) (s : Core) (e : Event) (t : Core) : WgHist := ⟨h.waitOf s e t⟩

end WgHist

/-- A parked wait has been released if and only if it is decided so, and then the count has been zero. -/
def Released (s : Core) (a : Ctx) (x : WgWait) : Prop :=
  x.parked = true ∧ (x.released = true → x.zero = true) ∧
    ∃ c, a = .co c ∧ (x.released = true ↔ (s.heap.waits.node (.wq c)).status = .decided .ok)

/-- Context `a` at `pc` in wait `x`. -/
def WgAt (s : Core) (a : Ctx) (x : WgWait) : Pc → Prop
  | .pre (.op o k) => o = .wgWait x.g ∧ k = .ret ∧ x.parked = false ∧ x.released = false
  | .cs o k => o = .wgWait x.g ∧ k = .ret ∧ x.parked = false ∧ x.released = false
  | .blk k l | .susp k l | .sync k l => k = .ret ∧ l = some (.waitgroup x.g) ∧ Released s a x
  | .ret code => (code = .ok → x.zero = true) ∧ (x.parked = true → (code = .ok ↔ x.released = true)) ∧
      (x.parked = false → x.released = false)
  | _ => False

/-- The waits and where their callers are. -/
def WgCalls (p : Core × WgHist) : Prop := ∀ a x, p.2.wait a = some x → WgAt p.1 a x (p.1.pc a)

section Step

variable {s t : Core} {e : Event} {h : WgHist} {a : Ctx} {x : WgWait}

/-- Whoever does not wait on a wait group is not released from it. -/
lemma not_released (hinv : Inv s) (hstep : Step s e t) (hpark : (s.pc a).parkedOn = none) (g : ℕ) :
    releasesFromWg e a g = false := by
  by_contra hrel
  unfold releasesFromWg at hrel
  split at hrel
  · rename_i g' delta k out c hact
    obtain ⟨-, hG⟩ : g' = g ∧ .wq c ∈ out.granted := by simpa using hrel
    rcases step_sync hinv hstep with ⟨op, k', -, hcrit, -⟩ | ⟨_, _, _, _, -, hflip, -⟩ | hq
    · rw [hact] at hcrit
      cases hcrit
      obtain ⟨l, hl, -⟩ := (exec_effect hinv.wf e.ctx (.wgAdd g' delta)).own _ hG
      rw [hinv.wq_mem_iff, hpark] at hl
      cases hl.1
    · rw [hact] at hflip
      cases hflip
    · exact hq.not_crit _ _ _ hact
  · exact hrel rfl

lemma not_parked_of_ne (hne : e.ctx ≠ a) : parksOnWg e a = false := by
  unfold parksOnWg
  split
  · simp [hne]
  · rfl

/-- A release decides the wait. -/
lemma mem_decides_of_releases {c : CrId} {g : ℕ} (hrel : releasesFromWg e (.co c) g = true) :
    .wq c ∈ e.act.decides := by
  unfold releasesFromWg at hrel
  split at hrel
  · rename_i g' delta k out c' hact hc
    cases hc
    rw [hact]
    exact (by simpa using hrel : g' = g ∧ .wq c ∈ out.granted).2
  · cases hrel

/-- A wait on wait group `g` is decided by an add that brings the count to zero, or from outside. -/
lemma step_decides_wg (hinv : Inv s) (hstep : Step s e t) {c : CrId} {g : ℕ}
    (hpark : (s.pc (.co c)).parkedOn = some (.waitgroup g)) (hdec : .wq c ∈ e.act.decides) :
    (releasesFromWg e (.co c) g = true ∧ e.act.code = .ok ∧ t.heap.wg g = 0) ∨
      (releasesFromWg e (.co c) g = false ∧ e.act.code ≠ .ok) := by
  rcases step_decides_wait hinv hstep (by simp [ListId.IsChan]) hpark hdec with
    ⟨op, k, out, hact, hop⟩ | ⟨st, hact⟩
  · left
    rcases step_sync hinv hstep with ⟨op', k', hpc, hcrit, hheap, -⟩ | ⟨_, _, _, _, -, hflip, -⟩ | hq
    · rw [hact] at hcrit hdec
      cases hcrit
      have hG : .wq c ∈ (critical s.heap e.ctx op).2.granted := hdec
      cases critical_wg hinv hpc g with
      | other hne _ _ => exact absurd hop hne
      | release delta hop' _ hwg _ _ =>
        subst hop'
        refine ⟨?_, by rw [hact]; rfl, by rw [hheap]; exact hwg⟩
        simp [releasesFromWg, hact, hG]
      | refuse _ _ _ _ hout | add _ _ _ _ _ hout | pass _ _ _ hout | park _ _ _ _ _ _ hout =>
        rw [hout] at hG
        cases hG
    · rw [hact] at hflip
      cases hflip
    · exact absurd hact (hq.not_crit _ _ _)
  · right
    refine ⟨by simp [releasesFromWg, hact], ?_⟩
    rcases step_sync hinv hstep with ⟨_, _, -, hcrit, -⟩ | ⟨f, _, _, _, -, hflip, -⟩ | hq
    · rw [hact] at hcrit
      cases hcrit
    · rw [hflip]
      cases f <;> simp [Act.code, WakeFor.code]
    · exact absurd hact (hq.not_flip _ _)

/-- A parked wait is released by the adds that bring the count to zero and by nothing else. -/
lemma Released.other (hinv : Inv s) (hstep : Step s e t) (hne : e.ctx ≠ a)
    (hpark : (s.pc a).parkedOn = some (.waitgroup x.g)) (hx : Released s a x) :
    Released t a (x.after e t a) := by
  obtain ⟨hparked, hzero, c, rfl, hiff⟩ := hx
  have hf := step_footprint hinv hstep
  by_cases hdec : .wq c ∈ e.act.decides
  · obtain ⟨hwait, hstatus, -⟩ := hf.waits.decided _ hdec
    have hnot : x.released = false := by
      rw [hwait] at hiff
      simpa using hiff
    rcases step_decides_wg hinv hstep hpark hdec with ⟨hrel, hcode, hwg⟩ | ⟨hrel, hcode⟩
    · refine ⟨by simp [WgWait.after, hparked], by simp [WgWait.after, hwg], c, rfl, ?_⟩
      simp [WgWait.after, hrel, hstatus, hcode]
    · refine ⟨by simp [WgWait.after, hparked], by simp [WgWait.after, hrel, hnot], c, rfl, ?_⟩
      simp [WgWait.after, hrel, hnot, hstatus, hcode]
  · have hrel : releasesFromWg e (.co c) x.g = false := by
      by_contra hrel
      exact hdec (mem_decides_of_releases (by simpa using hrel))
    refine ⟨by simp [WgWait.after, hparked], ?_, c, rfl, ?_⟩
    · intro hr
      have hold : x.released = true := by simpa [WgWait.after, hrel] using hr
      simp [WgWait.after, hzero hold]
    · rw [(hf.waits.kept _ hdec hne).1, ← hiff]
      simp [WgWait.after, hrel]

/-- An event that neither parks nor releases. -/
lemma WgWait.after_flags (hpark : parksOnWg e a = false) (hrel : releasesFromWg e a x.g = false) :
    (x.after e t a).parked = x.parked ∧ (x.after e t a).released = x.released ∧
      (x.zero = true → (x.after e t a).zero = true) := by
  simp only [WgWait.after, hpark, hrel, Bool.or_false, Bool.or_eq_true, decide_eq_true_eq, true_and]
  exact Or.inl

/-- A wait, seen from outside. -/
lemma WgAt.other (hinv : Inv s) (hstep : Step s e t) (hne : e.ctx ≠ a) (hx : WgAt s a x (s.pc a)) :
    WgAt t a (x.after e t a) (s.pc a) := by
  have hp := not_parked_of_ne hne
  have hflags := fun hpark => WgWait.after_flags (t := t) hp (not_released hinv hstep hpark x.g)
  have hrel := Released.other hinv hstep hne (x := x)
  cases hs : s.pc a with
  | pre en =>
    rw [hs] at hx hflags
    cases en with
    | op o k =>
      obtain ⟨ho, hk, hpar, hre⟩ := hx
      obtain ⟨hpar', hre', -⟩ := hflags rfl
      exact ⟨ho, hk, hpar'.trans hpar, hre'.trans hre⟩
    | _ => exact hx
  | cs o k =>
    rw [hs] at hx hflags
    obtain ⟨ho, rfl, hpar, hre⟩ := hx
    obtain ⟨hpar', hre', -⟩ := hflags rfl
    exact ⟨ho, rfl, hpar'.trans hpar, hre'.trans hre⟩
  | ret code =>
    rw [hs] at hx hflags
    obtain ⟨hpar', hre', hz⟩ := hflags rfl
    refine ⟨fun hok => hz (hx.1 hok), ?_, ?_⟩
    · rw [hpar', hre']
      exact hx.2.1
    · rw [hpar', hre']
      exact hx.2.2
  | blk k l | susp k l | sync k l =>
    rw [hs] at hx hrel
    obtain ⟨hk, rfl, hr⟩ := hx
    exact ⟨hk, rfl, hrel rfl hr⟩
  | _ =>
    rw [hs] at hx
    exact hx.elim

/-- The own steps of a wait that is parked do not decide it. -/
lemma Released.self (hinv : Inv s) {act : Act} (hstep : Step s ⟨a, act⟩ t) (hact : ∀ k st, act ≠ .decided k st)
    (hcrit : ∀ op k out, act ≠ .crit op k out) (hpark : (s.pc a).parkedOn ≠ none) (hx : Released s a x) :
    Released t a (x.after ⟨a, act⟩ t a) := by
  obtain ⟨hparked, hzero, c, rfl, hiff⟩ := hx
  have hrel : releasesFromWg ⟨.co c, act⟩ (.co c) x.g = false := by
    by_contra hrel
    exact step_self_decides hinv hstep (mem_decides_of_releases (by simpa using hrel))
  refine ⟨by simp [WgWait.after, hparked], ?_, c, rfl, ?_⟩
  · intro hr
    have hold : x.released = true := by simpa [WgWait.after, hrel] using hr
    simp [WgWait.after, hzero hold]
  · obtain ⟨op, k, out, _, _, _, heq, -⟩ | ⟨-, -, hkeep⟩ := step_self_park hinv hstep hact
    · exact absurd heq (hcrit op k out)
    · rw [(hkeep hpark).2, ← hiff]
      simp [WgWait.after, hrel]

/-- A wait goes on. -/
lemma WgAt.self (hinv : Inv s) {act : Act} (hstep : Step s ⟨a, act⟩ t) (hcall : ∀ api, act ≠ .call api)
    (hret : ∀ code, act ≠ .ret code) (hx : WgAt s a x (s.pc a)) :
    WgAt t a (x.after ⟨a, act⟩ t a) (t.pc a) := by
  have hflags : (∀ op k out, act ≠ .crit op k out) →
      ((x.after ⟨a, act⟩ t a).parked = x.parked ∧ (x.after ⟨a, act⟩ t a).released = x.released ∧
        (x.zero = true → (x.after ⟨a, act⟩ t a).zero = true)) := by
    intro hcrit
    apply WgWait.after_flags
    · unfold parksOnWg
      split
      · rename_i heq
        exact absurd heq (hcrit _ _ _)
      · rfl
    · unfold releasesFromWg
      split
      · rename_i heq
        exact absurd heq (hcrit _ _ _)
      · rfl
  cases step_moves hstep with
  | work w hact hpc =>
    obtain ⟨hpar', hre', hz⟩ := hflags (by cases w <;> simp [hact, Work.act])
    have hrel := Released.self hinv hstep (by cases w <;> simp [hact, Work.act])
      (by cases w <;> simp [hact, Work.act]) (x := x)
    rw [hpc]
    cases hs : s.pc a with
    | pre en =>
      rw [hs] at hx
      cases en with
      | op o k => exact ⟨hx.1, hx.2.1, hpar'.trans hx.2.2.1, hre'.trans hx.2.2.2⟩
      | _ => exact hx
    | cs o k =>
      rw [hs] at hx
      exact ⟨hx.1, hx.2.1, hpar'.trans hx.2.2.1, hre'.trans hx.2.2.2⟩
    | ret code =>
      rw [hs] at hx
      refine ⟨fun hok => hz (hx.1 hok), ?_, ?_⟩
      · rw [hpar', hre']
        exact hx.2.1
      · rw [hpar', hre']
        exact hx.2.2
    | blk k l | susp k l | sync k l =>
      rw [hs] at hx hrel
      obtain ⟨hk, rfl, hr⟩ := hx
      exact ⟨hk, rfl, hrel (by simp [Pc.parkedOn, Pc.waitOn]) hr⟩
    | _ =>
      rw [hs] at hx
      exact hx.elim
  | call api _ hact _ _ _ => exact absurd hact (hcall api)
  | fail en st _ hact hst hpc hpc' =>
    obtain ⟨hpar', hre', -⟩ := hflags (by rcases hact with rfl | rfl <;> simp)
    rw [hpc] at hx
    rw [hpc']
    cases en with
    | op o k =>
      obtain ⟨-, rfl, hpar, hre⟩ := hx
      refine ⟨fun hok => absurd hok hst, fun hp => ?_, fun _ => hre'.trans hre⟩
      rw [hpar', hpar] at hp
      cases hp
    | _ => exact hx.elim
  | @go c en r hc hact hpc hpc' =>
    obtain ⟨hpar', hre', -⟩ := hflags (by simp [hact])
    rw [hpc] at hx
    rw [hpc']
    cases en with
    | op o k =>
      obtain ⟨rfl, rfl, hpar, hre⟩ := hx
      exact ⟨rfl, rfl, hpar'.trans hpar, hre'.trans hre⟩
    | _ => exact hx.elim
  | ret code hact _ _ => exact absurd hact (hret code)
  | crit op k hact hpc hpc' hheap =>
    rw [hpc] at hx
    obtain ⟨rfl, rfl, hpar, hre⟩ := hx
    rw [hpc']
    cases critical_wg hinv hpc x.g with
    | other hne _ _ => exact absurd rfl hne
    | refuse _ hop _ _ _ | add _ hop _ _ _ _ | release _ hop _ _ _ _ => cases hop
    | pass _ hzero hsame hout =>
      rw [hout]
      have hwg : t.heap.wg x.g = 0 := by rw [hheap, hsame, hzero]
      have hact' : act = .crit (.wgWait x.g) .ret (.ret .ok) := by rw [hact, hout]
      refine ⟨fun _ => by simp [WgWait.after, hwg], fun hp => ?_, fun _ => ?_⟩
      · simp [WgWait.after, hpar, hact', parksOnWg, Out.ret] at hp
      · simp [WgWait.after, hre, hact', releasesFromWg]
    | @park c hc _ _ _ _ hst hout =>
      subst hc
      rw [hout]
      have hact' : act = .crit (.wgWait x.g) .ret (.park (.waitgroup x.g) [] false) := by rw [hact, hout]
      refine ⟨rfl, rfl, ?_, ?_, c, rfl, ?_⟩
      · simp [WgWait.after, hact', parksOnWg, Out.park]
      · intro hr
        simp [WgWait.after, hre, hact', releasesFromWg] at hr
      · rw [hheap, hst]
        simp [WgWait.after, hre, hact', releasesFromWg]
  | test k l hc hact hpc hpc' =>
    have hrel := Released.self hinv hstep (by simp [hact]) (by simp [hact]) (x := x)
    rw [hpc] at hx hrel
    obtain ⟨rfl, rfl, hr⟩ := hx
    have hr' := hrel (by simp [Pc.parkedOn, Pc.waitOn]) hr
    rcases hpc' with hpc' | hpc'
    · rw [hpc']
      exact ⟨rfl, rfl, hr'⟩
    · rw [hpc']
      exact ⟨rfl, rfl, hr'⟩
  | suspend k l hc hact hpc hpc' =>
    have hrel := Released.self hinv hstep (by simp [hact]) (by simp [hact]) (x := x)
    rw [hpc] at hx hrel
    obtain ⟨rfl, rfl, hr⟩ := hx
    rw [hpc']
    exact ⟨rfl, rfl, hrel (by simp [Pc.parkedOn, Pc.waitOn]) hr⟩
  | @decided c k l st hc hact hpc hst hpc' =>
    subst hc
    obtain ⟨hpar', hre', hz⟩ := hflags (by simp [hact])
    rw [hpc] at hx
    obtain ⟨rfl, rfl, hpar, hzero, c', hc', hiff⟩ := hx
    cases hc'
    rw [hst] at hiff
    have hcode : st = .ok ↔ x.released = true := by
      rw [hiff]
      simp
    rw [hpc']
    refine ⟨fun hok => hz (hzero (hcode.mp hok)), fun _ => ?_, fun hp => ?_⟩
    · rw [hre']
      exact hcode
    · rw [hpar', hpar] at hp
      cases hp
  | far hpc _ _ _ =>
    cases hs : s.pc a <;> rw [hs] at hx hpc <;> first | exact hx.elim | cases hpc

/-- A wait that starts. -/
lemma WgAt.call {g : ℕ} (r : ℕ) (zero : Bool) : WgAt s a ⟨g, zero, false, false⟩ ((Api.op (.wgWait g)).entry a r) := by
  cases a with
  | co c => exact ⟨rfl, rfl, rfl, rfl⟩
  | sched w | ext i =>
    refine ⟨fun hok => ?_, fun hp => ?_, fun _ => rfl⟩
    · cases hok
    · cases hp

/-- The records of others, and of calls that go on. -/
lemma WgHist.waitOf_cases (hx : h.waitOf s e t a = some x) :
    (e.ctx = a ∧ ∃ g, e.act = .call (.op (.wgWait g)) ∧ x = ⟨g, s.heap.wg g = 0, false, false⟩) ∨
      (∃ y, h.wait a = some y ∧ x = y.after e t a ∧
        (e.ctx = a → (∀ g, e.act ≠ .call (.op (.wgWait g))) ∧ ∀ code, e.act ≠ .ret code)) := by
  unfold WgHist.waitOf at hx
  split at hx
  · rename_i ha
    split at hx
    · rename_i g hact
      exact Or.inl ⟨ha, g, hact, (Option.some.inj hx).symm⟩
    · cases hx
    · rename_i hno hno'
      obtain ⟨y, hy, heq⟩ := Option.map_eq_some_iff.mp hx
      exact Or.inr ⟨y, hy, heq.symm, fun _ => ⟨fun g hact => hno g hact, fun code hact => hno' code hact⟩⟩
  · rename_i ha
    obtain ⟨y, hy, heq⟩ := Option.map_eq_some_iff.mp hx
    exact Or.inr ⟨y, hy, heq.symm, fun heq => absurd heq ha⟩

lemma wgCalls_step (hinv : Inv s) (hI : WgCalls (s, h)) (hstep : Step s e t) :
    WgCalls (t, h.observe s e t) := by
  intro a x hx
  rcases WgHist.waitOf_cases hx with ⟨rfl, g, hact, rfl⟩ | ⟨y, hy, rfl, hown⟩
  · obtain ⟨a, act⟩ := e
    obtain rfl : act = _ := hact
    show WgAt t a _ (t.pc a)
    cases step_moves hstep with
    | call api r heq _ _ hpc =>
      cases heq
      rw [hpc]
      exact WgAt.call r _
    | work w heq _ => cases w <;> cases heq
    | fail _ _ _ heq _ _ _ => rcases heq with heq | heq <;> cases heq
    | far _ _ hno _ => exact absurd rfl (hno _)
    | go _ _ _ heq _ _ | ret _ heq _ _ | crit _ _ heq _ _ _ | test _ _ _ heq _ _ | suspend _ _ _ heq _ _
    | decided _ _ _ _ heq _ _ _ => cases heq
  · have hat := hI a y hy
    by_cases ha : e.ctx = a
    · obtain ⟨b, act⟩ := e
      obtain rfl : b = a := ha
      obtain ⟨-, hret⟩ := hown rfl
      refine WgAt.self hinv hstep ?_ hret hat
      -- whoever makes a call is not in another one
      rintro api rfl
      have hidle : s.pc b = .idle := by
        cases step_moves hstep with
        | call _ _ _ hpc _ _ => exact hpc
        | work w heq _ => cases w <;> cases heq
        | fail _ _ _ heq _ _ _ => rcases heq with heq | heq <;> cases heq
        | far _ _ hno _ => exact absurd rfl (hno _)
        | go _ _ _ heq _ _ | ret _ heq _ _ | crit _ _ heq _ _ _ | test _ _ _ heq _ _ | suspend _ _ _ heq _ _
        | decided _ _ _ _ heq _ _ _ => cases heq
      have hat' : WgAt s b y (s.pc b) := hat
      rw [hidle] at hat'
      exact hat'.elim
    · show WgAt t a _ (t.pc a)
      rw [(step_footprint hinv hstep).pc a (Ne.symm ha)]
      exact WgAt.other hinv hstep ha hat

end Step

theorem wgCalls_reachable {cfg : Config} {p : Core × WgHist}
    (hp : Reachable (Observed Step WgHist.observe) (.init cfg, .init) p) : WgCalls p := by
  have hboth : Inv p.1 ∧ WgCalls p := by
    refine hp.invariant (I := fun p => Inv p.1 ∧ WgCalls p) ⟨inv_init cfg, ?_⟩ ?_
    · intro a x hx
      cases hx
    · rintro ⟨s, h⟩ e ⟨t, h'⟩ ⟨hinv, hI⟩ ⟨hstep, hobs⟩
      obtain rfl : h' = h.observe s e t := hobs
      exact ⟨inv_step s e t hinv hstep, wgCalls_step hinv hI hstep⟩
  exact hboth.2

/-! ## The contract -/

/-- What wait group `g` promises in state `s` with history `h`. -/
structure WaitgroupContract (s : Core) (h : WgHist) (g : ℕ) : Prop where
  /-- The count is never negative. -/
  nonneg : 0 ≤ s.heap.wg g
  /-- A parked waiter implies a positive count. -/
  parked : ∀ n ∈ s.heap.waits.queue (.waitgroup g), 0 < s.heap.wg g
  /-- An add that would make the count negative fails and changes nothing. -/
  refuse : ∀ a delta k out t, Step s ⟨a, .crit (.wgAdd g delta) k out⟩ t → s.heap.wg g + delta < 0 →
    out.res = .ret .inval ∧ out.granted = [] ∧ t.heap = s.heap
  /-- Any other add changes the count, and succeeds. -/
  add : ∀ a delta k out t, Step s ⟨a, .crit (.wgAdd g delta) k out⟩ t → 0 ≤ s.heap.wg g + delta →
    out.res = .ret .ok ∧ t.heap.wg g = s.heap.wg g + delta
  /-- It decides the waits of those who are parked if the count comes to zero, and of nobody else. -/
  release : ∀ a delta k out t, Step s ⟨a, .crit (.wgAdd g delta) k out⟩ t →
    out.granted = (if s.heap.wg g + delta = 0 then s.heap.waits.queue (.waitgroup g) else []) ∧
    (∀ n ∈ out.granted, (s.heap.waits.node n).status = .waiting ∧
      (t.heap.waits.node n).status = .decided .ok ∧ .wake n ∈ t.work a ∧ .fin n ∈ t.work a) ∧
    (∀ n ∉ out.granted, (t.heap.waits.node n).status = (s.heap.waits.node n).status)
  /-- A wait that has parked returns `OK` if and only if an add has released it. -/
  released : ∀ a x code, h.wait a = some x → x.g = g → s.pc a = .ret code → x.parked = true →
    (code = .ok ↔ x.released = true)
  /-- A wait returns `OK` only if the count has been zero since it was called. -/
  zero : ∀ a x, h.wait a = some x → x.g = g → s.pc a = .ret .ok → x.zero = true

/-- An add under the lock of its wait group. -/
lemma step_wgAdd {s t : Core} {a : Ctx} {g : ℕ} {delta : ℤ} {k : Frame} {out : Out}
    (hstep : Step s ⟨a, .crit (.wgAdd g delta) k out⟩ t) :
    s.pc a = .cs (.wgAdd g delta) k ∧ out = (critical s.heap a (.wgAdd g delta)).2 ∧
      t.heap = (critical s.heap a (.wgAdd g delta)).1 ∧ t.work a = out.work (.waitgroup g) := by
  cases hstep with
  | «local» _ hl =>
    generalize s.pc a = pc at hl
    cases hl
  | crit hpc _ _ => exact ⟨hpc, rfl, rfl, by simp [Op.lockId]⟩

/-- The waits an add decides. -/
lemma wgAdd_decides {s : Core} (hinv : Inv s) {a : Ctx} {g : ℕ} {delta : ℤ} {k : Frame}
    (hpc : s.pc a = .cs (.wgAdd g delta) k) :
    (critical s.heap a (.wgAdd g delta)).2.granted =
      (if s.heap.wg g + delta = 0 then s.heap.waits.queue (.waitgroup g) else []) ∧
    ((critical s.heap a (.wgAdd g delta)).2.granted ≠ [] →
      (critical s.heap a (.wgAdd g delta)).2.work (.waitgroup g) =
        (s.heap.waits.queue (.waitgroup g)).map .wake ++
          .unlock (.waitgroup g) :: (s.heap.waits.queue (.waitgroup g)).map .fin) ∧
    ∃ code, (critical s.heap a (.wgAdd g delta)).2.res = .ret code := by
  cases critical_wg hinv hpc g with
  | refuse _ hop hneg _ hout =>
    cases hop
    rw [hout, if_neg (by omega)]
    exact ⟨rfl, fun hne => absurd rfl hne, _, rfl⟩
  | other hne _ _ => exact absurd rfl hne
  | add _ hop hpos _ _ hout =>
    cases hop
    rw [hout, if_neg (by omega)]
    exact ⟨rfl, fun hne => absurd rfl hne, _, rfl⟩
  | release _ hop hzero _ _ hout =>
    cases hop
    rw [hout, if_pos hzero]
    exact ⟨rfl, fun _ => rfl, _, rfl⟩
  | pass hop _ _ _ | park _ hop _ _ _ _ _ => cases hop

end Suspenders.Sync
