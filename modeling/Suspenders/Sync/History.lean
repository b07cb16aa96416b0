import Suspenders.Sync.Owner

/-!
# The calls on mutexes and conditions

A history records, for each call in progress, whether the caller owned the mutex when it called, whether the
call has changed the owner or the order of the other waiters, and how many signals and broadcasts have reached
it; it also records when each coroutine has parked.  `LockInv` says what a call has done by the place it has
come to.
-/

namespace Suspenders.Sync

open Lib Wait

/-! ## The calls in progress -/

/-- A call in progress. -/
structure Call where
  /-- The call. -/
  api : Api
  /-- Whether the caller owned the call's mutex when it called. -/
  owned : Bool
  /-- Whether the call has changed who owns the mutex, or the order of the other waiters. -/
  changed : Bool
  /-- How many signals and broadcasts have granted the call's wait. -/
  signals : ℕ

/-- The mutex a call is about. -/
def apiMutex : Api → Option ℕ
  | .op (.lock m) | .op (.trylock m) | .op (.unlock m) | .condWait _ m => some m
  | _ => none

/-- Whether `a` owns the mutex of a call. -/
def owns (s : Core) (a : Ctx) (api : Api) : Bool :=
  match apiMutex api with
  | some m => s.heap.owner m = some a
  | none => false

/-- The waiters of mutex `m` other than `a`, in order. -/
def others (s : Core) (m : ℕ) (a : Ctx) : List NodeRef :=
  (s.heap.waits.queue (.mutex m)).filter fun n => .co n.cr ≠ a

/-- Call `x` of context `a` after a step of its own. -/
def Call.after (x : Call) (s t : Core) (a : Ctx) : Call :=
  match apiMutex x.api with
  | some m => { x with changed :=
      x.changed || decide (t.heap.owner m ≠ s.heap.owner m ∨ others t m a ≠ others s m a) }
  | none => x

/-- Call `x` of context `a` after a critical section of somebody else. -/
def Call.hear (x : Call) (a : Ctx) (op : Op) (out : Out) : Call :=
  match op, a with
  | .signal _, .co c | .broadcast _, .co c =>
    if .wq c ∈ out.granted then { x with signals := x.signals + 1 } else x
  | _, _ => x

/-- Call `x` of context `a` after a step of somebody else: its wait may be decided from outside, or granted. -/
def Call.seen (x : Call) (s : Core) (e : Event) (t : Core) (a : Ctx) : Call :=
  match e.act with
  | .flip c _ => if a = .co c then x.after s t a else x
  | .crit op _ out => x.hear a op out
  | _ => x

/-- What is recorded about the locks. -/
structure LockHist extends Stamps where
  /-- The calls in progress. -/
  call : Ctx → Option Call
  /-- Between a successful return and the unlock. -/
  inside : ℕ → Ctx → Bool

namespace LockHist

/-- Nothing has happened. -/
def init : LockHist := ⟨.init, fun _ => none, fun _ _ => false⟩

/-- The call of context `a` after an event. -/
def callOf (h : LockHist) (s : Core) (e : Event) (t : Core) (a : Ctx) : Option Call :=
  if e.ctx = a then
    match e.act with
    | .call api => some ⟨api, owns s a api, false, 0⟩
    | .ret _ | .selRet _ _ => none
    | _ => (h.call a).map fun x => x.after s t a
  else (h.call a).map fun x => x.seen s e t a

/-- Whether a call that returns `code` leaves its caller with mutex `m`. -/
def gets (m : ℕ) (code : Code) : Option Call → Bool
  | some ⟨.op (.lock m'), _, _, _⟩ | some ⟨.op (.trylock m'), _, _, _⟩ => m' = m && code = .ok
  | some ⟨.condWait _ m', owned, _, _⟩ => m' = m && owned
  | _ => false

/-- Whether `a` is inside mutex `m` after an event. -/
def insideOf (h : LockHist) (e : Event) (m : ℕ) (a : Ctx) : Bool :=
  if e.ctx = a then
    match e.act with
    | .ret code => h.inside m a || gets m code (h.call a)
    | .crit (.unlock m') _ _ => h.inside m a && m ≠ m'
    | _ => h.inside m a
  else h.inside m a

/-- What a step records. -/
def observe (h : LockHist) (s : Core) (e : Event) (t : Core) : LockHist where
  toStamps := h.toStamps.observe e
  call := h.callOf s e t
  inside := h.insideOf e

end LockHist

/-! ## The invariant -/

/-- Context `a` at `pc` in a lock or trylock of mutex `m`. -/
def LockAt (s : Core) (a : Ctx) (m : ℕ) (x : Call) : Pc → Prop
  | .pre (.op o k) => o = .lock m ∧ k = .ret ∧ (x.owned = false → s.heap.owner m ≠ some a) ∧
      x.changed = false
  | .cs o k => (o = .lock m ∨ o = .trylock m) ∧ k = .ret ∧
      (x.owned = false → s.heap.owner m ≠ some a) ∧ x.changed = false
  | .blk k l | .susp k l | .sync k l => k = .ret ∧ l = some (.mutex m) ∧ x.changed = false
  | .ret code => (code = .ok → s.heap.owner m = some a) ∧
      (x.owned = false → s.heap.owner m = some a → code = .ok) ∧ (code ≠ .ok → x.changed = false)
  | _ => False

/-- Context `a` at `pc` in an unlock of mutex `m`. -/
def UnlockAt (s : Core) (a : Ctx) (m : ℕ) (x : Call) : Pc → Prop
  | .cs o k => o = .unlock m ∧ k = .ret ∧ (x.owned = false → s.heap.owner m ≠ some a) ∧
      x.changed = false
  | .ret code => x.owned = false → x.changed = false ∧ code ≠ .ok
  | _ => False

/-- The wait of `a` on a condition was granted once if it was granted, and never otherwise. -/
def Heard (s : Core) (a : Ctx) (x : Call) : Prop :=
  ∃ c, a = .co c ∧
    x.signals = if (s.heap.waits.node (.wq c)).status = .decided .ok then 1 else 0

/-- Context `a` at `pc` in a wait on condition `v` with mutex `m`. -/
def CondAt (s : Core) (a : Ctx) (v m : ℕ) (x : Call) : Pc → Prop
  | .pre (.op o k) => o = .condPark v ∧ k = .condPark m v ∧
      (x.owned = true → s.heap.owner m = some a) ∧ x.signals = 0
  | .cs o (.condPark m' v') => o = .condPark v ∧ m' = m ∧ v' = v ∧ x.signals = 0
  | .cs o (.condUnlock m' v') => o = .unlock m ∧ m' = m ∧ v' = v ∧ Heard s a x
  | .blk (.condWait m') l | .susp (.condWait m') l | .sync (.condWait m') l =>
      m' = m ∧ l = some (.cond v) ∧ Heard s a x
  | .cs o (.relock m' st) => o = .lockRaw m ∧ m' = m ∧ x.signals = if st = .ok then 1 else 0
  | .blk (.relock m' st) l | .susp (.relock m' st) l | .sync (.relock m' st) l =>
      m' = m ∧ l = some (.mutex m) ∧ x.signals = if st = .ok then 1 else 0
  | .ret code => (x.owned = true → s.heap.owner m = some a) ∧
      x.signals = if code = .ok then 1 else 0
  | _ => False

/-- The mutex of the condition wait that a frame belongs to. -/
def frameMutex : Frame → Option ℕ
  | .condPark m _ | .condUnlock m _ | .condWait m | .relock m _ => some m
  | _ => none

/-- The mutex of the condition wait that a place is in. -/
def condMutex : Pc → Option ℕ
  | .pre (.op _ k) | .cs _ k | .blk k _ | .susp k _ | .sync k _ => frameMutex k
  | _ => none

/-- Context `a` at `pc` in call `x`. -/
def CallAt (s : Core) (a : Ctx) (x : Call) (pc : Pc) : Prop :=
  match x.api with
  | .op (.lock m) | .op (.trylock m) => LockAt s a m x pc
  | .op (.unlock m) => UnlockAt s a m x pc
  | .condWait v m => CondAt s a v m x pc
  | _ => True

/-- The calls and the history. -/
structure LockInv (p : Core × LockHist) : Prop where
  /-- Who is inside a mutex owns it. -/
  inside : ∀ m a, p.2.inside m a = true → p.1.heap.owner m = some a
  /-- The lists are in the order of the parks. -/
  stamps : StampInv p.1 p.2.toStamps
  /-- The calls. -/
  call : ∀ a x, p.2.call a = some x → CallAt p.1 a x (p.1.pc a)
  /-- Only condition waits get where condition waits are. -/
  cond : ∀ a m, condMutex (p.1.pc a) = some m → ∃ x v, p.2.call a = some x ∧ x.api = .condWait v m

lemma lockInv_init (cfg : Config) : LockInv (.init cfg, .init) where
  inside := fun _ _ h => by cases h
  stamps := stampInv_init cfg
  call := fun _ _ h => by cases h
  cond := fun _ _ h => by cases h

section Step

variable {s t : Core} {e : Event} {h : LockHist}

/-! ## The history along a step -/

/-- How a context comes to be inside a mutex, or stays there. -/
lemma LockHist.insideOf_cases {m : ℕ} {a : Ctx} (hin : h.insideOf e m a = true) :
    (h.inside m a = true ∧ ¬ (e.ctx = a ∧ ∃ k out, e.act = .crit (.unlock m) k out)) ∨
      (e.ctx = a ∧ ∃ code, e.act = .ret code ∧ LockHist.gets m code (h.call a) = true) := by
  by_cases ha : e.ctx = a
  · subst ha
    cases hact : e.act with
    | ret code =>
      simp only [LockHist.insideOf, if_true, hact, Bool.or_eq_true] at hin
      exact hin.imp (fun hin => ⟨hin, by simp⟩) fun hg => ⟨rfl, code, rfl, hg⟩
    | crit op k out =>
      left
      cases op with
      | unlock m' =>
        simp only [LockHist.insideOf, if_true, hact, Bool.and_eq_true, decide_eq_true_eq] at hin
        exact ⟨hin.1, by simpa using Ne.symm hin.2⟩
      | _ => exact ⟨by simpa [LockHist.insideOf, hact] using hin, by simp⟩
    | _ => exact Or.inl ⟨by simpa [LockHist.insideOf, hact] using hin, by simp⟩
  · exact Or.inl ⟨by simpa [LockHist.insideOf, ha] using hin, fun hctx => ha hctx.1⟩

/-- What a successful return leaves its caller with. -/
lemma CallAt.gets {a : Ctx} {x : Call} {m : ℕ} {code : Code} (hx : CallAt s a x (.ret code))
    (hg : LockHist.gets m code (some x) = true) : s.heap.owner m = some a := by
  obtain ⟨api, owned, changed, signals⟩ := x
  cases api with
  | op o =>
    cases o with
    | lock m' | trylock m' =>
      obtain ⟨rfl, rfl⟩ : m' = m ∧ code = .ok := by simpa [LockHist.gets] using hg
      exact hx.1 rfl
    | _ => cases hg
  | condWait v m' =>
    obtain ⟨rfl, rfl⟩ : m' = m ∧ owned = true := by simpa [LockHist.gets] using hg
    exact hx.1 rfl
  | _ => cases hg

lemma LockInv.inside_step (hI : LockInv (s, h)) (hinv : Inv s) (hstep : Step s e t) {m : ℕ} {a : Ctx}
    (hin : h.insideOf e m a = true) : t.heap.owner m = some a := by
  rcases h.insideOf_cases hin with ⟨hin, hnot⟩ | ⟨rfl, code, hact, hg⟩
  · rcases (step_owner hinv hstep m a).1 (hI.inside m a hin) with hown | hunlock
    · exact hown
    · exact absurd hunlock hnot
  · rw [owner_of_not_crit hinv hstep (by simp [hact])]
    obtain ⟨a, act⟩ := e
    obtain rfl : act = .ret code := hact
    cases hcall : h.call a with
    | none =>
      rw [hcall] at hg
      cases hg
    | some x =>
      rw [hcall] at hg
      have hat := hI.call a x hcall
      cases step_moves hstep with
      | ret code' heq hpc _ =>
        cases heq
        rw [hpc] at hat
        exact hat.gets hg
      | work w heq _ => cases w <;> cases heq
      | fail _ _ _ heq _ _ _ => rcases heq with heq | heq <;> cases heq
      | far _ _ _ hno => exact absurd rfl (hno code)
      | call _ _ heq _ _ _ | go _ _ _ heq _ _ | crit _ _ heq _ _ _ | test _ _ _ heq _ _
      | suspend _ _ _ heq _ _ | decided _ _ _ _ heq _ _ _ => cases heq

/-! ## The calls along a step -/

/-- A step that leaves the mutex and the other waiters alone leaves the record of the call alone. -/
lemma Call.after_eq {x : Call} {a : Ctx} (hx : ∀ m, apiMutex x.api = some m →
    t.heap.owner m = s.heap.owner m ∧ others t m a = others s m a) : x.after s t a = x := by
  unfold Call.after
  split
  · rename_i m hm
    obtain ⟨hown, hothers⟩ := hx m hm
    simp [hown, hothers]
  · rfl

lemma Call.after_api (x : Call) (a : Ctx) : (x.after s t a).api = x.api ∧
    (x.after s t a).owned = x.owned ∧ (x.after s t a).signals = x.signals := by
  unfold Call.after
  split <;> exact ⟨rfl, rfl, rfl⟩

/-- Quiet steps disturb nobody. -/
lemma others_of_quiet (hq : Quiet s e t) (m : ℕ) (a : Ctx) :
    t.heap.owner m = s.heap.owner m ∧ others t m a = others s m a := by
  unfold others
  rw [hq.owner, hq.queue _ (by simp [ListId.IsChan])]
  exact ⟨rfl, rfl⟩

/-- The decision of a coroutine's wait from outside does not disturb the other waiters. -/
lemma others_of_decide (hinv : Inv s) {c : CrId} {st : Code} {w : Waits}
    (hd : s.heap.waits.decide c st = some w) (ht : t.heap = { s.heap with waits := w }) (m : ℕ) :
    t.heap.owner m = s.heap.owner m ∧ others t m (.co c) = others s m (.co c) := by
  unfold others
  rw [ht]
  refine ⟨rfl, ?_⟩
  simp only [decide_queue hinv.wf hd]
  rw [(hinv.wf.nodup _).erase_eq_filter, List.filter_filter]
  refine List.filter_congr fun n _ => ?_
  by_cases hn : n = .wq c
  · simp [hn, NodeRef.cr]
  · simp [hn]

lemma Call.hear_spec (x : Call) (a : Ctx) (op : Op) (out : Out) : (x.hear a op out).api = x.api ∧
    (x.hear a op out).owned = x.owned ∧ (x.hear a op out).changed = x.changed := by
  unfold Call.hear
  split <;> (try split) <;> exact ⟨rfl, rfl, rfl⟩

/-- Steps of others change at most how often a call was granted. -/
lemma Call.seen_spec (hinv : Inv s) (hstep : Step s e t) (a : Ctx) (x : Call) :
    (x.seen s e t a).api = x.api ∧ (x.seen s e t a).owned = x.owned ∧
      (x.seen s e t a).changed = x.changed := by
  unfold Call.seen
  split
  · rename_i c st hact
    split
    · rename_i ha
      subst ha
      rcases step_sync hinv hstep with ⟨_, _, -, hcrit, -⟩ | ⟨_, c', _, _, -, hflip, hd, ht⟩ | hq
      · rw [hact] at hcrit
        cases hcrit
      · rw [hact] at hflip
        cases hflip
        rw [Call.after_eq fun m _ => others_of_decide hinv hd ht m]
        exact ⟨rfl, rfl, rfl⟩
      · exact absurd hact (hq.not_flip _ _)
    · exact ⟨rfl, rfl, rfl⟩
  · exact x.hear_spec _ _ _
  · exact ⟨rfl, rfl, rfl⟩

/-- The signals and broadcasts that a step of somebody else lets a call hear. -/
lemma Call.seen_signals (x : Call) (a : Ctx) : (x.seen s e t a).signals = x.signals ∨
    ∃ c v k out, a = .co c ∧ (e.act = .crit (.signal v) k out ∨ e.act = .crit (.broadcast v) k out) ∧
      .wq c ∈ out.granted ∧ (x.seen s e t a).signals = x.signals + 1 := by
  unfold Call.seen
  split
  · split
    · unfold Call.after
      split <;> exact Or.inl rfl
    · exact Or.inl rfl
  · rename_i op k out hact
    unfold Call.hear
    split
    · rename_i v c
      split
      · exact Or.inr ⟨c, v, k, out, rfl, Or.inl hact, ‹_›, rfl⟩
      · exact Or.inl rfl
    · rename_i v c
      split
      · exact Or.inr ⟨c, v, k, out, rfl, Or.inr hact, ‹_›, rfl⟩
      · exact Or.inl rfl
    · exact Or.inl rfl
  · exact Or.inl rfl

/-- What others do to who owns a mutex, seen by `a`: it neither loses it nor is it handed it, unless it
waits. -/
lemma owner_other (hinv : Inv s) (hstep : Step s e t) {a : Ctx} (hne : e.ctx ≠ a) (m : ℕ) :
    (s.heap.owner m = some a → t.heap.owner m = some a) ∧
      ((s.pc a).parkedOn = none → t.heap.owner m = some a → s.heap.owner m = some a) := by
  refine ⟨fun hown => ?_, fun hpark hown => ?_⟩
  · rcases (step_owner hinv hstep m a).1 hown with hown | ⟨hctx, -⟩
    · exact hown
    · exact absurd hctx hne
  · rcases (step_owner hinv hstep m a).2 hown with hown | ⟨hctx, -⟩ | ⟨c, rfl, hmem, -⟩
    · exact hown
    · exact absurd hctx hne
    · rw [hinv.wq_mem_iff, hpark] at hmem
      cases hmem.1

/-- A lock call, seen from outside. -/
lemma LockAt.other (hinv : Inv s) (hstep : Step s e t) {a : Ctx} (hne : e.ctx ≠ a) {m : ℕ} {x y : Call}
    (hy : y.owned = x.owned ∧ y.changed = x.changed) (hx : LockAt s a m x (s.pc a)) :
    LockAt t a m y (s.pc a) := by
  obtain ⟨hkeep, hget⟩ := owner_other hinv hstep hne m
  obtain ⟨hyo, hyc⟩ := hy
  cases hs : s.pc a with
  | pre en =>
    rw [hs] at hx hget
    cases en with
    | op o k =>
      obtain ⟨ho, hk, hno, hch⟩ := hx
      exact ⟨ho, hk, fun hw hown => hno (hyo ▸ hw) (hget rfl hown), hyc.trans hch⟩
    | _ => exact hx
  | cs o k =>
    rw [hs] at hx hget
    obtain ⟨ho, rfl, hno, hch⟩ := hx
    exact ⟨ho, rfl, fun hw hown => hno (hyo ▸ hw) (hget rfl hown), hyc.trans hch⟩
  | ret code =>
    rw [hs] at hx hget
    obtain ⟨hok, hno, hch⟩ := hx
    exact ⟨fun hc => hkeep (hok hc), fun hw hown => hno (hyo ▸ hw) (hget rfl hown),
      fun hc => hyc.trans (hch hc)⟩
  | blk | susp | sync =>
    rw [hs] at hx
    obtain ⟨hk, hl, hch⟩ := hx
    exact ⟨hk, hl, hyc.trans hch⟩
  | _ =>
    rw [hs] at hx
    exact hx.elim

/-- An unlock, seen from outside. -/
lemma UnlockAt.other (hinv : Inv s) (hstep : Step s e t) {a : Ctx} (hne : e.ctx ≠ a) {m : ℕ}
    {x y : Call} (hy : y.owned = x.owned ∧ y.changed = x.changed) (hx : UnlockAt s a m x (s.pc a)) :
    UnlockAt t a m y (s.pc a) := by
  obtain ⟨hyo, hyc⟩ := hy
  cases hs : s.pc a with
  | cs o k =>
    have hget := (owner_other hinv hstep hne m).2
    rw [hs] at hx hget
    obtain ⟨ho, rfl, hno, hch⟩ := hx
    exact ⟨ho, rfl, fun hw hown => hno (hyo ▸ hw) (hget rfl hown), hyc.trans hch⟩
  | ret code =>
    rw [hs] at hx
    exact fun hw => ⟨hyc.trans (hx (hyo ▸ hw)).1, (hx (hyo ▸ hw)).2⟩
  | _ =>
    rw [hs] at hx
    exact hx.elim

/-- Whoever does not wait on a condition hears nothing. -/
lemma Call.seen_signals_eq (hinv : Inv s) (hstep : Step s e t) {a : Ctx}
    (hpark : ∀ v, (s.pc a).parkedOn ≠ some (.cond v)) (x : Call) :
    (x.seen s e t a).signals = x.signals := by
  rcases x.seen_signals a with heq | ⟨c, v, k, out, rfl, hact, hG, -⟩
  · exact heq
  · exfalso
    rcases step_sync hinv hstep with ⟨op, k', -, hcrit, -⟩ | ⟨_, _, _, _, -, hflip, -⟩ | hq
    · obtain ⟨rfl, hop⟩ : out = (critical s.heap e.ctx op).2 ∧ op.lockId = .cond v := by
        rcases hact with hact | hact <;> rw [hact] at hcrit <;> cases hcrit <;> exact ⟨rfl, rfl⟩
      obtain ⟨l, hl, hlock⟩ := (exec_effect hinv.wf e.ctx op).own _ hG
      rw [hop] at hlock
      obtain rfl : l = .cond v := by cases l <;> simp [ListId.lock] at hlock; rw [hlock]
      exact hpark v ((hinv.wq_mem_iff c _).mp hl).1
    · rcases hact with hact | hact <;> rw [hact] at hflip <;> cases hflip
    · rcases hact with hact | hact <;> exact hq.not_crit _ _ _ hact

/-- A wait on a condition is granted by exactly the signals and broadcasts it hears. -/
lemma Heard.other (hinv : Inv s) (hstep : Step s e t) {a : Ctx} (hne : e.ctx ≠ a) {v : ℕ}
    (hpark : (s.pc a).parkedOn = some (.cond v)) {x : Call} (hx : Heard s a x) :
    Heard t a (x.seen s e t a) := by
  obtain ⟨c, rfl, hx⟩ := hx
  refine ⟨c, rfl, ?_⟩
  have hf := step_footprint hinv hstep
  by_cases hdec : .wq c ∈ e.act.decides
  · obtain ⟨hwait, hstatus, -⟩ := hf.waits.decided _ hdec
    rw [hwait] at hx
    rw [hstatus]
    rcases step_decides_wait hinv hstep (by simp [ListId.IsChan]) hpark hdec with
      ⟨op, k, out, hact, hop⟩ | ⟨st, hact⟩
    · rw [hact] at hdec ⊢
      cases op with
      | signal v' | broadcast v' =>
        have hG : .wq c ∈ out.granted := hdec
        simp [Call.seen, hact, Call.hear, hG, hx, Act.code, Op.grantCode]
      | condPark v' =>
        exfalso
        rcases step_sync hinv hstep with ⟨op', k', -, hcrit, -⟩ | ⟨_, _, _, _, -, hflip, -⟩ | hq
        · rw [hact] at hcrit
          cases hcrit
          simp [Act.decides, critical, exec, Out.park] at hdec
        · rw [hact] at hflip
          cases hflip
        · exact hq.not_crit _ _ _ hact
      | _ => simp [Op.lockId, ListId.lock] at hop
    · rcases step_sync hinv hstep with ⟨_, _, -, hcrit, -⟩ | ⟨f, _, _, _, -, hflip, -⟩ | hq
      · rw [hact] at hcrit
        cases hcrit
      · have hst : st = f.code := by
          rw [hact] at hflip
          cases hflip
          rfl
        rcases x.seen_signals (.co c) with heq | ⟨_, _, _, _, -, hcrit, -⟩
        · rw [heq, hx, hact, hst]
          cases f <;> simp [Act.code, WakeFor.code]
        · rcases hcrit with hcrit | hcrit <;> rw [hact] at hcrit <;> cases hcrit
      · exact absurd hact (hq.not_flip _ _)
  · rw [(hf.waits.kept _ hdec hne).1]
    rcases x.seen_signals (.co c) with heq | ⟨c', _, _, out, hc, hcrit, hG, -⟩
    · rw [heq]
      exact hx
    · cases hc
      refine absurd ?_ hdec
      rcases hcrit with hcrit | hcrit <;> rw [hcrit] <;> exact hG

/-- A condition wait, seen from outside. -/
lemma CondAt.other (hinv : Inv s) (hstep : Step s e t) {a : Ctx} (hne : e.ctx ≠ a) {v m : ℕ}
    {x : Call} (hx : CondAt s a v m x (s.pc a)) : CondAt t a v m (x.seen s e t a) (s.pc a) := by
  have hkeep := (owner_other hinv hstep hne m).1
  have hyo := (x.seen_spec hinv hstep a).2.1
  have hsig := fun hpark => Call.seen_signals_eq hinv hstep (a := a) hpark x
  have hheard := fun hpark => Heard.other hinv hstep hne (v := v) hpark (x := x)
  cases hs : s.pc a with
  | pre en =>
    rw [hs] at hx hsig
    cases en with
    | op o k =>
      obtain ⟨ho, hk, hown, hzero⟩ := hx
      exact ⟨ho, hk, fun hw => hkeep (hown (hyo ▸ hw)), (hsig (by simp [Pc.parkedOn, Pc.waitOn])).trans hzero⟩
    | _ => exact hx
  | ret code =>
    rw [hs] at hx hsig
    exact ⟨fun hw => hkeep (hx.1 (hyo ▸ hw)), (hsig (by simp [Pc.parkedOn, Pc.waitOn])).trans hx.2⟩
  | cs o k =>
    rw [hs] at hx hsig hheard
    cases k with
    | condPark m' v' =>
      obtain ⟨ho, hm, hv, hzero⟩ := hx
      exact ⟨ho, hm, hv, (hsig (by simp [Pc.parkedOn, Pc.waitOn])).trans hzero⟩
    | condUnlock m' v' =>
      obtain ⟨ho, hm, rfl, hh⟩ := hx
      exact ⟨ho, hm, rfl, hheard rfl hh⟩
    | relock m' st =>
      obtain ⟨ho, hm, hsg⟩ := hx
      exact ⟨ho, hm, (hsig (by simp [Pc.parkedOn, Pc.waitOn])).trans hsg⟩
    | _ => exact hx
  | blk k l | susp k l | sync k l =>
    rw [hs] at hx hsig hheard
    cases k with
    | condWait m' =>
      obtain ⟨hm, rfl, hh⟩ := hx
      exact ⟨hm, rfl, hheard rfl hh⟩
    | relock m' st =>
      obtain ⟨hm, rfl, hsg⟩ := hx
      exact ⟨hm, rfl, (hsig (by simp [Pc.parkedOn, Pc.waitOn])).trans hsg⟩
    | _ => exact hx
  | _ =>
    rw [hs] at hx
    exact hx.elim

/-- An own step of a call that is no critical section leaves the record of the call alone. -/
lemma Call.after_of_not_crit (hinv : Inv s) {a : Ctx} {act : Act} (hstep : Step s ⟨a, act⟩ t)
    (hact : ∀ op k out, act ≠ .crit op k out) (hflip : ∀ c st, act ≠ .flip c st) (x : Call) :
    x.after s t a = x := by
  refine Call.after_eq fun m _ => ?_
  rcases step_sync hinv hstep with ⟨op, k, -, hcrit, -⟩ | ⟨_, _, _, _, -, hf, -⟩ | hq
  · exact absurd hcrit (hact _ _ _)
  · exact absurd hf (hflip _ _)
  · exact others_of_quiet hq m a

/-- A lock call goes on. -/
lemma LockAt.self (hI : OwnerInv s) (hinv : Inv s) {a : Ctx} {act : Act}
    (hstep : Step s ⟨a, act⟩ t) (hcall : ∀ api, act ≠ .call api) (hret : ∀ code, act ≠ .ret code)
    {m : ℕ} {x : Call} (hm : apiMutex x.api = some m) (hx : LockAt s a m x (s.pc a)) :
    LockAt t a m (x.after s t a) (t.pc a) := by
  cases step_moves hstep with
  | work w hact hpc =>
    rw [Call.after_of_not_crit hinv hstep (by cases w <;> simp [hact, Work.act])
      (by cases w <;> simp [hact, Work.act]), hpc]
    have hown := owner_of_not_crit hinv hstep (by cases w <;> simp [hact, Work.act])
    cases hs : s.pc a <;> rw [hs] at hx <;> simp only [LockAt, hown] at hx ⊢ <;> exact hx
  | call api _ hact _ _ _ => exact absurd hact (hcall api)
  | fail en st hc hact hst hpc hpc' =>
    rw [Call.after_of_not_crit hinv hstep (by rcases hact with rfl | rfl <;> simp)
      (by rcases hact with rfl | rfl <;> simp)]
    have hown := owner_of_not_crit hinv hstep (by rcases hact with rfl | rfl <;> simp)
    rw [hpc] at hx
    rw [hpc']
    cases en with
    | op o k =>
      obtain ⟨-, rfl, hno, hch⟩ := hx
      refine ⟨fun hok => absurd hok hst, fun hw ho => absurd ?_ (hno hw), fun _ => hch⟩
      rwa [hown] at ho
    | _ => exact hx.elim
  | go en r hc hact hpc hpc' =>
    rw [Call.after_of_not_crit hinv hstep (by simp [hact]) (by simp [hact])]
    have hown := owner_of_not_crit hinv hstep (by simp [hact])
    rw [hpc] at hx
    rw [hpc']
    cases en with
    | op o k =>
      obtain ⟨rfl, rfl, hno, hch⟩ := hx
      exact ⟨Or.inl rfl, rfl, by rw [hown]; exact hno, hch⟩
    | _ => exact hx.elim
  | ret code hact _ _ => exact absurd hact (hret code)
  | crit op k hact hpc hpc' hheap =>
    rw [hpc] at hx
    obtain ⟨ho, rfl, hno, hch⟩ := hx
    have hlk : op.lockId = .mutex m := by rcases ho with rfl | rfl <;> rfl
    rw [hpc']
    cases critical_mutex hinv hpc m with
    | keep hown hqueue hfail _ =>
      obtain ⟨code, hres, hne, -⟩ := hfail hlk
      rw [hres]
      have hafter : x.after s t a = x := by
        refine Call.after_eq fun m' hm' => ?_
        obtain rfl : m = m' := Option.some.inj (hm.symm.trans hm')
        unfold others
        rw [hheap, hown, hqueue]
        exact ⟨rfl, rfl⟩
      rw [hafter]
      refine ⟨fun hok => absurd hok hne, fun hw ho' => absurd ?_ (hno hw), fun _ => hch⟩
      rwa [hheap, hown] at ho'
    | take _ hown _ _ hres =>
      rw [hres]
      refine ⟨fun _ => by rw [hheap]; exact hown, fun _ _ => rfl, fun hne => absurd rfl hne⟩
    | @park c b hc hown _ hkeep hqueue hres =>
      subst hc
      rw [hres]
      have hafter : x.after s t (.co c) = x := by
        refine Call.after_eq fun m' hm' => ?_
        obtain rfl : m = m' := Option.some.inj (hm.symm.trans hm')
        unfold others
        rw [hheap, hkeep, hqueue]
        exact ⟨rfl, by simp [NodeRef.cr]⟩
      rw [hafter]
      exact ⟨rfl, rfl, hch⟩
    | release hop _ _ _ _ _ =>
      subst hop
      simp at ho
    | hand hop _ _ _ _ _ _ =>
      subst hop
      simp at ho
  | test k l hc hact hpc hpc' =>
    rw [Call.after_of_not_crit hinv hstep (by simp [hact]) (by simp [hact])]
    rw [hpc] at hx
    rcases hpc' with hpc' | hpc' <;> rw [hpc'] <;> exact hx
  | suspend k l hc hact hpc hpc' =>
    rw [Call.after_of_not_crit hinv hstep (by simp [hact]) (by simp [hact])]
    rw [hpc] at hx
    rw [hpc']
    exact hx
  | decided k l st hc hact hpc hst hpc' =>
    subst hc
    rw [Call.after_of_not_crit hinv hstep (by simp [hact]) (by simp [hact])]
    have hown := owner_of_not_crit hinv hstep (by simp [hact])
    rw [hpc] at hx
    obtain ⟨rfl, rfl, hch⟩ := hx
    -- the status of the wait says who owns the mutex
    have hwait := hI.wait _ m (by rw [hpc]; rfl)
    rw [hpc']
    refine ⟨fun hok => ?_, fun _ ho => ?_, fun _ => hch⟩
    · rw [hown]
      exact hwait.mp (by rw [hst, hok])
    · rw [hown] at ho
      simpa [hst] using hwait.mpr ho
  | far hpc _ _ _ =>
    cases hs : s.pc a <;> rw [hs] at hx hpc <;> first | exact hx.elim | cases hpc

/-- An unlock goes on. -/
lemma UnlockAt.self (hinv : Inv s) {a : Ctx} {act : Act} (hstep : Step s ⟨a, act⟩ t)
    (hcall : ∀ api, act ≠ .call api) (hret : ∀ code, act ≠ .ret code) {m : ℕ} {x : Call}
    (hm : apiMutex x.api = some m) (hx : UnlockAt s a m x (s.pc a)) :
    UnlockAt t a m (x.after s t a) (t.pc a) := by
  cases step_moves hstep with
  | work w hact hpc =>
    rw [Call.after_of_not_crit hinv hstep (by cases w <;> simp [hact, Work.act])
      (by cases w <;> simp [hact, Work.act]), hpc]
    have hown := owner_of_not_crit hinv hstep (by cases w <;> simp [hact, Work.act])
    cases hs : s.pc a <;> rw [hs] at hx <;> simp only [UnlockAt, hown] at hx ⊢ <;> exact hx
  | call api _ hact _ _ _ => exact absurd hact (hcall api)
  | ret code hact _ _ => exact absurd hact (hret code)
  | crit op k hact hpc hpc' hheap =>
    rw [hpc] at hx
    obtain ⟨rfl, rfl, hno, hch⟩ := hx
    rw [hpc']
    cases critical_mutex hinv hpc m with
    | keep hown hqueue hfail _ =>
      obtain ⟨code, hres, hne, -⟩ := hfail rfl
      rw [hres]
      have hafter : x.after s t a = x := by
        refine Call.after_eq fun m' hm' => ?_
        obtain rfl : m = m' := Option.some.inj (hm.symm.trans hm')
        unfold others
        rw [hheap, hown, hqueue]
        exact ⟨rfl, rfl⟩
      rw [hafter]
      exact fun _ => ⟨hch, hne⟩
    | release _ hown _ _ _ hres =>
      rw [hres]
      exact fun hw => absurd hown (hno (by rwa [(x.after_api a).2.1] at hw))
    | hand _ hown _ _ _ _ hres =>
      rw [hres]
      exact fun hw => absurd hown (hno (by rwa [(x.after_api a).2.1] at hw))
    | take _ _ _ hop _ => simp at hop
    | park _ _ hop _ _ _ => simp at hop
  | fail _ _ _ _ _ hpc _ | go _ _ _ _ hpc _ | test _ _ _ _ hpc _ | suspend _ _ _ _ hpc _
  | decided _ _ _ _ _ hpc _ _ =>
    rw [hpc] at hx
    exact hx.elim
  | far hpc _ _ _ =>
    cases hs : s.pc a <;> rw [hs] at hx hpc <;> first | exact hx.elim | cases hpc

/-- A condition wait's own steps do not decide it. -/
lemma Heard.self (hinv : Inv s) {a : Ctx} {act : Act} (hstep : Step s ⟨a, act⟩ t)
    (hact : ∀ k st, act ≠ .decided k st) (hret : ∀ op k out, act = .crit op k out → ∃ code, out.res = .ret code)
    (hpark : (s.pc a).parkedOn ≠ none) {x y : Call} (hy : y.signals = x.signals) (hx : Heard s a x) :
    Heard t a y := by
  obtain ⟨c, rfl, hx⟩ := hx
  refine ⟨c, rfl, ?_⟩
  rw [hy, hx]
  obtain ⟨op, k, out, l, data, writer, rfl, hres, -⟩ | ⟨-, -, hkeep⟩ := step_self_park hinv hstep hact
  · obtain ⟨code, hcode⟩ := hret op k out rfl
    rw [hcode] at hres
    cases hres
  · rw [(hkeep hpark).2]

/-- A condition wait goes on. -/
lemma CondAt.self (hI : OwnerInv s) (hinv : Inv s) {a : Ctx} {act : Act} (hstep : Step s ⟨a, act⟩ t)
    (hcall : ∀ api, act ≠ .call api) (hret : ∀ code, act ≠ .ret code) {v m : ℕ} {x : Call}
    (hx : CondAt s a v m x (s.pc a)) : CondAt t a v m (x.after s t a) (t.pc a) := by
  obtain ⟨-, hyo, hys⟩ := x.after_api (s := s) (t := t) a
  cases step_moves hstep with
  | work w hact hpc =>
    have hown := owner_of_not_crit hinv hstep (by cases w <;> simp [hact, Work.act])
    have hheard := fun hpark => Heard.self hinv hstep (by cases w <;> simp [hact, Work.act])
      (by cases w <;> simp [hact, Work.act]) hpark hys
    rw [hpc]
    cases hs : s.pc a with
    | pre en =>
      rw [hs] at hx
      cases en with
      | op o k =>
        obtain ⟨ho, hk, how, hzero⟩ := hx
        exact ⟨ho, hk, fun hw => by rw [hown]; exact how (hyo ▸ hw), hys.trans hzero⟩
      | _ => exact hx
    | ret code =>
      rw [hs] at hx
      exact ⟨fun hw => by rw [hown]; exact hx.1 (hyo ▸ hw), hys.trans hx.2⟩
    | cs o k =>
      rw [hs] at hx hheard
      cases k with
      | condPark m' v' => exact ⟨hx.1, hx.2.1, hx.2.2.1, hys.trans hx.2.2.2⟩
      | condUnlock m' v' =>
        exact ⟨hx.1, hx.2.1, hx.2.2.1, hheard (by simp [Pc.parkedOn, Pc.waitOn]) hx.2.2.2⟩
      | relock m' st => exact ⟨hx.1, hx.2.1, hys.trans hx.2.2⟩
      | _ => exact hx
    | blk k l | susp k l | sync k l =>
      rw [hs] at hx hheard
      cases k with
      | condWait m' =>
        obtain ⟨hm, rfl, hh⟩ := hx
        exact ⟨hm, rfl, hheard (by simp [Pc.parkedOn, Pc.waitOn]) hh⟩
      | relock m' st => exact ⟨hx.1, hx.2.1, hys.trans hx.2.2⟩
      | _ => exact hx
    | _ =>
      rw [hs] at hx
      exact hx.elim
  | call api _ hact _ _ _ => exact absurd hact (hcall api)
  | fail en st _ hact hst hpc hpc' =>
    have hown := owner_of_not_crit hinv hstep (by rcases hact with rfl | rfl <;> simp)
    rw [hpc] at hx
    rw [hpc']
    cases en with
    | op o k =>
      obtain ⟨-, rfl, how, hzero⟩ := hx
      exact ⟨fun hw => by rw [hown]; exact how (hyo ▸ hw), by rw [hys, hzero, if_neg hst]⟩
    | _ => exact hx.elim
  | @go c en r hc hact hpc hpc' =>
    have hown := owner_of_not_crit hinv hstep (by simp [hact])
    rw [hpc] at hx
    rw [hpc']
    cases en with
    | op o k =>
      obtain ⟨rfl, rfl, how, hzero⟩ := hx
      simp only [Entry.go]
      split
      · exact ⟨rfl, rfl, rfl, hys.trans hzero⟩
      · exact ⟨fun hw => by rw [hown]; exact how (hyo ▸ hw), by rw [hys, hzero]; rfl⟩
    | _ => exact hx.elim
  | ret code hact _ _ => exact absurd hact (hret code)
  | crit op k hact hpc hpc' hheap =>
    rw [hpc] at hx
    rw [hpc']
    cases k with
    | condPark m' v' =>
      obtain ⟨rfl, rfl, rfl, hzero⟩ := hx
      obtain ⟨c, rfl⟩ := needsCo hinv hpc trivial
      obtain ⟨op, k, out, l, data, writer, -, -, -, -, hst⟩ | ⟨hno, -⟩ :=
        step_self_park hinv hstep (by simp [hact])
      · exact ⟨rfl, rfl, rfl, c, rfl, by rw [hys, hzero, hst]; rfl⟩
      · obtain ⟨code, hcode⟩ := hno _ _ _ hact
        simp [critical, exec, Out.park] at hcode
    | condUnlock m' v' =>
      obtain ⟨rfl, rfl, rfl, hh⟩ := hx
      have hres : ∃ code, (critical s.heap a (.unlock m')).2.res = .ret code := by
        cases critical_mutex hinv hpc m' with
        | keep _ _ hfail _ => exact ⟨_, (hfail rfl).choose_spec.1⟩
        | release _ _ _ _ _ hok | hand _ _ _ _ _ _ hok => exact ⟨_, hok⟩
        | take _ _ _ hop _ => simp at hop
        | park _ _ hop _ _ _ => simp at hop
      obtain ⟨code, hcode⟩ := hres
      rw [hcode]
      refine ⟨rfl, rfl, hh.self hinv hstep (by simp [hact]) ?_ (by rw [hpc]; simp [Pc.parkedOn, Pc.waitOn]) hys⟩
      rintro op k out hcrit
      rw [hact] at hcrit
      cases hcrit
      exact ⟨code, hcode⟩
    | relock m' st =>
      obtain ⟨rfl, rfl, hsg⟩ := hx
      cases critical_mutex hinv hpc m' with
      | keep _ _ _ hraw => exact absurd rfl hraw
      | take _ hown _ _ hok =>
        rw [hok]
        exact ⟨fun _ => by rw [hheap]; exact hown, hys.trans hsg⟩
      | park _ _ _ _ _ hpark =>
        rw [hpark]
        exact ⟨rfl, rfl, hys.trans hsg⟩
      | release hop _ _ _ _ _ => cases hop
      | hand hop _ _ _ _ _ _ => cases hop
    | _ => exact hx.elim
  | test k l _ hact hpc hpc' =>
    have hheard := fun hpark => Heard.self hinv hstep (by simp [hact]) (by simp [hact]) hpark hys
    rw [hpc] at hx hheard
    cases k with
    | condWait m' =>
      obtain ⟨hm, rfl, hh⟩ := hx
      rcases hpc' with hpc' | hpc' <;> rw [hpc'] <;>
        exact ⟨hm, rfl, hheard (by simp [Pc.parkedOn, Pc.waitOn]) hh⟩
    | relock m' st =>
      rcases hpc' with hpc' | hpc' <;> rw [hpc'] <;> exact ⟨hx.1, hx.2.1, hys.trans hx.2.2⟩
    | _ => exact hx.elim
  | suspend k l _ hact hpc hpc' =>
    have hheard := fun hpark => Heard.self hinv hstep (by simp [hact]) (by simp [hact]) hpark hys
    rw [hpc] at hx hheard
    rw [hpc']
    cases k with
    | condWait m' =>
      obtain ⟨hm, rfl, hh⟩ := hx
      exact ⟨hm, rfl, hheard (by simp [Pc.parkedOn, Pc.waitOn]) hh⟩
    | relock m' st => exact ⟨hx.1, hx.2.1, hys.trans hx.2.2⟩
    | _ => exact hx.elim
  | @decided c k l st hc hact hpc hst hpc' =>
    subst hc
    have hown := owner_of_not_crit hinv hstep (by simp [hact])
    rw [hpc] at hx
    rw [hpc']
    cases k with
    | condWait m' =>
      obtain ⟨rfl, rfl, c', hc', hh⟩ := hx
      cases hc'
      refine ⟨rfl, rfl, ?_⟩
      rw [hys, hh, hst]
      simp
    | relock m' st₀ =>
      obtain ⟨rfl, rfl, hsg⟩ := hx
      have hwait := hI.wait c m' (by rw [hpc]; rfl)
      simp only [Frame.after]
      split
      · rename_i hok
        exact ⟨fun _ => by rw [hown]; exact hwait.mp (by rw [hst, hok]), hys.trans hsg⟩
      · exact ⟨rfl, rfl, hys.trans hsg⟩
    | _ => exact hx.elim
  | far hpc _ _ _ =>
    cases hs : s.pc a <;> rw [hs] at hx hpc <;> first | exact hx.elim | cases hpc

/-- Calls begin. -/
lemma CallAt.entry {a : Ctx} {api : Api} (r : ℕ) :
    CallAt s a ⟨api, owns s a api, false, 0⟩ (api.entry a r) := by
  cases api with
  | op o =>
    cases o with
    | lock m | trylock m | unlock m =>
      cases a <;> simp [CallAt, Api.entry, LockAt, UnlockAt, owns, apiMutex]
    | _ => trivial
  | condWait v m => cases a <;> simp [CallAt, Api.entry, CondAt, owns, apiMutex]
  | _ => trivial

/-- A call goes on. -/
lemma CallAt.self (hI : OwnerInv s) (hinv : Inv s) {a : Ctx} {act : Act} (hstep : Step s ⟨a, act⟩ t)
    (hcall : ∀ api, act ≠ .call api) (hret : ∀ code, act ≠ .ret code) {x : Call}
    (hx : CallAt s a x (s.pc a)) : CallAt t a (x.after s t a) (t.pc a) := by
  have hapi := (x.after_api (s := s) (t := t) a).1
  unfold CallAt at hx ⊢
  rw [hapi]
  split <;> rename_i heq
  · rw [heq] at hx
    exact LockAt.self hI hinv hstep hcall hret (by rw [heq]; rfl) hx
  · rw [heq] at hx
    exact LockAt.self hI hinv hstep hcall hret (by rw [heq]; rfl) hx
  · rw [heq] at hx
    exact UnlockAt.self hinv hstep hcall hret (by rw [heq]; rfl) hx
  · rw [heq] at hx
    exact CondAt.self hI hinv hstep hcall hret hx
  · trivial

/-- A call, seen from outside. -/
lemma CallAt.other (hinv : Inv s) (hstep : Step s e t) {a : Ctx} (hne : e.ctx ≠ a) {x : Call}
    (hx : CallAt s a x (s.pc a)) : CallAt t a (x.seen s e t a) (s.pc a) := by
  obtain ⟨hapi, hseen⟩ := x.seen_spec hinv hstep a
  unfold CallAt at hx ⊢
  rw [hapi]
  split <;> rename_i heq
  · rw [heq] at hx
    exact LockAt.other hinv hstep hne hseen hx
  · rw [heq] at hx
    exact LockAt.other hinv hstep hne hseen hx
  · rw [heq] at hx
    exact UnlockAt.other hinv hstep hne hseen hx
  · rw [heq] at hx
    exact CondAt.other hinv hstep hne hx
  · trivial

lemma LockInv.call_step (hI : LockInv (s, h)) (hO : OwnerInv s) (hinv : Inv s) (hstep : Step s e t)
    {a : Ctx} {x : Call} (hx : h.callOf s e t a = some x) : CallAt t a x (t.pc a) := by
  by_cases ha : e.ctx = a
  · obtain ⟨b, act⟩ := e
    obtain rfl : b = a := ha
    simp only [LockHist.callOf, if_true] at hx
    split at hx
    · cases hx
      cases step_moves hstep with
      | call api r hact _ _ hpc =>
        cases hact
        rw [hpc]
        cases hstep with
        | «local» => exact CallAt.entry r
      | work w hact _ => cases w <;> cases hact
      | fail _ _ _ hact _ _ _ => rcases hact with hact | hact <;> cases hact
      | far _ _ hno _ => exact absurd rfl (hno _)
      | ret _ hact _ _ | go _ _ _ hact _ _ | crit _ _ hact _ _ _ | test _ _ _ hact _ _
      | suspend _ _ _ hact _ _ | decided _ _ _ _ hact _ _ _ => cases hact
    · cases hx
    · cases hx
    · rename_i hcall hret _
      obtain ⟨y, hy, rfl⟩ := Option.map_eq_some_iff.mp hx
      exact (hI.call b y hy).self hO hinv hstep hcall hret
  · simp only [LockHist.callOf, if_neg ha] at hx
    obtain ⟨y, hy, rfl⟩ := Option.map_eq_some_iff.mp hx
    rw [(step_footprint hinv hstep).pc a (Ne.symm ha)]
    exact (hI.call a y hy).other hinv hstep ha

lemma condMutex_after {k : Frame} {st : Code} {m : ℕ} (hm : condMutex (k.after st) = some m) :
    frameMutex k = some m := by
  cases k <;> simp only [Frame.after] at hm <;> (try split at hm) <;> first | exact hm | cases hm

lemma condMutex_of_not_inCall {pc : Pc} (hpc : inCall pc = false) : condMutex pc = none := by
  cases pc <;> first | rfl | cases hpc

lemma condMutex_entry {api : Api} {a : Ctx} {r m : ℕ} (hm : condMutex (api.entry a r) = some m) :
    ∃ v, api = .condWait v m := by
  cases api with
  | op o =>
    exfalso
    cases a <;> cases o <;> first | cases hm | (rename_i b; cases b <;> cases hm)
  | condWait v m' =>
    cases a <;> cases hm
    exact ⟨v, rfl⟩
  | select ops => cases a <;> simp only [Api.entry] at hm <;> split at hm <;> cases hm
  | _ => cases a <;> cases hm

/-- Only a call brings a context into a condition wait. -/
lemma condMutex_step {a : Ctx} {act : Act} (hstep : Step s ⟨a, act⟩ t) {m : ℕ}
    (hm : condMutex (t.pc a) = some m) : (∃ v, act = .call (.condWait v m)) ∨
      (condMutex (s.pc a) = some m ∧ (∀ api, act ≠ .call api) ∧ (∀ code, act ≠ .ret code) ∧
        ∀ i code, act ≠ .selRet i code) := by
  cases step_moves hstep with
  | work w hact hpc =>
    rw [hpc] at hm
    exact Or.inr ⟨hm, by cases w <;> simp [hact, Work.act], by cases w <;> simp [hact, Work.act],
      by cases w <;> simp [hact, Work.act]⟩
  | call api r hact _ _ hpc =>
    rw [hpc] at hm
    obtain ⟨v, rfl⟩ := condMutex_entry hm
    exact Or.inl ⟨v, hact⟩
  | fail en st _ hact _ hpc hpc' =>
    rw [hpc'] at hm
    refine Or.inr ⟨?_, by rcases hact with rfl | rfl <;> simp, by rcases hact with rfl | rfl <;> simp,
      by rcases hact with rfl | rfl <;> simp⟩
    rw [hpc]
    cases en <;> first | exact condMutex_after hm | cases hm
  | go en r _ hact hpc hpc' =>
    rw [hpc'] at hm
    refine Or.inr ⟨?_, by simp [hact], by simp [hact], by simp [hact]⟩
    rw [hpc]
    cases en with
    | op o k =>
      cases o <;> (try exact hm)
      cases k <;> simp only [Entry.go] at hm <;> (try split at hm) <;> first | exact hm | cases hm
    | _ => cases hm
  | ret code _ _ hpc => rw [hpc] at hm; cases hm
  | crit op k hact hpc hpc' _ =>
    rw [hpc'] at hm
    refine Or.inr ⟨?_, by simp [hact], by simp [hact], by simp [hact]⟩
    rw [hpc]
    cases hres : (critical s.heap a op).2.res with
    | ret code => rw [hres] at hm; exact condMutex_after hm
    | park l data writer =>
      rw [hres] at hm
      cases k <;> exact hm
  | test k l _ hact hpc hpc' =>
    refine Or.inr ⟨?_, by simp [hact], by simp [hact], by simp [hact]⟩
    rw [hpc]
    rcases hpc' with hpc' | hpc' <;> rw [hpc'] at hm <;> exact hm
  | suspend k l _ hact hpc hpc' =>
    refine Or.inr ⟨?_, by simp [hact], by simp [hact], by simp [hact]⟩
    rw [hpc]
    rw [hpc'] at hm
    exact hm
  | decided k l st _ hact hpc _ hpc' =>
    refine Or.inr ⟨?_, by simp [hact], by simp [hact], by simp [hact]⟩
    rw [hpc]
    rw [hpc'] at hm
    exact condMutex_after hm
  | far _ hpc' _ _ =>
    rcases hpc' with hpc' | ⟨code, hpc'⟩ | hpc'
    · rw [condMutex_of_not_inCall hpc'] at hm
      cases hm
    · rw [hpc'] at hm
      cases hm
    · rw [hpc'] at hm
      cases hm

lemma LockInv.cond_step (hI : LockInv (s, h)) (hinv : Inv s) (hstep : Step s e t) {a : Ctx} {m : ℕ}
    (hm : condMutex (t.pc a) = some m) :
    ∃ x v, h.callOf s e t a = some x ∧ x.api = .condWait v m := by
  by_cases ha : e.ctx = a
  · obtain ⟨b, act⟩ := e
    obtain rfl : b = a := ha
    rcases condMutex_step hstep hm with ⟨v, rfl⟩ | ⟨hs, hcall, hret, hsel⟩
    · exact ⟨⟨.condWait v m, owns s b (.condWait v m), false, 0⟩, v, by simp [LockHist.callOf], rfl⟩
    · obtain ⟨x, v, hx, hapi⟩ := hI.cond b m hs
      have hx : h.call b = some x := hx
      refine ⟨x.after s t b, v, ?_, (x.after_api b).1.trans hapi⟩
      simp [LockHist.callOf, hx]
  · rw [(step_footprint hinv hstep).pc a (Ne.symm ha)] at hm
    obtain ⟨x, v, hx, hapi⟩ := hI.cond a m hm
    have hx : h.call a = some x := hx
    exact ⟨x.seen s e t a, v, by simp [LockHist.callOf, ha, hx],
      (x.seen_spec hinv hstep a).1.trans hapi⟩

/-- Every step keeps the invariant. -/
theorem lockInv_step (hI : LockInv (s, h)) (hO : OwnerInv s) (hinv : Inv s) (hstep : Step s e t) :
    LockInv (t, h.observe s e t) where
  inside := fun _ _ hin => hI.inside_step hinv hstep hin
  stamps := stampInv_step hI.stamps hinv hstep
  call := fun _ _ hx => hI.call_step hO hinv hstep hx
  cond := fun _ _ hm => hI.cond_step hinv hstep hm

end Step

/-- It holds in every reachable state. -/
theorem lockInv_reachable {cfg : Config} {p : Core × LockHist}
    (hp : Reachable (Observed Step LockHist.observe) (.init cfg, .init) p) : LockInv p := by
  refine hp.invariant_of (J := fun p => Inv p.1 ∧ OwnerInv p.1)
    (fun q hq => ⟨inv_reachable hq.of_observed, ownerInv_reachable hq.of_observed⟩) (lockInv_init cfg) ?_
  rintro ⟨s, h⟩ e ⟨t, h'⟩ ⟨hinv, hO⟩ - hI ⟨hstep, hh⟩
  obtain rfl : h' = h.observe s e t := hh
  exact lockInv_step hI hO hinv hstep

end Suspenders.Sync
