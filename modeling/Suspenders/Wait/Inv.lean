import Suspenders.Wait.Proto

/-!
# The invariant of the wait protocol

`Inv` ties the nodes to the contexts: a coroutine's embedded node is in use exactly while the coroutine
is in a wait, and then it is on the wait's list as long as it is undecided; a select's stack nodes are
linked only between their registration and their unregistration.  With these, lists and nodes agree,
and every channel keeps its representation invariant.
-/

namespace Suspenders.Wait

open Lib

/-! ## Where a context can be -/

/-- The list a coroutine's embedded node waits on, if the node is in use: `some none` in a sleep and in
a select, where it is on no list. -/
def Pc.waitOn : Pc → Option (Option ListId)
  | blk _ l | susp _ l | sync _ l => some l
  | cs _ (.condUnlock _ v) => some (some (.cond v))
  | selReg _ _ | selTest _ | selSusp _ | selUnreg _ _ _ _ | selRescan _ _ => some none
  | selSync _ _ _ | selSync2 _ _ _ | selFin _ _ _ => some none
  | _ => none

/-- Select node `i` may be linked on list `l`. -/
def Pc.Linked (i : ℕ) (l : ListId) : Pc → Prop
  | selReg ops r => i < r ∧ ∃ k, ops[i]? = some k ∧ k.list = l
  | selTest ops | selSusp ops => ∃ k, ops[i]? = some k ∧ k.list = l
  | selUnreg ops r j _ => j ≤ i ∧ i < r ∧ ∃ k, ops[i]? = some k ∧ k.list = l
  | _ => False

/-- The frame of the mutex unlock inside `suspenders_cond_wait_dl`. -/
def Frame.IsCondUnlock : Frame → Prop
  | condUnlock _ _ => True
  | _ => False

/-- Frames and operations belong together. -/
def Pc.Ok : Pc → Prop
  | pre (.op (.condPark v) k) => ∃ m, k = .condPark m v
  | pre (.op _ k) => ¬ k.IsCondUnlock ∧ ∀ m v, k ≠ .condPark m v
  | cs op (.condPark _ v) => op = .condPark v
  | cs op (.condUnlock m _) => op = .unlock m
  | blk k _ | susp k _ | sync k _ => ¬ k.IsCondUnlock
  | _ => True

/-- Operations whose caller is always a coroutine. -/
def Op.NeedsCo : Op → Prop
  | lock _ | lockRaw _ | rdlock _ | wrlock _ | condPark _ | wgWait _ => True
  | _ => False

/-- Where a context that is not a coroutine can be. -/
def Pc.Foreign : Pc → Prop
  | idle | ret _ | selScan _ _ | selRet _ _ | cancelRoute _ | cancelPush _ => True
  | wakeTest _ _ | wakeLock _ _ _ | wakeMiss _ _ => True
  | cs op k => ¬ op.NeedsCo ∧ k = .ret
  | _ => False

/-- A coroutine's embedded node against the place it is at. -/
structure NodeInv (pc : Pc) (x : Node) : Prop where
  /-- Outside waits the node is on no list and decided. -/
  out : pc.waitOn = none → x.waitList = none ∧ x.status ≠ .waiting
  /-- In a wait it is on its list as long as it is undecided. -/
  wait : ∀ l, pc.waitOn = some l → (x.status = .waiting ∧ x.waitList = l) ∨
    (x.status ≠ .waiting ∧ x.waitList = none)
  /-- Behind the wait loop it is decided. -/
  sync : ∀ k l, pc = .sync k l → x.status ≠ .waiting

/-- The invariant of the wait protocol. -/
structure Inv (s : Core) : Prop where
  /-- Lists and nodes agree. -/
  wf : s.heap.waits.WF
  /-- Frames and operations belong together. -/
  ok : ∀ a, (s.pc a).Ok
  /-- Only coroutines block. -/
  foreign : ∀ a, (∀ c, a ≠ .co c) → (s.pc a).Foreign
  /-- The embedded nodes. -/
  node : ∀ c, NodeInv (s.pc (.co c)) (s.heap.waits.node (.wq c))
  /-- The select nodes. -/
  sel : ∀ c i l, (s.heap.waits.node (.sel c i)).waitList = some l → (s.pc (.co c)).Linked i l
  /-- The channels. -/
  chan : ∀ ch, ChanInv s.heap.waits ch (s.heap.chan ch)

lemma inv_init (cfg : Config) : Inv (.init cfg) where
  wf := Waits.wf_init
  ok := fun _ => trivial
  foreign := fun _ _ => trivial
  node := fun c => ⟨fun _ => by simp [Core.init, Heap.init, Waits.init],
    fun l hl => by simp [Core.init, Pc.waitOn] at hl, fun k l hpc => by cases hpc⟩
  sel := by simp [Core.init, Heap.init, Waits.init]
  chan := fun ch => .create _ _

/-! ## Local steps -/

/-- A frame that is not the cond's unlock continues outside any wait. -/
lemma Frame.waitOn_after {k : Frame} (h : ¬ k.IsCondUnlock) (st : Code) :
    (k.after st).waitOn = none := by
  cases k <;> simp only [Frame.after] <;> first | rfl | exact absurd trivial h | (split <;> rfl)

lemma Frame.ok_after (k : Frame) (st : Code) : (k.after st).Ok := by
  cases k <;> simp only [Frame.after] <;> (try split) <;>
    simp [Pc.Ok, Frame.IsCondUnlock]

lemma Frame.not_linked_after (k : Frame) (st : Code) (i : ℕ) (l : ListId) :
    ¬ (k.after st).Linked i l := by
  cases k <;> simp only [Frame.after] <;> (try split) <;> exact id

/-- A place outside waits, with its bookkeeping. -/
structure Pc.Calm (a : Ctx) (pc : Pc) : Prop where
  /-- The embedded node is not in use. -/
  waitOn : pc.waitOn = none
  /-- Frames and operations belong together. -/
  ok : pc.Ok
  /-- Only coroutines block. -/
  foreign : (∀ c, a ≠ .co c) → pc.Foreign
  /-- No select node is linked. -/
  linked : ∀ i l, ¬ pc.Linked i l

/-- Calls start outside waits. -/
lemma Api.calm_entry {h : Heap} {api : Api} (hv : api.Valid h) (a : Ctx) (r : ℕ) :
    (api.entry a r).Calm a := by
  cases api with
  | op o =>
    cases o with
    | lockRaw => exact absurd hv id
    | condPark => exact absurd hv id
    | send ch val tryOnly =>
      cases a <;> cases tryOnly <;>
        exact ⟨rfl, by simp [Api.entry, Pc.Ok, Frame.IsCondUnlock],
          by simp [Api.entry, Pc.Foreign, Op.NeedsCo], fun _ _ => id⟩
    | recv ch tryOnly =>
      cases a <;> cases tryOnly <;>
        exact ⟨rfl, by simp [Api.entry, Pc.Ok, Frame.IsCondUnlock],
          by simp [Api.entry, Pc.Foreign, Op.NeedsCo], fun _ _ => id⟩
    | _ =>
      cases a <;>
        exact ⟨rfl, by simp [Api.entry, Pc.Ok, Frame.IsCondUnlock],
          by simp [Api.entry, Pc.Foreign, Op.NeedsCo], fun _ _ => id⟩
  | select ops =>
    cases a <;> simp only [Api.entry] <;> split <;>
      exact ⟨rfl, trivial, by simp [Pc.Foreign], fun _ _ => id⟩
  | _ =>
    cases a <;> exact ⟨rfl, by simp [Api.entry, Pc.Ok], by simp [Api.entry, Pc.Foreign],
      fun _ _ => id⟩

/-- Failed entry checks end outside waits. -/
lemma Entry.calm_fail {e : Entry} (hok : (Pc.pre e).Ok) (c : CrId) (st : Code) :
    (e.fail st).Calm (.co c) := by
  cases e with
  | op o k =>
    have hk : ¬ k.IsCondUnlock := by
      cases o <;> simp only [Pc.Ok] at hok <;> first
        | exact hok.1
        | (obtain ⟨m, rfl⟩ := hok; exact id)
    exact ⟨Frame.waitOn_after hk st, k.ok_after st, fun h => absurd rfl (h c),
      k.not_linked_after st⟩
  | _ => exact ⟨rfl, trivial, fun h => absurd rfl (h c), fun _ _ => id⟩

/-- Passed entry checks end outside waits. -/
lemma Entry.calm_go {e : Entry} (hok : (Pc.pre e).Ok) (h : Heap) (c : CrId) (r : ℕ) :
    (e.go h c r).Calm (.co c) := by
  cases e with
  | op o k =>
    cases o with
    | condPark v =>
      obtain ⟨m, rfl⟩ := hok
      simp only [Entry.go]
      split <;> exact ⟨rfl, by simp [Pc.Ok], fun h => absurd rfl (h c), fun _ _ => id⟩
    | _ =>
      obtain ⟨hk, hk'⟩ := hok
      cases k <;> first
        | exact absurd trivial hk
        | exact absurd rfl (hk' _ _)
        | exact ⟨rfl, trivial, fun h => absurd rfl (h c), fun _ _ => id⟩
  | _ => exact ⟨rfl, trivial, fun h => absurd rfl (h c), fun _ _ => id⟩

/-- Local steps stay outside waits. -/
lemma LocalStep.calm {h : Heap} {a : Ctx} {pc pc' : Pc} {act : Act}
    (hl : LocalStep h a pc act pc') (hok : pc.Ok) :
    (pc.waitOn = none ∧ ∀ i l, ¬ pc.Linked i l) ∧ pc'.Calm a := by
  refine ⟨by cases hl <;> exact ⟨rfl, fun _ _ => id⟩, ?_⟩
  cases hl with
  | call _ r hv => exact Api.calm_entry hv a r
  | preCanceled => exact Entry.calm_fail hok _ _
  | preExpired => exact Entry.calm_fail hok _ _
  | preGo r => exact Entry.calm_go hok h _ r
  | ioReady => split <;> exact ⟨rfl, trivial, fun h => absurd rfl (h _), fun _ _ => id⟩
  | wakeGiveUp => split <;> exact ⟨rfl, trivial, fun _ => trivial, fun _ _ => id⟩
  | ret | selRet | scanFail | routeLocal | routeRemote | push | callback | wakeHit | wakeNo
  | wakeLost => exact ⟨rfl, trivial, fun _ => trivial, fun _ _ => id⟩
  | _ => exact ⟨rfl, trivial, fun h => absurd rfl (h _), fun _ _ => id⟩

/-! ## Granters -/

section Granted

variable {st : Code} {w w' : Waits} {G : List NodeRef}

/-- A granter keeps the embedded nodes in agreement with their coroutines' places. -/
lemma Waits.Granted.nodeInv (h : w.Granted st w' G) {c : CrId} {pc : Pc}
    (hn : NodeInv pc (w.node (.wq c))) : NodeInv pc (w'.node (.wq c)) := by
  by_cases hc : .wq c ∈ G
  · obtain ⟨hst, -, hlist⟩ := h.granted _ hc
    have hdec : (w'.node (.wq c)).status ≠ .waiting := by simp [hst]
    exact ⟨fun _ => ⟨hlist, hdec⟩, fun l _ => Or.inr ⟨hdec, hlist⟩, fun _ _ _ => hdec⟩
  · rw [h.wq_of_not_mem hc]
    exact hn

/-- A granter links no select node. -/
lemma Waits.Granted.linked (h : w.Granted st w' G) {c : CrId} {i : ℕ} {l : ListId}
    (hl : (w'.node (.sel c i)).waitList = some l) : (w.node (.sel c i)).waitList = some l := by
  by_cases hG : .sel c i ∈ G
  · rw [(h.granted _ hG).2.2] at hl
    cases hl
  · rcases h.other _ hG with heq | ⟨c', i', l', -, -, -, heq⟩
    · rwa [heq] at hl
    · rw [heq] at hl
      cases hl

end Granted

/-- Which critical sections park, and in which state of their structure. -/
lemma exec_park_cases {h : Heap} (hw : h.waits.WF) {a : Ctx} {op : Op} {l : ListId} {data : Bytes}
    {writer : Bool} (hpark : (exec h a op).2.res = .park l data writer) :
    (∃ ch c, op = .send ch data false ∧ a = .co c ∧ l = .senders ch ∧
      (h.chan ch).closed = false ∧ ((h.chan ch).bufSz = 0 ∨ (h.chan ch).bufSz ≤ (h.chan ch).count) ∧
      (exec h a op).1.chan = h.chan ∧ h.waits.Emptied (.receivers ch) (exec h a op).1.waits) ∨
    (∃ ch c, op = .recv ch false ∧ a = .co c ∧ l = .receivers ch ∧
      (h.chan ch).closed = false ∧ ((h.chan ch).bufSz = 0 ∨ (h.chan ch).count = 0) ∧
      (exec h a op).1.chan = h.chan ∧ h.waits.Emptied (.senders ch) (exec h a op).1.waits) ∨
    (op.NeedsCo ∧ (exec h a op).1 = h ∧ ¬ l.IsChan ∧ ∀ v, op = .condPark v → l = .cond v) := by
  -- the operations whose only way to park is one park call at the end
  have other : ∀ {l' : ListId} {d : Bytes} {b : Bool}, (Out.park l' d b).res = .park l data writer →
      ¬ l'.IsChan → ¬ l.IsChan := by
    intro l' d b heq hl'
    simp only [Out.park, Res.park.injEq] at heq
    rwa [← heq.1]
  cases op with
  | send ch val tryOnly =>
    left
    obtain ⟨-, heq⟩ | ⟨-, rx, w', heq, -⟩ | ⟨-, -, w', heq, -⟩ | ⟨hopen, hfull, w', heq, hempty⟩ :=
      exec_send_cases hw a ch val tryOnly
    · rw [heq] at hpark
      cases hpark
    · rw [heq] at hpark
      cases hpark
    · rw [heq] at hpark
      cases hpark
    · rw [heq] at hpark ⊢
      split at hpark
      · rename_i hblock
        obtain ⟨c, rfl, rfl⟩ := Ctx.canBlock_iff.mp hblock
        cases hpark
        exact ⟨ch, c, rfl, rfl, rfl, hopen, hfull, rfl, hempty⟩
      · cases hpark
  | recv ch tryOnly =>
    right; left
    obtain ⟨-, -, tx, w', heq, -⟩ | ⟨-, -, w', heq, -⟩ | ⟨-, tx, w', heq, -⟩ |
      ⟨-, -, w', heq, -⟩ | ⟨hnone, hopen, w', heq, hempty⟩ := exec_recv_cases hw a ch tryOnly
    · rw [heq] at hpark
      cases hpark
    · rw [heq] at hpark
      cases hpark
    · rw [heq] at hpark
      cases hpark
    · rw [heq] at hpark
      cases hpark
    · rw [heq] at hpark ⊢
      split at hpark
      · rename_i hblock
        obtain ⟨c, rfl, rfl⟩ := Ctx.canBlock_iff.mp hblock
        cases hpark
        exact ⟨ch, c, rfl, rfl, rfl, hopen, hnone, rfl, hempty⟩
      · cases hpark
  | close ch =>
    simp only [exec, chanCloseImpl] at hpark
    split at hpark <;> cases hpark
  | lock m =>
    right; right
    simp only [exec, mutexLock] at hpark ⊢
    split at hpark
    · cases hpark
    · split at hpark
      · cases hpark
      · rename_i b hb hne
        exact ⟨trivial, by simp [hne], other hpark id, by simp⟩
  | trylock m =>
    simp only [exec, mutexTrylock] at hpark
    split at hpark <;> cases hpark
  | lockRaw m =>
    right; right
    simp only [exec, mutexLockRaw] at hpark ⊢
    split at hpark
    · cases hpark
    · rename_i b hb
      exact ⟨trivial, by simp, other hpark id, by simp⟩
  | unlock m =>
    simp only [exec, mutexUnlock] at hpark
    split at hpark
    · split at hpark <;> cases hpark
    · cases hpark
  | rdlock r =>
    right; right
    simp only [exec, rwlockRdlock] at hpark ⊢
    split at hpark
    · cases hpark
    · rename_i hcond
      exact ⟨trivial, by simp [hcond], other hpark id, by simp⟩
  | tryrdlock r =>
    simp only [exec, rwlockTryrdlock] at hpark
    split at hpark <;> cases hpark
  | wrlock r =>
    right; right
    simp only [exec, rwlockWrlock] at hpark ⊢
    split at hpark
    · cases hpark
    · rename_i hcond
      exact ⟨trivial, by simp [hcond], other hpark id, by simp⟩
  | trywrlock r =>
    simp only [exec, rwlockTrywrlock] at hpark
    split at hpark <;> cases hpark
  | rwUnlock r =>
    have hgrant : ∀ h', (rwlockGrant h' r).2.res ≠ .park l data writer := by
      intro h'
      unfold rwlockGrant
      split
      · split
        · simp [Out.grantMany]
        · split <;> simp [Out.grantMany]
      · simp [Out.grantMany]
    simp only [exec, rwlockUnlock] at hpark
    split at hpark
    · exact absurd hpark (hgrant _)
    · split at hpark
      · exact absurd hpark (hgrant _)
      · cases hpark
  | condPark v =>
    right; right
    simp only [exec] at hpark ⊢
    refine ⟨trivial, trivial, other hpark id, fun v' hv' => ?_⟩
    simp only [Out.park, Res.park.injEq] at hpark
    rw [← hpark.1]
    simpa using hv'
  | signal v =>
    simp only [exec, condSignal] at hpark
    split at hpark <;> cases hpark
  | broadcast v => cases hpark
  | wgAdd g delta =>
    simp only [exec, waitgroupAdd] at hpark
    split at hpark
    · cases hpark
    · split at hpark <;> cases hpark
  | wgWait g =>
    right; right
    simp only [exec, waitgroupWait] at hpark ⊢
    split at hpark
    · cases hpark
    · rename_i hcount
      exact ⟨trivial, by simp [hcount], other hpark id, by simp⟩

/-- Every critical section keeps every channel's invariant. -/
lemma exec_chanInv {h : Heap} (hw : h.waits.WF) (hi : ∀ ch, ChanInv h.waits ch (h.chan ch))
    (a : Ctx) (op : Op) (ch : ℕ) :
    ChanInv (exec h a op).1.waits ch ((exec h a op).1.chan ch) := by
  have heff := exec_effect hw a op
  by_cases hlk : op.lockId = .chan ch
  · cases op with
    | send ch' val tryOnly =>
      obtain rfl : ch' = ch := by simpa [Op.lockId] using hlk
      have hsend := (hi ch').send hw val
      simp only [exec, chanSendImpl]
      split <;> (try split) <;> simpa using hsend
    | recv ch' tryOnly =>
      obtain rfl : ch' = ch := by simpa [Op.lockId] using hlk
      have hrecv := (hi ch').recv hw
      simp only [exec, chanRecvImpl]
      split <;> (try split) <;> simpa using hrecv
    | close ch' =>
      obtain rfl : ch' = ch := by simpa [Op.lockId] using hlk
      simp only [exec, chanCloseImpl]
      split
      · exact hi ch'
      · simpa using (hi ch').close hw
    | _ => simp [Op.lockId] at hlk
  · rw [heff.chan ch hlk]
    exact (hi ch).granted heff.granted

/-- The park at the end of a critical section finds its node unused. -/
def ParkOk (h : Heap) (a : Ctx) (op : Op) : Prop :=
  (op.NeedsCo → ∃ c, a = .co c) ∧
    ∀ c, a = .co c → (h.waits.node (.wq c)).waitList = none ∨ ∃ m, op = .unlock m

/-- A critical section that parks is executed by a coroutine, whose node is still unused after the
operation. -/
lemma ParkOk.park {h : Heap} (hw : h.waits.WF) {a : Ctx} {op : Op} (hp : ParkOk h a op)
    {l : ListId} {data : Bytes} {writer : Bool} (hpark : (exec h a op).2.res = .park l data writer) :
    ∃ c, a = .co c ∧ ((exec h a op).1.waits.node (.wq c)).waitList = none := by
  have heff := exec_effect hw a op
  obtain ⟨c, rfl⟩ : ∃ c, a = .co c := by
    obtain ⟨-, c, -, hc, -⟩ | ⟨-, c, -, hc, -⟩ | ⟨hco, -⟩ := exec_park_cases hw hpark
    · exact ⟨c, hc⟩
    · exact ⟨c, hc⟩
    · exact hp.1 hco
  refine ⟨c, rfl, ?_⟩
  have hnot : .wq c ∉ (exec h (.co c) op).2.granted := by
    simp [(heff.park _ _ _ hpark).1]
  rw [heff.granted.wq_of_not_mem hnot]
  refine (hp.2 c rfl).resolve_right ?_
  rintro ⟨m, rfl⟩
  obtain ⟨_, _, hop, -⟩ | ⟨_, _, hop, -⟩ | ⟨hco, -⟩ := exec_park_cases hw hpark
  · cases hop
  · cases hop
  · exact hco

/-- A whole critical section keeps lists, nodes and channels in order. -/
lemma critical_inv {h : Heap} (hw : h.waits.WF) (hi : ∀ ch, ChanInv h.waits ch (h.chan ch))
    {a : Ctx} {op : Op} (hp : ParkOk h a op) :
    (critical h a op).1.waits.WF ∧
      ∀ ch, ChanInv (critical h a op).1.waits ch ((critical h a op).1.chan ch) := by
  have heff := exec_effect hw a op
  have hchan := exec_chanInv hw hi a op
  unfold critical
  cases hres : (exec h a op).2.res with
  | ret code => exact ⟨heff.granted.wf, hchan⟩
  | park l data writer =>
    obtain ⟨c, rfl, hfree⟩ := hp.park hw hres
    refine ⟨heff.granted.wf.park data writer hfree (by simp), fun ch => ?_⟩
    simp only [Heap.parkAs]
    obtain ⟨ch', c', rfl, -, rfl, hopen, hfull, heq, hempty⟩ |
      ⟨ch', c', rfl, -, rfl, hopen, hnone, heq, hempty⟩ | ⟨-, heq, hl, -⟩ := exec_park_cases hw hres
    · by_cases hch : ch = ch'
      · subst hch
        refine (hchan ch).parkSender ?_ ?_ (by simp [hempty.nil]) data writer
        · simpa [heq] using hopen
        · have := (hi ch).count_le
          rw [heq]
          omega
      · exact (hchan ch).parkOther (by simpa [ListId.lock] using Ne.symm hch) data writer
    · by_cases hch : ch = ch'
      · subst hch
        refine (hchan ch).parkReceiver ?_ ?_ (by simp [hempty.nil]) data writer
        · simpa [heq] using hopen
        · have := (hi ch).count_le
          rw [heq]
          omega
      · exact (hchan ch).parkOther (by simpa [ListId.lock] using Ne.symm hch) data writer
    · refine (hchan ch).parkOther ?_ data writer
      cases l <;> simp_all [ListId.lock, ListId.IsChan]

/-! ## Steps -/

/-- Moving within a wait, or outside waits. -/
lemma NodeInv.move {pc pc' : Pc} {x : Node} (h : NodeInv pc x) (hw : pc'.waitOn = pc.waitOn)
    (hs : ∀ k l, pc' = .sync k l → x.status ≠ .waiting) : NodeInv pc' x :=
  ⟨fun hn => h.out (hw ▸ hn), fun l hl => h.wait l (hw ▸ hl), hs⟩

/-- Leaving a wait with a decided node that is on no list. -/
lemma NodeInv.leave {pc : Pc} {x : Node} (hw : pc.waitOn = none) (hlist : x.waitList = none)
    (hst : x.status ≠ .waiting) : NodeInv pc x :=
  ⟨fun _ => ⟨hlist, hst⟩, fun _ hl => (by rw [hw] at hl; cases hl), fun _ _ _ => hst⟩

namespace Inv

variable {s : Core}

/-- A context moves and nothing else happens. -/
lemma setPc (h : Inv s) {a : Ctx} {pc : Pc} (hok : pc.Ok)
    (hforeign : (∀ c, a ≠ .co c) → pc.Foreign)
    (hnode : ∀ c, a = .co c → NodeInv pc (s.heap.waits.node (.wq c)))
    (hsel : ∀ c, a = .co c → ∀ i l, (s.heap.waits.node (.sel c i)).waitList = some l →
      pc.Linked i l) : Inv (s.setPc a pc) where
  wf := h.wf
  ok := fun b => by
    by_cases hb : b = a
    · subst hb; simpa using hok
    · simpa [hb] using h.ok b
  foreign := fun b hb' => by
    by_cases hb : b = a
    · subst hb; simpa using hforeign hb'
    · simpa [hb] using h.foreign b hb'
  node := fun c => by
    by_cases hb : .co c = a
    · subst hb; simpa using hnode c rfl
    · simpa [hb] using h.node c
  sel := fun c i l hl => by
    by_cases hb : .co c = a
    · subst hb; simpa using hsel c rfl i l hl
    · simpa [hb] using h.sel c i l hl
  chan := h.chan

/-- Coroutine `c` moves inside its wait; a select's linked nodes stay accounted for. -/
lemma moveCo (h : Inv s) {c : CrId} {pc : Pc} (hok : pc.Ok)
    (hw : pc.waitOn = (s.pc (.co c)).waitOn)
    (hs : ∀ k l, pc = .sync k l → (s.heap.waits.node (.wq c)).status ≠ .waiting)
    (hl : ∀ i l, (s.pc (.co c)).Linked i l → pc.Linked i l) : Inv (s.setPc (.co c) pc) := by
  refine h.setPc hok (fun hc => absurd rfl (hc c)) (fun c' hc' => ?_) (fun c' hc' i l hi => ?_)
  · cases hc'
    exact (h.node c).move hw hs
  · cases hc'
    exact hl i l (h.sel c i l hi)

/-- The nodes change, lists only lose nodes, and every node still fits its coroutine's place. -/
lemma setWaits (h : Inv s) {w : Waits} (hwf : w.WF)
    (hsub : ∀ l, (w.queue l).Sublist (s.heap.waits.queue l))
    (hnode : ∀ c, NodeInv (s.pc (.co c)) (w.node (.wq c)))
    (hsel : ∀ c i l, (w.node (.sel c i)).waitList = some l →
      (s.heap.waits.node (.sel c i)).waitList = some l) : Inv (s.setWaits w) where
  wf := hwf
  ok := h.ok
  foreign := h.foreign
  node := hnode
  sel := fun c i l hl => h.sel c i l (hsel c i l hl)
  chan := fun ch => (h.chan ch).mono (hsub _) (hsub _)

/-- One embedded node that is on no list changes and stays on none. -/
lemma setWq (h : Inv s) {c : CrId} {x : Node}
    (hlist : (s.heap.waits.node (.wq c)).waitList = none) (hx : x.waitList = none)
    (hnode : NodeInv (s.pc (.co c)) x) :
    Inv (s.setWaits (s.heap.waits.setNode (.wq c) x)) := by
  refine h.setWaits (h.wf.setNode hlist hx) (fun l => List.Sublist.refl _) (fun c' => ?_)
    (fun c' i l hl => ?_)
  · by_cases hc : c' = c
    · subst hc; simpa using hnode
    · simpa [hc] using h.node c'
  · simpa using hl

/-- What a context has to do does not matter to the invariant. -/
lemma setWork (h : Inv s) (a : Ctx) (ws : List Work) : Inv (s.setWork a ws) :=
  ⟨h.wf, h.ok, h.foreign, h.node, h.sel, h.chan⟩

/-- Nor does which locks are held. -/
lemma setHeld (h : Inv s) (lk : LockId) (b : Bool) : Inv (s.setHeld lk b) :=
  ⟨h.wf, h.ok, h.foreign, h.node, h.sel, h.chan⟩

/-- The critical section of a call finds the node it may park unused. -/
lemma parkOk (h : Inv s) {a : Ctx} {op : Op} {k : Frame} (hpc : s.pc a = .cs op k) :
    ParkOk s.heap a op := by
  refine ⟨fun hco => ?_, ?_⟩
  · by_contra hne
    have hf := h.foreign a (fun c hc => hne ⟨c, hc⟩)
    rw [hpc] at hf
    exact hf.1 hco
  · rintro c rfl
    by_cases hk : k.IsCondUnlock
    · have hok := h.ok (.co c)
      rw [hpc] at hok
      cases k <;> simp only [Frame.IsCondUnlock] at hk
      exact Or.inr ⟨_, hok⟩
    · refine Or.inl ((h.node c).out ?_).1
      rw [hpc]
      cases k <;> first | rfl | exact absurd trivial hk

end Inv

/-- The effect of an operation on the heap keeps the invariant. -/
lemma inv_exec {s : Core} (h : Inv s) (a : Ctx) (op : Op) :
    Inv { s with heap := (exec s.heap a op).1 } where
  wf := (exec_effect h.wf a op).granted.wf
  ok := h.ok
  foreign := h.foreign
  node := fun c => (exec_effect h.wf a op).granted.nodeInv (h.node c)
  sel := fun c i l hl => h.sel c i l ((exec_effect h.wf a op).granted.linked hl)
  chan := exec_chanInv h.wf h.chan a op

/-- A critical section keeps the invariant. -/
lemma inv_crit {s : Core} (h : Inv s) {a : Ctx} {op : Op} {k : Frame} (hpc : s.pc a = .cs op k) :
    Inv ({ s with heap := (critical s.heap a op).1 }.setPc a
      (k.next (critical s.heap a op).2.res)) := by
  have hp := h.parkOk hpc
  have hexec := inv_exec h a op
  have hok := h.ok a
  rw [hpc] at hok
  have hunlinked : ∀ c, a = .co c → ∀ i l,
      ((exec s.heap a op).1.waits.node (.sel c i)).waitList ≠ some l := by
    rintro c rfl i l hl
    have hlinked := hexec.sel c i l hl
    simp only [hpc, Pc.Linked] at hlinked
  cases hres : (exec s.heap a op).2.res with
  | ret code =>
    have hcrit : critical s.heap a op = exec s.heap a op := by
      simp [critical, hres, Heap.parkAs]
    rw [hcrit, hres]
    refine hexec.setPc (k.ok_after code) (fun hne => ?_) ?_ (fun c hc i l hl => ?_)
    · have hf := h.foreign a hne
      rw [hpc] at hf
      rw [hf.2]
      trivial
    · rintro c rfl
      have hnode : NodeInv (.cs op k) ((exec s.heap (.co c) op).1.waits.node (.wq c)) := by
        simpa [hpc] using hexec.node c
      refine hnode.move ?_ ?_
      · by_cases hk : k.IsCondUnlock
        · cases k <;> first | rfl | exact absurd hk id
        · rw [Frame.next, Frame.waitOn_after hk]
          cases k <;> first | rfl | exact absurd trivial hk
      · intro k' l' heq
        cases k <;> simp only [Frame.next, Frame.after] at heq <;> (try split at heq) <;> cases heq
    · exact absurd hl (hunlinked c hc i l)
  | park l data writer =>
    obtain ⟨c, rfl, hfree⟩ := hp.park h.wf hres
    obtain ⟨hwf, hchan⟩ := critical_inv h.wf h.chan hp
    have hheap : (critical s.heap (.co c) op).1 = { (exec s.heap (.co c) op).1 with
        waits := (exec s.heap (.co c) op).1.waits.park (.wq c) l data writer } := by
      simp [critical, hres, Heap.parkAs]
    -- the place behind the park waits on the list the node has been put on
    have hplace : (k.parked l).waitOn = some (some l) ∧ (k.parked l).Ok ∧
        ∀ k' l', k.parked l ≠ .sync k' l' := by
      cases k with
      | condPark m v =>
        obtain ⟨_, _, hop, -⟩ | ⟨_, _, hop, -⟩ | ⟨-, -, -, hl⟩ := exec_park_cases h.wf hres
        · rw [hop] at hok; cases hok
        · rw [hop] at hok; cases hok
        · rw [hl v hok]
          exact ⟨rfl, rfl, by simp [Frame.parked]⟩
      | condUnlock m v =>
        obtain rfl : op = .unlock m := hok
        obtain ⟨_, _, hop, -⟩ | ⟨_, _, hop, -⟩ | ⟨hco, -⟩ := exec_park_cases h.wf hres
        · cases hop
        · cases hop
        · exact absurd hco id
      | _ => exact ⟨rfl, by simp [Frame.parked, Pc.Ok, Frame.IsCondUnlock], by simp [Frame.parked]⟩
    have hpc' : k.next (critical s.heap (.co c) op).2.res = k.parked l := by
      simp [critical, hres, Frame.next]
    rw [hpc']
    refine ⟨hwf, fun b => ?_, fun b hb => ?_, fun c' => ?_, fun c' i l' hl' => ?_, hchan⟩
    · by_cases hb : b = .co c
      · subst hb; simpa using hplace.2.1
      · simpa [hb] using h.ok b
    · simpa [hb c] using h.foreign b hb
    · by_cases hc : c' = c
      · subst hc
        simp only [Core.setPc_pc_self, Core.setPc_heap, hheap]
        refine ⟨fun hn => ?_, fun l' hl' => ?_, fun k' l' heq => absurd heq (hplace.2.2 k' l')⟩
        · rw [hplace.1] at hn; cases hn
        · rw [hplace.1] at hl'
          cases hl'
          exact Or.inl (by simp [Waits.park])
      · have hnode := hexec.node c'
        simpa [hheap, Waits.park, hc] using hnode
    · have hl'' : ((exec s.heap (.co c) op).1.waits.node (.sel c' i)).waitList = some l' := by
        simpa [hheap, Waits.park] using hl'
      by_cases hc : c' = c
      · subst hc
        exact absurd hl'' (hunlinked c' rfl i l')
      · simpa [hc] using hexec.sel c' i l' hl''

/-- Deciding a wait from outside keeps the invariant. -/
lemma inv_flip {s : Core} (h : Inv s) {t : CrId} {st : Code} {w : Waits}
    (hd : s.heap.waits.Decided t st w) : Inv (s.setWaits w) := by
  refine h.setWaits hd.wf hd.sublist (fun c => ?_) (fun c i l hl => ?_)
  · by_cases hc : c = t
    · subst hc
      rw [hd.self]
      exact ⟨fun _ => by simp, fun l _ => Or.inr (by simp), fun _ _ _ => by simp⟩
    · rw [hd.other _ (by simpa using hc)]
      exact h.node c
  · rwa [hd.other _ (by simp)] at hl

/-- Registering a case of a select keeps the invariant. -/
lemma inv_selPark {s : Core} (h : Inv s) {c : CrId} {ops : List Case} {i : ℕ} {k : Case}
    (hpc : s.pc (.co c) = .selReg ops i) (hk : ops[i]? = some k)
    (hready : selectCaseReady s.heap.waits c k (s.heap.chan k.ch) = false) :
    Inv ((s.setWaits (s.heap.waits.park (.sel c i) k.list k.val false)).setPc (.co c)
      (.selReg ops (i + 1))) := by
  have hfree : (s.heap.waits.node (.sel c i)).waitList = none := by
    cases hl : (s.heap.waits.node (.sel c i)).waitList with
    | none => rfl
    | some l =>
      have hlinked := h.sel c i l hl
      rw [hpc] at hlinked
      exact absurd hlinked.1 (lt_irrefl i)
  have hchan : k.list.lock = .chan k.ch := by
    unfold Case.list
    split <;> rfl
  have hwf := h.wf.park (l := k.list) k.val false hfree
    (fun _ _ _ => by unfold Case.list; split <;> trivial)
  refine ⟨hwf, fun b => ?_, fun b hb => ?_, fun c' => ?_, fun c' i' l' hl' => ?_, fun ch => ?_⟩
  · by_cases hb : b = .co c
    · subst hb; simp [Pc.Ok]
    · simpa [hb] using h.ok b
  · simpa [hb c] using h.foreign b hb
  · have hnode : NodeInv (s.pc (.co c')) ((s.heap.waits.park (.sel c i) k.list k.val false).node
        (.wq c')) := by
      simpa [Waits.park] using h.node c'
    by_cases hc : c' = c
    · subst hc
      have hmove : NodeInv (.selReg ops (i + 1)) _ := hnode.move (by rw [hpc]; rfl) (by simp)
      simpa using hmove
    · simpa [hc] using hnode
  · by_cases hn : NodeRef.sel c' i' = .sel c i
    · cases hn
      simp only [Core.setPc_heap, Core.setWaits_waits, Waits.park, Waits.setQueue_node,
        Waits.setNode_node_self, Option.some.injEq] at hl'
      simpa [Pc.Linked, hk] using hl'
    · have hl'' : (s.heap.waits.node (.sel c' i')).waitList = some l' := by
        simpa [Waits.park, hn] using hl'
      have hlinked := h.sel c' i' l' hl''
      by_cases hc : c' = c
      · subst hc
        rw [hpc] at hlinked
        simp only [Core.setPc_pc_self]
        exact ⟨by have := hlinked.1; omega, hlinked.2⟩
      · simpa [hc] using hlinked
  · by_cases hch : ch = k.ch
    · subst hch
      exact (h.chan k.ch).register rfl hready i k.val false
    · refine (h.chan ch).parkOther ?_ k.val false
      rw [hchan]
      simpa using Ne.symm hch

/-- A coroutine outside waits starts one that is on no list. -/
lemma Inv.startNone {s : Core} (h : Inv s) {c : CrId} {pc pc' : Pc} {w : Waits}
    (hpc : s.pc (.co c) = pc) (hout : pc.waitOn = none) (hlinked : ∀ i l, ¬ pc.Linked i l)
    (hin : pc'.waitOn = some none) (hok : pc'.Ok) (hsync : ∀ k l, pc' ≠ .sync k l)
    (hnode : w.node = (s.heap.waits.parkNone c).node) (hqueue : w.queue = s.heap.waits.queue) :
    Inv ((s.setWaits w).setPc (.co c) pc') := by
  have hlist : (s.heap.waits.node (.wq c)).waitList = none := ((h.node c).out (hpc ▸ hout)).1
  have hwf : w.WF := by
    obtain ⟨hnodup, hmem, hwait, hsel⟩ := h.wf.setNode hlist
      (x := { s.heap.waits.node (.wq c) with
        status := .waiting, wakerBusy := false, waitList := none, waitLock := none }) rfl
    refine ⟨by rw [hqueue]; exact hnodup, fun l n => ?_, fun n l hl => ?_, by rw [hqueue]; exact hsel⟩
    · rw [hqueue, hnode]
      exact hmem l n
    · rw [hnode] at hl ⊢
      exact hwait n l hl
  refine ⟨hwf, fun b => ?_, fun b hb => ?_, fun c' => ?_, fun c' i l hl => ?_, fun ch => ?_⟩
  · by_cases hb : b = .co c
    · subst hb; simpa using hok
    · simpa [hb] using h.ok b
  · simpa [hb c] using h.foreign b hb
  · by_cases hc : c' = c
    · subst hc
      simp only [Core.setPc_pc_self, Core.setPc_heap, Core.setWaits_waits, hnode, Waits.parkNone,
        Waits.setNode_node_self]
      refine ⟨fun hn => ?_, fun l hl => ?_, fun k l heq => absurd heq (hsync k l)⟩
      · rw [hin] at hn; cases hn
      · rw [hin] at hl
        cases hl
        exact Or.inl ⟨rfl, rfl⟩
    · simpa [hc, hnode, Waits.parkNone] using h.node c'
  · have hl' : (s.heap.waits.node (.sel c' i)).waitList = some l := by
      simpa [hnode, Waits.parkNone] using hl
    have hlink := h.sel c' i l hl'
    by_cases hc : c' = c
    · subst hc
      rw [hpc] at hlink
      exact absurd hlink (hlinked i l)
    · simpa [hc] using hlink
  · exact (h.chan ch).mono (by simp [hqueue]) (by simp [hqueue])

/-- The end of a select: the cancel node is reset. -/
lemma Inv.selEnd {s : Core} (h : Inv s) {c : CrId} {ops : List Case} {win : Option ℕ}
    {scan : Option (ℕ × Code)} (hpc : s.pc (.co c) = .selFin ops win scan) {idx : Option ℕ}
    {code : Code} :
    Inv ((s.setWaits (s.heap.waits.setNode (.wq c)
      { s.heap.waits.node (.wq c) with status := .decided .ok })).setPc (.co c)
      (.selRet idx code)) := by
  have hlist : (s.heap.waits.node (.wq c)).waitList = none := by
    rcases (h.node c).wait none (by rw [hpc]; rfl) with hw | hw
    · exact hw.2
    · exact hw.2
  have hset := h.setWq (x := { s.heap.waits.node (.wq c) with status := .decided .ok }) hlist hlist
    ⟨fun _ => ⟨hlist, by simp⟩, fun l _ => Or.inr ⟨by simp, hlist⟩, fun _ _ _ => by simp⟩
  refine hset.setPc trivial (fun hc => absurd rfl (hc c)) ?_ ?_
  · intro c' hc'
    cases hc'
    exact .leave rfl (by simpa using hlist) (by simp)
  · intro c' hc' i l hl
    cases hc'
    have hlinked := hset.sel c i l hl
    simp only [Core.setWaits_pc, hpc] at hlinked
    exact absurd hlinked id

/-- Every step keeps the invariant. -/
theorem inv_step (s : Core) (e : Event) (t : Core) (h : Inv s) (hstep : Step s e t) : Inv t := by
  cases hstep with
  | «local» _ hl =>
    obtain ⟨⟨hw, hlinked⟩, hcalm⟩ := hl.calm (h.ok _)
    refine h.setPc hcalm.ok hcalm.foreign ?_ ?_
    · rintro c rfl
      obtain ⟨hlist, hst⟩ := (h.node c).out hw
      exact .leave hcalm.waitOn hlist hst
    · rintro c rfl i l hi
      exact absurd (h.sel c i l hi) (hlinked i l)
  | crit hpc _ _ => exact ((inv_crit h hpc).setWork _ _).setHeld _ _
  | @testWaiting c k l hpc _ _ =>
    have hok := h.ok (.co c)
    rw [hpc] at hok
    exact h.moveCo hok (by rw [hpc]; rfl) (by simp) (by rw [hpc]; exact fun _ _ => id)
  | @testDecided c k l hpc _ hst =>
    have hok := h.ok (.co c)
    rw [hpc] at hok
    exact h.moveCo hok (by rw [hpc]; rfl) (fun _ _ _ => hst) (by rw [hpc]; exact fun _ _ => id)
  | @suspend c k l hpc _ =>
    have hok := h.ok (.co c)
    rw [hpc] at hok
    exact h.moveCo hok (by rw [hpc]; rfl) (by simp) (by rw [hpc]; exact fun _ _ => id)
  | @decided c k l st hpc _ _ hst =>
    have hok := h.ok (.co c)
    rw [hpc] at hok
    have hdec : (s.heap.waits.node (.wq c)).status ≠ .waiting := by simp [hst]
    have hlist : (s.heap.waits.node (.wq c)).waitList = none := by
      rcases (h.node c).wait l (by rw [hpc]; rfl) with hw | hw
      · exact absurd hw.1 hdec
      · exact hw.2
    refine (h.setWq hlist rfl ?_).setPc (k.ok_after st) (fun hc => absurd rfl (hc c)) ?_ ?_
    · exact ⟨fun _ => ⟨rfl, hdec⟩, fun l' _ => Or.inr ⟨hdec, rfl⟩, fun _ _ _ => hdec⟩
    · rintro c' hc'
      cases hc'
      exact .leave (Frame.waitOn_after hok st) (by simp) (by simpa using hdec)
    · rintro c' hc' i l' hl'
      cases hc'
      have hlinked := h.sel c i l' (by simpa using hl')
      rw [hpc] at hlinked
      exact absurd hlinked id
  | wake _ => exact h.setWork _ _
  | unlock _ => exact (h.setWork _ _).setHeld _ _
  | @fin a n rest _ =>
    refine (h.setWork _ _).setWaits (h.wf.setNode_keep rfl rfl) (fun l => List.Sublist.refl _)
      (fun c => ?_) (fun c i l hl => ?_)
    · have hnode := h.node c
      obtain ⟨busy, hn⟩ := s.heap.waits.decideEnd_node n (.wq c)
      rw [hn]
      exact ⟨hnode.out, hnode.wait, hnode.sync⟩
    · simpa using hl
  | sleepPark hpc _ =>
    exact h.startNone hpc rfl (fun _ _ => id) rfl (by simp [Pc.Ok, Frame.IsCondUnlock]) (by simp) rfl
      rfl
  | @sleepFire w t hpcw _ hpc hst =>
    have hwait : (s.pc (.co t)).waitOn = some none := by rcases hpc with hpc | hpc <;> rw [hpc] <;> rfl
    have hlist : (s.heap.waits.node (.wq t)).waitList = none := by
      rcases (h.node t).wait none hwait with hw | hw
      · exact hw.2
      · exact hw.2
    refine Inv.setWork ?_ _ _
    exact h.setWq hlist hlist ⟨fun _ => ⟨hlist, by simp⟩, fun l _ => Or.inr ⟨by simp, hlist⟩,
      fun _ _ _ => by simp⟩
  | @flip a f t lk w hpc _ _ hd =>
    have hflip := inv_flip h (Waits.decide_spec h.wf hd)
    refine (hflip.setPc ?_ ?_ ?_ ?_).setWork _ _
    · split <;> trivial
    · intro _
      split <;> trivial
    · rintro c rfl
      refine (hflip.node c).move ?_ ?_
      · simp only [Core.setWaits_pc, hpc]
        split <;> rfl
      · intro k l
        split <;> simp
    · rintro c rfl i l hl
      have hlinked := hflip.sel c i l hl
      simp only [Core.setWaits_pc, hpc] at hlinked
      exact absurd hlinked id
  | @selTry a ops i rest k hpc _ _ _ =>
    refine ((inv_exec h a k.op).setPc ?_ ?_ ?_ ?_).setWork _ _
    · split <;> trivial
    · intro _
      split <;> trivial
    · rintro c rfl
      refine ((inv_exec h (.co c) k.op).node c).move ?_ ?_
      · simp only [hpc]
        split <;> rfl
      · intro k' l
        split <;> simp
    · rintro c rfl j l hl
      have hlinked := (inv_exec h (.co c) k.op).sel c j l hl
      simp only [hpc] at hlinked
      exact absurd hlinked id
  | selInit hpc _ => exact h.startNone hpc rfl (fun _ _ => id) rfl trivial (by simp) rfl rfl
  | @selReady c ops i k hpc _ _ _ _ =>
    refine h.moveCo trivial (by rw [hpc]; rfl) (by simp) (fun j l hl => ?_)
    rw [hpc] at hl
    exact ⟨Nat.zero_le j, hl⟩
  | selPark hpc _ hk _ hready => exact inv_selPark h hpc hk hready
  | @selRegEnd c ops hpc _ =>
    refine h.moveCo trivial (by rw [hpc]; rfl) (by simp) (fun j l hl => ?_)
    rw [hpc] at hl
    exact hl.2
  | @selWaiting c ops hpc _ _ _ =>
    exact h.moveCo trivial (by rw [hpc]; rfl) (by simp) (by rw [hpc]; exact fun _ _ => id)
  | @selDecided c ops hpc _ _ =>
    refine h.moveCo trivial (by rw [hpc]; rfl) (by simp) (fun j l hl => ?_)
    rw [hpc] at hl
    obtain ⟨k, hk, hkl⟩ := hl
    exact ⟨Nat.zero_le j, (List.getElem?_eq_some_iff.mp hk).1, k, hk, hkl⟩
  | @selSuspend c ops hpc _ =>
    exact h.moveCo trivial (by rw [hpc]; rfl) (by simp) (by rw [hpc]; exact fun _ _ => id)
  | @selUnreg c ops r j rescan k hpc _ hj _ _ =>
    obtain ⟨hwf, hself, hother, -, hsub⟩ := Waits.unregister_spec h.wf (.sel c j)
    have hun : Inv (s.setWaits (s.heap.waits.unregister (.sel c j))) := by
      refine h.setWaits hwf hsub (fun c' => ?_) (fun c' i l hl => ?_)
      · rw [hother _ (by simp)]
        exact h.node c'
      · by_cases hn : NodeRef.sel c' i = .sel c j
        · rw [hn, hself] at hl
          cases hl
        · rwa [hother _ hn] at hl
    refine hun.setPc trivial (fun hc => absurd rfl (hc c)) ?_ ?_
    · intro c' hc'
      cases hc'
      exact (hun.node c).move (by simp only [Core.setWaits_pc, hpc]; rfl) (by simp)
    · intro c' hc' i l hl
      cases hc'
      have hij : i ≠ j := by
        rintro rfl
        simp only [Core.setWaits_waits, hself] at hl
        cases hl
      have hlinked := hun.sel c i l hl
      simp only [Core.setWaits_pc, hpc] at hlinked
      exact ⟨by have := hlinked.1; omega, hlinked.2⟩
  | @selLeave c ops r rescan hpc _ _ =>
    refine h.moveCo trivial (by rw [hpc]; rfl) (by simp) (fun j l hl => ?_)
    rw [hpc] at hl
    exact absurd hl.2.1 (not_lt.mpr hl.1)
  | @selAgain c ops r rand hpc _ _ _ =>
    refine h.moveCo trivial (by rw [hpc]; rfl) (by simp) (fun j l hl => ?_)
    rw [hpc] at hl
    exact absurd hl.2.1 (not_lt.mpr hl.1)
  | @selRetry c ops i rest k hpc _ _ _ =>
    refine ((inv_exec h (.co c) k.op).moveCo ?_ ?_ ?_ ?_).setWork _ _
    · split <;> trivial
    · simp only [hpc]
      split <;> rfl
    · intro k' l
      split <;> simp
    · intro j l hl
      simp only [hpc] at hl
      exact absurd hl id
  | @selRescanEnd c ops hpc _ =>
    refine h.moveCo trivial (by rw [hpc]; rfl) (by simp) (fun j l hl => ?_)
    rw [hpc] at hl
    exact absurd hl id
  | @selSync c ops win scan hpc _ _ =>
    exact h.moveCo trivial (by rw [hpc]; rfl) (by simp) (by rw [hpc]; exact fun _ _ => id)
  | @selSync2 c ops win scan hpc _ _ =>
    exact h.moveCo trivial (by rw [hpc]; rfl) (by simp) (by rw [hpc]; exact fun _ _ => id)
  | selWon hpc _ => exact h.selEnd hpc
  | selScanned hpc _ => exact h.selEnd hpc
  | selFailed hpc _ _ => exact h.selEnd hpc

/-- The invariant in every reachable state. -/
theorem inv_reachable {cfg : Config} {s : Core} (h : Reachable Step (.init cfg) s) : Inv s :=
  h.invariant (inv_init cfg) inv_step

/-- A waiter nobody has decided: its status is `S_WQ_WAITING` and, if it is a select node, its select
has no winner. -/
def Waits.Undecided (w : Waits) (n : NodeRef) : Prop :=
  (w.node n).status = .waiting ∧ w.Usable n

end Suspenders.Wait
