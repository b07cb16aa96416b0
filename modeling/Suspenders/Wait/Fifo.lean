import Suspenders.Wait.Footprint
import Suspenders.Lib.Line

/-!
# Channels are bounded FIFO queues

History variables record, for every channel, the sends that completed and the receives that got a value,
each with its ticket: the time at which the operation entered its critical section.  A sender that parks
keeps the ticket of its park, wherever its value goes later.

The values sent are the values received followed by the values in the ring, and both lists are in the
order of the tickets: whatever route a value takes (handed to a parked receiver, through the ring, or
from a parked sender), values leave in the order in which their sends entered, and receives get them in
the order in which they entered.
-/

namespace Suspenders.Wait

open Lib

/-! ## What is recorded -/

/-- A call of a channel operation. -/
structure Call where
  /-- Whether it sends. -/
  isSend : Bool
  /-- Its channel. -/
  ch : ℕ
  /-- The value to be sent, or the contents of the receive buffer. -/
  val : Bytes
  /-- When it entered its critical section, if it has. -/
  ticket : Option ℕ

/-- A call that has returned. -/
structure Returned where
  /-- The call. -/
  call : Call
  /-- The status it returned. -/
  code : Code

/-- What is recorded about channels. -/
structure FifoHist where
  /-- The number of steps taken. -/
  clock : ℕ
  /-- When each node was parked. -/
  tick : NodeRef → ℕ
  /-- The sends that completed on each channel, with their values. -/
  sent : ℕ → List (ℕ × Bytes)
  /-- The receives that got a value on each channel, with their values. -/
  rcvd : ℕ → List (ℕ × Bytes)
  /-- The channel call each context is in. -/
  call : Ctx → Option Call
  /-- The channel calls that have returned. -/
  log : List Returned

/-- The critical section an action consists of. -/
def Act.locked : Act → Option (Op × Out)
  | crit op _ out => some (op, out)
  | selTry _ k out => some (k.op, out)
  | _ => none

namespace FifoHist

/-- Nothing has happened. -/
def init : FifoHist := ⟨0, fun _ => 0, fun _ => [], fun _ => [], fun _ => none, []⟩

/-- The sends on channel `ch` that an action completes: its own, or that of the parked sender whose value
it takes. -/
def sends (m : FifoHist) (s : Core) (act : Act) (ch : ℕ) : List (ℕ × Bytes) :=
  match act.locked with
  | some (.send ch' val _, out) => if ch' = ch ∧ out.res = .ret .ok then [(m.clock, val)] else []
  | some (.recv ch' _, out) =>
    if ch' = ch then out.granted.map fun n => (m.tick n, (s.heap.waits.node n).data) else []
  | _ => []

/-- The receives on channel `ch` that an action completes: its own, or that of the parked receiver it
hands its value to. -/
def recvs (m : FifoHist) (act : Act) (ch : ℕ) : List (ℕ × Bytes) :=
  match act.locked with
  | some (.send ch' val _, out) => if ch' = ch then out.granted.map fun n => (m.tick n, val) else []
  | some (.recv ch' _, out) =>
    if ch' = ch then out.value.toList.map fun v => (m.clock, v) else []
  | _ => []

/-- The tickets after an event. -/
def ticks (m : FifoHist) (e : Event) : NodeRef → ℕ :=
  match e.parks with
  | some (n, _, _) => Function.update m.tick n m.clock
  | none => m.tick

/-- The call the acting context is in after an event. -/
def callOf (m : FifoHist) (s : Core) (e : Event) : Option Call :=
  match e.act with
  | .call (.op (.send ch val _)) => some ⟨true, ch, val, none⟩
  | .call (.op (.recv ch _)) => some ⟨false, ch, [], none⟩
  | .call _ | .ret _ => none
  | .crit (.recv _ _) _ out => (m.call e.ctx).map fun r =>
    { r with ticket := some m.clock, val := out.value.getD [] }
  | .crit _ _ _ => (m.call e.ctx).map fun r => { r with ticket := some m.clock }
  -- what a parked receiver was handed is in its buffer
  | .decided _ _ => (m.call e.ctx).map fun r =>
    match r.isSend, e.ctx with
    | false, .co c => { r with val := (s.heap.waits.node (.wq c)).data }
    | _, _ => r
  | _ => m.call e.ctx

/-- What a step records. -/
def record (m : FifoHist) (s : Core) (e : Event) : FifoHist where
  clock := m.clock + 1
  tick := m.ticks e
  sent := fun ch => m.sent ch ++ m.sends s e.act ch
  rcvd := fun ch => m.rcvd ch ++ m.recvs e.act ch
  call := Function.update m.call e.ctx (m.callOf s e)
  log := m.log ++ match e.act with
    | .ret code => (m.call e.ctx).toList.map fun r => ⟨r, code⟩
    | _ => []

end FifoHist

/-! ## Values have the size of their channel -/

/-- The value of a send has the element size of its channel. -/
def Op.SizeOk (cfg : Config) : Op → Prop
  | send ch val _ => val.length = (cfg ch).1
  | _ => True

/-- So has the task of a `suspenders_queue_sync`. -/
def Frame.SizeOk (cfg : Config) : Frame → Prop
  | queueInit ch task _ => task.length = (cfg ch).1
  | _ => True

/-- And the values of a select's send cases. -/
def Case.SizeOk (cfg : Config) (k : Case) : Prop := k.isSend = true → k.val.length = (cfg k.ch).1

/-- All values a context is going to send have the size of their channel. -/
def Pc.SizeOk (cfg : Config) : Pc → Prop
  | pre (.op o k) | cs o k => o.SizeOk cfg ∧ k.SizeOk cfg
  | blk k _ | susp k _ | sync k _ => k.SizeOk cfg
  | pre (.select ops) | selScan ops _ | selInit ops | selReg ops _ | selTest ops | selSusp ops
  | selUnreg ops _ _ _ | selRescan ops _ => ∀ k ∈ ops, k.SizeOk cfg
  | _ => True

/-- Sizes are respected everywhere. -/
structure SizeInv (cfg : Config) (s : Core) : Prop where
  /-- Channels keep their element size and their capacity. -/
  chan : ∀ ch, (s.heap.chan ch).elemSz = (cfg ch).1 ∧ (s.heap.chan ch).bufSz = (cfg ch).2
  /-- Values to be sent. -/
  pc : ∀ a, (s.pc a).SizeOk cfg
  /-- Values of parked senders. -/
  node : ∀ ch, ∀ n ∈ s.heap.waits.queue (.senders ch), (s.heap.waits.node n).data.length = (cfg ch).1

lemma Frame.sizeOk_after {cfg : Config} {k : Frame} (h : k.SizeOk cfg) (st : Code) :
    (k.after st).SizeOk cfg := by
  cases k <;> simp only [Frame.after] <;> (try split) <;>
    first | exact ⟨h, trivial⟩ | exact trivial

lemma Frame.sizeOk_next {cfg : Config} {k : Frame} (h : k.SizeOk cfg) (res : Res) :
    (k.next res).SizeOk cfg := by
  cases res with
  | ret code => exact Frame.sizeOk_after h code
  | park l data writer => cases k <;> first | exact h | exact ⟨trivial, trivial⟩

/-- What the caller promises is what the sizes need. -/
lemma Api.sizeOk_entry {cfg : Config} {h : Heap} {api : Api} (hv : api.Valid h)
    (hchan : ∀ ch, (h.chan ch).elemSz = (cfg ch).1) (a : Ctx) (r : ℕ) :
    (api.entry a r).SizeOk cfg := by
  cases api with
  | op o =>
    cases o with
    | send ch val tryOnly =>
      have hlen : val.length = (cfg ch).1 := by rw [← hchan]; exact hv
      cases a <;> cases tryOnly <;> exact ⟨hlen, trivial⟩
    | recv ch tryOnly => cases a <;> cases tryOnly <;> exact ⟨trivial, trivial⟩
    | _ => cases a <;> first | exact ⟨trivial, trivial⟩ | exact trivial
  | select ops =>
    have hsize : ∀ k ∈ ops, k.SizeOk cfg := fun k hk hsend => by
      rw [← hchan]
      exact hv k hk hsend
    simp only [Api.entry]
    split
    · trivial
    · cases a <;> exact hsize
  | queueSync ch task g =>
    have hlen : task.length = (cfg ch).1 := by rw [← hchan]; exact hv
    cases a <;> first | exact ⟨trivial, hlen⟩ | exact trivial
  | condWait v m => cases a <;> first | exact ⟨trivial, trivial⟩ | exact trivial
  | _ => cases a <;> trivial

lemma LocalStep.sizeOk {cfg : Config} {h : Heap} {a : Ctx} {pc pc' : Pc} {act : Act}
    (hl : LocalStep h a pc act pc') (hchan : ∀ ch, (h.chan ch).elemSz = (cfg ch).1)
    (hpc : pc.SizeOk cfg) : pc'.SizeOk cfg := by
  cases hl with
  | call api r hv => exact Api.sizeOk_entry hv hchan a r
  | @preCanceled c e => cases e <;> first | exact Frame.sizeOk_after hpc.2 _ | trivial
  | @preExpired c e => cases e <;> first | exact Frame.sizeOk_after hpc.2 _ | trivial
  | @preGo c e r =>
    cases e with
    | op o k =>
      cases o <;> cases k <;> simp only [Entry.go] <;> (try split) <;> first | exact hpc | trivial
    | _ => exact hpc
  | scanEnd => exact hpc
  | ioReady => split <;> trivial
  | wakeGiveUp => split <;> trivial
  | _ => trivial

lemma sizeInv_init (cfg : Config) : SizeInv cfg (.init cfg) where
  chan := fun _ => ⟨rfl, rfl⟩
  pc := fun _ => trivial
  node := by simp [Core.init, Heap.init, Waits.init]

/-- The place of the acting context stays within the sizes. -/
lemma SizeInv.pc_step {cfg : Config} {s t : Core} {a : Ctx} {act : Act} (h : SizeInv cfg s)
    (hstep : Step s ⟨a, act⟩ t) : (t.pc a).SizeOk cfg := by
  have hpc := h.pc a
  cases hstep with
  | «local» _ hl =>
    rw [Core.setPc_pc_self]
    exact hl.sizeOk (fun ch => (h.chan ch).1) hpc
  | crit hcs _ _ =>
    rw [hcs] at hpc
    simp only [Core.setHeld_pc, Core.setWork_pc, Core.setPc_pc_self]
    exact Frame.sizeOk_next hpc.2 _
  | testWaiting hb _ _ | testDecided hb _ _ | suspend hb _ =>
    rw [hb] at hpc
    rw [Core.setPc_pc_self]
    exact hpc
  | decided hb _ _ _ =>
    rw [hb] at hpc
    rw [Core.setPc_pc_self]
    exact Frame.sizeOk_after hpc _
  | wake _ | unlock _ | fin _ | sleepFire _ _ _ _ => exact hpc
  | flip =>
    simp only [Core.setWork_pc, Core.setPc_pc_self]
    split <;> trivial
  | selTry hs _ _ _ =>
    rw [hs] at hpc
    simp only [Core.setWork_pc, Core.setPc_pc_self]
    split
    · trivial
    · exact hpc
  | selRetry hs _ _ _ =>
    rw [hs] at hpc
    simp only [Core.setWork_pc, Core.setPc_pc_self]
    split
    · trivial
    · exact hpc
  | selInit hs _ | selReady hs _ _ _ _ | selPark hs _ _ _ _ | selRegEnd hs _ | selWaiting hs _ _ _
  | selDecided hs _ _ | selSuspend hs _ | selUnreg hs _ _ _ _ | selAgain _ hs _ _ _
  | selRescanEnd hs _ =>
    rw [hs] at hpc
    rw [Core.setPc_pc_self]
    exact hpc
  | sleepPark | selLeave | selSync | selSync2 | selWon | selScanned | selFailed =>
    rw [Core.setPc_pc_self]
    trivial

/-- What is parked among the senders has the size of the channel. -/
lemma SizeInv.parked {cfg : Config} {s t : Core} {e : Event} (hinv : Inv s) (h : SizeInv cfg s)
    (hstep : Step s e t) {n : NodeRef} {ch : ℕ} {data : Bytes}
    (hparks : e.parks = some (n, .senders ch, data)) : data.length = (cfg ch).1 := by
  cases hstep with
  | @crit a op k hpc _ _ =>
    have hsize := h.pc a
    rw [hpc] at hsize
    have hres : ∃ writer, (exec s.heap a op).2.res = .park (.senders ch) data writer := by
      cases a with
      | co c =>
        simp only [Event.parks, critical] at hparks
        split at hparks
        · rename_i l d writer hres
          cases hparks
          exact ⟨writer, hres⟩
        · cases hparks
      | sched w => cases hparks
      | ext f => cases hparks
    obtain ⟨writer, hres⟩ := hres
    obtain ⟨ch', c', rfl, -, hl, -⟩ | ⟨ch', c', -, -, hl, -⟩ | ⟨-, -, hl, -⟩ :=
      exec_park_cases hinv.wf hres
    · cases hl
      exact hsize.1
    · cases hl
    · exact absurd trivial hl
  | @selPark c ops i k hpc _ hk _ _ =>
    have hsize := h.pc (.co c)
    rw [hpc] at hsize
    simp only [Event.parks, Option.some.injEq, Prod.mk.injEq] at hparks
    obtain ⟨-, hl, rfl⟩ := hparks
    unfold Case.list at hl
    split at hl
    · rename_i hsend
      cases hl
      exact hsize k (List.mem_of_getElem? hk) hsend
    · cases hl
  | «local» _ hl =>
    rw [hl.parks_none] at hparks
    cases hparks
  | @wake a | @unlock a | @fin a | @flip a | @selTry a => cases a <;> cases hparks
  | _ => cases hparks

/-- Every step respects the sizes. -/
lemma sizeInv_step {cfg : Config} {s t : Core} {e : Event} (hinv : Inv s) (h : SizeInv cfg s)
    (hstep : Step s e t) : SizeInv cfg t := by
  have hf := step_footprint hinv hstep
  have hq := step_queued hinv hstep
  refine ⟨fun ch => ?_, fun a => ?_, fun ch n hn => ?_⟩
  · rw [(hf.chan ch).1, (hf.chan ch).2.1]
    exact h.chan ch
  · by_cases ha : a = e.ctx
    · subst ha
      exact h.pc_step hstep
    · rw [hf.pc a ha]
      exact h.pc a
  · by_cases hold : n ∈ s.heap.waits.queue (.senders ch)
    · rw [hq.data _ n hold hn]
      exact h.node ch n hold
    · -- the node has just been parked
      cases hp : e.parks with
      | none => exact absurd ((hq.sublist _ (by simp [hp])).subset hn) hold
      | some p =>
        obtain ⟨n', l, data⟩ := p
        by_cases hl : l = .senders ch
        · subst hl
          obtain ⟨q, hsub, happ⟩ := hq.append _ _ _ hp
          rw [happ] at hn
          rcases List.mem_append.mp hn with hn | hn
          · exact absurd (hsub.subset hn) hold
          · rw [List.mem_singleton] at hn
            subst hn
            rw [(hq.parked _ _ _ hp).2]
            exact h.parked hinv hstep hp
        · have hsub := hq.sublist (.senders ch) (by simp [hp, hl])
          exact absurd (hsub.subset hn) hold

/-! ## One channel -/

/-- Channel `ch` as a queue: what was sent is what was received and what is in the ring, and both sides are
served in the order of entry. -/
structure ChanFifo (h : Heap) (tick : NodeRef → ℕ) (now : ℕ) (sent rcvd : List (ℕ × Bytes)) (ch : ℕ) :
    Prop where
  /-- No value is lost, duplicated or altered. -/
  values : sent.map Prod.snd = rcvd.map Prod.snd ++ (h.chan ch).contents
  /-- Senders are served in the order of entry. -/
  senders : Line h.waits.Usable tick now (h.waits.queue (.senders ch)) sent
  /-- So are receivers. -/
  receivers : Line h.waits.Usable tick now (h.waits.queue (.receivers ch)) rcvd

lemma Waits.Granted.usable {st : Code} {w w' : Waits} {G : List NodeRef} (h : w.Granted st w' G)
    {n : NodeRef} (hn : w'.Usable n) : w.Usable n := by
  cases n with
  | wq c => trivial
  | sel c i =>
    by_contra hs
    exact h.winner_ne_none hs hn

namespace ChanFifo

variable {h h' : Heap} {tick : NodeRef → ℕ} {now : ℕ} {sent rcvd : List (ℕ × Bytes)} {ch : ℕ}

/-- A granter that leaves the channel's ring alone and completes nothing on it. -/
lemma granted {st : Code} {G : List NodeRef} (hf : ChanFifo h tick now sent rcvd ch)
    (hg : h.waits.Granted st h'.waits G)
    (hchan : (h'.chan ch).contents = (h.chan ch).contents) {now' : ℕ} (hnow : now ≤ now') :
    ChanFifo h' tick now' sent rcvd ch where
  values := by rw [hchan]; exact hf.values
  senders := hf.senders.mono (hg.sublist _) hnow (fun _ _ => hg.usable) fun _ _ => rfl
  receivers := hf.receivers.mono (hg.sublist _) hnow (fun _ _ => hg.usable) fun _ _ => rfl

/-- While somebody waits to receive, and while the channel is a rendezvous, the ring is empty. -/
lemma contents_nil {x : Chan} (hcount : x.count = 0) : x.contents = [] :=
  List.length_eq_zero_iff.mp (by rw [Chan.length_contents, hcount])

/-- A send completes at once by handing its value to the first receiver. -/
lemma handed (hf : ChanFifo h tick now sent rcvd ch) (hi : ChanInv h.waits ch (h.chan ch))
    {rx : NodeRef} {w' : Waits} (htook : h.waits.Took .ok (.receivers ch) rx w') (val : Bytes) :
    ChanFifo { h with waits := w' } tick (now + 1) (sent ++ [(now, val)])
      (rcvd ++ [(tick rx, val)]) ch := by
  obtain ⟨losers, hq, -⟩ := htook.split
  have hsq : w'.queue (.senders ch) = h.waits.queue (.senders ch) := htook.queue _ (by simp)
  refine ⟨?_, ?_, ?_⟩
  · have hnil : (h.chan ch).contents = [] :=
      contents_nil (hi.receivers (List.ne_nil_of_mem htook.mem))
    have hvalues := hf.values
    rw [hnil, List.append_nil] at hvalues
    simp [hnil, hvalues]
  · -- a sender parked at the same time belongs to the select that is being decided
    have hline : Line w'.Usable tick now _ sent := hf.senders.mono (List.Sublist.refl _) le_rfl
      (fun n _ => htook.granted.usable) fun _ _ => rfl
    rw [← hsq] at hline
    refine hline.direct (fun n hn hu => ?_) val
    rw [hsq] at hn
    obtain ⟨c, i, j, rfl, rfl⟩ := hi.pair rx htook.mem n hn
    have hwin := (htook.granted.sel c i (List.mem_singleton_self _)).2
    simp only [Waits.Usable, hwin, reduceCtorEq] at hu
  · have hline := hf.receivers
    rw [hq] at hline
    exact (hline.serve htook.usable val).mono (List.Sublist.refl _) (Nat.le_succ now)
      (fun n _ => htook.granted.usable) fun _ _ => rfl

/-- A receive takes the value of the first sender. -/
lemma taken (hf : ChanFifo h tick now sent rcvd ch) (hi : ChanInv h.waits ch (h.chan ch))
    (hnone : (h.chan ch).count = 0) {tx : NodeRef} {w' : Waits}
    (htook : h.waits.Took .ok (.senders ch) tx w') (val : Bytes) :
    ChanFifo { h with waits := w' } tick (now + 1) (sent ++ [(tick tx, val)])
      (rcvd ++ [(now, val)]) ch := by
  obtain ⟨losers, hq, -⟩ := htook.split
  have hrq : w'.queue (.receivers ch) = h.waits.queue (.receivers ch) := htook.queue _ (by simp)
  refine ⟨?_, ?_, ?_⟩
  · have hnil : (h.chan ch).contents = [] := contents_nil hnone
    have hvalues := hf.values
    rw [hnil, List.append_nil] at hvalues
    simp [hnil, hvalues]
  · have hline := hf.senders
    rw [hq] at hline
    exact (hline.serve htook.usable val).mono (List.Sublist.refl _) (Nat.le_succ now)
      (fun n _ => htook.granted.usable) fun _ _ => rfl
  · have hline : Line w'.Usable tick now _ rcvd := hf.receivers.mono (List.Sublist.refl _) le_rfl
      (fun n _ => htook.granted.usable) fun _ _ => rfl
    rw [← hrq] at hline
    refine hline.direct (fun n hn hu => ?_) val
    rw [hrq] at hn
    obtain ⟨c, i, j, rfl, rfl⟩ := hi.pair n hn tx htook.mem
    have hwin := (htook.granted.sel c j (List.mem_singleton_self _)).2
    simp only [Waits.Usable, hwin, reduceCtorEq] at hu

/-- A send completes at once by putting its value into the ring. -/
lemma buffered (hf : ChanFifo h tick now sent rcvd ch) (hi : ChanInv h.waits ch (h.chan ch))
    (hroom : (h.chan ch).count < (h.chan ch).bufSz) {w' : Waits}
    (hempty : h.waits.Emptied (.receivers ch) w') {val : Bytes}
    (hval : val.length = (h.chan ch).elemSz) :
    ChanFifo { h with waits := w', chan := Function.update h.chan ch ((h.chan ch).bufPush val) } tick
      (now + 1) (sent ++ [(now, val)]) rcvd ch := by
  have hsq : w'.queue (.senders ch) = [] := by
    rw [hempty.queue _ (by simp)]
    exact hi.senders_nil hroom
  refine ⟨?_, ?_, ?_⟩
  · simp [Chan.contents_bufPush hroom hval, hf.values]
  · have hline := hf.senders
    rw [hi.senders_nil hroom] at hline
    have hdirect := hline.direct (by simp) val
    exact hdirect.mono (by simp [hsq]) le_rfl (by simp [hsq]) (by simp [hsq])
  · have hg := hempty.granted .ok
    exact hf.receivers.mono (hg.sublist _) (Nat.le_succ now) (fun _ _ => hg.usable) fun _ _ => rfl

/-- A receive takes the oldest value of the ring; nobody waits to send. -/
lemma popped (hf : ChanFifo h tick now sent rcvd ch) (hi : ChanInv h.waits ch (h.chan ch))
    (hbuf : (h.chan ch).bufSz ≠ 0) (hcount : 0 < (h.chan ch).count) {w' : Waits}
    (hempty : h.waits.Emptied (.senders ch) w') :
    ChanFifo { h with waits := w', chan := Function.update h.chan ch (h.chan ch).bufPop } tick
      (now + 1) sent (rcvd ++ [(now, (h.chan ch).bufFront)]) ch := by
  have hrq : w'.queue (.receivers ch) = [] := by
    rw [hempty.queue _ (by simp)]
    exact hi.receivers_nil hcount
  refine ⟨?_, ?_, ?_⟩
  · have hvalues := hf.values
    rw [Chan.contents_bufPop (hi.head_lt.resolve_left hbuf) hcount] at hvalues
    simp [hvalues]
  · have hg := hempty.granted .ok
    exact hf.senders.mono (hg.sublist _) (Nat.le_succ now) (fun _ _ => hg.usable) fun _ _ => rfl
  · have hline := hf.receivers
    rw [hi.receivers_nil hcount] at hline
    have hdirect := hline.direct (by simp) (h.chan ch).bufFront
    exact hdirect.mono (by simp [hrq]) le_rfl (by simp [hrq]) (by simp [hrq])

/-- A receive takes the oldest value of the ring, and the first sender's value moves into the freed
slot. -/
lemma refilled (hf : ChanFifo h tick now sent rcvd ch) (hi : ChanInv h.waits ch (h.chan ch))
    (hbuf : (h.chan ch).bufSz ≠ 0) (hcount : 0 < (h.chan ch).count) {tx : NodeRef} {w' : Waits}
    (htook : h.waits.Took .ok (.senders ch) tx w') {val : Bytes}
    (hval : val.length = (h.chan ch).elemSz) :
    ChanFifo { h with
        waits := w', chan := Function.update h.chan ch ((h.chan ch).bufPop.bufPush val) } tick
      (now + 1) (sent ++ [(tick tx, val)]) (rcvd ++ [(now, (h.chan ch).bufFront)]) ch := by
  obtain ⟨losers, hq, -⟩ := htook.split
  have hrq : w'.queue (.receivers ch) = [] := by
    rw [htook.queue _ (by simp)]
    exact hi.receivers_nil hcount
  have hle := hi.count_le
  refine ⟨?_, ?_, ?_⟩
  · have hvalues := hf.values
    rw [Chan.contents_bufPop (hi.head_lt.resolve_left hbuf) hcount] at hvalues
    have hpush : ((h.chan ch).bufPop.bufPush val).contents = (h.chan ch).bufPop.contents ++ [val] :=
      Chan.contents_bufPush (by simp only [Chan.bufPop]; omega) hval
    simp [hvalues, hpush]
  · have hline := hf.senders
    rw [hq] at hline
    exact (hline.serve htook.usable val).mono (List.Sublist.refl _) (Nat.le_succ now)
      (fun n _ => htook.granted.usable) fun _ _ => rfl
  · have hline := hf.receivers
    rw [hi.receivers_nil hcount] at hline
    have hdirect := hline.direct (by simp) (h.chan ch).bufFront
    exact hdirect.mono (by simp [hrq]) le_rfl (by simp [hrq]) (by simp [hrq])

end ChanFifo

/-! ## Steps -/

/-- An action without a critical section completes nothing. -/
lemma FifoHist.sends_of_none {m : FifoHist} {s : Core} {act : Act} (h : act.locked = none) (ch : ℕ) :
    m.sends s act ch = [] ∧ m.recvs act ch = [] := by
  simp [sends, recvs, h]

/-- A critical section on another structure completes nothing on channel `ch`. -/
lemma FifoHist.sends_of_ne {m : FifoHist} {s : Core} {act : Act} {op : Op} {out : Out} {ch : ℕ}
    (h : act.locked = some (op, out)) (hne : op.lockId ≠ .chan ch) :
    m.sends s act ch = [] ∧ m.recvs act ch = [] := by
  cases op with
  | send ch' val tryOnly =>
    have hch : ch' ≠ ch := fun heq => hne (by rw [heq]; rfl)
    simp [sends, recvs, h, hch]
  | recv ch' tryOnly =>
    have hch : ch' ≠ ch := fun heq => hne (by rw [heq]; rfl)
    simp [sends, recvs, h, hch]
  | _ => simp [sends, recvs, h]

/-- A critical section keeps every channel a queue. -/
lemma ChanFifo.exec {cfg : Config} {s : Core} {m : FifoHist} {ch : ℕ} (hinv : Inv s)
    (hsize : SizeInv cfg s)
    (hf : ChanFifo s.heap m.tick m.clock (m.sent ch) (m.rcvd ch) ch) (a : Ctx) {op : Op}
    (hop : op.SizeOk cfg) {act : Act} (hact : act.locked = some (op, (exec s.heap a op).2)) :
    ChanFifo (exec s.heap a op).1 m.tick (m.clock + 1) (m.sent ch ++ m.sends s act ch)
      (m.rcvd ch ++ m.recvs act ch) ch := by
  have hi := hinv.chan ch
  have heff := exec_effect hinv.wf a op
  have quiet : m.sends s act ch = [] → m.recvs act ch = [] →
      ((Wait.exec s.heap a op).1.chan ch).contents = (s.heap.chan ch).contents →
      ChanFifo (Wait.exec s.heap a op).1 m.tick (m.clock + 1) (m.sent ch ++ m.sends s act ch)
        (m.rcvd ch ++ m.recvs act ch) ch := by
    intro hs hr hchan
    rw [hs, hr, List.append_nil, List.append_nil]
    exact hf.granted heff.granted hchan (Nat.le_succ _)
  by_cases hlk : op.lockId = .chan ch
  · cases op with
    | send ch' val tryOnly =>
      obtain rfl : ch' = ch := by simpa [Op.lockId] using hlk
      obtain ⟨-, heq⟩ | ⟨-, rx, w', heq, htook, -⟩ | ⟨-, hroom, w', heq, hempty⟩ |
        ⟨-, -, w', heq, hempty⟩ := exec_send_cases hinv.wf a ch' val tryOnly
      · refine quiet ?_ ?_ (by rw [heq])
        · simp [FifoHist.sends, hact, heq, Out.ret]
        · simp [FifoHist.recvs, hact, heq, Out.ret]
      · have hs : m.sends s act ch' = [(m.clock, val)] := by
          simp [FifoHist.sends, hact, heq, Out.grantOne]
        have hr : m.recvs act ch' = [(m.tick rx, val)] := by
          simp [FifoHist.recvs, hact, heq, Out.grantOne]
        rw [hs, hr, heq]
        exact hf.handed hi htook val
      · have hs : m.sends s act ch' = [(m.clock, val)] := by
          simp [FifoHist.sends, hact, heq, Out.ret]
        have hr : m.recvs act ch' = [] := by simp [FifoHist.recvs, hact, heq, Out.ret]
        rw [hs, hr, heq, List.append_nil]
        exact hf.buffered hi hroom hempty (by rw [(hsize.chan ch').1]; exact hop)
      · have hout : (Wait.exec s.heap a (.send ch' val tryOnly)).2.res ≠ .ret .ok ∧
            (Wait.exec s.heap a (.send ch' val tryOnly)).2.granted = [] := by
          rw [heq]
          cases a <;> cases tryOnly <;> simp [Ctx.canBlock, Out.park, Out.ret]
        refine quiet ?_ ?_ (by rw [heq])
        · simp [FifoHist.sends, hact, hout.1]
        · simp [FifoHist.recvs, hact, hout.2]
    | recv ch' tryOnly =>
      obtain rfl : ch' = ch := by simpa [Op.lockId] using hlk
      have hle := hi.count_le
      obtain ⟨hbuf, hcount, tx, w', heq, htook⟩ | ⟨hbuf, hcount, w', heq, hempty⟩ |
        ⟨hnone, tx, w', heq, htook⟩ | ⟨-, -, w', heq, hempty⟩ | ⟨-, -, w', heq, hempty⟩ :=
        exec_recv_cases hinv.wf a ch' tryOnly
      · have hs : m.sends s act ch' = [(m.tick tx, (s.heap.waits.node tx).data)] := by
          simp [FifoHist.sends, hact, heq, Out.grantOne]
        have hr : m.recvs act ch' = [(m.clock, (s.heap.chan ch').bufFront)] := by
          simp [FifoHist.recvs, hact, heq]
        rw [hs, hr, heq]
        refine hf.refilled hi hbuf hcount htook ?_
        rw [(hsize.chan ch').1]
        exact hsize.node ch' tx htook.mem
      · have hs : m.sends s act ch' = [] := by simp [FifoHist.sends, hact, heq, Out.grantOne]
        have hr : m.recvs act ch' = [(m.clock, (s.heap.chan ch').bufFront)] := by
          simp [FifoHist.recvs, hact, heq]
        rw [hs, hr, heq, List.append_nil]
        exact hf.popped hi hbuf hcount hempty
      · have hs : m.sends s act ch' = [(m.tick tx, (s.heap.waits.node tx).data)] := by
          simp [FifoHist.sends, hact, heq, Out.grantOne]
        have hr : m.recvs act ch' = [(m.clock, (s.heap.waits.node tx).data)] := by
          simp [FifoHist.recvs, hact, heq]
        rw [hs, hr, heq]
        exact hf.taken hi (by omega) htook _
      · refine quiet ?_ ?_ (by rw [heq])
        · simp [FifoHist.sends, hact, heq, Out.ret]
        · simp [FifoHist.recvs, hact, heq, Out.ret]
      · have hout : (Wait.exec s.heap a (.recv ch' tryOnly)).2.value = none ∧
            (Wait.exec s.heap a (.recv ch' tryOnly)).2.granted = [] := by
          rw [heq]
          cases a <;> cases tryOnly <;> simp [Ctx.canBlock, Out.park, Out.ret]
        refine quiet ?_ ?_ (by rw [heq])
        · simp [FifoHist.sends, hact, hout.2]
        · simp [FifoHist.recvs, hact, hout.1]
    | close ch' =>
      obtain rfl : ch' = ch := by simpa [Op.lockId] using hlk
      refine quiet (by simp [FifoHist.sends, hact]) (by simp [FifoHist.recvs, hact]) ?_
      simp only [Wait.exec, chanCloseImpl]
      split
      · rfl
      · simp [chanClose, Chan.contents]
    | _ => simp [Op.lockId] at hlk
  · obtain ⟨hs, hr⟩ := FifoHist.sends_of_ne (m := m) (s := s) hact hlk
    exact quiet hs hr (by rw [heff.chan ch hlk])

/-- Entering and leaving a list keeps it in the order of the tickets. -/
lemma Queued.line {s t : Core} {e : Event} (hq : Queued s e t) (m : FifoHist) {l : ListId}
    {done : List (ℕ × Bytes)}
    (h : Line s.heap.waits.Usable m.tick m.clock (s.heap.waits.queue l) done) :
    Line t.heap.waits.Usable (m.ticks e) (m.clock + 1) (t.heap.waits.queue l) done := by
  -- only the parked node's ticket changes
  have htick : ∀ l n, n ∈ s.heap.waits.queue l → m.ticks e n = m.tick n := by
    intro l n hn
    cases hp : e.parks with
    | none => simp [FifoHist.ticks, hp]
    | some p =>
      have hne : n ≠ p.1 := by
        rintro rfl
        exact (hq.parked _ _ _ hp).1 l hn
      simp [FifoHist.ticks, hp, hne]
  by_cases hp : ∃ n data, e.parks = some (n, l, data)
  · obtain ⟨n, data, hp⟩ := hp
    obtain ⟨q, hsub, happ⟩ := hq.append _ _ _ hp
    rw [happ]
    have hline : Line t.heap.waits.Usable m.tick m.clock q done :=
      h.mono hsub le_rfl (fun n' hn' => hq.usable l n' (hsub.subset hn')) fun _ _ => rfl
    refine hline.push ?_ fun n' hn' => htick l n' (hsub.subset hn')
    simp [FifoHist.ticks, hp]
  · have hsub := hq.sublist l fun n data heq => hp ⟨n, data, heq⟩
    exact h.mono hsub (Nat.le_succ _) (fun n hn => hq.usable l n (hsub.subset hn))
      fun n hn => htick l n (hsub.subset hn)

/-- A step without a critical section leaves the channels alone. -/
lemma step_chan {s t : Core} {e : Event} (hstep : Step s e t) (h : e.act.locked = none) :
    t.heap.chan = s.heap.chan := by
  cases hstep with
  | crit | selTry | selRetry => cases h
  | _ => rfl

lemma LocalStep.locked_none {h : Heap} {a : Ctx} {pc pc' : Pc} {act : Act}
    (hl : LocalStep h a pc act pc') : act.locked = none := by
  cases hl <;> rfl

/-- A receive that parks has copied nothing out. -/
lemma exec_recv_park {h : Heap} (hw : h.waits.WF) {a : Ctx} {ch : ℕ} {l : ListId} {data : Bytes}
    {tryOnly writer : Bool} (hres : (exec h a (.recv ch tryOnly)).2.res = .park l data writer) :
    (exec h a (.recv ch tryOnly)).2.value = none := by
  obtain ⟨-, -, tx, w', heq, -⟩ | ⟨-, -, w', heq, -⟩ | ⟨-, tx, w', heq, -⟩ | ⟨-, -, w', heq, -⟩ |
    ⟨-, -, w', heq, -⟩ := exec_recv_cases hw a ch tryOnly
  · rw [heq] at hres
    cases hres
  · rw [heq] at hres
    cases hres
  · rw [heq] at hres
    cases hres
  · rw [heq] at hres
    cases hres
  · rw [heq]
    split <;> rfl

/-- Every step keeps every channel a queue. -/
lemma chanFifo_step {cfg : Config} {s t : Core} {e : Event} (hinv : Inv s) (hsize : SizeInv cfg s)
    (hstep : Step s e t) (m : FifoHist) {ch : ℕ}
    (hf : ChanFifo s.heap m.tick m.clock (m.sent ch) (m.rcvd ch) ch) :
    ChanFifo t.heap (m.record s e).tick (m.record s e).clock ((m.record s e).sent ch)
      ((m.record s e).rcvd ch) ch := by
  have hq := step_queued hinv hstep
  have quiet : m.sends s e.act ch = [] → m.recvs e.act ch = [] → t.heap.chan ch = s.heap.chan ch →
      ChanFifo t.heap (m.record s e).tick (m.record s e).clock ((m.record s e).sent ch)
        ((m.record s e).rcvd ch) ch := by
    intro hs hr hchan
    refine ⟨?_, ?_, ?_⟩
    · simpa [FifoHist.record, hs, hr, hchan] using hf.values
    · simpa [FifoHist.record, hs] using hq.line m hf.senders
    · simpa [FifoHist.record, hr] using hq.line m hf.receivers
  cases hl : e.act.locked with
  | none =>
    obtain ⟨hs, hr⟩ := FifoHist.sends_of_none (m := m) (s := s) hl ch
    exact quiet hs hr (by rw [step_chan hstep hl])
  | some p =>
    cases hstep with
    | @crit a op k hpc _ _ =>
      have hop := hsize.pc a
      rw [hpc] at hop
      cases hres : (exec s.heap a op).2.res with
      | ret code =>
        have hcrit : critical s.heap a op = exec s.heap a op := by
          simp [critical, hres, Heap.parkAs]
        have htick : m.ticks ⟨a, .crit op k (critical s.heap a op).2⟩ = m.tick := by
          cases a <;> simp [FifoHist.ticks, Event.parks, critical, hres]
        have hexec := hf.exec hinv hsize a hop.1
          (show (Act.crit op k (critical s.heap a op).2).locked = some _ by rw [hcrit]; rfl)
        rw [← hcrit] at hexec
        simpa [FifoHist.record, htick] using hexec
      | park l data writer =>
        obtain ⟨ch', c', rfl, -, -, -, -, hchan, -⟩ | ⟨ch', c', rfl, -, -, -, -, hchan, -⟩ |
          ⟨hco, hheap, -⟩ := exec_park_cases hinv.wf hres
        · refine quiet ?_ ?_ (by simp [hchan])
          · simp [FifoHist.sends, Act.locked, critical, hres]
          · have hnil := ((exec_effect hinv.wf a (.send ch' data false)).park _ _ _ hres).1
            simp [FifoHist.recvs, Act.locked, critical, hnil]
        · have hnil := ((exec_effect hinv.wf a (.recv ch' false)).park _ _ _ hres).1
          refine quiet ?_ ?_ (by simp [hchan])
          · simp [FifoHist.sends, Act.locked, critical, hnil]
          · simp [FifoHist.recvs, Act.locked, critical, exec_recv_park hinv.wf hres]
        · have hne : op.lockId ≠ .chan ch := by cases op <;> simp [Op.lockId] <;> exact absurd hco id
          obtain ⟨hs, hr⟩ := FifoHist.sends_of_ne (m := m) (s := s)
            (show (Act.crit op k (critical s.heap a op).2).locked = some _ from rfl) hne
          exact quiet hs hr (by simp [hheap])
    | @selTry a ops i rest k hpc _ hk _ =>
      have hop : k.op.SizeOk cfg := by
        have hsz := hsize.pc a
        rw [hpc] at hsz
        unfold Case.op
        split
        · exact hsz k (List.mem_of_getElem? hk) ‹_›
        · trivial
      have htick : m.ticks ⟨a, .selTry i k (exec s.heap a k.op).2⟩ = m.tick := by cases a <;> rfl
      have hexec := hf.exec hinv hsize a hop
        (show (Act.selTry i k (exec s.heap a k.op).2).locked = some _ from rfl)
      simpa [FifoHist.record, htick] using hexec
    | @selRetry c ops i rest k hpc _ hk _ =>
      have hop : k.op.SizeOk cfg := by
        have hsz := hsize.pc (.co c)
        rw [hpc] at hsz
        unfold Case.op
        split
        · exact hsz k (List.mem_of_getElem? hk) ‹_›
        · trivial
      have hexec := hf.exec hinv hsize (.co c) hop
        (show (Act.selTry i k (exec s.heap (.co c) k.op).2).locked = some _ from rfl)
      simpa [FifoHist.record, FifoHist.ticks, Event.parks] using hexec
    | «local» _ hloc =>
      rw [hloc.locked_none] at hl
      cases hl
    | _ => cases hl

/-! ## Calls and their outcome -/

/-- The list a call parks on. -/
def Call.list (r : Call) : ListId := if r.isSend then .senders r.ch else .receivers r.ch

/-- The operations completed on a call's side of its channel. -/
def FifoHist.done (m : FifoHist) (r : Call) : List (ℕ × Bytes) :=
  if r.isSend then m.sent r.ch else m.rcvd r.ch

/-- The call executes operation `o`. -/
def Call.Is (r : Call) : Op → Prop
  | .send ch val _ => r.isSend = true ∧ r.ch = ch ∧ r.val = val
  | .recv ch _ => r.isSend = false ∧ r.ch = ch
  | _ => False

/-- Every parked node has a ticket of its own. -/
structure TickInv (w : Waits) (m : FifoHist) : Prop where
  /-- It was drawn in the past. -/
  lt : ∀ l, ∀ n ∈ w.queue l, m.tick n < m.clock
  /-- No other parked node has it. -/
  inj : ∀ l l' n n', n ∈ w.queue l → n' ∈ w.queue l' → m.tick n = m.tick n' → n = n'

/-- Nobody who is parked holds ticket `t`. -/
def Retired (w : Waits) (m : FifoHist) (t : ℕ) : Prop :=
  t < m.clock ∧ ∀ l, ∀ n ∈ w.queue l, m.tick n ≠ t

/-- The operation that entered with ticket `t` is over with status `code`: it is among the completed ones
exactly if the status is `OK`, and then with value `v`. -/
structure Outcome (w : Waits) (m : FifoHist) (r : Call) (t : ℕ) (v : Bytes) (code : Code) : Prop where
  /-- Its ticket is not used any more. -/
  retired : Retired w m t
  /-- `OK`: it took effect. -/
  ok : code = .ok → (t, v) ∈ m.done r
  /-- Anything else: it did not. -/
  error : code ≠ .ok → ∀ v, (t, v) ∉ m.done r

/-- A call returns `code`. -/
def Finished (w : Waits) (m : FifoHist) (r : Call) (code : Code) : Prop :=
  match r.ticket with
  | none => code ≠ .ok
  | some t => Outcome w m r t r.val code

/-- Call `r` of coroutine `c` has parked. -/
structure CallParked (w : Waits) (m : FifoHist) (c : CrId) (r : Call) : Prop where
  /-- Its ticket is that of its node. -/
  ticket : r.ticket = some (m.tick (.wq c))
  /-- A parked sender's node carries the value. -/
  data : (w.node (.wq c)).status = .waiting → r.isSend = true → (w.node (.wq c)).data = r.val
  /-- Once it is decided its outcome is settled. -/
  outcome : ∀ code, (w.node (.wq c)).status = .decided code →
    Outcome w m r (m.tick (.wq c)) (if r.isSend then r.val else (w.node (.wq c)).data) code

/-- Call `r` of context `a` against the place of the context. -/
def Pc.CallOk (w : Waits) (m : FifoHist) (a : Ctx) (r : Call) : Pc → Prop
  | pre (.op o .ret) | cs o .ret => r.ticket = none ∧ r.Is o
  | blk .ret (some l) | susp .ret (some l) | sync .ret (some l) =>
    l = r.list ∧ ∃ c, a = .co c ∧ CallParked w m c r
  | ret code => Finished w m r code
  | _ => False

/-- The invariant of the recorded system. -/
structure FifoInv (cfg : Config) (p : Core × FifoHist) : Prop where
  /-- Sizes. -/
  size : SizeInv cfg p.1
  /-- The channels. -/
  chan : ∀ ch, ChanFifo p.1.heap p.2.tick p.2.clock (p.2.sent ch) (p.2.rcvd ch) ch
  /-- The tickets. -/
  tick : TickInv p.1.heap.waits p.2
  /-- The calls in progress. -/
  call : ∀ a r, p.2.call a = some r → (p.1.pc a).CallOk p.1.heap.waits p.2 a r
  /-- The calls that have returned. -/
  log : ∀ x ∈ p.2.log, Finished p.1.heap.waits p.2 x.call x.code

/-- The ticket of a parked node after a step. -/
lemma Queued.ticks_eq {s t : Core} {e : Event} (hq : Queued s e t) (m : FifoHist) {l : ListId}
    {n : NodeRef} (hn : n ∈ t.heap.waits.queue l) :
    (n ∈ s.heap.waits.queue l ∧ m.ticks e n = m.tick n) ∨
      ((∀ l', n ∉ s.heap.waits.queue l') ∧ m.ticks e n = m.clock) := by
  cases hp : e.parks with
  | none => exact Or.inl ⟨(hq.sublist l (by simp [hp])).subset hn, by simp [FifoHist.ticks, hp]⟩
  | some p =>
    obtain ⟨n', l', data⟩ := p
    have hnew := (hq.parked _ _ _ hp).1
    by_cases hnn : n = n'
    · subst hnn
      exact Or.inr ⟨hnew, by simp [FifoHist.ticks, hp]⟩
    · refine Or.inl ⟨?_, by simp [FifoHist.ticks, hp, hnn]⟩
      by_cases hl : l' = l
      · subst hl
        obtain ⟨q, hsub, happ⟩ := hq.append _ _ _ hp
        rw [happ] at hn
        exact hsub.subset (by simpa [hnn] using hn)
      · exact (hq.sublist l (by simp [hp, hl])).subset hn

lemma tickInv_step {s t : Core} {e : Event} (hq : Queued s e t) {m : FifoHist}
    (h : TickInv s.heap.waits m) : TickInv t.heap.waits (m.record s e) := by
  refine ⟨fun l n hn => ?_, fun l l' n n' hn hn' heq => ?_⟩
  · rcases hq.ticks_eq m hn with ⟨hold, htick⟩ | ⟨-, htick⟩
    · have := h.lt l n hold
      simp only [FifoHist.record, htick]
      omega
    · simp only [FifoHist.record, htick]
      omega
  · simp only [FifoHist.record] at heq
    rcases hq.ticks_eq m hn with ⟨hold, htick⟩ | ⟨hnew, htick⟩
    · rcases hq.ticks_eq m hn' with ⟨hold', htick'⟩ | ⟨-, htick'⟩
      · exact h.inj l l' n n' hold hold' (by rw [← htick, ← htick', heq])
      · have := h.lt l n hold
        omega
    · rcases hq.ticks_eq m hn' with ⟨hold', htick'⟩ | ⟨hnew', htick'⟩
      · have := h.lt l' n' hold'
        omega
      · -- only one node is parked by a step
        cases hp : e.parks with
        | none => exact absurd ((hq.sublist l (by simp [hp])).subset hn) (hnew l)
        | some p =>
          have hpark : ∀ x lx, x ∈ t.heap.waits.queue lx →
              (∀ l', x ∉ s.heap.waits.queue l') → x = p.1 := by
            intro x lx hx hxnew
            by_cases hl : p.2.1 = lx
            · obtain ⟨q, hsub, happ⟩ := hq.append p.1 lx p.2.2 (by rw [hp, ← hl])
              rw [happ] at hx
              rcases List.mem_append.mp hx with hx | hx
              · exact absurd (hsub.subset hx) (hxnew lx)
              · exact List.mem_singleton.mp hx
            · refine absurd ((hq.sublist lx fun n'' d heq' => hl ?_).subset hx) (hxnew lx)
              rw [hp] at heq'
              cases heq'
              rfl
          exact (hpark n l hn hnew).trans (hpark n' l' hn' hnew').symm

/-- A retired ticket stays retired. -/
lemma Retired.step {s t : Core} {e : Event} (hq : Queued s e t) {m : FifoHist} {k : ℕ}
    (h : Retired s.heap.waits m k) : Retired t.heap.waits (m.record s e) k := by
  refine ⟨Nat.lt_succ_of_lt h.1, fun l n hn => ?_⟩
  rcases hq.ticks_eq m hn with ⟨hold, htick⟩ | ⟨-, htick⟩
  · simp only [FifoHist.record, htick]
    exact h.2 l n hold
  · simp only [FifoHist.record, htick]
    exact Ne.symm (Nat.ne_of_lt h.1)

/-- What a step with a critical section decides. -/
lemma step_locked {s t : Core} {e : Event} (hinv : Inv s) (hstep : Step s e t) {op : Op} {out : Out}
    (hl : e.act.locked = some (op, out)) :
    out = (exec s.heap e.ctx op).2 ∧ e.act.decides = out.granted ∧ e.act.code = op.grantCode ∧
      ∀ n ∈ out.granted,
        t.heap.waits.node n = (exec s.heap e.ctx op).1.waits.node n := by
  cases hstep with
  | @crit a op' k hpc _ _ =>
    cases hl
    refine ⟨rfl, rfl, rfl, fun n hn => ?_⟩
    cases hres : (exec s.heap a op).2.res with
    | ret code => simp [critical, hres, Heap.parkAs]
    | park l data writer =>
      have hnil := ((exec_effect hinv.wf a op).park _ _ _ hres).1
      rw [show (critical s.heap a op).2.granted = [] from hnil] at hn
      cases hn
  | @selTry a ops i rest k hpc _ _ _ =>
    cases hl
    exact ⟨rfl, rfl, k.grantCode_op.symm, fun _ _ => rfl⟩
  | @selRetry c ops i rest k hpc _ _ _ =>
    cases hl
    exact ⟨rfl, rfl, k.grantCode_op.symm, fun _ _ => rfl⟩
  | «local» _ hloc =>
    rw [hloc.locked_none] at hl
    cases hl
  | _ => cases hl

/-- The operations a step completes are its own and those of nodes that are parked. -/
lemma new_ticket {s t : Core} {e : Event} (hinv : Inv s) (hstep : Step s e t) {m : FifoHist} {ch : ℕ}
    {x : ℕ × Bytes} (hx : x ∈ m.sends s e.act ch ∨ x ∈ m.recvs e.act ch) :
    x.1 = m.clock ∨ ∃ l n, n ∈ s.heap.waits.queue l ∧ n ∈ e.act.decides ∧ x.1 = m.tick n := by
  cases hl : e.act.locked with
  | none =>
    obtain ⟨hs, hr⟩ := FifoHist.sends_of_none (m := m) (s := s) hl ch
    simp [hs, hr] at hx
  | some p =>
    obtain ⟨op, out⟩ := p
    obtain ⟨rfl, hdec, -, -⟩ := step_locked hinv hstep hl
    have hlive : ∀ n ∈ (exec s.heap e.ctx op).2.granted, ∃ l, n ∈ s.heap.waits.queue l :=
      (exec_effect hinv.wf e.ctx op).granted.live
    -- an entry made from a granted node carries its ticket
    have node : ∀ (f : NodeRef → Bytes),
        x ∈ (exec s.heap e.ctx op).2.granted.map (fun n => (m.tick n, f n)) →
        ∃ l n, n ∈ s.heap.waits.queue l ∧ n ∈ e.act.decides ∧ x.1 = m.tick n := by
      intro f hmem
      obtain ⟨n, hn, rfl⟩ := List.mem_map.mp hmem
      obtain ⟨l, hl⟩ := hlive n hn
      exact ⟨l, n, hl, by rw [hdec]; exact hn, rfl⟩
    cases op with
    | send ch' val tryOnly =>
      rcases hx with hx | hx
      · simp only [FifoHist.sends, hl] at hx
        split at hx
        · rw [List.mem_singleton.mp hx]
          exact Or.inl rfl
        · cases hx
      · simp only [FifoHist.recvs, hl] at hx
        split at hx
        · exact Or.inr (node _ hx)
        · cases hx
    | recv ch' tryOnly =>
      rcases hx with hx | hx
      · simp only [FifoHist.sends, hl] at hx
        split at hx
        · exact Or.inr (node _ hx)
        · cases hx
      · simp only [FifoHist.recvs, hl] at hx
        split at hx
        · obtain ⟨v, -, rfl⟩ := List.mem_map.mp hx
          exact Or.inl rfl
        · cases hx
    | _ => simp [FifoHist.sends, FifoHist.recvs, hl] at hx

/-- What a step adds to the completed operations on a call's side. -/
lemma FifoHist.mem_done_record {m : FifoHist} {s : Core} {e : Event} {r : Call} {x : ℕ × Bytes} :
    x ∈ (m.record s e).done r ↔ x ∈ m.done r ∨
      x ∈ (if r.isSend then m.sends s e.act r.ch else m.recvs e.act r.ch) := by
  unfold done
  cases r.isSend <;> simp [record]

/-- The outcome of an operation is final. -/
lemma Outcome.step {s t : Core} {e : Event} (hinv : Inv s) (hstep : Step s e t) {m : FifoHist}
    {r : Call} {k : ℕ} {v : Bytes} {code : Code} (h : Outcome s.heap.waits m r k v code) :
    Outcome t.heap.waits (m.record s e) r k v code := by
  refine ⟨h.retired.step (step_queued hinv hstep), fun hok => ?_, fun herr v' hmem => ?_⟩
  · exact FifoHist.mem_done_record.mpr (Or.inl (h.ok hok))
  · rcases FifoHist.mem_done_record.mp hmem with hold | hnew
    · exact h.error herr v' hold
    · have hnew' : (k, v') ∈ m.sends s e.act r.ch ∨ (k, v') ∈ m.recvs e.act r.ch := by
        split at hnew
        · exact Or.inl hnew
        · exact Or.inr hnew
      rcases new_ticket hinv hstep hnew' with hclock | ⟨l, n, hn, -, htick⟩
      · exact absurd hclock (Nat.ne_of_lt h.retired.1)
      · exact h.retired.2 l n hn htick.symm

lemma Finished.step {s t : Core} {e : Event} (hinv : Inv s) (hstep : Step s e t) {m : FifoHist}
    {r : Call} {code : Code} (h : Finished s.heap.waits m r code) :
    Finished t.heap.waits (m.record s e) r code := by
  unfold Finished at h ⊢
  split at h
  · exact h
  · exact h.step hinv hstep

/-- A wait that is decided without a critical section is not decided `OK`, unless it is a sleep. -/
lemma code_ne_ok {s t : Core} {e : Event} (hinv : Inv s) (hstep : Step s e t)
    (hl : e.act.locked = none) {c : CrId} (hn : .wq c ∈ e.act.decides) {l : ListId}
    (hlink : .wq c ∈ s.heap.waits.queue l) : e.act.code ≠ .ok := by
  cases hstep with
  | crit | selTry | selRetry => cases hl
  | @sleepFire w t' hpcw _ hpc hst =>
    obtain rfl : c = t' := by simpa [Act.decides] using hn
    have hwait : (s.pc (.co c)).waitOn = some none := by
      rcases hpc with hpc | hpc <;> rw [hpc] <;> rfl
    rw [hinv.wf.mem_iff] at hlink
    rcases (hinv.node c).wait none hwait with hw | hw
    · rw [hw.2] at hlink; cases hlink
    · rw [hw.2] at hlink; cases hlink
  | @flip a f t' lk w hpc _ _ hd => cases f <;> simp [Act.code, WakeFor.code]
  | «local» _ hloc =>
    rw [hloc.decides_nil] at hn
    cases hn
  | _ => cases hn

/-- A parked call that is granted `OK` is recorded, with the value that its buffer holds. -/
lemma granted_recorded {s t : Core} {e : Event} (hinv : Inv s) (hstep : Step s e t) (m : FifoHist)
    {c : CrId} {r : Call} (hlink : .wq c ∈ s.heap.waits.queue r.list)
    (hn : .wq c ∈ e.act.decides) (hcode : e.act.code = .ok) :
    (m.tick (.wq c), if r.isSend then (s.heap.waits.node (.wq c)).data
        else (t.heap.waits.node (.wq c)).data) ∈
      if r.isSend then m.sends s e.act r.ch else m.recvs e.act r.ch := by
  cases hl : e.act.locked with
  | none => exact absurd hcode (code_ne_ok hinv hstep hl hn hlink)
  | some p =>
    obtain ⟨op, out⟩ := p
    obtain ⟨rfl, hdec, hcode', hnode⟩ := step_locked hinv hstep hl
    rw [hdec] at hn
    have heff := exec_effect hinv.wf e.ctx op
    have hlock : r.list.lock = op.lockId := by
      obtain ⟨l, hl', hlk⟩ := heff.own _ hn
      rw [hinv.wf.unique hlink hl', hlk]
    cases op with
    | send ch val tryOnly =>
      obtain ⟨-, heq⟩ | ⟨-, rx, w', heq, htook, hdata⟩ | ⟨-, -, w', heq, -⟩ | ⟨-, -, w', heq, -⟩ :=
        exec_send_cases hinv.wf e.ctx ch val tryOnly
      · rw [heq] at hn
        cases hn
      · obtain rfl : .wq c = rx := by simpa [heq, Out.grantOne] using hn
        have hlist := hinv.wf.unique hlink htook.mem
        have hsend : r.isSend = false ∧ r.ch = ch := by
          unfold Call.list at hlist
          split at hlist
          · cases hlist
          · simp_all
        rw [hnode _ hn, heq]
        simp [hsend.1, hsend.2, FifoHist.recvs, hl, heq, Out.grantOne, hdata]
      · rw [heq] at hn
        cases hn
      · rw [heq] at hn
        split at hn <;> cases hn
    | recv ch tryOnly =>
      have hmem : .wq c ∈ s.heap.waits.queue (.senders ch) := by
        obtain ⟨-, -, tx, w', heq, htook⟩ | ⟨-, -, w', heq, -⟩ | ⟨-, tx, w', heq, htook⟩ |
          ⟨-, -, w', heq, -⟩ | ⟨-, -, w', heq, -⟩ := exec_recv_cases hinv.wf e.ctx ch tryOnly
        · obtain rfl : .wq c = tx := by simpa [heq, Out.grantOne] using hn
          exact htook.mem
        · rw [heq] at hn
          cases hn
        · obtain rfl : .wq c = tx := by simpa [heq, Out.grantOne] using hn
          exact htook.mem
        · rw [heq] at hn
          cases hn
        · rw [heq] at hn
          split at hn <;> cases hn
      have hlist := hinv.wf.unique hlink hmem
      have hsend : r.isSend = true ∧ r.ch = ch := by
        unfold Call.list at hlist
        split at hlist
        · simp_all
        · cases hlist
      simp only [hsend.1, hsend.2, FifoHist.sends, hl, if_true]
      exact List.mem_map_of_mem hn
    | close ch => cases hcode'.symm.trans hcode
    | _ =>
      simp only [Op.lockId, Call.list] at hlock
      split at hlock <;> cases hlock

/-- Deciding a parked call settles its outcome. -/
lemma decided_outcome {s t : Core} {e : Event} (hinv : Inv s) (hstep : Step s e t) {m : FifoHist}
    (htick : TickInv s.heap.waits m)
    (hchan : ∀ ch, ChanFifo s.heap m.tick m.clock (m.sent ch) (m.rcvd ch) ch) {c : CrId} {r : Call}
    (hlink : .wq c ∈ s.heap.waits.queue r.list) (hn : .wq c ∈ e.act.decides)
    (hval : r.isSend = true → (s.heap.waits.node (.wq c)).data = r.val) :
    Outcome t.heap.waits (m.record s e) r (m.tick (.wq c))
      (if r.isSend then r.val else (t.heap.waits.node (.wq c)).data) e.act.code := by
  have hf := step_footprint hinv hstep
  have hlt := htick.lt _ _ hlink
  refine ⟨⟨Nat.lt_succ_of_lt hlt, fun l n hmem heq => ?_⟩, fun hok => ?_, fun herr v hmem => ?_⟩
  · rcases (step_queued hinv hstep).ticks_eq m hmem with ⟨hold, hn'⟩ | ⟨-, hn'⟩
    · simp only [FifoHist.record, hn'] at heq
      obtain rfl := htick.inj _ _ _ _ hold hlink heq
      rw [(inv_step s e t hinv hstep).wf.mem_iff, (hf.waits.decided _ hn).2.2] at hmem
      cases hmem
    · simp only [FifoHist.record, hn'] at heq
      omega
  · refine FifoHist.mem_done_record.mpr (Or.inr ?_)
    have hrec := granted_recorded hinv hstep m hlink hn hok
    cases hs : r.isSend with
    | true => simpa [hs, hval hs] using hrec
    | false => simpa [hs] using hrec
  · -- the operations completed so far entered earlier, and this step completes none
    rcases FifoHist.mem_done_record.mp hmem with hold | hnew
    · have hahead : ∀ x ∈ m.done r, x.1 < m.tick (.wq c) := by
        unfold FifoHist.done
        unfold Call.list at hlink
        cases hs : r.isSend with
        | true =>
          simp only [hs, if_true] at hlink ⊢
          exact (hchan r.ch).senders.ahead _ hlink trivial
        | false =>
          simp only [hs, Bool.false_eq_true, if_false] at hlink ⊢
          exact (hchan r.ch).receivers.ahead _ hlink trivial
      exact absurd (hahead _ hold) (lt_irrefl _)
    · have hnil : m.sends s e.act r.ch = [] ∧ m.recvs e.act r.ch = [] := by
        cases hl : e.act.locked with
        | none => exact FifoHist.sends_of_none hl r.ch
        | some p =>
          obtain ⟨op, out⟩ := p
          obtain ⟨-, -, hcode, -⟩ := step_locked hinv hstep hl
          cases op with
          | close ch => simp [FifoHist.sends, FifoHist.recvs, hl]
          | _ => exact absurd hcode herr
      simp [hnil.1, hnil.2] at hnew

/-- A parked call whose coroutine does not act. -/
lemma CallParked.keep {s t : Core} {e : Event} (hinv : Inv s) (hstep : Step s e t) {m : FifoHist}
    (htick : TickInv s.heap.waits m)
    (hchan : ∀ ch, ChanFifo s.heap m.tick m.clock (m.sent ch) (m.rcvd ch) ch) {c : CrId} {r : Call}
    (hon : (s.pc (.co c)).waitOn = some (some r.list))
    (hnode : .wq c ∉ e.act.decides →
      (t.heap.waits.node (.wq c)).status = (s.heap.waits.node (.wq c)).status ∧
        (t.heap.waits.node (.wq c)).data = (s.heap.waits.node (.wq c)).data)
    (htk : m.ticks e (.wq c) = m.tick (.wq c)) (h : CallParked s.heap.waits m c r) :
    CallParked t.heap.waits (m.record s e) c r := by
  have hf := step_footprint hinv hstep
  have htk' : (m.record s e).tick (.wq c) = m.tick (.wq c) := htk
  refine ⟨by rw [htk']; exact h.ticket, fun hst hs => ?_, fun code hst => ?_⟩
  · have hn : .wq c ∉ e.act.decides := by
      intro hn
      rw [(hf.waits.decided _ hn).2.1] at hst
      cases hst
    obtain ⟨hst', hdata⟩ := hnode hn
    rw [hdata]
    exact h.data (hst' ▸ hst) hs
  · rw [htk']
    by_cases hn : .wq c ∈ e.act.decides
    · have hwait := (hf.waits.decided _ hn).1
      have hlink : .wq c ∈ s.heap.waits.queue r.list := by
        rw [hinv.wf.mem_iff]
        rcases (hinv.node c).wait _ hon with hw | hw
        · exact hw.2
        · exact absurd hwait hw.1
      have hcode : e.act.code = code := by
        rw [(hf.waits.decided _ hn).2.1] at hst
        exact Status.decided.inj hst
      rw [← hcode]
      exact decided_outcome hinv hstep htick hchan hlink hn (h.data hwait)
    · obtain ⟨hst', hdata⟩ := hnode hn
      rw [hdata]
      exact (h.outcome code (hst' ▸ hst)).step hinv hstep

/-- A call whose context does not move keeps its invariant. -/
lemma Pc.CallOk.keep {s t : Core} {e : Event} (hinv : Inv s) (hstep : Step s e t) {m : FifoHist}
    (htick : TickInv s.heap.waits m)
    (hchan : ∀ ch, ChanFifo s.heap m.tick m.clock (m.sent ch) (m.rcvd ch) ch) {a : Ctx} {r : Call}
    (hnode : ∀ c, a = .co c → .wq c ∉ e.act.decides →
      (t.heap.waits.node (.wq c)).status = (s.heap.waits.node (.wq c)).status ∧
        (t.heap.waits.node (.wq c)).data = (s.heap.waits.node (.wq c)).data)
    (htk : ∀ c, a = .co c → m.ticks e (.wq c) = m.tick (.wq c))
    (h : (s.pc a).CallOk s.heap.waits m a r) :
    (s.pc a).CallOk t.heap.waits (m.record s e) a r := by
  have parked : ∀ {l : ListId}, (s.pc a).waitOn = some (some l) →
      (l = r.list ∧ ∃ c, a = .co c ∧ CallParked s.heap.waits m c r) →
      (l = r.list ∧ ∃ c, a = .co c ∧ CallParked t.heap.waits (m.record s e) c r) := by
    rintro l hon ⟨rfl, c, rfl, hp⟩
    exact ⟨rfl, c, rfl, hp.keep hinv hstep htick hchan hon (hnode c rfl) (htk c rfl)⟩
  cases hpc : s.pc a with
  | pre en =>
    rw [hpc] at h
    cases en with
    | op o k => cases k <;> exact h
    | _ => exact h
  | cs o k =>
    rw [hpc] at h
    cases k <;> exact h
  | ret code =>
    rw [hpc] at h
    exact Finished.step hinv hstep h
  | blk k l | susp k l | sync k l =>
    rw [hpc] at h
    cases k with
    | ret =>
      cases l with
      | some l => exact parked (by rw [hpc]; rfl) h
      | none => exact h
    | _ => exact h
  | _ =>
    rw [hpc] at h
    exact h

/-- The outcome of a critical section that does not park is settled at once. -/
lemma direct_outcome {s t : Core} {a : Ctx} {op : Op} {k : Frame} {m : FifoHist} (hinv : Inv s)
    (hstep : Step s ⟨a, .crit op k (critical s.heap a op).2⟩ t) (htick : TickInv s.heap.waits m)
    (hchan : ∀ ch, ChanFifo s.heap m.tick m.clock (m.sent ch) (m.rcvd ch) ch) {r : Call}
    (hr : r.Is op) {code : Code} (hres : (exec s.heap a op).2.res = .ret code) :
    Outcome t.heap.waits (m.record s ⟨a, .crit op k (critical s.heap a op).2⟩) r m.clock
      (if r.isSend then r.val else ((exec s.heap a op).2.value).getD []) code := by
  have hparks : Event.parks ⟨a, .crit op k (critical s.heap a op).2⟩ = none := by
    cases a <;> simp [Event.parks, critical, hres]
  have hq := step_queued hinv hstep
  -- nothing completed so far has the ticket drawn now
  have hnew : ∀ v, (m.clock, v) ∉ m.done r := by
    intro v hmem
    have hlt : ∀ x ∈ m.done r, x.1 < m.clock := by
      unfold FifoHist.done
      split
      · exact (hchan r.ch).senders.done_lt
      · exact (hchan r.ch).receivers.done_lt
    exact absurd (hlt _ hmem) (lt_irrefl _)
  refine ⟨⟨Nat.lt_succ_self _, fun l n hn heq => ?_⟩, fun hok => ?_, fun herr v hmem => ?_⟩
  · have hold := (hq.sublist l (by simp [hparks])).subset hn
    have hlt := htick.lt l n hold
    simp only [FifoHist.record, FifoHist.ticks, hparks] at heq
    omega
  · subst hok
    refine FifoHist.mem_done_record.mpr (Or.inr ?_)
    cases op with
    | send ch val tryOnly =>
      obtain ⟨hs, rfl, rfl⟩ := hr
      simp [hs, FifoHist.sends, Act.locked, critical, hres]
    | recv ch tryOnly =>
      obtain ⟨hs, rfl⟩ := hr
      obtain ⟨-, -, tx, w', heq, -⟩ | ⟨-, -, w', heq, -⟩ | ⟨-, tx, w', heq, -⟩ |
        ⟨-, -, w', heq, -⟩ | ⟨-, -, w', heq, -⟩ := exec_recv_cases hinv.wf a r.ch tryOnly
      · simp [hs, FifoHist.recvs, Act.locked, critical, heq]
      · simp [hs, FifoHist.recvs, Act.locked, critical, heq]
      · simp [hs, FifoHist.recvs, Act.locked, critical, heq]
      · rw [heq] at hres
        cases hres
      · rw [heq] at hres
        cases a <;> cases tryOnly <;> cases hres
    | _ => exact absurd hr id
  · rcases FifoHist.mem_done_record.mp hmem with hold | hadd
    · exact hnew v hold
    · cases op with
      | send ch val tryOnly =>
        obtain ⟨hs, rfl, rfl⟩ := hr
        simp [hs, FifoHist.sends, Act.locked, critical, hres, herr] at hadd
      | recv ch tryOnly =>
        obtain ⟨hs, rfl⟩ := hr
        obtain ⟨-, -, tx, w', heq, -⟩ | ⟨-, -, w', heq, -⟩ | ⟨-, tx, w', heq, -⟩ |
          ⟨-, -, w', heq, -⟩ | ⟨-, -, w', heq, -⟩ := exec_recv_cases hinv.wf a r.ch tryOnly
        · rw [heq] at hres
          cases hres
          exact herr rfl
        · rw [heq] at hres
          cases hres
          exact herr rfl
        · rw [heq] at hres
          cases hres
          exact herr rfl
        · simp [hs, FifoHist.recvs, Act.locked, critical, heq, Out.ret] at hadd
        · simp only [hs, FifoHist.recvs, Act.locked, critical, heq] at hadd
          cases a <;> cases tryOnly <;> simp [Ctx.canBlock, Out.ret, Out.park] at hadd
      | _ => exact absurd hr id

/-- The local steps of a call. -/
lemma Pc.CallOk.local {s : Core} {a : Ctx} {act : Act} {pc : Pc} {m : FifoHist} (m' : FifoHist)
    (hl : LocalStep s.heap a (s.pc a) act pc)
    (h : ∀ r, m.call a = some r → (s.pc a).CallOk s.heap.waits m a r) (r : Call)
    (hr : m.callOf s ⟨a, act⟩ = some r) : pc.CallOk s.heap.waits m' a r := by
  -- a step from a place no channel call can be at
  have outside : m.callOf s ⟨a, act⟩ = m.call a → (∀ r, ¬ (s.pc a).CallOk s.heap.waits m a r) →
      pc.CallOk s.heap.waits m' a r := by
    intro heq hout
    rw [heq] at hr
    exact absurd (h r hr) (hout r)
  generalize hpc : s.pc a = pc₀ at hl h outside
  cases hl with
  | call api rand hv =>
    cases api with
    | op o =>
      cases o with
      | send ch val tryOnly =>
        obtain rfl : (⟨true, ch, val, none⟩ : Call) = r := Option.some.inj hr
        cases a <;> cases tryOnly <;> exact ⟨rfl, rfl, rfl, rfl⟩
      | recv ch tryOnly =>
        obtain rfl : (⟨false, ch, [], none⟩ : Call) = r := Option.some.inj hr
        cases a <;> cases tryOnly <;> exact ⟨rfl, rfl, rfl⟩
      | _ => cases hr
    | _ => cases hr
  | @preCanceled c en =>
    cases en with
    | op o k =>
      cases k with
      | ret =>
        have hticket := (h r hr).1
        simp [Entry.fail, Frame.after, Pc.CallOk, Finished, hticket]
      | _ => exact outside rfl fun _ => id
    | _ => exact outside rfl fun _ => id
  | @preExpired c en =>
    cases en with
    | op o k =>
      cases k with
      | ret =>
        have hticket := (h r hr).1
        simp [Entry.fail, Frame.after, Pc.CallOk, Finished, hticket]
      | _ => exact outside rfl fun _ => id
    | _ => exact outside rfl fun _ => id
  | @preGo c en rand =>
    cases en with
    | op o k =>
      cases k with
      | ret =>
        have hr' := h r hr
        cases o <;> exact hr'
      | _ => exact outside rfl fun _ => id
    | _ => exact outside rfl fun _ => id
  | ret => cases hr
  | _ => exact outside rfl fun _ => id

/-- What a critical section records in the call that executes it. -/
lemma FifoHist.callOf_crit {s : Core} {a : Ctx} {op : Op} {k : Frame} {m : FifoHist}
    (hpc : s.pc a = .cs op k)
    (h : ∀ r, m.call a = some r → (s.pc a).CallOk s.heap.waits m a r) {r : Call}
    (hr : m.callOf s ⟨a, .crit op k (critical s.heap a op).2⟩ = some r) :
    k = .ret ∧ r.Is op ∧ r.ticket = some m.clock ∧
      (r.isSend = false → r.val = ((exec s.heap a op).2.value).getD []) := by
  obtain ⟨r₀, hr₀⟩ : ∃ r₀, m.call a = some r₀ := by
    cases hc : m.call a with
    | some r₀ => exact ⟨r₀, rfl⟩
    | none => cases op <;> simp [callOf, hc] at hr
  have hold := h r₀ hr₀
  rw [hpc] at hold
  obtain rfl : k = .ret := by cases k <;> first | rfl | exact absurd hold id
  refine ⟨rfl, ?_⟩
  cases op with
  | send ch val tryOnly =>
    obtain rfl : { r₀ with ticket := some m.clock } = r := by
      simpa [callOf, hr₀] using hr
    exact ⟨hold.2, rfl, fun hs => by rw [hold.2.1] at hs; cases hs⟩
  | recv ch tryOnly =>
    obtain rfl : (⟨r₀.isSend, r₀.ch, ((exec s.heap a (.recv ch tryOnly)).2.value).getD [],
        some m.clock⟩ : Call) = r := by
      simpa [callOf, hr₀, critical] using hr
    exact ⟨hold.2, rfl, fun _ => rfl⟩
  | _ => exact absurd hold.2 id

/-- The critical section of a call. -/
lemma Pc.CallOk.crit {s t : Core} {a : Ctx} {op : Op} {k : Frame} {m : FifoHist} (hinv : Inv s)
    (hpc : s.pc a = .cs op k) (hstep : Step s ⟨a, .crit op k (critical s.heap a op).2⟩ t)
    (ht : t.pc a = k.next (critical s.heap a op).2.res)
    (htick : TickInv s.heap.waits m)
    (hchan : ∀ ch, ChanFifo s.heap m.tick m.clock (m.sent ch) (m.rcvd ch) ch)
    (h : ∀ r, m.call a = some r → (s.pc a).CallOk s.heap.waits m a r) (r : Call)
    (hr : m.callOf s ⟨a, .crit op k (critical s.heap a op).2⟩ = some r) :
    (t.pc a).CallOk t.heap.waits (m.record s ⟨a, .crit op k (critical s.heap a op).2⟩) a r := by
  obtain ⟨rfl, his, hticket, hval⟩ := FifoHist.callOf_crit hpc h hr
  rw [ht]
  cases hres : (exec s.heap a op).2.res with
  | ret code =>
    have hout := direct_outcome hinv hstep htick hchan his hres
    have hv : (if r.isSend then r.val else ((exec s.heap a op).2.value).getD []) = r.val := by
      cases hs : r.isSend with
      | true => rfl
      | false => simp [hval hs]
    rw [hv] at hout
    simpa [critical, hres, Frame.next, Frame.after, Pc.CallOk, Finished, hticket] using hout
  | park l data writer =>
    obtain ⟨c, rfl, -⟩ := (hinv.parkOk hpc).park hinv.wf hres
    have hparks : Event.parks ⟨.co c, .crit op .ret (critical s.heap (.co c) op).2⟩ =
        some (.wq c, l, data) := by
      simp [Event.parks, critical, hres]
    have htk : (m.record s ⟨.co c, .crit op .ret (critical s.heap (.co c) op).2⟩).tick (.wq c) =
        m.clock := by
      simp [FifoHist.record, FifoHist.ticks, hparks]
    have hq := step_queued hinv hstep
    have hst : (t.heap.waits.node (.wq c)).status = .waiting := by
      obtain ⟨q, -, happ⟩ := hq.append _ _ _ hparks
      have hwf := (inv_step _ _ _ hinv hstep).wf
      exact hwf.waiting _ l ((hwf.mem_iff _ _).mp (by rw [happ]; simp))
    have hlist : l = r.list ∧ (r.isSend = true → data = r.val) := by
      obtain ⟨ch, c', rfl, -, rfl, -⟩ | ⟨ch, c', rfl, -, rfl, -⟩ | ⟨hco, -⟩ :=
        exec_park_cases hinv.wf hres
      · obtain ⟨hs, rfl, rfl⟩ := his
        exact ⟨by simp [Call.list, hs], fun _ => rfl⟩
      · obtain ⟨hs, rfl⟩ := his
        exact ⟨by simp [Call.list, hs], fun hs' => by rw [hs] at hs'; cases hs'⟩
      · cases op <;> first | exact absurd his id | exact absurd hco id
    have hnext : Frame.next .ret (critical s.heap (.co c) op).2.res = .blk .ret (some l) := by
      simp [critical, hres, Frame.next, Frame.parked]
    rw [hnext]
    refine ⟨hlist.1, c, rfl, by rw [htk]; exact hticket, fun _ hs => ?_, fun code hcode => ?_⟩
    · rw [(hq.parked _ _ _ hparks).2]
      exact hlist.2 hs
    · rw [hst] at hcode
      cases hcode

/-- The own steps of a call keep its invariant. -/
lemma Pc.CallOk.active {s t : Core} {a : Ctx} {act : Act} {m : FifoHist} (hinv : Inv s)
    (hstep : Step s ⟨a, act⟩ t) (htick : TickInv s.heap.waits m)
    (hchan : ∀ ch, ChanFifo s.heap m.tick m.clock (m.sent ch) (m.rcvd ch) ch)
    (h : ∀ r, m.call a = some r → (s.pc a).CallOk s.heap.waits m a r) (r : Call)
    (hr : m.callOf s ⟨a, act⟩ = some r) :
    (t.pc a).CallOk t.heap.waits (m.record s ⟨a, act⟩) a r := by
  -- a step that leaves the call, the status and the data of the own node as they are
  have stay : m.callOf s ⟨a, act⟩ = m.call a → Event.parks ⟨a, act⟩ = none →
      (∀ n, (t.heap.waits.node n).status = (s.heap.waits.node n).status ∧
        (t.heap.waits.node n).data = (s.heap.waits.node n).data) →
      (s.pc a).CallOk t.heap.waits (m.record s ⟨a, act⟩) a r := by
    intro heq hparks hnode
    rw [heq] at hr
    refine (h r hr).keep hinv hstep htick hchan (fun c _ _ => hnode (.wq c)) fun c _ => ?_
    simp [FifoHist.ticks, hparks]
  have outside : m.callOf s ⟨a, act⟩ = m.call a → (∀ r, ¬ (s.pc a).CallOk s.heap.waits m a r) →
      (t.pc a).CallOk t.heap.waits (m.record s ⟨a, act⟩) a r := by
    intro heq hout
    rw [heq] at hr
    exact absurd (h r hr) (hout r)
  have hstep' := hstep
  cases hstep with
  | «local» _ hl =>
    have hlocal := Pc.CallOk.local (m.record s ⟨a, act⟩) hl h r hr
    rw [Core.setPc_pc_self]
    exact hlocal
  | crit hpc _ _ => exact Pc.CallOk.crit hinv hpc hstep' (by simp) htick hchan h r hr
  | @testWaiting c k l hpc _ _ =>
    have hstay := stay rfl rfl fun _ => ⟨rfl, rfl⟩
    rw [hpc] at hstay
    rw [Core.setPc_pc_self]
    cases k <;> cases l <;> exact hstay
  | @testDecided c k l hpc _ _ =>
    have hstay := stay rfl rfl fun _ => ⟨rfl, rfl⟩
    rw [hpc] at hstay
    rw [Core.setPc_pc_self]
    cases k <;> cases l <;> exact hstay
  | @suspend c k l hpc _ =>
    have hstay := stay rfl rfl fun _ => ⟨rfl, rfl⟩
    rw [hpc] at hstay
    rw [Core.setPc_pc_self]
    cases k <;> cases l <;> exact hstay
  | @decided c k l st hpc _ _ hst =>
    obtain ⟨r₀, hr₀⟩ : ∃ r₀, m.call (.co c) = some r₀ := by
      cases hc : m.call (.co c) with
      | some r₀ => exact ⟨r₀, rfl⟩
      | none => simp [FifoHist.callOf, hc] at hr
    have hold := h r₀ hr₀
    rw [hpc] at hold
    obtain ⟨rfl, l, rfl⟩ : k = .ret ∧ ∃ l', l = some l' := by
      cases k <;> cases l <;> first | exact ⟨rfl, _, rfl⟩ | exact absurd hold id
    obtain ⟨-, c', hc', hp⟩ := hold
    cases hc'
    have hout := (hp.outcome st hst).step hinv hstep'
    have hrr : r = (if r₀.isSend then r₀ else
        { r₀ with val := (s.heap.waits.node (.wq c)).data }) := by
      cases hs : r₀.isSend <;> simp [FifoHist.callOf, hr₀, hs] at hr ⊢ <;> exact hr.symm
    rw [Core.setPc_pc_self]
    cases hs : r₀.isSend with
    | true =>
      obtain rfl : r = r₀ := by simpa [hs] using hrr
      simp only [hs, if_true] at hout
      simpa [Frame.after, Pc.CallOk, Finished, hp.ticket] using hout
    | false =>
      obtain rfl : r = { r₀ with val := (s.heap.waits.node (.wq c)).data } := by simpa [hs] using hrr
      simp only [hs, Bool.false_eq_true, if_false] at hout
      simp only [Frame.after, Pc.CallOk, Finished, hp.ticket]
      exact ⟨hout.retired, hout.ok, hout.error⟩
  | @wake _ n rest _ => exact stay rfl (by cases a <;> rfl) fun _ => ⟨rfl, rfl⟩
  | @unlock _ lk rest _ => exact stay rfl (by cases a <;> rfl) fun _ => ⟨rfl, rfl⟩
  | @fin _ n rest _ =>
    refine stay rfl (by cases a <;> rfl) fun n' => ?_
    exact ⟨by simp, by simp⟩
  | sleepFire hpc _ _ _ => exact outside rfl fun r hr => by rw [hpc] at hr; exact hr
  | sleepPark hpc _ | flip hpc _ _ _ | selTry hpc _ _ _ | selInit hpc _ | selReady hpc _ _ _ _
  | selPark hpc _ _ _ _ | selRegEnd hpc _ | selWaiting hpc _ _ _ | selDecided hpc _ _
  | selSuspend hpc _ | selUnreg hpc _ _ _ _ | selLeave hpc _ _ | selAgain _ hpc _ _ _
  | selRetry hpc _ _ _ | selRescanEnd hpc _ | selSync hpc _ _ | selSync2 hpc _ _ | selWon hpc _
  | selScanned hpc _ | selFailed hpc _ _ =>
    exact outside rfl fun r hr => by rw [hpc] at hr; exact hr

/-! ## The result -/

lemma fifoInv_init (cfg : Config) : FifoInv cfg (.init cfg, .init) where
  size := sizeInv_init cfg
  chan := fun ch => ⟨rfl, .nil, .nil⟩
  tick := ⟨by simp [Core.init, Heap.init, Waits.init], by simp [Core.init, Heap.init, Waits.init]⟩
  call := by simp [FifoHist.init]
  log := by simp [FifoHist.init]

lemma fifoInv_step {cfg : Config} (p : Core × FifoHist) (e : Event) (q : Core × FifoHist)
    (hinv : Inv p.1) (h : FifoInv cfg p) (hstep : Recorded Step FifoHist.record p e q) :
    FifoInv cfg q := by
  obtain ⟨s, m⟩ := p
  obtain ⟨t, m'⟩ := q
  obtain ⟨hstep, rfl⟩ := hstep
  have hf := step_footprint hinv hstep
  have hq := step_queued hinv hstep
  refine ⟨sizeInv_step hinv h.size hstep, fun ch => chanFifo_step hinv h.size hstep m (h.chan ch),
    tickInv_step hq h.tick, fun a r hr => ?_, fun x hx => ?_⟩
  · by_cases ha : a = e.ctx
    · subst ha
      refine Pc.CallOk.active hinv hstep h.tick h.chan (h.call e.ctx) r ?_
      simpa [FifoHist.record] using hr
    · have hr' : m.call a = some r := by simpa [FifoHist.record, ha] using hr
      rw [hf.pc a ha]
      refine (h.call a r hr').keep hinv hstep h.tick h.chan ?_ ?_
      · rintro c rfl hn
        obtain ⟨hst, hdata, -⟩ := hf.waits.kept (.wq c) hn (Ne.symm ha)
        exact ⟨hst, hdata⟩
      · rintro c rfl
        cases hp : e.parks with
        | none => simp [FifoHist.ticks, hp]
        | some x =>
          obtain ⟨n, l, data⟩ := x
          have hne : .wq c ≠ n := by
            rintro rfl
            exact ha (Event.ctx_of_parks hp).symm
          simp [FifoHist.ticks, hp, hne]
  · simp only [FifoHist.record, List.mem_append] at hx
    rcases hx with hx | hx
    · exact (h.log x hx).step hinv hstep
    · obtain ⟨a, act⟩ := e
      cases act with
      | ret code =>
        obtain ⟨r, hr, rfl⟩ := List.mem_map.mp hx
        have hcall := h.call a r (by simpa using hr)
        have hpc : s.pc a = .ret code := by
          cases hstep with
          | «local» _ hl =>
            generalize s.pc a = pc at hl
            cases hl
            rfl
        rw [hpc] at hcall
        exact Finished.step hinv hstep hcall
      | _ => cases hx

lemma fifoInv_reachable {cfg : Config} {p : Core × FifoHist}
    (h : Reachable (Recorded Step FifoHist.record) (.init cfg, .init) p) : FifoInv cfg p := by
  refine h.invariant_of (J := fun p => Inv p.1) (fun q hq => inv_reachable hq.of_recorded)
    (fifoInv_init cfg) ?_
  exact fun p e q hp _ hI hstep => fifoInv_step p e q hp hI hstep

end Suspenders.Wait
