import Suspenders.Wait.Inv

/-!
# What a step touches

Whatever context acts, a step decides the waits that its action names (`Act.decides`, `Act.code`), and
leaves the places, the pending work and the nodes of all other contexts alone, except that it may unlink
losing select nodes and end a decider window.  `Footprint` collects this; the later invariants follow
the acting context through its own code and use `step_footprint` for everybody else.
-/

namespace Suspenders.Wait

open Lib

/-- The waits an action decides. -/
def Act.decides : Act → List NodeRef
  | crit _ _ out | selTry _ _ out => out.granted
  | flip t _ | sleepFire t => [.wq t]
  | _ => []

/-- The status an action decides waits with. -/
def Act.code : Act → Code
  | crit op _ _ => op.grantCode
  | flip _ st => st
  | _ => .ok

/-- The nodes change from `w` to `w'` by action `act` of context `a`. -/
structure Touched (a : Ctx) (act : Act) (w w' : Waits) : Prop where
  /-- No wait is decided twice. -/
  nodup : act.decides.Nodup
  /-- A decided node was undecided, carries the status, and is on no list. -/
  decided : ∀ n ∈ act.decides, (w.node n).status = .waiting ∧
    (w'.node n).status = .decided act.code ∧ (w'.node n).waitList = none
  /-- Other contexts' nodes that are not decided keep what they carry; select nodes may be unlinked. -/
  kept : ∀ n, n ∉ act.decides → a ≠ .co n.cr →
    (w'.node n).status = (w.node n).status ∧ (w'.node n).data = (w.node n).data ∧
      (w'.node n).waitLock = (w.node n).waitLock ∧
      ((w'.node n).waitList = (w.node n).waitList ∨
        (∃ c i, n = .sel c i) ∧ (w'.node n).waitList = none)
  /-- A decider's window closes only by its end. -/
  busy : ∀ n, a ≠ .co n.cr → act ≠ .fin n → (w.node n).wakerBusy = true →
    (w'.node n).wakerBusy = true
  /-- A select is decided only through one of its nodes. -/
  winner : ∀ c, a ≠ .co c → (w'.winner c = w.winner c ∧ ∀ i, .sel c i ∉ act.decides) ∨
    (w.winner c = none ∧ ∃ i, w'.winner c = some i ∧ ∀ j, .sel c j ∈ act.decides ↔ j = i)

namespace Touched

variable {a : Ctx} {act : Act} {w w' w'' : Waits}

/-- Nothing happens to the nodes. -/
lemma refl (hact : act.decides = []) (w : Waits) : Touched a act w w where
  nodup := by simp [hact]
  decided := by simp [hact]
  kept := fun _ _ _ => ⟨rfl, rfl, rfl, Or.inl rfl⟩
  busy := fun _ _ _ h => h
  winner := fun _ _ => Or.inl ⟨rfl, by simp [hact]⟩

/-- A coroutine changes its own nodes after whatever else it has done, and does not undo what it has
decided. -/
lemma own {c : CrId} (h : Touched (.co c) act w w') (hself : ∀ n ∈ act.decides, w''.node n = w'.node n)
    (hnode : ∀ n, n.cr ≠ c → w''.node n = w'.node n)
    (hwinner : ∀ c', c' ≠ c → w''.winner c' = w'.winner c') : Touched (.co c) act w w'' where
  nodup := h.nodup
  decided := fun n hn => by
    rw [hself n hn]
    exact h.decided n hn
  kept := fun n hn hne => by
    rw [hnode n (by simpa using Ne.symm hne)]
    exact h.kept n hn hne
  busy := fun n hne hfin hb => by
    rw [hnode n (by simpa using Ne.symm hne)]
    exact h.busy n hne hfin hb
  winner := fun c' hne => by
    rw [hwinner c' (by simpa using Ne.symm hne)]
    exact h.winner c' hne

/-- A granter's critical section. -/
lemma granted {G : List NodeRef} (hw : w.WF) (h : w.Granted act.code w' G)
    (hact : act.decides = G) : Touched a act w w' where
  nodup := by rw [hact]; exact h.nodup
  decided := fun n hn => by
    rw [hact] at hn
    obtain ⟨l, hl⟩ := h.live n hn
    obtain ⟨hst, -, hlist⟩ := h.granted n hn
    exact ⟨hw.waiting n l ((hw.mem_iff l n).mp hl), hst, hlist⟩
  kept := fun n hn _ => by
    rw [hact] at hn
    rcases h.other n hn with heq | ⟨c, i, l, hc, -, -, heq⟩
    · rw [heq]
      exact ⟨rfl, rfl, rfl, Or.inl rfl⟩
    · rw [heq]
      exact ⟨rfl, rfl, rfl, Or.inr ⟨⟨c, i, hc⟩, rfl⟩⟩
  busy := fun n _ _ hb => by
    by_cases hn : n ∈ G
    · exact (h.granted n hn).2.1
    · rw [h.busy_of_not_mem hn]
      exact hb
  winner := fun c _ => by
    rw [hact]
    by_cases hc : ∃ i, .sel c i ∈ G
    · obtain ⟨i, hi⟩ := hc
      obtain ⟨hnone, hsome⟩ := h.sel c i hi
      refine Or.inr ⟨hnone, i, hsome, fun j => ⟨fun hj => ?_, fun hj => hj ▸ hi⟩⟩
      exact Option.some.inj ((h.sel c j hj).2.symm.trans hsome)
    · refine Or.inl ⟨?_, fun i hi => hc ⟨i, hi⟩⟩
      rcases h.winner c with heq | ⟨-, i, hi, -⟩
      · exact heq
      · exact absurd ⟨i, hi⟩ hc

/-- One embedded node is decided from outside. -/
lemma flipped {t : CrId} (hact : act.decides = [.wq t])
    (hwait : (w.node (.wq t)).status = .waiting)
    (hst : (w'.node (.wq t)).status = .decided act.code)
    (hlist : (w'.node (.wq t)).waitList = none)
    (hbusy : (w.node (.wq t)).wakerBusy = true → (w'.node (.wq t)).wakerBusy = true)
    (hnode : ∀ n, n ≠ .wq t → w'.node n = w.node n) (hwinner : w'.winner = w.winner) :
    Touched a act w w' where
  nodup := by simp [hact]
  decided := fun n hn => by
    rw [hact, List.mem_singleton] at hn
    subst hn
    exact ⟨hwait, hst, hlist⟩
  kept := fun n hn _ => by
    rw [hact, List.mem_singleton] at hn
    rw [hnode n hn]
    exact ⟨rfl, rfl, rfl, Or.inl rfl⟩
  busy := fun n _ _ hb => by
    by_cases hn : n = .wq t
    · subst hn
      exact hbusy hb
    · rw [hnode n hn]
      exact hb
  winner := fun c _ => Or.inl ⟨by rw [hwinner], by simp [hact]⟩

/-- A decider's window ends. -/
lemma fin (n : NodeRef) (w : Waits) : Touched a (.fin n) w (w.decideEnd n) where
  nodup := by simp [Act.decides]
  decided := by simp [Act.decides]
  kept := fun m _ _ => by
    obtain ⟨busy, hnode⟩ := w.decideEnd_node n m
    simp [hnode]
  busy := fun m _ hfin hb => by
    have hm : m ≠ n := fun heq => hfin (by rw [heq])
    simpa [Waits.decideEnd, hm] using hb
  winner := fun _ _ => Or.inl ⟨rfl, by simp [Act.decides]⟩

end Touched

/-- Who decides a wait: a granter of the structure the node is parked on, `s_waiter_wake`, or the timer of
a sleep. -/
def Act.DecidedBy (act : Act) (s t : Core) (n : NodeRef) : Prop :=
  (∃ l, n ∈ s.heap.waits.queue l ∧ (act.code = .ok ∨
    (act.code = .closed ∧ ∃ ch, l.lock = .chan ch ∧ (t.heap.chan ch).closed = true))) ∨
  (∃ c, n = .wq c ∧ (act.code = .canceled ∨ act.code = .timedout)) ∨
  (∃ c, n = .wq c ∧ act.code = .ok ∧
    (s.pc (.co c) = .blk .sleep none ∨ s.pc (.co c) = .susp .sleep none))

/-- What a step leaves alone, and what it does to the nodes. -/
structure Footprint (s : Core) (e : Event) (t : Core) : Prop where
  /-- The other contexts stay where they are. -/
  pc : ∀ b, b ≠ e.ctx → t.pc b = s.pc b
  /-- What they have to do stays the same. -/
  work : ∀ b, b ≠ e.ctx → t.work b = s.work b
  /-- A channel keeps its constants and stays closed. -/
  chan : ∀ ch, (t.heap.chan ch).elemSz = (s.heap.chan ch).elemSz ∧
    (t.heap.chan ch).bufSz = (s.heap.chan ch).bufSz ∧
    ((s.heap.chan ch).closed = true → (t.heap.chan ch).closed = true)
  /-- The nodes. -/
  waits : Touched e.ctx e.act s.heap.waits t.heap.waits
  /-- Every decided wait has its decider. -/
  decider : ∀ n ∈ e.act.decides, e.act.DecidedBy s t n

/-- A closed channel stays closed. -/
lemma Footprint.closed {s t : Core} {e : Event} (hf : Footprint s e t) (ch : ℕ) :
    (s.heap.chan ch).closed = true → (t.heap.chan ch).closed = true :=
  (hf.chan ch).2.2

/-- The constants of a channel, and that it stays closed. -/
lemma exec_chan {h : Heap} (hw : h.waits.WF) (a : Ctx) (op : Op) (ch : ℕ) :
    ((exec h a op).1.chan ch).elemSz = (h.chan ch).elemSz ∧
      ((exec h a op).1.chan ch).bufSz = (h.chan ch).bufSz ∧
      ((h.chan ch).closed = true → ((exec h a op).1.chan ch).closed = true) := by
  by_cases hlk : op.lockId = .chan ch
  · cases op with
    | send ch' val tryOnly =>
      obtain rfl : ch' = ch := by simpa [Op.lockId] using hlk
      obtain ⟨-, heq⟩ | ⟨-, rx, w', heq, -⟩ | ⟨-, -, w', heq, -⟩ | ⟨-, -, w', heq, -⟩ :=
        exec_send_cases hw a ch' val tryOnly <;> simp [heq, Chan.bufPush]
    | recv ch' tryOnly =>
      obtain rfl : ch' = ch := by simpa [Op.lockId] using hlk
      obtain ⟨-, -, tx, w', heq, -⟩ | ⟨-, -, w', heq, -⟩ | ⟨-, tx, w', heq, -⟩ |
        ⟨-, -, w', heq, -⟩ | ⟨-, -, w', heq, -⟩ := exec_recv_cases hw a ch' tryOnly <;>
        simp [heq, Chan.bufPush, Chan.bufPop]
    | close ch' =>
      obtain rfl : ch' = ch := by simpa [Op.lockId] using hlk
      simp only [exec, chanCloseImpl]
      split <;> simp [chanClose]
    | _ => simp [Op.lockId] at hlk
  · rw [(exec_effect hw a op).chan ch hlk]
    exact ⟨rfl, rfl, id⟩

/-- The deciders of what a critical section grants. -/
lemma exec_decider {h : Heap} (hw : h.waits.WF) {a : Ctx} {op : Op} {n : NodeRef}
    (hn : n ∈ (exec h a op).2.granted) : ∃ l, n ∈ h.waits.queue l ∧ (op.grantCode = .ok ∨
      (op.grantCode = .closed ∧ ∃ ch, l.lock = .chan ch ∧
        ((exec h a op).1.chan ch).closed = true)) := by
  obtain ⟨l, hl, hlock⟩ := (exec_effect hw a op).own n hn
  refine ⟨l, hl, ?_⟩
  cases op with
  | close ch =>
    refine Or.inr ⟨rfl, ch, hlock, ?_⟩
    simp only [exec, chanCloseImpl] at hn ⊢
    split at hn
    · cases hn
    · rename_i hopen
      simp [hopen, chanClose]
  | _ => exact Or.inl rfl

@[simp] lemma critical_chan (h : Heap) (a : Ctx) (op : Op) :
    (critical h a op).1.chan = (exec h a op).1.chan := by
  unfold critical Heap.parkAs
  split <;> (try split) <;> rfl

/-- A critical section touches its caller's embedded node and what it grants. -/
lemma critical_touched {h : Heap} (hw : h.waits.WF) {a : Ctx} {op : Op} {act : Act}
    (hcode : act.code = op.grantCode) (hact : act.decides = (critical h a op).2.granted) :
    Touched a act h.waits (critical h a op).1.waits := by
  have heff := exec_effect hw a op
  have htouched : Touched a act h.waits (exec h a op).1.waits :=
    .granted hw (by rw [hcode]; exact heff.granted) hact
  unfold critical Heap.parkAs
  cases hres : (exec h a op).2.res with
  | ret code => exact htouched
  | park l data writer =>
    cases a with
    | co c =>
      have hnil : act.decides = [] := hact.trans (heff.park _ _ _ hres).1
      refine htouched.own (by simp [hnil]) (fun n hn => ?_) (fun _ _ => rfl)
      have hne : n ≠ .wq c := by rintro rfl; exact hn rfl
      simp [Waits.park, hne]
    | sched w => exact htouched
    | ext f => exact htouched

/-- Local steps decide nothing. -/
lemma LocalStep.decides_nil {h : Heap} {a : Ctx} {pc pc' : Pc} {act : Act}
    (hl : LocalStep h a pc act pc') : act.decides = [] := by
  cases hl <;> rfl

lemma Case.grantCode_op (k : Case) : k.op.grantCode = .ok := by
  unfold Case.op
  split <;> rfl

/-- Every step has a footprint. -/
theorem step_footprint {s t : Core} {e : Event} (h : Inv s) (hstep : Step s e t) :
    Footprint s e t := by
  -- a coroutine that changes one of its own nodes
  have own : ∀ {act : Act} {c : CrId} {w : Waits} (n : NodeRef), n.cr = c → act.decides = [] →
      (∀ n', n' ≠ n → w.node n' = s.heap.waits.node n') →
      (∀ c', c' ≠ c → w.winner c' = s.heap.waits.winner c') →
      Touched (.co c) act s.heap.waits w := by
    intro act c w n hn hact hnode hwinner
    refine (Touched.refl hact _).own (by simp [hact]) (fun n' hn' => hnode n' ?_) hwinner
    rintro rfl
    exact hn' hn
  -- the critical section of a case's operation
  have tried : ∀ {a : Ctx} {i : ℕ} {k : Case}, Touched a (.selTry i k (exec s.heap a k.op).2)
      s.heap.waits (exec s.heap a k.op).1.waits := by
    intro a i k
    have heff := (exec_effect h.wf a k.op).granted
    rw [k.grantCode_op] at heff
    exact .granted h.wf heff rfl
  have triedBy : ∀ {a : Ctx} {i : ℕ} {k : Case} {t : Core},
      ∀ n ∈ (exec s.heap a k.op).2.granted, (Act.selTry i k (exec s.heap a k.op).2).DecidedBy s t n := by
    intro a i k t n hn
    obtain ⟨l, hl, -⟩ := exec_decider h.wf hn
    exact Or.inl ⟨l, hl, Or.inl rfl⟩
  have hmove : ∀ (s : Core) (a : Ctx) (pc : Pc) (b : Ctx), b ≠ a → (s.setPc a pc).pc b = s.pc b :=
    fun s a pc b hb => Core.setPc_pc_of_ne s a b pc hb
  have hwork : ∀ (s : Core) (a : Ctx) (ws : List Work) (b : Ctx), b ≠ a →
      (s.setWork a ws).work b = s.work b :=
    fun s a ws b hb => Core.setWork_work_of_ne s a b ws hb
  -- steps that decide nothing need no decider
  have nobody : ∀ {act : Act} {t : Core}, act.decides = [] →
      ∀ n ∈ act.decides, act.DecidedBy s t n := by
    intro act t hact n hn
    rw [hact] at hn
    cases hn
  cases hstep with
  | «local» _ hl => exact ⟨hmove s _ _, fun _ _ => rfl, fun _ => ⟨rfl, rfl, id⟩, .refl hl.decides_nil _,
      nobody hl.decides_nil⟩
  | @crit a op k hpc _ _ =>
    refine ⟨hmove _ a _, hwork _ a _, fun ch => ?_, critical_touched h.wf rfl rfl,
      fun n hn => Or.inl ?_⟩
    · simpa using exec_chan h.wf a op ch
    · simpa [Act.code] using exec_decider h.wf hn
  | testWaiting | testDecided | suspend | selReady | selRegEnd | selWaiting | selDecided
  | selSuspend | selLeave | selAgain | selRescanEnd | selSync | selSync2 =>
    exact ⟨hmove s _ _, fun _ _ => rfl, fun _ => ⟨rfl, rfl, id⟩, .refl rfl _, nobody rfl⟩
  | @decided c k l st hpc _ _ hst =>
    exact ⟨hmove _ _ _, fun _ _ => rfl, fun _ => ⟨rfl, rfl, id⟩,
      own (.wq c) rfl rfl (fun n' hn' => by simp [hn']) (fun _ _ => rfl), nobody rfl⟩
  | wake _ => exact ⟨fun _ _ => rfl, hwork s _ _, fun _ => ⟨rfl, rfl, id⟩, .refl rfl _, nobody rfl⟩
  | unlock _ => exact ⟨fun _ _ => rfl, hwork s _ _, fun _ => ⟨rfl, rfl, id⟩, .refl rfl _, nobody rfl⟩
  | @fin a n rest _ => exact ⟨fun _ _ => rfl, hwork s _ _, fun _ => ⟨rfl, rfl, id⟩, .fin n _,
      nobody rfl⟩
  | @sleepPark c hpc _ =>
    exact ⟨hmove _ _ _, fun _ _ => rfl, fun _ => ⟨rfl, rfl, id⟩,
      own (.wq c) rfl rfl (fun n' hn' => by simp [Waits.parkNone, hn']) (fun _ _ => rfl), nobody rfl⟩
  | @sleepFire w t hpcw _ hpc hst =>
    have hwait : (s.pc (.co t)).waitOn = some none := by rcases hpc with hpc | hpc <;> rw [hpc] <;> rfl
    have hlist : (s.heap.waits.node (.wq t)).waitList = none := by
      rcases (h.node t).wait none hwait with hw | hw
      · exact hw.2
      · exact hw.2
    exact ⟨fun _ _ => rfl, hwork _ _ _, fun _ => ⟨rfl, rfl, id⟩,
      .flipped rfl hst (by simp [Act.code]) (by simpa using hlist) (by simp)
        (fun n hn => by simp [hn]) rfl,
      fun n hn => Or.inr (Or.inr ⟨t, List.mem_singleton.mp hn, rfl, hpc⟩)⟩
  | @flip a f t lk w hpc _ _ hd =>
    have hdec := Waits.decide_spec h.wf hd
    exact ⟨hmove _ _ _, hwork _ _ _, fun _ => ⟨rfl, rfl, id⟩,
      .flipped rfl hdec.waiting (by simp [hdec.self, Act.code]) (by simp [hdec.self])
        (by simp [hdec.self]) (fun n hn => by simp [hdec.other n hn]) (by simp [hdec.winner]),
      fun n hn => Or.inr (Or.inl ⟨t, List.mem_singleton.mp hn, by cases f <;> simp [Act.code, WakeFor.code]⟩)⟩
  | @selTry a ops i rest k hpc _ _ _ =>
    exact ⟨hmove _ _ _, hwork _ _ _, exec_chan h.wf a k.op, tried,
      triedBy⟩
  | @selInit c ops hpc _ =>
    exact ⟨hmove _ _ _, fun _ _ => rfl, fun _ => ⟨rfl, rfl, id⟩,
      own (.wq c) rfl rfl (fun n' hn' => by simp [Waits.parkNone, hn'])
        (fun c' hc' => by simp [hc']), nobody rfl⟩
  | @selPark c ops i k hpc _ _ _ _ =>
    exact ⟨hmove _ _ _, fun _ _ => rfl, fun _ => ⟨rfl, rfl, id⟩,
      own (.sel c i) rfl rfl (fun n' hn' => by simp [Waits.park, hn']) (fun _ _ => rfl), nobody rfl⟩
  | @selUnreg c ops r j rescan k hpc _ _ _ _ =>
    obtain ⟨-, -, hother, hwinner, -⟩ := Waits.unregister_spec h.wf (.sel c j)
    exact ⟨hmove _ _ _, fun _ _ => rfl, fun _ => ⟨rfl, rfl, id⟩,
      own (.sel c j) rfl rfl hother (fun _ _ => by simp [hwinner]), nobody rfl⟩
  | @selRetry c ops i rest k hpc _ _ _ =>
    exact ⟨hmove _ _ _, hwork _ _ _, exec_chan h.wf (.co c) k.op, tried,
      triedBy⟩
  | @selWon c ops i scan hpc _ =>
    exact ⟨hmove _ _ _, fun _ _ => rfl, fun _ => ⟨rfl, rfl, id⟩,
      own (.wq c) rfl rfl (fun n' hn' => by simp [hn']) (fun _ _ => rfl), nobody rfl⟩
  | @selScanned c ops i code hpc _ =>
    exact ⟨hmove _ _ _, fun _ _ => rfl, fun _ => ⟨rfl, rfl, id⟩,
      own (.wq c) rfl rfl (fun n' hn' => by simp [hn']) (fun _ _ => rfl), nobody rfl⟩
  | @selFailed c ops st hpc _ _ =>
    exact ⟨hmove _ _ _, fun _ _ => rfl, fun _ => ⟨rfl, rfl, id⟩,
      own (.wq c) rfl rfl (fun n' hn' => by simp [hn']) (fun _ _ => rfl), nobody rfl⟩

/-! ## What a step does to the lists -/

/-- The node an event parks, the list it parks it on and what the node carries. -/
def Event.parks (e : Event) : Option (NodeRef × ListId × Bytes) :=
  match e.ctx, e.act with
  | .co c, .crit _ _ out =>
    match out.res with
    | .park l data _ => some (.wq c, l, data)
    | .ret _ => none
  | .co c, .selPark i k => some (.sel c i, k.list, k.val)
  | _, _ => none

/-- The parked node belongs to the coroutine that acts. -/
lemma Event.ctx_of_parks {e : Event} {n : NodeRef} {l : ListId} {data : Bytes}
    (h : e.parks = some (n, l, data)) : e.ctx = .co n.cr := by
  obtain ⟨a, act⟩ := e
  cases a with
  | co c =>
    cases act with
    | crit op k out =>
      simp only [Event.parks] at h
      split at h <;> cases h
      rfl
    | selPark i k =>
      cases h
      rfl
    | _ => cases h
  | _ => cases h

/-- What a step does to the lists: they lose nodes, and the parked node is appended to one of them. -/
structure Queued (s : Core) (e : Event) (t : Core) : Prop where
  /-- Without a park lists only lose nodes. -/
  sublist : ∀ l, (∀ n data, e.parks ≠ some (n, l, data)) →
    (t.heap.waits.queue l).Sublist (s.heap.waits.queue l)
  /-- A park appends. -/
  append : ∀ n l data, e.parks = some (n, l, data) → ∃ q, q.Sublist (s.heap.waits.queue l) ∧
    t.heap.waits.queue l = q ++ [n]
  /-- The parked node was on no list; it is undecided now. -/
  parked : ∀ n l data, e.parks = some (n, l, data) → (∀ l', n ∉ s.heap.waits.queue l') ∧
    (t.heap.waits.node n).data = data
  /-- A node that stays on a list keeps what it carries. -/
  data : ∀ l n, n ∈ s.heap.waits.queue l → n ∈ t.heap.waits.queue l →
    (t.heap.waits.node n).data = (s.heap.waits.node n).data
  /-- No linked node becomes usable. -/
  usable : ∀ l n, n ∈ s.heap.waits.queue l → t.heap.waits.Usable n → s.heap.waits.Usable n

namespace Queued

variable {s t : Core} {e : Event}

/-- Lists only lose nodes, nodes keep what they carry, selects stay decided. -/
lemma shrink (hparks : e.parks = none)
    (hsub : ∀ l, (t.heap.waits.queue l).Sublist (s.heap.waits.queue l))
    (hdata : ∀ l n, n ∈ t.heap.waits.queue l →
      (t.heap.waits.node n).data = (s.heap.waits.node n).data)
    (hwin : ∀ c, s.heap.waits.winner c ≠ none → t.heap.waits.winner c ≠ none) : Queued s e t where
  sublist := fun l _ => hsub l
  append := by simp [hparks]
  parked := by simp [hparks]
  data := fun l n _ hn => hdata l n hn
  usable := fun l n _ hu => by
    cases n with
    | wq c => trivial
    | sel c i =>
      by_contra hs
      exact hwin c hs hu

/-- The lists do not change. -/
lemma same (hparks : e.parks = none) (hq : t.heap.waits.queue = s.heap.waits.queue)
    (hdata : ∀ n, (t.heap.waits.node n).data = (s.heap.waits.node n).data)
    (hwin : t.heap.waits.winner = s.heap.waits.winner) : Queued s e t :=
  shrink hparks (fun l => by rw [hq]) (fun _ n _ => hdata n) (fun c hc => by rwa [hwin])

/-- A node is appended after the lists have lost nodes. -/
lemma park {n : NodeRef} {l : ListId} {data : Bytes} {writer : Bool} {w : Waits}
    (hparks : e.parks = some (n, l, data)) (hsub : ∀ l, (w.queue l).Sublist (s.heap.waits.queue l))
    (hdata : ∀ l n, n ∈ w.queue l → (w.node n).data = (s.heap.waits.node n).data)
    (hwin : ∀ c, s.heap.waits.winner c ≠ none → w.winner c ≠ none)
    (hnew : ∀ l', n ∉ s.heap.waits.queue l') (ht : t.heap.waits = w.park n l data writer) :
    Queued s e t where
  sublist := fun l' hl' => by
    have hne : l' ≠ l := by
      rintro rfl
      exact hl' n data hparks
    simpa [ht, Waits.park, hne] using hsub l'
  append := fun n' l' data' heq => by
    rw [hparks] at heq
    cases heq
    exact ⟨w.queue l, hsub l, by simp [ht, Waits.park]⟩
  parked := fun n' l' data' heq => by
    rw [hparks] at heq
    cases heq
    exact ⟨hnew, by simp [ht, Waits.park]⟩
  data := fun l' n' hs ht' => by
    have hne : n' ≠ n := by
      rintro rfl
      exact hnew l' hs
    have hmem : n' ∈ w.queue l' := by
      rw [ht] at ht'
      by_cases hl : l' = l
      · subst hl
        simpa [Waits.park, hne] using ht'
      · simpa [Waits.park, hl] using ht'
    rw [← hdata l' n' hmem]
    simp [ht, Waits.park, hne]
  usable := fun l' n' _ hu => by
    cases n' with
    | wq c => trivial
    | sel c i =>
      by_contra hs
      exact hwin c hs (by simpa [ht, Waits.park, Waits.Usable] using hu)

end Queued

/-- What a granter leaves on the lists it leaves as it is. -/
lemma Waits.Granted.data {st : Code} {w w' : Waits} {G : List NodeRef} (h : w.Granted st w' G)
    {l : ListId} {n : NodeRef} (hn : n ∈ w'.queue l) : (w'.node n).data = (w.node n).data := by
  have hG : n ∉ G := by
    intro hG
    rw [h.wf.mem_iff, (h.granted n hG).2.2] at hn
    cases hn
  rcases h.other n hG with heq | ⟨c, i, l', -, -, -, heq⟩ <;> simp [heq]

/-- Local steps park nobody. -/
lemma LocalStep.parks_none {h : Heap} {a : Ctx} {pc pc' : Pc} {act : Act}
    (hl : LocalStep h a pc act pc') : Event.parks ⟨a, act⟩ = none := by
  cases a <;> cases hl <;> rfl

/-- What every step does to the lists. -/
theorem step_queued {s t : Core} {e : Event} (h : Inv s) (hstep : Step s e t) : Queued s e t := by
  -- a coroutine's own node that is on no list changes, its data stays
  have own : ∀ {e : Event} {n : NodeRef} {x : Node} {s' : Core}, e.parks = none →
      s'.heap.waits = s.heap.waits.setNode n x → x.data = (s.heap.waits.node n).data →
      Queued s e s' := by
    intro e n x s' hparks hs' hx
    refine .same hparks (by rw [hs']; rfl) (fun n' => ?_) (by rw [hs']; rfl)
    by_cases hn : n' = n
    · subst hn
      simp [hs', hx]
    · simp [hs', hn]
  have tried : ∀ (a : Ctx) (op : Op) {e : Event} {s' : Core}, e.parks = none →
      s'.heap.waits = (exec s.heap a op).1.waits → Queued s e s' := by
    intro a op e s' hparks hs'
    have heff := (exec_effect h.wf a op).granted
    refine .shrink hparks (fun l => by rw [hs']; exact heff.sublist l) (fun l n hn => ?_)
      (fun c hc => by rw [hs']; exact heff.winner_ne_none hc)
    rw [hs'] at hn ⊢
    exact heff.data hn
  cases hstep with
  | «local» _ hl => exact .same hl.parks_none rfl (fun _ => rfl) rfl
  | @crit a op k hpc _ _ =>
    cases hres : (exec s.heap a op).2.res with
    | ret code =>
      have hcrit : critical s.heap a op = exec s.heap a op := by simp [critical, hres, Heap.parkAs]
      refine tried a op ?_ (by simp [hcrit])
      cases a <;> simp [Event.parks, critical, hres]
    | park l data writer =>
      obtain ⟨c, rfl, hfree⟩ := (h.parkOk hpc).park h.wf hres
      have heff := exec_effect h.wf (.co c) op
      have hnot : .wq c ∉ (exec s.heap (.co c) op).2.granted := by
        simp [(heff.park _ _ _ hres).1]
      rw [heff.granted.wq_of_not_mem hnot] at hfree
      have hwaits : (critical s.heap (.co c) op).1.waits =
          (exec s.heap (.co c) op).1.waits.park (.wq c) l data writer := by
        simp [critical, hres, Heap.parkAs]
      refine .park ?_ heff.granted.sublist (fun l' n hn => heff.granted.data hn)
        (fun c hc => heff.granted.winner_ne_none hc) (fun l' hl' => ?_) hwaits
      · simp [Event.parks, critical, hres]
      · rw [h.wf.mem_iff, hfree] at hl'
        cases hl'
  | testWaiting | testDecided | suspend | selReady | selRegEnd | selWaiting | selDecided
  | selSuspend | selLeave | selAgain | selRescanEnd | selSync | selSync2 =>
    exact .same rfl rfl (fun _ => rfl) rfl
  | @decided c k l st hpc _ _ hst => exact own (n := .wq c) rfl rfl rfl
  | @wake a n rest _ => exact .same (by cases a <;> rfl) rfl (fun _ => rfl) rfl
  | @unlock a lk rest _ => exact .same (by cases a <;> rfl) rfl (fun _ => rfl) rfl
  | @fin a n rest _ => exact own (n := n) (by cases a <;> rfl) rfl rfl
  | @sleepPark c hpc _ => exact own (n := .wq c) rfl rfl rfl
  | @sleepFire w t hpcw _ hpc hst => exact own (n := .wq t) rfl rfl rfl
  | @flip a f t lk w hpc _ _ hd =>
    have hdec := Waits.decide_spec h.wf hd
    refine .shrink (by cases a <;> rfl) hdec.sublist (fun l n hn => ?_)
      (fun c hc => by simpa [hdec.winner] using hc)
    by_cases hn' : n = .wq t
    · subst hn'
      simp [hdec.self]
    · simp [hdec.other n hn']
  | @selTry a ops i rest k hpc _ _ _ => exact tried a k.op (by cases a <;> rfl) rfl
  | @selInit c ops hpc _ =>
    -- the winner word is reset while no node of the select is linked
    refine ⟨fun l _ => List.Sublist.refl _, by simp [Event.parks], by simp [Event.parks],
      fun l n _ _ => ?_, fun l n hn hu => ?_⟩
    · by_cases hn : n = .wq c
      · subst hn
        simp [Waits.parkNone]
      · simp [Waits.parkNone, hn]
    · cases n with
      | wq c' => trivial
      | sel c' i =>
        have hc : c' ≠ c := by
          rintro rfl
          have hlinked := h.sel c' i l ((h.wf.mem_iff _ _).mp hn)
          rw [hpc] at hlinked
          exact hlinked
        simpa [Waits.Usable, hc] using hu
  | @selPark c ops i k hpc _ _ _ _ =>
    refine .park (w := s.heap.waits) rfl (fun _ => List.Sublist.refl _) (fun _ _ _ => rfl)
      (fun _ hc => hc) (fun l hl => ?_) rfl
    have hlinked := h.sel c i l ((h.wf.mem_iff _ _).mp hl)
    rw [hpc] at hlinked
    exact absurd hlinked.1 (lt_irrefl i)
  | @selUnreg c ops r j rescan k hpc _ _ _ _ =>
    obtain ⟨-, hself, hother, hwinner, hsub⟩ := Waits.unregister_spec h.wf (.sel c j)
    refine .shrink rfl hsub (fun l n hn => ?_) (fun c' hc' => by simpa [hwinner] using hc')
    by_cases hn' : n = .sel c j
    · subst hn'
      simp [hself]
    · simp [hother n hn']
  | @selRetry c ops i rest k hpc _ _ _ => exact tried (.co c) k.op rfl rfl
  | @selWon c ops i scan hpc _ => exact own (n := .wq c) rfl rfl rfl
  | @selScanned c ops i code hpc _ => exact own (n := .wq c) rfl rfl rfl
  | @selFailed c ops st hpc _ _ => exact own (n := .wq c) rfl rfl rfl

/-! ## What a step leaves to do -/

/-- The action that does a piece of work. -/
def Work.act : Work → Act
  | wake n => .wake n
  | unlock lk => .unlock lk
  | fin n => .fin n

/-- What an action leaves to do for the waits it has decided. -/
def Act.leaves : Act → List Work
  | crit op _ out => out.work op.lockId
  | selTry _ k out => out.work (.chan k.ch)
  | flip t _ => [.wake (.wq t), .fin (.wq t)]
  | sleepFire t => [.wake (.wq t)]
  | _ => []

/-- Local steps leave nothing to do. -/
lemma LocalStep.leaves_nil {h : Heap} {a : Ctx} {pc pc' : Pc} {act : Act}
    (hl : LocalStep h a pc act pc') : act.leaves = [] := by
  cases hl <;> rfl

/-- They do not work for others. -/
lemma LocalStep.not_work {h : Heap} {a : Ctx} {pc pc' : Pc} {act : Act}
    (hl : LocalStep h a pc act pc') (w : Work) : act ≠ w.act := by
  cases hl <;> cases w <;> simp [Work.act]

/-- A step does the next piece of work, or it is made with nothing left to do. -/
lemma step_work {s t : Core} {a : Ctx} {act : Act} (h : Step s ⟨a, act⟩ t) :
    (∃ w, s.work a = w :: t.work a ∧ act = w.act ∧ t.pc = s.pc) ∨
      (s.work a = [] ∧ t.work a = act.leaves ∧ ∀ w, act ≠ Work.act w) := by
  cases h with
  | «local» hwork hl => exact Or.inr ⟨hwork, by rw [hl.leaves_nil]; exact hwork, hl.not_work⟩
  | wake hwork => exact Or.inl ⟨.wake _, by simp [hwork], rfl, rfl⟩
  | unlock hwork => exact Or.inl ⟨.unlock _, by simp [hwork], rfl, rfl⟩
  | fin hwork => exact Or.inl ⟨.fin _, by simp [hwork], rfl, rfl⟩
  | crit _ hwork _ | flip _ hwork _ _ | selTry _ hwork _ _ | selRetry _ hwork _ _ =>
    exact Or.inr ⟨hwork, by simp [Act.leaves], fun w => by cases w <;> simp [Work.act]⟩
  | sleepFire _ hwork _ _ =>
    exact Or.inr ⟨hwork, by simp [Act.leaves], fun w => by cases w <;> simp [Work.act]⟩
  | testWaiting _ hwork _ | testDecided _ hwork _ | suspend _ hwork | decided _ hwork _ _
  | sleepPark _ hwork | selInit _ hwork | selReady _ hwork _ _ _ | selPark _ hwork _ _ _
  | selRegEnd _ hwork | selWaiting _ hwork _ _ | selDecided _ hwork _ | selSuspend _ hwork
  | selUnreg _ hwork _ _ _ | selLeave _ hwork _ | selAgain _ _ hwork _ _ | selRescanEnd _ hwork
  | selSync _ hwork _ | selSync2 _ hwork _ | selWon _ hwork | selScanned _ hwork
  | selFailed _ hwork _ =>
    exact Or.inr ⟨hwork, by simpa [Act.leaves] using hwork, fun w => by cases w <;> simp [Work.act]⟩

/-- Whoever decides a wait is going to wake the waiter. -/
lemma Act.wake_mem_leaves {act : Act} {n : NodeRef} (h : n ∈ act.decides) : .wake n ∈ act.leaves := by
  have hout : ∀ (out : Out) (lk : LockId), n ∈ out.granted → .wake n ∈ out.work lk := by
    intro out lk hn
    unfold Out.work
    split <;> simp [hn]
  cases act with
  | crit op k out => exact hout out _ h
  | selTry i k out => exact hout out _ h
  | flip t st =>
    obtain rfl := List.mem_singleton.mp h
    simp [Act.leaves]
  | sleepFire t =>
    obtain rfl := List.mem_singleton.mp h
    simp [Act.leaves]
  | _ => cases h

/-- Its wake is pending right after the decision. -/
lemma step_wake_pending {s t : Core} {a : Ctx} {act : Act} (h : Step s ⟨a, act⟩ t) {n : NodeRef}
    (hn : n ∈ act.decides) : .wake n ∈ t.work a := by
  rcases step_work h with ⟨w, -, rfl, -⟩ | ⟨-, hwork, -⟩
  · cases w <;> cases hn
  · rw [hwork]
    exact Act.wake_mem_leaves hn

/-- A pending wake stays pending until it is made. -/
lemma step_wake_kept {s t : Core} {e : Event} (hf : Footprint s e t) (h : Step s e t) {b : Ctx}
    {n : NodeRef} (hn : .wake n ∈ s.work b) :
    .wake n ∈ t.work b ∨ (b = e.ctx ∧ e.act = .wake n) := by
  by_cases hb : b = e.ctx
  · subst hb
    rcases step_work h with ⟨w, hwork, hact, -⟩ | ⟨hwork, -⟩
    · rw [hwork] at hn
      rcases List.mem_cons.mp hn with rfl | hn
      · exact Or.inr ⟨rfl, hact⟩
      · exact Or.inl hn
    · rw [hwork] at hn
      cases hn
  · rw [hf.work b hb]
    exact Or.inl hn

end Suspenders.Wait