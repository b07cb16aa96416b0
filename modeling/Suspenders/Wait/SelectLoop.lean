import Suspenders.Wait.Scan
import Suspenders.Wait.Inv

/-!
# The passes of a select

A select that has found no ready case registers its cases one after the other.  If it comes to a case that
`s_select_case_ready` reports ready, it takes the registrations back and scans again.  `selectDl` is a select
that runs while nobody else does.

The two tests are not the same.  `s_select_case_ready` looks at the channel, and counts every waiter but the
select's own; a try operation also wants a value, and throws the waiters away that belong to decided selects.
So the select goes round for ever if no case is ready, but `s_select_case_ready` holds for a case without a value
whose counterparts no other case looks at (`Stuck`).  Otherwise it returns or parks within three passes.
-/

namespace Suspenders.Wait

open Lib

/-! ## The loop -/

/-- Registering the cases from the `i`-th on: the number registered, and whether a ready case has ended it. -/
def register (c : CrId) : List SelOp → ℕ → Heap → Heap × ℕ × Bool
  | [], i, h => (h, i, false)
  | o :: rest, i, h =>
    if selectCaseReady h.waits c o.toCase (h.chan o.ch) then (h, i, true)
    else register c rest (i + 1) { h with waits := h.waits.park (.sel c i) o.list o.val false }

/-- Unregistering the first `n` cases. -/
def unregister (c : CrId) (n : ℕ) (h : Heap) : Heap :=
  (List.range n).foldl (fun h i => { h with waits := h.waits.unregister (.sel c i) }) h

/-- How a pass, or the whole select, ends. -/
inductive SelEnd
  /-- It suspends. -/
  | parked (h : Heap)
  /-- It is decided: a winner, or a cancel or a deadline. -/
  | decided (h : Heap)
  /-- It returns index `i` with `suspenders_errno = code`. -/
  | done (h : Heap) (i : ℕ) (code : Code)
  /-- It returns `code`. -/
  | failed (code : Code)

/-- One pass: registering, unregistering, scanning again.  A pass that leaves the select where it was yields the
heap and the next random number. -/
def pass (c : CrId) (ops : List SelOp) (now : UInt64) (h : Heap) (seed : UInt32) : SelEnd ⊕ (Heap × UInt32) :=
  let (h, registered, rescan) := register c ops 0 h
  if rescan = false ∧ h.waits.winner c = none ∧ (h.waits.node (.wq c)).status = .waiting then .inl (.parked h)
  else
    let h := unregister c registered h
    if h.waits.winner c ≠ none ∨ (h.waits.node (.wq c)).status ≠ .waiting ∨ rescan = false then .inl (.decided h)
    else
      let r := rand32 seed now
      match tryScan (.co c) ops (scanOrder r.toNat ops.length) h with
      | (h, some (i, code)) => .inl (.done h i code)
      | (h, none) => .inr (h, r)

/-- The `for (;;)` of a select, for at most `fuel` passes. -/
def passes (c : CrId) (ops : List SelOp) (now : UInt64) : ℕ → Heap → UInt32 → Option SelEnd
  | 0, _, _ => none
  | fuel + 1, h, seed =>
    match pass c ops now h seed with
    | .inl e => some e
    | .inr (h, r) => passes c ops now fuel h r

/-- Filling in the record and the cancel node. -/
def selInit (c : CrId) (h : Heap) : Heap :=
  { h with waits := { h.waits.parkNone c with winner := Function.update h.waits.winner c none } }

/-- `suspenders_select_dl` behind its entry check, run by coroutine `c` alone for at most `fuel` passes. -/
def selectDl (c : CrId) (ops : List SelOp) (now : UInt64) (fuel : ℕ) (h : Heap) (seed : UInt32) : Option SelEnd :=
  if ops.length = 0 ∨ 64 < ops.length then some (.failed .inval)
  else
    let r := rand32 seed now
    match tryScan (.co c) ops (scanOrder r.toNat ops.length) h with
    | (h, some (i, code)) => some (.done h i code)
    | (h, none) => passes c ops now fuel (selInit c h) r

/-! ## Registering and unregistering -/

/-- Whether `s_select_case_ready` holds for a case, in a heap without nodes of the select. -/
def Case.stops (h : Heap) (k : Case) : Bool :=
  (h.chan k.ch).closed || k.fits (h.chan k.ch) || !(h.waits.queue k.peers).isEmpty

/-- Between two passes of the select of coroutine `c`: nothing is registered, nothing decided. -/
structure Fresh (c : CrId) (h : Heap) : Prop where
  /-- Lists and nodes agree. -/
  wf : h.waits.WF
  /-- No node of the select is on a list. -/
  own : ∀ i, (h.waits.node (.sel c i)).waitList = none
  /-- No channel has decided the select. -/
  winner : h.waits.winner c = none
  /-- Nobody has canceled it. -/
  waiting : (h.waits.node (.wq c)).status = .waiting
  /-- Its cancel node is on no list. -/
  cancel : (h.waits.node (.wq c)).waitList = none

/-- Heap `h` is heap `h₀` with nodes of the select of coroutine `c` registered. -/
structure Overlay (c : CrId) (h₀ h : Heap) : Prop where
  /-- Lists and nodes agree. -/
  wf : h.waits.WF
  /-- The channels are as before. -/
  chan : h.chan = h₀.chan
  /-- So are the winner words. -/
  winner : h.waits.winner = h₀.waits.winner
  /-- So are the other nodes. -/
  node : ∀ n : NodeRef, n.ofSelect c = false → h.waits.node n = h₀.waits.node n
  /-- The other nodes are on the lists they were on. -/
  queue : ∀ l, (h.waits.queue l).filter (fun n => !n.ofSelect c) = h₀.waits.queue l

section Overlay

variable {c : CrId} {h₀ h : Heap}

lemma NodeRef.eq_sel_of_ofSelect {n : NodeRef} (hn : n.ofSelect c = true) : ∃ i, n = .sel c i := by
  match n with
  | .wq c' => cases hn
  | .sel c' i =>
    obtain rfl : c' = c := by simpa [NodeRef.ofSelect] using hn
    exact ⟨i, rfl⟩

/-- A list without nodes of the select. -/
lemma filter_own (hw : h.waits.WF) (hown : ∀ i, (h.waits.node (.sel c i)).waitList = none) (l : ListId) :
    (h.waits.queue l).filter (fun n => !n.ofSelect c) = h.waits.queue l := by
  refine List.filter_eq_self.mpr ?_
  intro n hn
  by_contra hsel
  obtain ⟨i, rfl⟩ := NodeRef.eq_sel_of_ofSelect (c := c) (by simpa using hsel)
  have hlist := (hw.mem_iff l _).mp hn
  rw [hown i] at hlist
  cases hlist

lemma Fresh.overlay (h : Fresh c h₀) : Overlay c h₀ h₀ :=
  ⟨h.wf, rfl, rfl, fun _ _ => rfl, filter_own h.wf h.own⟩

/-- Registering case `i` of a kind that is registered on a channel list. -/
lemma Overlay.park (ho : Overlay c h₀ h) {i : ℕ} {l : ListId} (hl : l.IsChan)
    (hi : (h.waits.node (.sel c i)).waitList = none) (data : Bytes) (writer : Bool) :
    Overlay c h₀ { h with waits := h.waits.park (.sel c i) l data writer } where
  wf := ho.wf.park data writer hi fun _ _ _ => hl
  chan := ho.chan
  winner := ho.winner
  node := by
    intro n hn
    have hne : n ≠ .sel c i := by
      rintro rfl
      simp [NodeRef.ofSelect] at hn
    simpa [Waits.park, hne] using ho.node n hn
  queue := by
    intro l'
    by_cases hl' : l' = l
    · subst hl'
      simpa [Waits.park, NodeRef.ofSelect] using ho.queue l'
    · simpa [Waits.park, hl'] using ho.queue l'

/-- Unregistering a case. -/
lemma Overlay.unregister (ho : Overlay c h₀ h) (i : ℕ) :
    Overlay c h₀ { h with waits := h.waits.unregister (.sel c i) } := by
  have hne : ∀ {n : NodeRef}, n.ofSelect c = false → n ≠ .sel c i := by
    rintro n hn rfl
    simp [NodeRef.ofSelect] at hn
  unfold Waits.unregister Waits.unlink
  cases hlist : (h.waits.node (.sel c i)).waitList with
  | none =>
    refine ⟨ho.wf.setNode hlist rfl, ho.chan, ho.winner, ?_, ho.queue⟩
    intro n hn
    simpa [Waits.discard, hne hn] using ho.node n hn
  | some l =>
    have hmem : NodeRef.sel c i ∈ h.waits.queue l := (ho.wf.mem_iff _ _).mpr hlist
    refine ⟨ho.wf.remove hmem rfl, ho.chan, ho.winner, ?_, ?_⟩
    · intro n hn
      simpa [Waits.discard, hne hn] using ho.node n hn
    · intro l'
      by_cases hl' : l' = l
      · subst hl'
        simp only [Waits.discard, Waits.setNode_queue, Waits.setQueue_queue_self]
        rw [(ho.wf.nodup l').erase_eq_filter, List.filter_filter, ← ho.queue l']
        refine List.filter_congr ?_
        intro n _
        by_cases hn : n = .sel c i
        · simp [hn, NodeRef.ofSelect]
        · simp [hn]
      · simpa [Waits.discard, hl'] using ho.queue l'

/-- `s_select_case_ready` does not mind the select's own nodes. -/
lemma Overlay.selectCaseReady_eq (ho : Overlay c h₀ h) (k : Case) :
    selectCaseReady h.waits c k (h.chan k.ch) = k.stops h₀ := by
  have hany : ∀ l, ((h.waits.queue l).any fun n => !n.ofSelect c) = !(h₀.waits.queue l).isEmpty := by
    intro l
    rw [← ho.queue l, Bool.eq_iff_iff]
    simp [List.filter_eq_nil_iff]
  unfold selectCaseReady Case.stops Case.fits Case.peers
  rw [ho.chan]
  cases k.isSend with
  | true => simp only [if_true, hany, Bool.or_assoc]
  | false => simp only [Bool.false_eq_true, if_false, hany, Bool.or_assoc]

lemma Case.list_isChan (k : Case) : k.list.IsChan := by
  unfold Case.list
  split <;> trivial

/-- Registering stops at the first case for which `s_select_case_ready` holds. -/
lemma register_spec (ops : List SelOp) (i : ℕ) (ho : Overlay c h₀ h)
    (hi : ∀ j, i ≤ j → (h.waits.node (.sel c j)).waitList = none) :
    Overlay c h₀ (register c ops i h).1 ∧
    (∀ j, (register c ops i h).2.1 ≤ j → ((register c ops i h).1.waits.node (.sel c j)).waitList = none) ∧
    ((register c ops i h).2.2 = true ↔ ∃ o ∈ ops, o.stops h₀ = true) := by
  induction ops generalizing i h with
  | nil => exact ⟨ho, hi, by simp [register]⟩
  | cons o rest ih =>
    have hready := ho.selectCaseReady_eq o.toCase
    unfold register
    split
    · rename_i hyes
      exact ⟨ho, hi, by simp [← hready, hyes]⟩
    · rename_i hno
      have hnext : ∀ j, i + 1 ≤ j →
          ((h.waits.park (.sel c i) o.list o.val false).node (.sel c j)).waitList = none := by
        intro j hj
        have hne : j ≠ i := by omega
        simpa [Waits.park, hne] using hi j (by omega)
      obtain ⟨hover, hfree, hiff⟩ := ih (i + 1) (ho.park o.list_isChan (hi i le_rfl) o.val false) hnext
      refine ⟨hover, hfree, hiff.trans ?_⟩
      simp only [List.mem_cons, exists_eq_or_imp, ← hready, hno, Bool.false_eq_true, false_or]

lemma unregister_spec (n : ℕ) (ho : Overlay c h₀ h) :
    Overlay c h₀ (unregister c n h) ∧
    ∀ j, (j < n ∨ (h.waits.node (.sel c j)).waitList = none) →
      ((unregister c n h).waits.node (.sel c j)).waitList = none := by
  induction n with
  | zero =>
    refine ⟨ho, ?_⟩
    rintro j (hj | hj)
    · omega
    · exact hj
  | succ n ih =>
    obtain ⟨hover, hfree⟩ := ih
    rw [unregister, List.range_succ, List.foldl_append]
    refine ⟨hover.unregister n, ?_⟩
    intro j hj
    by_cases hjn : j = n
    · subst hjn
      simp [Waits.unregister, Waits.discard]
    · have hkeep : ((unregister c n h).waits.node (.sel c j)).waitList = none := by
        rcases hj with hlt | hnone
        · exact hfree j (Or.inl (by omega))
        · exact hfree j (Or.inr hnone)
      have hne : NodeRef.sel c j ≠ .sel c n := by simp [hjn]
      simp only [List.foldl_cons, List.foldl_nil, Waits.unregister, Waits.discard]
      rw [Waits.setNode_node_of_ne _ _ _ _ hne]
      unfold Waits.unlink
      split
      · exact hkeep
      · exact hkeep

/-- Registering and unregistering again leaves all but the select's own nodes as they were. -/
lemma unregister_register (ops : List SelOp) (hf : Fresh c h) :
    Overlay c h (unregister c (register c ops 0 h).2.1 (register c ops 0 h).1) ∧
    Fresh c (unregister c (register c ops 0 h).2.1 (register c ops 0 h).1) := by
  obtain ⟨hover, hfree, -⟩ := register_spec ops 0 hf.overlay fun j _ => hf.own j
  obtain ⟨hover', hfree'⟩ := unregister_spec (register c ops 0 h).2.1 hover
  refine ⟨hover', hover'.wf, ?_, ?_, ?_, ?_⟩
  · intro i
    by_cases hi : i < (register c ops 0 h).2.1
    · exact hfree' i (Or.inl hi)
    · exact hfree' i (Or.inr (hfree i (by omega)))
  · rw [hover'.winner]
    exact hf.winner
  · rw [hover'.node _ rfl]
    exact hf.waiting
  · rw [hover'.node _ rfl]
    exact hf.cancel

end Overlay

/-! ## One pass -/

/-- Whether the scan tries a case with a value that finds its counterparts on list `l`. -/
def Tried (ops : List SelOp) (order : List ℕ) (l : ListId) : Prop :=
  ∃ i ∈ order, ∃ o, ops[i]? = some o ∧ o.null = false ∧ o.peers = l

/-- What a scan without success leaves behind. -/
structure Swept (ops : List SelOp) (order : List ℕ) (h h' : Heap) : Prop where
  /-- Lists and nodes agree. -/
  wf : h'.waits.WF
  /-- The channels are as before. -/
  chan : h'.chan = h.chan
  /-- So are the winner words. -/
  winner : h'.waits.winner = h.waits.winner
  /-- So are the nodes that are on no list. -/
  node : ∀ n, (h.waits.node n).waitList = none → h'.waits.node n = h.waits.node n
  /-- Lists of counterparts are empty. -/
  empty : ∀ l, Tried ops order l → h'.waits.queue l = []
  /-- The other lists are as before. -/
  queue : ∀ l, ¬ Tried ops order l → h'.waits.queue l = h.waits.queue l
  /-- The same cases are ready, that is, none that the scan has tried. -/
  ready : ready h' ops = ready h ops

lemma tryScan_swept {h : Heap} {a : Ctx} {ops : List SelOp} {order : List ℕ} (hw : h.waits.WF)
    (hmiss : (tryScan a ops order h).2 = none) : Swept ops order h (tryScan a ops order h).1 := by
  induction order generalizing h with
  | nil =>
    refine ⟨hw, rfl, rfl, fun _ _ => rfl, ?_, fun _ _ => rfl, rfl⟩
    rintro l ⟨i, hi, -⟩
    cases hi
  | cons i rest ih =>
    have hskip : (∀ o, ops[i]? = some o → o.null = true) → Swept ops rest h (tryScan a ops rest h).1 →
        Swept ops (i :: rest) h (tryScan a ops rest h).1 := by
      intro hnull hs
      have htried : ∀ l, Tried ops (i :: rest) l ↔ Tried ops rest l := by
        intro l
        unfold Tried
        rw [List.exists_mem_cons_iff]
        refine or_iff_right ?_
        rintro ⟨o, ho, hval, -⟩
        rw [hnull o ho] at hval
        cases hval
      exact ⟨hs.wf, hs.chan, hs.winner, hs.node, fun l hl => hs.empty l ((htried l).mp hl),
        fun l hl => hs.queue l fun ht => hl ((htried l).mpr ht), hs.ready⟩
    rw [tryScan] at hmiss ⊢
    cases hi : ops[i]? with
    | none =>
      rw [hi] at hmiss
      exact hskip (by simp [hi]) (ih hw hmiss)
    | some o =>
      rw [hi] at hmiss
      cases hnull : o.null with
      | true =>
        have htry : o.tryOp h a = (h, .ret .inval) := by simp [SelOp.tryOp, hnull]
        simp only [htry] at hmiss ⊢
        refine hskip ?_ (ih hw hmiss)
        intro o' ho'
        rw [hi] at ho'
        rw [← Option.some.inj ho', hnull]
      | false =>
        have htry : o.tryOp h a = exec h a o.op := by simp [SelOp.tryOp, hnull]
        simp only [htry] at hmiss ⊢
        rcases tryOp_cases (a := a) hw o.toCase with ⟨-, code, hhit, -⟩ | ⟨-, hhit, w', hheap, hempty⟩
        · rw [hhit] at hmiss
          cases hmiss
        · simp only [hhit, hheap] at hmiss ⊢
          have hs := @ih { h with waits := w' } (hempty.granted .ok).wf hmiss
          have hnode : ∀ n, (h.waits.node n).waitList = none → w'.node n = h.waits.node n := by
            intro n hn
            rcases (hempty.granted .ok).other n (by simp) with heq | ⟨c, j, l, -, hmem, -⟩
            · exact heq
            · rw [hw.mem_iff, hn] at hmem
              cases hmem
          refine ⟨hs.wf, hs.chan, hs.winner.trans hempty.winner, ?_, ?_, ?_, hs.ready.trans (ready_emptied hempty ops)⟩
          · intro n hn
            exact (hs.node n (by rw [hnode n hn, hn])).trans (hnode n hn)
          · rintro l ⟨j, hj, o', ho', hval, hl⟩
            by_cases ht : Tried ops rest l
            · exact hs.empty l ht
            · rcases List.mem_cons.mp hj with rfl | hj
              · rw [hi] at ho'
                obtain rfl := Option.some.inj ho'
                rw [hs.queue l ht, ← hl]
                exact hempty.nil
              · exact absurd ⟨j, hj, o', ho', hval, hl⟩ ht
          · intro l hl
            have hrest : ¬ Tried ops rest l := by
              rintro ⟨j, hj, ho⟩
              exact hl ⟨j, List.mem_cons_of_mem _ hj, ho⟩
            rw [hs.queue l hrest]
            refine hempty.queue l ?_
            rintro rfl
            exact hl ⟨i, List.mem_cons_self, o, hi, hnull, rfl⟩

/-- What a scan sees of a heap. -/
structure Alike (h h' : Heap) : Prop where
  /-- The channels. -/
  chan : h'.chan = h.chan
  /-- The winner words. -/
  winner : h'.waits.winner = h.waits.winner
  /-- The lists. -/
  queue : ∀ l, h'.waits.queue l = h.waits.queue l

namespace Alike

variable {h h' : Heap}

lemma stops (ha : Alike h h') (k : Case) : k.stops h' = k.stops h := by
  simp only [Case.stops, ha.chan, ha.queue]

lemma ready (ha : Alike h h') (ops : List SelOp) : ready h' ops = ready h ops := by
  have husable : ∀ n, h'.waits.Usable n ↔ h.waits.Usable n := by
    intro n
    cases n with
    | wq c => exact Iff.rfl
    | sel c i =>
      show h'.waits.winner c = none ↔ h.waits.winner c = none
      rw [ha.winner]
  funext i
  simp only [Wait.ready, Case.canProceed, ha.chan, ha.queue, husable]

end Alike

section Pass

variable {c : CrId} {h : Heap} {ops : List SelOp}

/-- A pass parks if `s_select_case_ready` holds for no case. -/
lemma pass_parks (now : UInt64) (seed : UInt32) (hf : Fresh c h) (hno : ∀ o ∈ ops, o.stops h = false) :
    ∃ h', pass c ops now h seed = .inl (.parked h') := by
  obtain ⟨hover, -, hiff⟩ := register_spec ops 0 hf.overlay fun j _ => hf.own j
  have hrescan : (register c ops 0 h).2.2 = false := by
    by_contra hyes
    obtain ⟨o, ho, hstop⟩ := hiff.mp (by simpa using hyes)
    rw [hno o ho] at hstop
    cases hstop
  have hwinner : (register c ops 0 h).1.waits.winner c = none := by
    rw [hover.winner]
    exact hf.winner
  have hwaiting : ((register c ops 0 h).1.waits.node (.wq c)).status = .waiting := by
    rw [hover.node _ rfl]
    exact hf.waiting
  refine ⟨(register c ops 0 h).1, ?_⟩
  simp only [pass, hrescan, hwinner, hwaiting, and_self, if_true]

/-- Otherwise it scans a heap that looks the same. -/
lemma pass_scans (now : UInt64) (seed : UInt32) (hf : Fresh c h) (hyes : ∃ o ∈ ops, o.stops h = true) :
    ∃ h₁, Alike h h₁ ∧ Fresh c h₁ ∧ pass c ops now h seed =
      let r := tryScan (.co c) ops (scanOrder (rand32 seed now).toNat ops.length) h₁
      match r.2 with
      | some (i, code) => .inl (.done r.1 i code)
      | none => .inr (r.1, rand32 seed now) := by
  obtain ⟨hover, hfresh⟩ := unregister_register ops hf
  obtain ⟨-, -, hiff⟩ := register_spec ops 0 hf.overlay fun j _ => hf.own j
  have hqueue : ∀ l, (unregister c (register c ops 0 h).2.1 (register c ops 0 h).1).waits.queue l =
      h.waits.queue l := by
    intro l
    rw [← hover.queue l]
    exact (filter_own hfresh.wf hfresh.own l).symm
  refine ⟨_, ⟨hover.chan, hover.winner, hqueue⟩, hfresh, ?_⟩
  have hrescan : (register c ops 0 h).2.2 = true := hiff.mpr hyes
  simp only [pass, hrescan, hfresh.winner, hfresh.waiting, Bool.true_eq_false, false_and, if_false, ne_eq,
    not_true_eq_false, or_self]
  split
  next hscan => simp only [hscan]
  next hscan => simp only [hscan]

/-- A pass that finds no ready case in its order leaves a swept heap. -/
lemma pass_misses (now : UInt64) (seed : UInt32) (hf : Fresh c h) (hyes : ∃ o ∈ ops, o.stops h = true)
    (hmiss : (scanOrder (rand32 seed now).toNat ops.length).find? (ready h ops) = none) :
    ∃ h₁ h', Alike h h₁ ∧ Swept ops (scanOrder (rand32 seed now).toNat ops.length) h₁ h' ∧ Fresh c h' ∧
      pass c ops now h seed = .inr (h', rand32 seed now) := by
  obtain ⟨h₁, halike, hfresh, hpass⟩ := pass_scans now seed hf hyes
  have hscan : (tryScan (.co c) ops (scanOrder (rand32 seed now).toNat ops.length) h₁).2 = none := by
    rw [← Option.map_eq_none_iff, tryScan_find? hfresh.wf, halike.ready]
    exact hmiss
  have hswept := tryScan_swept hfresh.wf hscan
  refine ⟨h₁, _, halike, hswept, ⟨hswept.wf, ?_, ?_, ?_, ?_⟩, ?_⟩
  · intro i
    rw [hswept.node _ (hfresh.own i)]
    exact hfresh.own i
  · rw [hswept.winner]
    exact hfresh.winner
  · rw [hswept.node _ hfresh.cancel]
    exact hfresh.waiting
  · rw [hswept.node _ hfresh.cancel]
    exact hfresh.cancel
  · simp only [hpass, hscan]

/-- What becomes of a pass that `s_select_case_ready` has stopped at case `o`: it completes a case, or `o` is no
reason to stop any more. -/
def Progress (c : CrId) (ops : List SelOp) (now : UInt64) (h : Heap) (seed : UInt32) (o : SelOp) : Prop :=
  (∃ h' i code, pass c ops now h seed = .inl (.done h' i code)) ∨
  ∃ h' r, pass c ops now h seed = .inr (h', r) ∧ o.stops h' = false

lemma Case.canProceed_stops {k : Case} (hk : k.canProceed h = true) : k.stops h = true := by
  unfold Case.canProceed at hk
  unfold Case.stops
  rw [Bool.or_eq_true] at hk ⊢
  refine hk.imp_right ?_
  intro hany
  obtain ⟨n, hn, -⟩ := List.any_eq_true.mp hany
  simpa [List.isEmpty_iff] using List.ne_nil_of_mem hn

/-- A pass whose scan tries a ready case completes one. -/
lemma pass_hits (now : UInt64) (seed : UInt32) (hf : Fresh c h) {i : ℕ}
    (hi : i ∈ scanOrder (rand32 seed now).toNat ops.length) (hready : ready h ops i = true) :
    ∃ h' j code, pass c ops now h seed = .inl (.done h' j code) := by
  have hlt := ready_lt hready
  have hyes : ∃ o ∈ ops, o.stops h = true := by
    refine ⟨ops[i], List.getElem_mem hlt, ?_⟩
    rw [ready, List.getElem?_eq_getElem hlt, Bool.and_eq_true] at hready
    exact Case.canProceed_stops hready.2
  obtain ⟨h₁, halike, hfresh, hpass⟩ := pass_scans now seed hf hyes
  obtain ⟨j, hj⟩ := Option.isSome_iff_exists.mp (List.find?_isSome.mpr ⟨i, hi, hready⟩)
  rw [← halike.ready, ← tryScan_find? (a := .co c) hfresh.wf] at hj
  obtain ⟨⟨j, code⟩, hscan, rfl⟩ := Option.map_eq_some_iff.mp hj
  refine ⟨(tryScan (.co c) ops (scanOrder (rand32 seed now).toNat ops.length) h₁).1, j, code, ?_⟩
  simp only [hpass, hscan]

/-- A pass is progress if, and only if, its scan tries a ready case, or the case it has stopped at is stopped at
for waiters only and the scan tries a case that finds its counterparts among them. -/
lemma progress_iff (now : UInt64) (seed : UInt32) (hf : Fresh c h) {o : SelOp} (ho : o ∈ ops)
    (hstop : o.stops h = true) : Progress c ops now h seed o ↔
      (∃ i ∈ scanOrder (rand32 seed now).toNat ops.length, ready h ops i = true) ∨
      ((h.chan o.ch).closed = false ∧ o.fits (h.chan o.ch) = false ∧
        Tried ops (scanOrder (rand32 seed now).toNat ops.length) o.peers) := by
  by_cases hready : ∃ i ∈ scanOrder (rand32 seed now).toNat ops.length, ready h ops i = true
  · obtain ⟨i, hi, hyes⟩ := hready
    exact iff_of_true (Or.inl (pass_hits now seed hf hi hyes)) (Or.inl ⟨i, hi, hyes⟩)
  · have hmiss := List.find?_eq_none.mpr fun i hi hyes => hready ⟨i, hi, hyes⟩
    obtain ⟨h₁, h', halike, hswept, -, hpass⟩ := pass_misses now seed hf ⟨o, ho, hstop⟩ hmiss
    have hchan : h'.chan = h.chan := hswept.chan.trans halike.chan
    have hiff : Progress c ops now h seed o ↔ o.stops h' = false := by
      unfold Progress
      rw [hpass]
      simp
    rw [hiff, or_iff_right hready]
    by_cases htried : Tried ops (scanOrder (rand32 seed now).toNat ops.length) o.peers
    · simp only [Case.stops, hchan, hswept.empty _ htried, List.isEmpty_nil, Bool.not_true, Bool.or_false,
        Bool.or_eq_false_iff, htried, and_true]
    · have hqueue := (hswept.queue _ htried).trans (halike.queue _)
      have hsame : o.stops h' = true := by
        rw [← hstop]
        simp only [Case.stops, hchan, hqueue]
      simp only [hsame, Bool.true_eq_false, htried, and_false]

end Pass

/-! ## The whole select -/

/-- No case is ready, but `s_select_case_ready` holds for a case without a value, and no case with a value finds
its counterparts where that one does. -/
def Stuck (h : Heap) (ops : List SelOp) : Prop :=
  (∀ i, ready h ops i = false) ∧
  ∃ o ∈ ops, o.null = true ∧ o.stops h = true ∧ ∀ o' ∈ ops, o'.null = false → o'.peers ≠ o.peers

/-- A heap in which the same cases are ready, and the same ones stop a pass as far as no case with a value looks
at their counterparts. -/
lemma stuck_congr {h h' : Heap} {ops : List SelOp} (hready : ready h' ops = ready h ops)
    (hstops : ∀ o ∈ ops, (∀ o' ∈ ops, o'.null = false → o'.peers ≠ o.peers) → o.stops h' = o.stops h) :
    Stuck h' ops ↔ Stuck h ops := by
  unfold Stuck
  rw [hready]
  refine and_congr_right fun _ => exists_congr fun o => ?_
  constructor
  · rintro ⟨ho, hnull, hstop, halone⟩
    exact ⟨ho, hnull, by rw [← hstops o ho halone]; exact hstop, halone⟩
  · rintro ⟨ho, hnull, hstop, halone⟩
    exact ⟨ho, hnull, by rw [hstops o ho halone]; exact hstop, halone⟩

lemma Swept.stuck_iff {h h' : Heap} {ops : List SelOp} {order : List ℕ} (hs : Swept ops order h h') :
    Stuck h' ops ↔ Stuck h ops := by
  refine stuck_congr hs.ready ?_
  intro o _ halone
  have hnot : ¬ Tried ops order o.peers := by
    rintro ⟨i, -, o', ho', hval, hpeers⟩
    exact halone o' (List.mem_of_getElem? ho') hval hpeers
  simp only [Case.stops, hs.chan, hs.queue _ hnot]

lemma Alike.stuck_iff {h h' : Heap} {ops : List SelOp} (ha : Alike h h') : Stuck h' ops ↔ Stuck h ops :=
  stuck_congr (ha.ready ops) fun o _ _ => ha.stops o.toCase

lemma Case.peers_inj {k k' : Case} (h : k.peers = k'.peers) : k.ch = k'.ch ∧ k.isSend = k'.isSend := by
  unfold Case.peers at h
  split at h <;> split at h <;> simp_all

/-- A scan of all cases that finds none ready leaves nothing that stops a pass, unless the select is stuck. -/
lemma Swept.not_stops {h h' : Heap} {ops : List SelOp} {order : List ℕ} (hs : Swept ops order h h')
    (hall : ∀ i < ops.length, i ∈ order) (hnone : ∀ i, Wait.ready h ops i = false) (hstuck : ¬ Stuck h ops) :
    ∀ o ∈ ops, o.stops h' = false := by
  -- a case with a value is not ready, and its counterparts are swept away
  have hvalue : ∀ o ∈ ops, o.null = false → (h.chan o.ch).closed = false ∧ o.fits (h.chan o.ch) = false ∧
      h'.waits.queue o.peers = [] := by
    intro o ho hval
    obtain ⟨i, hi, rfl⟩ := List.getElem_of_mem ho
    have hno := hnone i
    rw [Wait.ready, List.getElem?_eq_getElem hi] at hno
    simp only [hval, Bool.not_false, Bool.true_and, Case.canProceed, Bool.or_eq_false_iff] at hno
    exact ⟨hno.1.1, hno.1.2, hs.empty _ ⟨i, hall i hi, ops[i], List.getElem?_eq_getElem hi, hval, rfl⟩⟩
  intro o ho
  cases hnull : o.null with
  | false =>
    obtain ⟨hopen, hfits, hempty⟩ := hvalue o ho hnull
    simp only [Case.stops, hs.chan, hopen, hfits, hempty, List.isEmpty_nil, Bool.not_true, Bool.or_self]
  | true =>
    by_contra hstop
    refine hstuck (hs.stuck_iff.mp ⟨by rw [hs.ready]; exact hnone, o, ho, hnull, by simpa using hstop, ?_⟩)
    rintro o' ho' hval hpeers
    obtain ⟨hopen, hfits, hempty⟩ := hvalue o' ho' hval
    obtain ⟨hch, hsend⟩ := Case.peers_inj hpeers
    refine hstop ?_
    simp only [Case.fits, hch, hsend] at hopen hfits
    rw [hpeers] at hempty
    simp only [Case.stops, Case.fits, hs.chan, hopen, hfits, hempty, List.isEmpty_nil, Bool.not_true, Bool.or_self]

/-- Behind a random number near the wrap comes one that is not. -/
lemma rand32_recover {seed : UInt32} (now : UInt64) (hseed : 2 ^ 32 < seed.toNat + 64) :
    (rand32 seed now).toNat + 64 ≤ 2 ^ 32 := by
  have hall : ∀ k < 64, (rand32 (UInt32.ofNat (4294967295 - k)) 0).toNat + 64 ≤ 2 ^ 32 := by decide
  have hlt := seed.toNat_lt
  have hne : seed ≠ 0 := by
    rintro rfl
    simp at hseed
  have hfound := hall (4294967295 - seed.toNat) (by omega)
  rw [show 4294967295 - (4294967295 - seed.toNat) = seed.toNat by omega, UInt32.ofNat_toNat] at hfound
  simp only [rand32, hne, if_false] at hfound ⊢
  exact hfound

section Select

variable {c : CrId} {h : Heap} {ops : List SelOp}

/-- A stuck select goes round for ever. -/
lemma passes_stuck (now : UInt64) (fuel : ℕ) (seed : UInt32) (hf : Fresh c h) (hstuck : Stuck h ops) :
    passes c ops now fuel h seed = none := by
  induction fuel generalizing h seed with
  | zero => rfl
  | succ fuel ih =>
    obtain ⟨hnone, o, ho, -, hstop, -⟩ := id hstuck
    obtain ⟨h₁, h', halike, hswept, hfresh, hpass⟩ := pass_misses now seed hf ⟨o, ho, hstop⟩
      (List.find?_eq_none.mpr fun i _ => by simp [hnone i])
    simp only [passes, hpass]
    exact ih (rand32 seed now) hfresh (hswept.stuck_iff.mpr (halike.stuck_iff.mpr hstuck))

/-- One pass of a select that is not stuck: it ends, or it leaves a select that is not stuck, and none that a
pass stops at if the scan has tried all cases. -/
lemma pass_not_stuck (now : UInt64) (seed : UInt32) (hf : Fresh c h) (hstuck : ¬ Stuck h ops) :
    (∃ e, pass c ops now h seed = .inl e) ∨
    ∃ h', pass c ops now h seed = .inr (h', rand32 seed now) ∧ Fresh c h' ∧ ¬ Stuck h' ops ∧
      ((rand32 seed now).toNat + ops.length ≤ 2 ^ 32 → ∀ o ∈ ops, o.stops h' = false) := by
  by_cases hyes : ∃ o ∈ ops, o.stops h = true
  · cases hfind : (scanOrder (rand32 seed now).toNat ops.length).find? (ready h ops) with
    | some i =>
      obtain ⟨h', j, code, hpass⟩ := pass_hits now seed hf (List.mem_of_find?_eq_some hfind) (List.find?_some hfind)
      exact Or.inl ⟨_, hpass⟩
    | none =>
      obtain ⟨h₁, h', halike, hswept, hfresh, hpass⟩ := pass_misses now seed hf hyes hfind
      refine Or.inr ⟨h', hpass, hfresh, ?_, ?_⟩
      · rwa [hswept.stuck_iff, halike.stuck_iff]
      · intro hfit
        have hall : ∀ i < ops.length, i ∈ scanOrder (rand32 seed now).toNat ops.length := by
          intro i hi
          rw [scanOrder_of_le hfit, (Cyclic.round_perm (by omega) _).mem_iff]
          exact List.mem_range.mpr hi
        refine hswept.not_stops hall ?_ (by rwa [halike.stuck_iff])
        intro i
        rw [halike.ready]
        by_contra hready
        have hready : ready h ops i = true := by simpa using hready
        exact List.find?_eq_none.mp hfind i (hall i (ready_lt hready)) hready
  · obtain ⟨h', hpass⟩ := pass_parks now seed hf fun o ho => by
      by_contra hstop
      exact hyes ⟨o, ho, by simpa using hstop⟩
    exact Or.inl ⟨_, hpass⟩

/-- A select that is not stuck ends within three passes. -/
lemma passes_not_stuck (now : UInt64) (seed : UInt32) (hlen : ops.length ≤ 64) (hf : Fresh c h)
    (hstuck : ¬ Stuck h ops) : ∃ fuel e, passes c ops now fuel h seed = some e := by
  have hends : ∀ {h' : Heap} {r : UInt32}, Fresh c h' → (∀ o ∈ ops, o.stops h' = false) →
      ∃ e, passes c ops now 1 h' r = some e := by
    intro h' r hfresh hno
    obtain ⟨h'', hpass⟩ := pass_parks now r hfresh hno
    exact ⟨.parked h'', by simp only [passes, hpass]⟩
  -- a pass from a random number that does not make the count wrap, and the one that parks behind it
  have hgood : ∀ {h' : Heap} {r : UInt32}, Fresh c h' → ¬ Stuck h' ops →
      (rand32 r now).toNat + ops.length ≤ 2 ^ 32 → ∃ e, passes c ops now 2 h' r = some e := by
    intro h' r hfresh hstuck' hfit
    rcases pass_not_stuck now r hfresh hstuck' with ⟨e, hpass⟩ | ⟨h'', hpass, hfresh', -, hno⟩
    · exact ⟨e, by simp only [passes, hpass]⟩
    · obtain ⟨e, he⟩ := hends (r := rand32 r now) hfresh' (hno hfit)
      exact ⟨e, by rw [passes, hpass]; exact he⟩
  by_cases hfit : (rand32 seed now).toNat + ops.length ≤ 2 ^ 32
  · exact ⟨2, hgood hf hstuck hfit⟩
  · refine ⟨3, ?_⟩
    rcases pass_not_stuck now seed hf hstuck with ⟨e, hpass⟩ | ⟨h', hpass, hfresh, hstuck', -⟩
    · exact ⟨e, by simp only [passes, hpass]⟩
    · have hnext := @rand32_recover (rand32 seed now) now (by omega)
      obtain ⟨e, he⟩ := hgood (r := rand32 seed now) hfresh hstuck' (by omega)
      exact ⟨e, by rw [passes, hpass]; exact he⟩

/-- A select of which no node is on a list is fresh once its record is filled in. -/
lemma fresh_selInit (hw : h.waits.WF) (hown : ∀ i, (h.waits.node (.sel c i)).waitList = none)
    (hcancel : (h.waits.node (.wq c)).waitList = none) :
    Fresh c (selInit c h) ∧ (Stuck (selInit c h) ops ↔ Stuck h ops) := by
  have hwf : (h.waits.parkNone c).WF := hw.setNode hcancel rfl
  refine ⟨⟨⟨hwf.nodup, hwf.mem_iff, hwf.waiting, hwf.sel⟩, ?_, ?_, ?_, ?_⟩, ?_⟩
  · intro i
    simpa [selInit, Waits.parkNone] using hown i
  · simp [selInit]
  · simp [selInit, Waits.parkNone]
  · simp [selInit, Waits.parkNone]
  · refine stuck_congr ?_ fun _ _ _ => rfl
    funext i
    unfold ready
    split
    · rename_i o _
      have hany : (h.waits.queue o.peers).any (fun n => decide ((selInit c h).waits.Usable n)) =
          (h.waits.queue o.peers).any fun n => decide (h.waits.Usable n) := by
        rw [Bool.eq_iff_iff]
        simp only [List.any_eq_true, decide_eq_true_eq]
        refine exists_congr fun n => and_congr_right fun hn => ?_
        cases n with
        | wq c' => exact Iff.rfl
        | sel c' j =>
          have hne : c' ≠ c := by
            rintro rfl
            have hlist := (hw.mem_iff _ _).mp hn
            rw [hown j] at hlist
            cases hlist
          show Function.update h.waits.winner c none c' = none ↔ h.waits.winner c' = none
          rw [Function.update_of_ne hne]
      simp only [Case.canProceed]
      rw [← hany]
      rfl
    · rfl

/-- A select of which no node is on a list returns or parks unless it is stuck. -/
lemma selectDl_ends_iff (hw : h.waits.WF) (hown : ∀ i, (h.waits.node (.sel c i)).waitList = none)
    (hcancel : (h.waits.node (.wq c)).waitList = none) (now : UInt64) (seed : UInt32) :
    (∃ fuel e, selectDl c ops now fuel h seed = some e) ↔ 64 < ops.length ∨ ¬ Stuck h ops := by
  by_cases hlen : ops.length = 0 ∨ 64 < ops.length
  · refine iff_of_true ⟨0, .failed .inval, by rw [selectDl, if_pos hlen]⟩ ?_
    rcases hlen with hnil | hlong
    · right
      rintro ⟨-, o, ho, -⟩
      rw [List.length_eq_zero_iff.mp hnil] at ho
      cases ho
    · exact Or.inl hlong
  · simp only [selectDl, if_neg hlen]
    rw [or_iff_right (by omega)]
    cases hscan : tryScan (.co c) ops (scanOrder (rand32 seed now).toNat ops.length) h with
    | mk h' found =>
      cases found with
      | some r =>
        obtain ⟨i, code⟩ := r
        refine iff_of_true ⟨0, .done h' i code, rfl⟩ ?_
        rintro ⟨hnone, -⟩
        have hfind := tryScan_find? (a := .co c) hw ops (scanOrder (rand32 seed now).toNat ops.length)
        rw [hscan] at hfind
        have hready := List.find?_some hfind.symm
        rw [hnone] at hready
        cases hready
      | none =>
        have hswept : Swept ops (scanOrder (rand32 seed now).toNat ops.length) h h' := by
          have hmiss := @tryScan_swept h (.co c) ops (scanOrder (rand32 seed now).toNat ops.length) hw
            (by rw [hscan])
          rw [hscan] at hmiss
          exact hmiss
        obtain ⟨hfresh, hstuck⟩ := fresh_selInit (c := c) hswept.wf
          (fun i => by rw [hswept.node _ (hown i)]; exact hown i) (by rw [hswept.node _ hcancel]; exact hcancel)
        dsimp only
        constructor
        · rintro ⟨fuel, e, hsome⟩ hyes
          rw [passes_stuck now fuel _ hfresh (hstuck.mpr (hswept.stuck_iff.mpr hyes))] at hsome
          cases hsome
        · intro hnot
          exact passes_not_stuck now _ (by omega) hfresh fun hyes =>
            hnot (hswept.stuck_iff.mp (hstuck.mp hyes))

end Select

/-- A select that runs while nobody else does returns or parks if, and only if, it has too many cases or is not
stuck.  Each of its passes that a case stops completes a case or removes that reason if, and only if, its scan
tries a ready case, or a case with a value that finds its counterparts among the waiters that are the reason. -/
theorem select_progress {cfg : Config} {s : Core} (hreach : Reachable Step (.init cfg) s) {c : CrId}
    (hpc : s.pc (.co c) = .idle) (ops : List SelOp) (now : UInt64) (seed : UInt32) :
    ((∃ fuel e, selectDl c ops now fuel s.heap seed = some e) ↔ 64 < ops.length ∨ ¬ Stuck s.heap ops) ∧
    ∀ h r, Fresh c h → ∀ o ∈ ops, o.stops h = true → (Progress c ops now h r o ↔
      (∃ i ∈ scanOrder (rand32 r now).toNat ops.length, ready h ops i = true) ∨
      ((h.chan o.ch).closed = false ∧ o.fits (h.chan o.ch) = false ∧
        Tried ops (scanOrder (rand32 r now).toNat ops.length) o.peers)) := by
  have hinv := inv_reachable hreach
  have hown : ∀ i, (s.heap.waits.node (.sel c i)).waitList = none := by
    intro i
    cases hlist : (s.heap.waits.node (.sel c i)).waitList with
    | none => rfl
    | some l =>
      have hlinked := hinv.sel c i l hlist
      rw [hpc] at hlinked
      exact hlinked.elim
  have hcancel : (s.heap.waits.node (.wq c)).waitList = none := by
    refine ((hinv.node c).out ?_).1
    rw [hpc]
    rfl
  exact ⟨selectDl_ends_iff hinv.wf hown hcancel now seed, fun h r hf o ho hstop => progress_iff now r hf ho hstop⟩

/-- A receive from an empty channel parks. -/
theorem select_progress_of_receive :
    ∃ fuel e, selectDl 0 [⟨⟨0, false, []⟩, false⟩] 0 fuel (Heap.init fun _ => (4, 1)) 1 = some e := by
  have hreach : Reachable Step (.init fun _ => (4, 1)) (Core.init fun _ => (4, 1)) := ⟨[], .nil _⟩
  refine (select_progress hreach (c := 0) rfl [⟨⟨0, false, []⟩, false⟩] 0 1).1.mpr (Or.inr ?_)
  rintro ⟨-, o, ho, hnull, -⟩
  rw [List.mem_singleton.mp ho] at hnull
  cases hnull

/-- A send without a value on a channel with room: the select goes round for ever. -/
theorem select_of_null : ¬ ∃ fuel e,
    selectDl 0 [⟨⟨0, true, []⟩, true⟩] 0 fuel (Heap.init fun _ => (4, 1)) 1 = some e := by
  have hstuck : Stuck (Heap.init fun _ => (4, 1)) [⟨⟨0, true, []⟩, true⟩] := by
    refine ⟨?_, ⟨⟨0, true, []⟩, true⟩, List.mem_singleton_self _, rfl, rfl, ?_⟩
    · intro i
      cases i <;> rfl
    · intro o' ho' hval
      rw [List.mem_singleton.mp ho'] at hval
      cases hval
  exact (selectDl_ends_iff (c := 0) Waits.wf_init (fun _ => rfl) rfl 0 1).not.mpr fun hend =>
    hend.elim (by decide) fun hnot => hnot hstuck

end Suspenders.Wait
