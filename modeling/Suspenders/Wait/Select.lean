import Suspenders.Wait.Footprint

/-!
# Selects commit to one case

History variables record, for every context, the cases of the select it is in and the cases whose
operation has taken effect: a try that returned `OK`, or a peer that completed a registered case by
granting its node with `OK`.  `select_commits_once` says what has happened when the select returns.

The invariant `Pc.SelOk` follows the select through its code.  While its nodes are registered, the
`winner` word tells what took effect; afterwards the node that won, or the try that succeeded.
-/

namespace Suspenders.Wait

open Lib

/-- What is recorded about selects. -/
structure SelHist where
  /-- The cases of the select each context has called last. -/
  ops : Ctx → List Case
  /-- The cases of that select whose operation has taken effect, in order. -/
  eff : Ctx → List ℕ

/-- The cases of `c`'s select among the granted nodes. -/
def casesOf (c : CrId) (G : List NodeRef) : List ℕ :=
  G.filterMap fun n => match n with
    | .sel c' i => if c' = c then some i else none
    | .wq _ => none

/-- The cases of `c`'s select that an action completes: those whose nodes it grants `OK`. -/
def Act.completes (act : Act) (c : CrId) : List ℕ :=
  if act.code = .ok then casesOf c act.decides else []

namespace SelHist

/-- Nothing has been called. -/
def init : SelHist := ⟨fun _ => [], fun _ => []⟩

/-- Context `a` calls a select. -/
def start (m : SelHist) (a : Ctx) (ops : List Case) : SelHist :=
  ⟨Function.update m.ops a ops, Function.update m.eff a []⟩

/-- The cases that action `act` completes for their selects have taken effect. -/
def granted (m : SelHist) (act : Act) : SelHist :=
  { m with eff := fun a => match a with
    | .co c => m.eff (.co c) ++ act.completes c
    | a => m.eff a }

/-- Context `a` has tried case `i`. -/
def tried (m : SelHist) (a : Ctx) (i : ℕ) (out : Out) : SelHist :=
  if out.hit = some .ok then { m with eff := Function.update m.eff a (m.eff a ++ [i]) } else m

/-- What a step records. -/
def record (m : SelHist) (_ : Core) (e : Event) : SelHist :=
  match e.act with
  | .call (.select ops) => m.start e.ctx ops
  | .selTry i k out => (m.granted (.selTry i k out)).tried e.ctx i out
  | act => m.granted act

end SelHist

/-! ## The invariant -/

/-- The channel of case `i` is closed. -/
def ClosedAt (h : Heap) (ops : List Case) (i : ℕ) : Prop :=
  ∃ k, ops[i]? = some k ∧ (h.chan k.ch).closed = true

/-- A try of case `i` ended with `code`. -/
def TryOk (h : Heap) (ops : List Case) (eff : List ℕ) (i : ℕ) (code : Code) : Prop :=
  i < ops.length ∧ ((code = .ok ∧ eff = [i]) ∨ (code = .closed ∧ eff = [] ∧ ClosedAt h ops i))

/-- The `winner` word of `c`'s select accounts for what took effect. -/
def WinOk (h : Heap) (ops : List Case) (eff : List ℕ) (c : CrId) : Option ℕ → Prop
  | none => eff = []
  | some i => ∃ code, (h.waits.node (.sel c i)).status = .decided code ∧ TryOk h ops eff i code

/-- The cancel node is not decided `OK`. -/
def CancelOk (h : Heap) (c : CrId) : Prop := (h.waits.node (.wq c)).status ≠ .decided .ok

/-- What took effect, against the place of a select that has the cases `ops`. -/
def Pc.SelOk (h : Heap) (a : Ctx) (ops : List Case) (eff : List ℕ) : Pc → Prop
  | pre (.select ops') | selScan ops' _ | selInit ops' => ops' = ops ∧ eff = []
  | selReg ops' r =>
    ops' = ops ∧ ∃ c, a = .co c ∧ CancelOk h c ∧ WinOk h ops eff c (h.waits.winner c) ∧
      ∀ i, h.waits.winner c = some i → i < r
  | selTest ops' | selSusp ops' | selUnreg ops' _ _ _ =>
    ops' = ops ∧ ∃ c, a = .co c ∧ CancelOk h c ∧ WinOk h ops eff c (h.waits.winner c)
  | selRescan ops' _ =>
    ops' = ops ∧ ∃ c, a = .co c ∧ CancelOk h c ∧ h.waits.winner c = none ∧ eff = []
  | selSync ops' win scan | selSync2 ops' win scan | selFin ops' win scan =>
    ops' = ops ∧ ∃ c, a = .co c ∧ CancelOk h c ∧
      ((scan = none ∧ WinOk h ops eff c win) ∨
        (win = none ∧ ∃ i code, scan = some (i, code) ∧ TryOk h ops eff i code))
  | selRet (some i) code => TryOk h ops eff i code
  | selRet none code => eff = [] ∧ code ≠ .ok
  | _ => True

/-- The invariant of all selects. -/
def SelInv (p : Core × SelHist) : Prop :=
  ∀ a, (p.1.pc a).SelOk p.1.heap a (p.2.ops a) (p.2.eff a)

/-! ## Contexts that do not act -/

lemma casesOf_eq_nil {c : CrId} {G : List NodeRef} (h : ∀ i, .sel c i ∉ G) : casesOf c G = [] := by
  induction G with
  | nil => rfl
  | cons n G ih =>
    have hG : casesOf c G = [] := ih fun i hi => h i (List.mem_cons_of_mem _ hi)
    cases n with
    | wq c' => simpa [casesOf] using hG
    | sel c' i =>
      have hc : c' ≠ c := by
        rintro rfl
        exact h i (List.mem_cons_self ..)
      simpa [casesOf, hc] using hG

lemma casesOf_eq_singleton {c : CrId} {G : List NodeRef} {i : ℕ} (hnodup : G.Nodup)
    (h : ∀ j, .sel c j ∈ G ↔ j = i) : casesOf c G = [i] := by
  induction G with
  | nil => simpa using h i
  | cons n G ih =>
    obtain ⟨hn, hG⟩ := List.nodup_cons.mp hnodup
    by_cases hni : n = .sel c i
    · subst hni
      have hrest : casesOf c G = [] := by
        refine casesOf_eq_nil fun j hj => ?_
        obtain rfl := (h j).mp (List.mem_cons_of_mem _ hj)
        exact hn hj
      simpa [casesOf] using hrest
    · have hrest : casesOf c G = [i] := by
        refine ih hG fun j => ⟨fun hj => (h j).mp (List.mem_cons_of_mem _ hj), ?_⟩
        rintro rfl
        exact (List.mem_cons.mp ((h j).mpr rfl)).resolve_left (Ne.symm hni)
      cases n with
      | wq c' => simpa [casesOf] using hrest
      | sel c' j =>
        have hc : c' ≠ c := by
          rintro rfl
          obtain rfl := (h j).mp (List.mem_cons_self ..)
          exact hni rfl
        simpa [casesOf, hc] using hrest

lemma Act.completes_eq_nil {act : Act} {c : CrId} (h : ∀ i, .sel c i ∉ act.decides) :
    act.completes c = [] := by
  unfold Act.completes
  split
  · exact casesOf_eq_nil h
  · rfl

/-- What is recorded about a context that does not act: what others complete for it. -/
lemma SelHist.record_of_ne (m : SelHist) (s : Core) {e : Event} {b : Ctx} (hb : b ≠ e.ctx) :
    (m.record s e).ops b = m.ops b ∧
      (m.record s e).eff b = (m.granted e.act).eff b := by
  obtain ⟨a, act⟩ := e
  cases act with
  | call api =>
    cases api with
    | select ops =>
      refine ⟨by simp [record, start, hb], ?_⟩
      cases b <;> simp_all [record, start, granted, Act.completes, Act.decides, casesOf]
    | _ => exact ⟨rfl, rfl⟩
  | selTry i k out =>
    simp only [record, tried]
    split
    · exact ⟨rfl, Function.update_of_ne hb _ _⟩
    · exact ⟨rfl, rfl⟩
  | _ => exact ⟨rfl, rfl⟩

lemma TryOk.mono {h h' : Heap} {ops : List Case} {eff : List ℕ} {i : ℕ} {code : Code}
    (hcl : ∀ ch, (h.chan ch).closed = true → (h'.chan ch).closed = true)
    (ht : TryOk h ops eff i code) : TryOk h' ops eff i code := by
  obtain ⟨hi, hok | ⟨hcode, heff, k, hk, hclosed⟩⟩ := ht
  · exact ⟨hi, Or.inl hok⟩
  · exact ⟨hi, Or.inr ⟨hcode, heff, k, hk, hcl _ hclosed⟩⟩

lemma WinOk.mono {h h' : Heap} {ops : List Case} {eff : List ℕ} {c : CrId} {win : Option ℕ}
    (hcl : ∀ ch, (h.chan ch).closed = true → (h'.chan ch).closed = true)
    (hst : ∀ i, (h.waits.node (.sel c i)).status ≠ .waiting →
      (h'.waits.node (.sel c i)).status = (h.waits.node (.sel c i)).status)
    (hw : WinOk h ops eff c win) : WinOk h' ops eff c win := by
  cases win with
  | none => exact hw
  | some i =>
    obtain ⟨code, hcode, htry⟩ := hw
    exact ⟨code, by rw [hst i (by simp [hcode]), hcode], htry.mono hcl⟩

/-- A decided select node is not touched by others. -/
lemma Footprint.sel_status {s t : Core} {e : Event} (hf : Footprint s e t) {c : CrId}
    (hc : e.ctx ≠ .co c) {i : ℕ} (hst : (s.heap.waits.node (.sel c i)).status ≠ .waiting) :
    (t.heap.waits.node (.sel c i)).status = (s.heap.waits.node (.sel c i)).status := by
  refine (hf.waits.kept (.sel c i) (fun hn => ?_) hc).1
  exact hst (hf.waits.decided _ hn).1

/-- Others do not decide the cancel node `OK`. -/
lemma Footprint.cancelOk {s t : Core} {e : Event} (hinv : Inv s) (hf : Footprint s e t) {c : CrId}
    (hc : e.ctx ≠ .co c) (hon : (s.pc (.co c)).waitOn = some none)
    (hsleep : s.pc (.co c) ≠ .blk .sleep none ∧ s.pc (.co c) ≠ .susp .sleep none)
    (h : CancelOk s.heap c) : CancelOk t.heap c := by
  unfold CancelOk at h ⊢
  by_cases hn : .wq c ∈ e.act.decides
  · rw [(hf.waits.decided _ hn).2.1]
    obtain ⟨l, hl, -⟩ | ⟨c', -, hcode⟩ | ⟨c', hc', -, hpc⟩ := hf.decider _ hn
    · -- the cancel node is on no list
      rw [hinv.wf.mem_iff] at hl
      rcases (hinv.node c).wait none hon with hw | hw
      · rw [hw.2] at hl; cases hl
      · rw [hw.2] at hl; cases hl
    · rcases hcode with hcode | hcode <;> simp [hcode]
    · cases hc'
      exact absurd hpc (by simp [hsleep])
  · rw [(hf.waits.kept (.wq c) hn hc).1]
    exact h

/-- Only linked nodes of a select are granted. -/
lemma Footprint.linked {s t : Core} {e : Event} (hinv : Inv s) (hf : Footprint s e t) {c : CrId}
    {i : ℕ} (hi : .sel c i ∈ e.act.decides) : ∃ l, (s.pc (.co c)).Linked i l := by
  obtain ⟨l, hl, -⟩ | ⟨c', hc', -⟩ | ⟨c', hc', -⟩ := hf.decider _ hi
  · exact ⟨l, hinv.sel c i l ((hinv.wf.mem_iff _ _).mp hl)⟩
  · cases hc'
  · cases hc'

/-- While no node of a select is linked, nobody completes a case of it. -/
lemma Footprint.completes_eq_nil {s t : Core} {e : Event} (hinv : Inv s) (hf : Footprint s e t)
    {c : CrId} (hl : ∀ i l, ¬ (s.pc (.co c)).Linked i l) : e.act.completes c = [] := by
  refine Act.completes_eq_nil fun i hi => ?_
  obtain ⟨l, hlinked⟩ := hf.linked hinv hi
  exact hl i l hlinked

/-- While the nodes of a select are registered, the winner word keeps account of what others do. -/
lemma Footprint.winOk {s t : Core} {e : Event} (hinv : Inv s) (hf : Footprint s e t) {c : CrId}
    (hc : e.ctx ≠ .co c) {ops : List Case} {eff : List ℕ}
    (hlink : ∀ i l, (s.pc (.co c)).Linked i l → ∃ k, ops[i]? = some k ∧ k.list = l)
    (h : WinOk s.heap ops eff c (s.heap.waits.winner c)) :
    WinOk t.heap ops (eff ++ e.act.completes c) c (t.heap.waits.winner c) := by
  rcases hf.waits.winner c hc with ⟨hwin, hnone⟩ | ⟨hnone, i, hwin, huniq⟩
  · rw [hwin, Act.completes_eq_nil hnone, List.append_nil]
    exact h.mono hf.closed fun i hst => hf.sel_status hc hst
  · have hmem : .sel c i ∈ e.act.decides := (huniq i).mpr rfl
    rw [hnone] at h
    obtain rfl : eff = [] := h
    rw [hwin]
    refine ⟨e.act.code, (hf.waits.decided _ hmem).2.1, ?_⟩
    obtain ⟨l, hl, hcode⟩ | ⟨c', hc', -⟩ | ⟨c', hc', -⟩ := hf.decider _ hmem
    · obtain ⟨k, hk, rfl⟩ := hlink i l (hinv.sel c i l ((hinv.wf.mem_iff _ _).mp hl))
      refine ⟨(List.getElem?_eq_some_iff.mp hk).1, ?_⟩
      rcases hcode with hok | ⟨hcl, ch, hlock, hclosed⟩
      · left
        simp [Act.completes, hok, casesOf_eq_singleton hf.waits.nodup huniq]
      · right
        refine ⟨hcl, by simp [Act.completes, hcl], k, hk, ?_⟩
        have hch : k.ch = ch := by
          unfold Case.list at hlock
          split at hlock <;> simpa [ListId.lock] using hlock
        rwa [hch]
    · cases hc'
    · cases hc'

/-- The steps of others keep the invariant of a select. -/
lemma Pc.SelOk.passive {s t : Core} {e : Event} (hinv : Inv s) (hf : Footprint s e t)
    (m : SelHist) {b : Ctx} (hb : b ≠ e.ctx) (h : (s.pc b).SelOk s.heap b (m.ops b) (m.eff b)) :
    (t.pc b).SelOk t.heap b ((m.record s e).ops b) ((m.record s e).eff b) := by
  obtain ⟨hops, heff⟩ := m.record_of_ne s hb
  rw [hf.pc b hb, hops, heff]
  -- where no node is linked, nothing is recorded
  have hsame : (∀ c, b = .co c → ∀ i l, ¬ (s.pc b).Linked i l) →
      (m.granted e.act).eff b = m.eff b := by
    intro hlink
    cases b with
    | co c => simp [SelHist.granted, hf.completes_eq_nil hinv (hlink c rfl)]
    | sched w => rfl
    | ext f => rfl
  have registered : ∀ {c : CrId}, b = .co c → (s.pc (.co c)).waitOn = some none →
      (s.pc (.co c) ≠ .blk .sleep none ∧ s.pc (.co c) ≠ .susp .sleep none) →
      (∀ i l, (s.pc (.co c)).Linked i l → ∃ k, (m.ops b)[i]? = some k ∧ k.list = l) →
      CancelOk s.heap c → WinOk s.heap (m.ops b) (m.eff b) c (s.heap.waits.winner c) →
      ∃ c, b = .co c ∧ CancelOk t.heap c ∧
        WinOk t.heap (m.ops b) ((m.granted e.act).eff b) c (t.heap.waits.winner c) := by
    rintro c rfl hon hsleep hlink hcancel hwin
    exact ⟨c, rfl, hf.cancelOk hinv (Ne.symm hb) hon hsleep hcancel,
      hf.winOk hinv (Ne.symm hb) hlink hwin⟩
  have leaving : ∀ {c : CrId} {win : Option ℕ} {scan : Option (ℕ × Code)}, b = .co c →
      (s.pc (.co c)).waitOn = some none →
      (s.pc (.co c) ≠ .blk .sleep none ∧ s.pc (.co c) ≠ .susp .sleep none) →
      CancelOk s.heap c →
      ((scan = none ∧ WinOk s.heap (m.ops b) (m.eff b) c win) ∨ (win = none ∧
        ∃ i code, scan = some (i, code) ∧ TryOk s.heap (m.ops b) (m.eff b) i code)) →
      ∃ c, b = .co c ∧ CancelOk t.heap c ∧
        ((scan = none ∧ WinOk t.heap (m.ops b) (m.eff b) c win) ∨ (win = none ∧
          ∃ i code, scan = some (i, code) ∧ TryOk t.heap (m.ops b) (m.eff b) i code)) := by
    rintro c win scan rfl hon hsleep hcancel hwin
    refine ⟨c, rfl, hf.cancelOk hinv (Ne.symm hb) hon hsleep hcancel, ?_⟩
    rcases hwin with ⟨hscan, hwin⟩ | ⟨hwin, i, code, hscan, htry⟩
    · exact Or.inl ⟨hscan, hwin.mono hf.closed fun i hst => hf.sel_status (Ne.symm hb) hst⟩
    · exact Or.inr ⟨hwin, i, code, hscan, htry.mono hf.closed⟩
  cases hpc : s.pc b with
  | pre en =>
    cases en with
    | select ops =>
      rw [hpc] at h hsame
      rw [hsame fun _ _ _ _ => id]
      exact h
    | _ => trivial
  | selScan ops rest =>
    rw [hpc] at h hsame
    rw [hsame fun _ _ _ _ => id]
    exact h
  | selInit ops =>
    rw [hpc] at h hsame
    rw [hsame fun _ _ _ _ => id]
    exact h
  | selReg ops r =>
    rw [hpc] at h
    obtain ⟨hops, c, rfl, hcancel, hwin, hlt⟩ := h
    refine ⟨hops, c, rfl, hf.cancelOk hinv (Ne.symm hb) (by rw [hpc]; rfl) (by simp [hpc]) hcancel,
      hf.winOk hinv (Ne.symm hb) (fun i l hl => by rw [hpc] at hl; exact hops ▸ hl.2) hwin,
      fun i hi => ?_⟩
    rcases hf.waits.winner c (Ne.symm hb) with ⟨heq, -⟩ | ⟨-, j, hj, huniq⟩
    · exact hlt i (heq ▸ hi)
    · obtain rfl : j = i := by simpa [hj] using hi
      obtain ⟨l, hl⟩ := hf.linked hinv ((huniq j).mpr rfl)
      rw [hpc] at hl
      exact hl.1
  | selTest ops =>
    rw [hpc] at h
    obtain ⟨hops, c, rfl, hcancel, hwin⟩ := h
    exact ⟨hops, registered rfl (by rw [hpc]; rfl) (by simp [hpc])
      (fun i l hl => by rw [hpc] at hl; exact hops ▸ hl) hcancel hwin⟩
  | selSusp ops =>
    rw [hpc] at h
    obtain ⟨hops, c, rfl, hcancel, hwin⟩ := h
    exact ⟨hops, registered rfl (by rw [hpc]; rfl) (by simp [hpc])
      (fun i l hl => by rw [hpc] at hl; exact hops ▸ hl) hcancel hwin⟩
  | selUnreg ops r j rescan =>
    rw [hpc] at h
    obtain ⟨hops, c, rfl, hcancel, hwin⟩ := h
    exact ⟨hops, registered rfl (by rw [hpc]; rfl) (by simp [hpc])
      (fun i l hl => by rw [hpc] at hl; exact hops ▸ hl.2.2) hcancel hwin⟩
  | selRescan ops rest =>
    rw [hpc] at h hsame
    obtain ⟨hops, c, rfl, hcancel, hwin, heff⟩ := h
    rw [hsame fun _ _ _ _ => id]
    refine ⟨hops, c, rfl, hf.cancelOk hinv (Ne.symm hb) (by rw [hpc]; rfl) (by simp [hpc]) hcancel, ?_,
      heff⟩
    rcases hf.waits.winner c (Ne.symm hb) with ⟨heq, -⟩ | ⟨-, i, -, huniq⟩
    · rw [heq, hwin]
    · obtain ⟨l, hl⟩ := hf.linked hinv ((huniq i).mpr rfl)
      rw [hpc] at hl
      exact absurd hl id
  | selSync ops win scan =>
    rw [hpc] at h hsame
    obtain ⟨hops, c, rfl, hcancel, hwin⟩ := h
    rw [hsame fun _ _ _ _ => id]
    exact ⟨hops, leaving rfl (by rw [hpc]; rfl) (by simp [hpc]) hcancel hwin⟩
  | selSync2 ops win scan =>
    rw [hpc] at h hsame
    obtain ⟨hops, c, rfl, hcancel, hwin⟩ := h
    rw [hsame fun _ _ _ _ => id]
    exact ⟨hops, leaving rfl (by rw [hpc]; rfl) (by simp [hpc]) hcancel hwin⟩
  | selFin ops win scan =>
    rw [hpc] at h hsame
    obtain ⟨hops, c, rfl, hcancel, hwin⟩ := h
    rw [hsame fun _ _ _ _ => id]
    exact ⟨hops, leaving rfl (by rw [hpc]; rfl) (by simp [hpc]) hcancel hwin⟩
  | selRet idx code =>
    rw [hpc] at h hsame
    rw [hsame fun _ _ _ _ => id]
    cases idx with
    | none => exact h
    | some i => exact TryOk.mono hf.closed h
  | _ => trivial

/-! ## The context that acts -/

/-- How a try ends the scan. -/
lemma exec_hit {h : Heap} (hw : h.waits.WF) (a : Ctx) (k : Case) :
    (exec h a k.op).2.hit = none ∨ (exec h a k.op).2.hit = some .ok ∨
      ((exec h a k.op).2.hit = some .closed ∧ ((exec h a k.op).1.chan k.ch).closed = true) := by
  have hblock : a.canBlock true = false := by cases a <;> rfl
  unfold Case.op
  split
  · obtain ⟨hcl, heq⟩ | ⟨-, rx, w', heq, -⟩ | ⟨-, -, w', heq, -⟩ | ⟨-, -, w', heq, -⟩ :=
      exec_send_cases hw a k.ch k.val true
    · exact Or.inr (Or.inr ⟨by rw [heq]; rfl, by rw [heq]; exact hcl⟩)
    · exact Or.inr (Or.inl (by rw [heq]; rfl))
    · exact Or.inr (Or.inl (by rw [heq]; rfl))
    · exact Or.inl (by rw [heq, hblock]; rfl)
  · obtain ⟨-, -, tx, w', heq, -⟩ | ⟨-, -, w', heq, -⟩ | ⟨-, tx, w', heq, -⟩ |
      ⟨-, hcl, w', heq, -⟩ | ⟨-, -, w', heq, -⟩ := exec_recv_cases hw a k.ch true
    · exact Or.inr (Or.inl (by rw [heq]; rfl))
    · exact Or.inr (Or.inl (by rw [heq]; rfl))
    · exact Or.inr (Or.inl (by rw [heq]; rfl))
    · exact Or.inr (Or.inr ⟨by rw [heq]; rfl, by rw [heq]; exact hcl⟩)
    · exact Or.inl (by rw [heq, hblock]; rfl)

/-- What a try records about the select that makes it. -/
lemma SelHist.record_try {s t : Core} {a : Ctx} {i : ℕ} {k : Case} {out : Out} (hinv : Inv s)
    (hf : Footprint s ⟨a, .selTry i k out⟩ t) (m : SelHist)
    (hlink : ∀ c, a = .co c → ∀ j l, ¬ (s.pc a).Linked j l) :
    (m.record s ⟨a, .selTry i k out⟩).ops a = m.ops a ∧
      (m.record s ⟨a, .selTry i k out⟩).eff a =
        if out.hit = some .ok then m.eff a ++ [i] else m.eff a := by
  have hown : (m.granted (.selTry i k out)).eff a = m.eff a := by
    cases a with
    | co c =>
      have hnil := hf.completes_eq_nil hinv (hlink c rfl)
      simp only [granted]
      rw [hnil, List.append_nil]
    | sched w => rfl
    | ext f => rfl
  simp only [record, tried]
  split
  · exact ⟨rfl, by simp [hown]⟩
  · exact ⟨rfl, hown⟩

/-- A try of case `i` that ends the scan. -/
lemma tryOk_of_hit {s t : Core} {a : Ctx} {i : ℕ} {k : Case} {ops : List Case} {code : Code}
    (hinv : Inv s) (hk : ops[i]? = some k) (hheap : t.heap = (exec s.heap a k.op).1)
    (hhit : (exec s.heap a k.op).2.hit = some code) :
    TryOk t.heap ops (if (exec s.heap a k.op).2.hit = some .ok then [i] else []) i code := by
  refine ⟨(List.getElem?_eq_some_iff.mp hk).1, ?_⟩
  rw [hhit]
  obtain hnone | hok | ⟨hcl, hclosed⟩ := exec_hit hinv.wf a k
  · rw [hhit] at hnone
    cases hnone
  · rw [hhit] at hok
    cases hok
    exact Or.inl ⟨rfl, rfl⟩
  · rw [hhit] at hcl
    cases hcl
    exact Or.inr ⟨rfl, rfl, k, hk, by rwa [hheap]⟩

/-- A step that neither calls, tries nor decides leaves the record as it is. -/
lemma SelHist.record_same (m : SelHist) (s : Core) (a : Ctx) {act : Act} (hact : act.decides = [])
    (hcall : ∀ ops, act ≠ .call (.select ops)) (htry : ∀ i k out, act ≠ .selTry i k out) :
    (m.record s ⟨a, act⟩).ops a = m.ops a ∧ (m.record s ⟨a, act⟩).eff a = m.eff a := by
  have hnil : ∀ c, act.completes c = [] := fun c => Act.completes_eq_nil (by simp [hact])
  have hrec : m.record s ⟨a, act⟩ = m.granted act := by
    cases act with
    | call api => cases api <;> first | rfl | exact absurd rfl (hcall _)
    | selTry i k out => exact absurd rfl (htry _ _ _)
    | _ => rfl
  rw [hrec]
  refine ⟨rfl, ?_⟩
  cases a <;> simp [granted, hnil]

lemma Frame.selOk_after (k : Frame) (st : Code) {h : Heap} {a : Ctx} {ops : List Case}
    {eff : List ℕ} : (k.after st).SelOk h a ops eff := by
  cases k <;> simp only [Frame.after] <;> (try split) <;> trivial

lemma Frame.selOk_next (k : Frame) (res : Res) {h : Heap} {a : Ctx} {ops : List Case}
    {eff : List ℕ} : (k.next res).SelOk h a ops eff := by
  cases res with
  | ret code => exact k.selOk_after code
  | park l data writer => cases k <;> trivial

/-- The local steps of a select. -/
lemma Pc.SelOk.local {s : Core} {a : Ctx} {act : Act} {pc : Pc} (m : SelHist)
    (hl : LocalStep s.heap a (s.pc a) act pc)
    (h : (s.pc a).SelOk s.heap a (m.ops a) (m.eff a)) :
    pc.SelOk s.heap a ((m.record s ⟨a, act⟩).ops a) ((m.record s ⟨a, act⟩).eff a) := by
  generalize hpc : s.pc a = pc₀ at hl h
  cases hl with
  | call api r hv =>
    cases api with
    | select ops =>
      have hrec : (m.record s ⟨a, .call (.select ops)⟩).ops a = ops ∧
          (m.record s ⟨a, .call (.select ops)⟩).eff a = [] := by
        simp [SelHist.record, SelHist.start]
      rw [hrec.1, hrec.2]
      simp only [Api.entry]
      split
      · exact ⟨rfl, by simp⟩
      · cases a <;> exact ⟨rfl, rfl⟩
    | op o => cases o <;> cases a <;> first | trivial | (rename_i b _; cases b <;> trivial)
    | _ => cases a <;> trivial
  | @preCanceled c en =>
    rw [(m.record_same s _ rfl (by simp) (by simp)).1, (m.record_same s _ rfl (by simp) (by simp)).2]
    cases en with
    | select ops => exact ⟨h.2, by simp⟩
    | op o k => exact k.selOk_after _
    | _ => trivial
  | @preExpired c en =>
    rw [(m.record_same s _ rfl (by simp) (by simp)).1, (m.record_same s _ rfl (by simp) (by simp)).2]
    cases en with
    | select ops => exact ⟨h.2, by simp⟩
    | op o k => exact k.selOk_after _
    | _ => trivial
  | @preGo c en r =>
    rw [(m.record_same s _ rfl (by simp) (by simp)).1, (m.record_same s _ rfl (by simp) (by simp)).2]
    cases en with
    | select ops => exact h
    | op o k => cases o <;> cases k <;> simp only [Entry.go] <;> (try split) <;> trivial
    | _ => trivial
  | scanEnd =>
    rw [(m.record_same s _ rfl (by simp) (by simp)).1, (m.record_same s _ rfl (by simp) (by simp)).2]
    exact h
  | scanFail _ =>
    rw [(m.record_same s _ rfl (by simp) (by simp)).1, (m.record_same s _ rfl (by simp) (by simp)).2]
    exact ⟨h.2, by simp⟩
  | ioReady => split <;> trivial
  | wakeGiveUp => split <;> trivial
  | _ => trivial

/-- The invariant depends on the statuses, the winner words and the channels only. -/
lemma Pc.SelOk.congr {h h' : Heap} {a : Ctx} {ops : List Case} {eff : List ℕ} {pc : Pc}
    (hst : ∀ n, (h'.waits.node n).status = (h.waits.node n).status)
    (hwin : h'.waits.winner = h.waits.winner) (hchan : h'.chan = h.chan)
    (hok : pc.SelOk h a ops eff) : pc.SelOk h' a ops eff := by
  have htry : ∀ i code, TryOk h' ops eff i code = TryOk h ops eff i code := by
    intro i code
    simp only [TryOk, ClosedAt, hchan]
  have hwinOk : ∀ c win, WinOk h' ops eff c win = WinOk h ops eff c win := by
    intro c win
    cases win <;> simp only [WinOk, hst, htry]
  have hcancel : ∀ c, CancelOk h' c = CancelOk h c := by
    intro c
    simp only [CancelOk, hst]
  cases pc with
  | pre en => cases en <;> exact hok
  | selRet idx code => cases idx <;> simpa only [Pc.SelOk, htry] using hok
  | selScan | selInit => exact hok
  | selReg | selTest | selSusp | selUnreg | selRescan =>
    simpa only [Pc.SelOk, hcancel, hwinOk, hwin] using hok
  | selSync | selSync2 | selFin => simpa only [Pc.SelOk, hcancel, hwinOk, htry] using hok
  | _ => trivial

/-- The try of a rescan does not touch the select's own nodes, which are on no list. -/
lemma Inv.exec_unlinked {s : Core} (hinv : Inv s) {c : CrId}
    (hon : (s.pc (.co c)).waitOn = some none) (hl : ∀ i l, ¬ (s.pc (.co c)).Linked i l) (op : Op)
    (hcancel : CancelOk s.heap c) (hwin : s.heap.waits.winner c = none) :
    CancelOk (exec s.heap (.co c) op).1 c ∧
      (exec s.heap (.co c) op).1.waits.winner c = none := by
  have heff := (exec_effect hinv.wf (.co c) op).granted
  have hlist : (s.heap.waits.node (.wq c)).waitList = none := by
    rcases (hinv.node c).wait none hon with hw | hw
    · exact hw.2
    · exact hw.2
  constructor
  · unfold CancelOk
    rw [heff.wq_of_not_mem]
    · exact hcancel
    · intro hG
      obtain ⟨l, hmem⟩ := heff.live _ hG
      rw [hinv.wf.mem_iff, hlist] at hmem
      cases hmem
  · rcases heff.winner c with heq | ⟨-, i, hi, -⟩
    · rw [heq, hwin]
    · obtain ⟨l, hmem⟩ := heff.live _ hi
      exact absurd (hinv.sel c i l ((hinv.wf.mem_iff _ _).mp hmem)) (hl i l)

/-- The own steps of a select keep its invariant. -/
lemma Pc.SelOk.active {s t : Core} {a : Ctx} {act : Act} (hinv : Inv s)
    (hstep : Step s ⟨a, act⟩ t) (m : SelHist)
    (h : (s.pc a).SelOk s.heap a (m.ops a) (m.eff a)) :
    (t.pc a).SelOk t.heap a ((m.record s ⟨a, act⟩).ops a) ((m.record s ⟨a, act⟩).eff a) := by
  have hf := step_footprint hinv hstep
  -- what a step of a select other than a try leaves of the record
  have hrec : ∀ {act : Act}, act.decides = [] → (∀ ops, act ≠ .call (.select ops)) →
      (∀ i k out, act ≠ .selTry i k out) → (m.record s ⟨a, act⟩).ops a = m.ops a ∧
        (m.record s ⟨a, act⟩).eff a = m.eff a := m.record_same s a
  cases hstep with
  | «local» _ hl =>
    rw [Core.setPc_pc_self]
    exact Pc.SelOk.local (s := s) m hl h
  | @crit _ op k hpc _ _ =>
    simp only [Core.setHeld_pc, Core.setWork_pc, Core.setPc_pc_self]
    exact k.selOk_next _
  | testWaiting | testDecided | suspend | sleepPark =>
    simp only [Core.setPc_pc_self]
    trivial
  | @decided c k l st hpc _ _ hst =>
    simp only [Core.setPc_pc_self]
    exact k.selOk_after st
  | wake _ =>
    rw [(hrec rfl (by simp) (by simp)).1, (hrec rfl (by simp) (by simp)).2]
    exact h
  | unlock _ =>
    rw [(hrec rfl (by simp) (by simp)).1, (hrec rfl (by simp) (by simp)).2]
    exact h
  | @fin _ n rest _ =>
    rw [(hrec rfl (by simp) (by simp)).1, (hrec rfl (by simp) (by simp)).2]
    exact Pc.SelOk.congr (h := s.heap) (fun n' => by simp) rfl rfl h
  | sleepFire hpcw _ _ _ =>
    simp only [Core.setWork_pc, Core.setWaits_pc, hpcw]
    trivial
  | flip =>
    simp only [Core.setWork_pc, Core.setPc_pc_self]
    split <;> trivial
  | @selTry _ ops i rest k hpc _ hk _ =>
    rw [hpc] at h
    obtain ⟨rfl, heff⟩ := h
    obtain ⟨hops, heff'⟩ := m.record_try hinv hf (by rw [hpc]; exact fun _ _ _ _ => id)
    rw [hops, heff', heff, List.nil_append]
    simp only [Core.setWork_pc, Core.setPc_pc_self]
    cases hhit : (exec s.heap a k.op).2.hit with
    | none => exact ⟨rfl, by simp⟩
    | some code =>
      have htry := tryOk_of_hit (t := { s with heap := (exec s.heap a k.op).1 }) hinv hk rfl hhit
      rwa [hhit] at htry
  | @selInit c ops hpc _ =>
    rw [hpc] at h
    rw [(hrec rfl (by simp) (by simp)).1, (hrec rfl (by simp) (by simp)).2]
    simp only [Core.setPc_pc_self]
    refine ⟨h.1, c, rfl, by simp [CancelOk, Waits.parkNone], ?_, by simp⟩
    simpa [WinOk] using h.2
  | selReady hpc _ _ _ _ =>
    rw [hpc] at h
    rw [(hrec rfl (by simp) (by simp)).1, (hrec rfl (by simp) (by simp)).2]
    obtain ⟨hops, c', hc', hcancel, hwin, -⟩ := h
    simpa using ⟨hops, c', hc', hcancel, hwin⟩
  | @selPark c ops i k hpc _ _ _ _ =>
    rw [hpc] at h
    rw [(hrec rfl (by simp) (by simp)).1, (hrec rfl (by simp) (by simp)).2]
    obtain ⟨hops, c', hc', hcancel, hwin, hlt⟩ := h
    cases hc'
    simp only [Core.setPc_pc_self]
    refine ⟨hops, c, rfl, by simpa [CancelOk, Waits.park] using hcancel, ?_, fun j hj => ?_⟩
    · -- the node registered now has not won
      simp only [Core.setPc_heap, Core.setWaits_waits, Waits.park, Waits.setQueue_winner,
        Waits.setNode_winner]
      cases hw : s.heap.waits.winner c with
      | none => simpa [WinOk, hw] using hwin
      | some j =>
        rw [hw] at hwin
        obtain ⟨code, hst, htry⟩ := hwin
        have hji : NodeRef.sel c j ≠ .sel c i := by
          have := hlt j hw
          simp only [ne_eq, NodeRef.sel.injEq, true_and]
          omega
        exact ⟨code, by simpa [hji] using hst, htry⟩
    · have := hlt j (by simpa [Waits.park] using hj)
      omega
  | selRegEnd hpc _ =>
    rw [hpc] at h
    rw [(hrec rfl (by simp) (by simp)).1, (hrec rfl (by simp) (by simp)).2]
    obtain ⟨hops, c', hc', hcancel, hwin, -⟩ := h
    simpa using ⟨hops, c', hc', hcancel, hwin⟩
  | selWaiting hpc _ _ _ =>
    rw [hpc] at h
    rw [(hrec rfl (by simp) (by simp)).1, (hrec rfl (by simp) (by simp)).2]
    simp only [Core.setPc_pc_self]
    exact h
  | selDecided hpc _ _ =>
    rw [hpc] at h
    rw [(hrec rfl (by simp) (by simp)).1, (hrec rfl (by simp) (by simp)).2]
    simp only [Core.setPc_pc_self]
    exact h
  | selSuspend hpc _ =>
    rw [hpc] at h
    rw [(hrec rfl (by simp) (by simp)).1, (hrec rfl (by simp) (by simp)).2]
    simp only [Core.setPc_pc_self]
    exact h
  | @selUnreg c ops r j rescan k hpc _ _ _ _ =>
    rw [hpc] at h
    rw [(hrec rfl (by simp) (by simp)).1, (hrec rfl (by simp) (by simp)).2]
    obtain ⟨-, hself, hother, hwinner, -⟩ := Waits.unregister_spec hinv.wf (.sel c j)
    simp only [Core.setPc_pc_self]
    have hnext : (Pc.selUnreg ops r (j + 1) rescan).SelOk s.heap (.co c) (m.ops (.co c))
        (m.eff (.co c)) := h
    refine hnext.congr (fun n => ?_) hwinner rfl
    by_cases hn : n = .sel c j
    · subst hn
      simp [hself]
    · simp [hother n hn]
  | @selLeave c ops r rescan hpc _ _ =>
    rw [hpc] at h
    rw [(hrec rfl (by simp) (by simp)).1, (hrec rfl (by simp) (by simp)).2]
    obtain ⟨hops, c', hc', hcancel, hwin⟩ := h
    cases hc'
    simpa using ⟨hops, c, rfl, hcancel, Or.inl ⟨rfl, hwin⟩⟩
  | @selAgain c ops r rand hpc _ hnone _ =>
    rw [hpc] at h
    rw [(hrec rfl (by simp) (by simp)).1, (hrec rfl (by simp) (by simp)).2]
    obtain ⟨hops, c', hc', hcancel, hwin⟩ := h
    cases hc'
    rw [hnone] at hwin
    simpa using ⟨hops, c, rfl, hcancel, hnone, hwin⟩
  | @selRetry c ops i rest k hpc _ hk _ =>
    rw [hpc] at h
    obtain ⟨rfl, c', hc', hcancel, hnone, heff⟩ := h
    cases hc'
    obtain ⟨hops, heff'⟩ := m.record_try hinv hf (by rw [hpc]; exact fun _ _ _ _ => id)
    rw [hops, heff', heff, List.nil_append]
    simp only [Core.setWork_pc, Core.setPc_pc_self]
    obtain ⟨hcancel', hnone'⟩ := hinv.exec_unlinked (by rw [hpc]; rfl)
      (by rw [hpc]; exact fun _ _ => id) k.op hcancel hnone
    cases hhit : (exec s.heap (.co c) k.op).2.hit with
    | none => exact ⟨rfl, c, rfl, hcancel', hnone', by simp⟩
    | some code =>
      have htry := tryOk_of_hit (t := { s with heap := (exec s.heap (.co c) k.op).1 }) hinv hk rfl hhit
      rw [hhit] at htry
      exact ⟨rfl, c, rfl, hcancel', Or.inr ⟨rfl, i, code, rfl, htry⟩⟩
  | selRescanEnd hpc _ =>
    rw [hpc] at h
    rw [(hrec rfl (by simp) (by simp)).1, (hrec rfl (by simp) (by simp)).2]
    obtain ⟨hops, c', hc', hcancel, hnone, heff⟩ := h
    simp only [Core.setPc_pc_self, Core.setPc_heap]
    exact ⟨hops, c', hc', hcancel, by rw [hnone]; exact heff, by simp [hnone]⟩
  | selSync hpc _ _ =>
    rw [hpc] at h
    rw [(hrec rfl (by simp) (by simp)).1, (hrec rfl (by simp) (by simp)).2]
    simp only [Core.setPc_pc_self]
    exact h
  | selSync2 hpc _ _ =>
    rw [hpc] at h
    rw [(hrec rfl (by simp) (by simp)).1, (hrec rfl (by simp) (by simp)).2]
    simp only [Core.setPc_pc_self]
    exact h
  | @selWon c ops i scan hpc _ =>
    rw [hpc] at h
    rw [(hrec rfl (by simp) (by simp)).1, (hrec rfl (by simp) (by simp)).2]
    obtain ⟨-, c', hc', -, hwin⟩ := h
    cases hc'
    rcases hwin with ⟨-, code, hst, htry⟩ | ⟨hwin, -⟩
    · simp only [Core.setPc_pc_self]
      have hcode : (if (s.heap.waits.node (.sel c i)).status = .decided .closed then Code.closed
          else .ok) = code := by
        rw [hst]
        rcases htry.2 with ⟨rfl, -⟩ | ⟨rfl, -⟩ <;> simp
      rw [hcode]
      exact htry
    · cases hwin
  | selScanned hpc _ =>
    rw [hpc] at h
    rw [(hrec rfl (by simp) (by simp)).1, (hrec rfl (by simp) (by simp)).2]
    obtain ⟨-, c', hc', -, ⟨hscan, -⟩ | ⟨-, i, code, hscan, htry⟩⟩ := h
    · cases hscan
    · cases hscan
      simp only [Core.setPc_pc_self]
      exact htry
  | selFailed hpc _ hst =>
    rw [hpc] at h
    rw [(hrec rfl (by simp) (by simp)).1, (hrec rfl (by simp) (by simp)).2]
    obtain ⟨-, c', hc', hcancel, ⟨-, hwin⟩ | ⟨-, i, code, hscan, -⟩⟩ := h
    · cases hc'
      simp only [Core.setPc_pc_self]
      refine ⟨hwin, ?_⟩
      rintro rfl
      rcases hst with hst | ⟨-, hst⟩
      · exact hcancel hst
      · cases hst
    · cases hscan

/-! ## The result -/

lemma selInv_step (p : Core × SelHist) (e : Event) (q : Core × SelHist) (hinv : Inv p.1)
    (h : SelInv p) (hstep : Recorded Step SelHist.record p e q) : SelInv q := by
  obtain ⟨s, m⟩ := p
  obtain ⟨t, m'⟩ := q
  obtain ⟨hstep, rfl⟩ := hstep
  intro b
  by_cases hb : b = e.ctx
  · subst hb
    exact (h e.ctx).active hinv hstep m
  · exact (h b).passive hinv (step_footprint hinv hstep) m hb

lemma selInv_reachable {cfg : Config} {p : Core × SelHist}
    (h : Reachable (Recorded Step SelHist.record) (.init cfg, .init) p) : SelInv p := by
  have hinit : SelInv (.init cfg, .init) := fun _ => trivial
  refine h.invariant_of (J := fun p => Inv p.1) (fun q hq => inv_reachable hq.of_recorded) hinit ?_
  exact fun p e q hp _ hI hstep => selInv_step p e q hp hI hstep

/-- The return of a select. -/
lemma step_selRet {s t : Core} {a : Ctx} {idx : Option ℕ} {code : Code}
    (h : Step s ⟨a, .selRet idx code⟩ t) : s.pc a = .selRet idx code ∧ t = s.setPc a .idle := by
  cases h with
  | «local» _ hl =>
    generalize s.pc a = pc at hl
    cases hl
    exact ⟨rfl, rfl⟩

end Suspenders.Wait
