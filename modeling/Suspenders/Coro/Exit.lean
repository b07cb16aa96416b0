import Suspenders.Coro.Cleanup

/-!
# The end of a coroutine

A coroutine is done when `suspenders_cr_exit` has left its loop, and it is put on the list of zombies once (`ExitInv`).
Whatever was pushed has been run or discarded by then, and the loop does end if the code of the coroutine makes only
finitely many calls.
-/

namespace Suspenders.Coro

open Lib Function

variable {ν φ α : Type*} [DecidableEq ν]

section Steps

variable {s t : CleanupState ν φ α} {a : CleanupAct ν φ α} {n : ν}

/-- The coroutine is on the list of zombies exactly if it is done, and then nothing is left of it. -/
structure ExitInv (s : CleanupState ν φ α) : Prop where
  frames : s.state = .done ↔ s.frames = []
  head : s.state = .done → s.cleanupHead = none
  zombies : s.zombies = if s.state = .done then 1 else 0
  exiting : s.frames.head? = some .exiting → s.state = .running

namespace ExitInv

omit [DecidableEq ν] in
lemma init (h : s.Fresh) : ExitInv s where
  frames := by simp [h.state, h.frames]
  head := by simp [h.state]
  zombies := by simp [h.state, h.zombies]
  exiting := by simp [h.frames]

omit [DecidableEq ν] in
/-- A step after which the coroutine is not done. -/
lemma keep (h : ExitInv s) (hs : s.state ≠ .done) (ht : t.state ≠ .done) (hframes : t.frames ≠ [])
    (hzombies : t.zombies = s.zombies) (hexiting : t.frames.head? = some .exiting → t.state = .running) :
    ExitInv t where
  frames := ⟨fun hdone => absurd hdone ht, fun hnil => absurd hnil hframes⟩
  head := fun hdone => absurd hdone ht
  zombies := by rw [hzombies, h.zombies, if_neg hs, if_neg ht]
  exiting := hexiting

omit [DecidableEq ν] in
lemma take (h : ExitInv s) (hrun : s.state = .running) (hframes : s.frames ≠ []) (ht : s.Takes t n) : ExitInv t := by
  have hstate : t.state = .running := ht.same.1.trans hrun
  refine h.keep (by simp [hrun]) (by simp [hstate]) ?_ ht.same.2 fun _ => hstate
  rcases ht.frames with heq | heq <;> simp [heq, hframes]

lemma step (h : ExitInv s) (hstep : s.step a = some t) : ExitInv t := by
  cases a with
  | push node fn arg =>
    obtain ⟨huser, rfl⟩ := Option.ite_some_none_eq_some.mp hstep
    obtain ⟨l, hl⟩ := huser.exists_frames
    cases node with
    | none => exact h
    | some n =>
      have hrun : (s.cleanupPush (some n) fn arg).state = .running := huser.1
      refine h.keep (by simp [huser.1]) (by simp [hrun]) ?_ rfl fun _ => hrun
      simp [CleanupState.cleanupPush, hl]
  | pop execute =>
    obtain ⟨huser, rfl⟩ := Option.ite_some_none_eq_some.mp hstep
    obtain ⟨l, hl⟩ := huser.exists_frames
    cases hhead : s.cleanupHead with
    | none =>
      simp only [CleanupState.cleanupPop, hhead]
      exact h
    | some n => exact h.take huser.1 (by simp [hl]) (cleanupPop_some hhead execute)
  | turn =>
    obtain ⟨hloop, rfl⟩ := Option.ite_some_none_eq_some.mp hstep
    obtain ⟨l, hl⟩ : ∃ l, s.frames = .exiting :: l := ⟨_, (List.cons_head?_tail hloop.2).symm⟩
    cases hhead : s.cleanupHead with
    | none =>
      simp only [CleanupState.exitTurn, hhead, CleanupState.finish, hloop.1, ne_eq, reduceCtorEq, not_false_eq_true,
        if_true]
      exact ⟨by simp, fun _ => rfl, by simp [h.zombies, hloop.1], by simp⟩
    | some n => exact h.take hloop.1 (by simp [hl]) (exitTurn_some hhead)
  | exit =>
    obtain ⟨huser, rfl⟩ := Option.ite_some_none_eq_some.mp hstep
    exact h.keep (by simp [huser.1]) (by simp [huser.1]) (by simp) rfl fun _ => huser.1
  | ret =>
    obtain ⟨huser, rfl⟩ := Option.ite_some_none_eq_some.mp hstep
    refine h.keep (by simp [huser.1]) (by simp [huser.1]) ?_ rfl fun _ => huser.1
    dsimp only
    split
    · simp
    · assumption
  | park =>
    obtain ⟨huser, rfl⟩ := Option.ite_some_none_eq_some.mp hstep
    obtain ⟨l, hl⟩ := huser.exists_frames
    exact h.keep (by simp [huser.1]) (by simp) (by simp [hl]) rfl (by simp [hl])
  | wake =>
    obtain ⟨hstate, rfl⟩ := Option.ite_some_none_eq_some.mp hstep
    have hdone : s.state ≠ .done := by simp [hstate]
    refine h.keep hdone (by simp) (mt h.frames.mpr hdone) rfl fun hexiting => ?_
    simpa [hstate] using h.exiting hexiting
  | dispatch =>
    obtain ⟨hstate, rfl⟩ := Option.ite_some_none_eq_some.mp hstep
    have hdone : s.state ≠ .done := by simp [hstate]
    exact h.keep hdone (by simp) (mt h.frames.mpr hdone) rfl fun _ => rfl

omit [DecidableEq ν] in
/-- The loop does not end in a ring. -/
lemma not_looped (h : ExitInv s) (hdone : s.state = .done) : ¬ s.Looped := by
  rintro ⟨-, ⟨n, -, hhead⟩, -⟩
  simp [h.head hdone] at hhead

/-- A coroutine that is done takes no step. -/
lemma step_eq_none (hdone : s.state = .done) (a : CleanupAct ν φ α) : s.step a = none := by
  have huser : ¬ s.InUser := fun huser => by simpa [hdone] using huser.1
  cases a <;> simp [CleanupState.step, huser, hdone]

/-- One that is not done can take one, even if its code calls nothing any more. -/
lemma exists_step (h : ExitInv s) (hdone : s.state ≠ .done) :
    ∃ a : CleanupAct ν φ α, a.cost = 0 ∧ ∃ t, s.step a = some t := by
  have hframes : s.frames ≠ [] := mt h.frames.mpr hdone
  cases hstate : s.state with
  | suspended => exact ⟨.wake, rfl, _, if_pos hstate⟩
  | ready => exact ⟨.dispatch, rfl, _, if_pos hstate⟩
  | done => exact absurd hstate hdone
  | running =>
    cases hl : s.frames with
    | nil => exact absurd hl hframes
    | cons f l =>
      have hhead : s.frames.head? = some f := by rw [hl]; rfl
      cases f with
      | user => exact ⟨.ret, rfl, _, if_pos ⟨hstate, hhead⟩⟩
      | exiting => exact ⟨.turn, rfl, _, if_pos ⟨hstate, hhead⟩⟩

end ExitInv

end Steps

/-! ## What the log says -/

section Log

omit [DecidableEq ν]

variable {log : List (CleanupEvent φ α)} {h : Handler φ α}

/-- The handlers that are pushed. -/
def pushedIn (log : List (CleanupEvent φ α)) : List (Handler φ α) := (log.map CleanupEvent.op).filterMap StackOp.pushed?

/-- The handlers that are run or discarded. -/
def takenIn (log : List (CleanupEvent φ α)) : List (Handler φ α) := (log.map CleanupEvent.op).filterMap StackOp.popped?

lemma mem_pushedIn : h ∈ pushedIn log ↔ .pushed h ∈ log := by
  simp only [pushedIn, List.filterMap_map, List.mem_filterMap, Function.comp_apply]
  constructor
  · rintro ⟨e, he, heq⟩
    cases e <;> cases heq
    exact he
  · exact fun hmem => ⟨_, hmem, rfl⟩

lemma eq_of_popped {e : CleanupEvent φ α} (he : e.op.popped? = some h) : e = .ran h ∨ e = .discarded h := by
  cases e with
  | pushed g => cases he
  | ran g =>
    cases he
    exact .inl rfl
  | discarded g =>
    cases he
    exact .inr rfl

lemma mem_takenIn : h ∈ takenIn log ↔ .ran h ∈ log ∨ .discarded h ∈ log := by
  simp only [takenIn, List.filterMap_map, List.mem_filterMap, Function.comp_apply]
  constructor
  · rintro ⟨e, he, heq⟩
    rcases eq_of_popped heq with rfl | rfl
    · exact .inl he
    · exact .inr he
  · rintro (hmem | hmem)
    · exact ⟨_, hmem, rfl⟩
    · exact ⟨_, hmem, rfl⟩

lemma count_takenIn [DecidableEq φ] [DecidableEq α] :
    (takenIn log).count h = log.count (.ran h) + log.count (.discarded h) := by
  induction log with
  | nil => rfl
  | cons e log ih =>
    cases e with
    | pushed g =>
      have hcons : takenIn (.pushed g :: log) = takenIn log := rfl
      simp only [hcons, List.count_cons, ih, beq_iff_eq, reduceCtorEq, if_false, Nat.add_zero]
    | ran g =>
      have hcons : takenIn (.ran g :: log) = g :: takenIn log := rfl
      simp only [hcons, List.count_cons, ih, beq_iff_eq, CleanupEvent.ran.injEq, reduceCtorEq, if_false]
      omega
    | discarded g =>
      have hcons : takenIn (.discarded g :: log) = g :: takenIn log := rfl
      simp only [hcons, List.count_cons, ih, beq_iff_eq, CleanupEvent.discarded.injEq, reduceCtorEq, if_false]
      omega

end Log

section Runs

variable {s : CleanupState ν φ α} {p q : CleanupState ν φ α × CleanupHist ν φ α} {as bs : List (CleanupAct ν φ α)}
  {l : List ν}

/-- The numbers of the pushed handlers. -/
def Numbered (m : CleanupHist ν φ α) : Prop := (pushedIn m.log).map Handler.num = List.range m.count

lemma numbered_step {a : CleanupAct ν φ α} (hp : Numbered p.2) (hstep : CleanupStep p a q) : Numbered q.2 := by
  have hadd (e : CleanupEvent φ α) : pushedIn (p.2.log ++ [e]) = pushedIn p.2.log ++ e.op.pushed?.toList := by
    cases e <;> simp [pushedIn, CleanupEvent.op, StackOp.pushed?]
  rcases cleanupStep_cases hstep with ⟨n, fn, arg, -, -, -, hq, -⟩ | ⟨n, e, -, hq, hop, -⟩ | ⟨-, hq, -⟩
  · rw [Numbered, hq, CleanupHist.push]
    dsimp only
    rw [hadd, List.map_append, hp, List.range_succ]
    rfl
  · rw [Numbered, hq, CleanupHist.add]
    dsimp only
    rw [hadd, hop, ← hp]
    simp [StackOp.pushed?]
  · rwa [Numbered, hq]

omit [DecidableEq ν] in
lemma Numbered.nodup {m : CleanupHist ν φ α} (h : Numbered m) : (pushedIn m.log).Nodup :=
  List.Nodup.of_map Handler.num (h ▸ List.nodup_range)

/-- What a run does to the stack of handlers. -/
lemma CleanupInv.run (h : CleanupInv p.1 p.2 l) (hrun : Run CleanupStep p as q) :
    q.1.Looped ∨ ∃ l' new, CleanupInv q.1 q.2 l' ∧ q.2.log = p.2.log ++ new ∧
      Run StackStep (l.map (p.2.handler p.1)) (new.map CleanupEvent.op) (l'.map (q.2.handler q.1)) := by
  induction hrun generalizing l with
  | nil => exact .inr ⟨l, [], h, (List.append_nil _).symm, .nil _⟩
  | cons hstep hrest ih =>
    rcases h.step hstep with hloop | ⟨l₁, new₁, h₁, hlog₁, hstack₁⟩
    · exact .inl (hrest.invariant (I := fun p => p.1.Looped) (fun _ _ _ h hstep => h.step hstep) hloop)
    · rcases ih h₁ with hloop | ⟨l₂, new₂, h₂, hlog₂, hstack₂⟩
      · exact .inl hloop
      · refine .inr ⟨l₂, new₁ ++ new₂, h₂, ?_, ?_⟩
        · rw [hlog₂, hlog₁, List.append_assoc]
        · rw [List.map_append]
          exact hstack₁.append hstack₂

omit [DecidableEq ν] in
lemma CleanupInv.init (h : s.Fresh) : CleanupInv s .empty [] := ⟨h.head, .nil, by simp⟩

lemma ExitInv.run (h : s.Fresh) (hrun : Run CleanupStep (s, .empty) as p) : ExitInv p.1 :=
  hrun.invariant (I := fun p => ExitInv p.1) (fun _ _ _ h hstep => h.step hstep.1) (.init h)

/-- When the coroutine is done, the handlers were a stack that is empty in the end. -/
lemma stack_of_done (h : s.Fresh) (hrun : Run CleanupStep (s, .empty) as p) (hrest : Run CleanupStep p bs q)
    (hdone : q.1.state = .done) :
    ∃ l new, CleanupInv p.1 p.2 l ∧ q.2.log = p.2.log ++ new ∧
      Run StackStep [] (p.2.log.map CleanupEvent.op) (l.map (p.2.handler p.1)) ∧
      Run StackStep (l.map (p.2.handler p.1)) (new.map CleanupEvent.op) [] := by
  have hend : ExitInv q.1 := .run h (hrun.append hrest)
  rcases (CleanupInv.init h).run hrun with hloop | ⟨l, log, hinv, hlog, hstack⟩
  · exact absurd (hrest.invariant (I := fun p => p.1.Looped) (fun _ _ _ h hstep => h.step hstep) hloop)
      (hend.not_looped hdone)
  rcases hinv.run hrest with hloop | ⟨l', new, hinv', hnew, hstack'⟩
  · exact absurd hloop (hend.not_looped hdone)
  obtain rfl : l' = [] := by
    have hhead := hinv'.seg.head_eq
    rw [hend.head hdone] at hhead
    exact List.head?_eq_none_iff.mp hhead.symm
  obtain rfl : p.2.log = log := hlog
  exact ⟨l, new, hinv, hnew, hstack, hstack'⟩

/-- When the coroutine is done, every handler has been taken off once. -/
lemma perm_of_done (h : s.Fresh) (hrun : Run CleanupStep (s, .empty) as p) (hdone : p.1.state = .done) :
    (takenIn p.2.log).Perm (pushedIn p.2.log) := by
  obtain ⟨l, new, -, hlog, hfirst, hrest⟩ := stack_of_done h hrun (.nil _) hdone
  have hall := hfirst.append hrest
  rw [← List.map_append, ← hlog] at hall
  simpa [takenIn, pushedIn] using StackStep.perm hall

lemma pushed_nodup (hrun : Run CleanupStep (s, .empty) as p) : (pushedIn p.2.log).Nodup :=
  Numbered.nodup (hrun.invariant (I := fun p => Numbered p.2) (fun _ _ _ h hstep => numbered_step h hstep)
    (show Numbered .empty from rfl))

/-- When the coroutine is done, each handler has run or been discarded, once. -/
lemma once_of_done [DecidableEq φ] [DecidableEq α] (h : s.Fresh) (hrun : Run CleanupStep (s, .empty) as p)
    (hdone : p.1.state = .done) {g : Handler φ α} (hg : .pushed g ∈ p.2.log) :
    p.2.log.count (.ran g) = 1 ∧ p.2.log.count (.discarded g) = 0 ∨
      p.2.log.count (.ran g) = 0 ∧ p.2.log.count (.discarded g) = 1 := by
  have hone := List.count_eq_one_of_mem (pushed_nodup hrun) (mem_pushedIn.mpr hg)
  rw [← (perm_of_done h hrun hdone).count_eq, count_takenIn] at hone
  omega

/-- The handlers that are pending at some point run in reverse order from there on. -/
lemma reverse_of_done (h : s.Fresh) (hrun : Run CleanupStep (s, .empty) as p) (hrest : Run CleanupStep p bs q)
    (hdone : q.1.state = .done) {f g : Handler φ α} (hf : p.2.Pending f) (hg : p.2.Pending g) (hlt : f.num < g.num)
    (hfran : .discarded f ∉ q.2.log) (hgran : .discarded g ∉ q.2.log) :
    ∃ later, q.2.log = p.2.log ++ later ∧ List.Sublist [.ran g, .ran f] later := by
  obtain ⟨l, new, hinv, hlog, hfirst, hsecond⟩ := stack_of_done h hrun hrest hdone
  have hmem {f : Handler φ α} (hf : p.2.Pending f) : f ∈ l.map (p.2.handler p.1) := by
    have htaken : f ∉ takenIn p.2.log := fun hmem => (mem_takenIn.mp hmem).elim hf.2.1 hf.2.2
    have hall := (StackStep.perm hfirst).mem_iff.mpr (List.mem_append_left _ (mem_pushedIn.mpr hf.1))
    exact (List.mem_append.mp hall).resolve_left htaken
  have hsorted : (l.map (p.2.handler p.1)).Pairwise fun f g => g.num < f.num := List.pairwise_map.mpr hinv.sorted
  have hpair := pair_sublist_of_pairwise hsorted (hmem hg) (hmem hf) (by rintro rfl; exact Nat.lt_irrefl _ hlt)
    (Nat.lt_asymm hlt)
  have htaken := hpair.trans (StackStep.sublist hsecond)
  rw [List.filterMap_map] at htaken
  obtain ⟨x, y, hxy, hx, hy⟩ := exists_pair_of_filterMap htaken
  have hxmem : x ∈ q.2.log := hlog ▸ List.mem_append_right _ (hxy.subset List.mem_cons_self)
  have hymem : y ∈ q.2.log := hlog ▸ List.mem_append_right _ (hxy.subset (by simp))
  obtain rfl := (eq_of_popped hx).resolve_right fun heq => hgran (heq ▸ hxmem)
  obtain rfl := (eq_of_popped hy).resolve_right fun heq => hfran (heq ▸ hymem)
  exact ⟨new, hlog, hxy⟩

end Runs

/-! ## The loop ends -/

section Progress

variable {s : CleanupState ν φ α} {p q : CleanupState ν φ α × CleanupHist ν φ α} {as : List (CleanupAct ν φ α)}

/-- A step of a coroutine whose code makes only so many calls more. -/
def BudgetStep (x y : (CleanupState ν φ α × CleanupHist ν φ α) × ℕ) : Prop :=
  ∃ a, Restrict CleanupStep NodeIsFree x.1 a y.1 ∧ x.2 = y.2 + a.cost

/-- How many steps there are at most. -/
def StepsLeft (x : (CleanupState ν φ α × CleanupHist ν φ α) × ℕ) (n : ℕ) : Prop :=
  ExitInv x.1.1 ∧ ∃ l, CleanupInv x.1.1 x.1.2 l ∧ n = 3 * l.length + x.1.1.rest + 5 * x.2

omit [DecidableEq ν] in
lemma not_mem_of_free {a : CleanupAct ν φ α} {n : ν} {fn : Option φ} {arg : α} {l : List ν}
    (h : CleanupInv p.1 p.2 l) (hfree : NodeIsFree p a q) (ha : a = .push (some n) fn arg) : n ∉ l := by
  intro hmem
  obtain ⟨l₁, l₂, -, hseg⟩ := h.seg.exists_of_mem hmem
  exact hfree n fn arg ha ⟨l₁, hseg⟩

lemma stepsLeft_step {x y : (CleanupState ν φ α × CleanupHist ν φ α) × ℕ} {n : ℕ} (hx : StepsLeft x n)
    (hstep : BudgetStep x y) : ∃ k < n, StepsLeft y k := by
  obtain ⟨⟨s, m⟩, j⟩ := x
  obtain ⟨⟨t, m'⟩, k⟩ := y
  obtain ⟨hexit, l, hinv, rfl⟩ := hx
  obtain ⟨a, ⟨hstep, hfree⟩, hcost⟩ := hstep
  have hexit' : ExitInv t := hexit.step hstep.1
  dsimp only at hinv hcost ⊢
  rcases cleanupStep_cases hstep with
    ⟨n, fn, arg, ha, hhead, hnode, hq, hrest⟩ | ⟨n, e, htake, hq, -, hrest⟩ | ⟨hleave, hq, hrest⟩
  · have hinv' := (hinv.push (not_mem_of_free hinv hfree ha) hhead hnode).1
    rw [← hq] at hinv'
    refine ⟨_, ?_, hexit', _, hinv', rfl⟩
    subst ha
    simp only [List.length_cons, hrest, hcost, CleanupAct.cost]
    omega
  · obtain ⟨l', rfl, hinv', -⟩ := hinv.take htake
    refine ⟨_, ?_, hexit', l', ?_, rfl⟩
    · simp only [List.length_cons, hcost]
      omega
    · rw [hq]
      exact ⟨hinv'.seg, hinv'.sorted, hinv'.bound⟩
  · have hinv' := (hinv.leave hleave).1
    rw [← hq] at hinv'
    refine ⟨_, ?_, hexit', l, hinv', rfl⟩
    simp only [hcost]
    omega

/-- A coroutine whose code makes only finitely many calls more becomes done. -/
lemma leads_to_done {k n : ℕ} (h : StepsLeft (p, k) n) : Leads BudgetStep (fun x => x.1.1.state = .done) (p, k) := by
  refine Leads.of_rank StepsLeft (fun x y n => stepsLeft_step) ?_ h
  rintro x n ⟨hexit, -⟩ hdone
  obtain ⟨a, hcost, t, ht⟩ := hexit.exists_step hdone
  refine ⟨((t, x.1.2.record x.1.1 a), x.2), a, ⟨⟨ht, rfl⟩, ?_⟩, by rw [hcost]; rfl⟩
  rintro n fn arg rfl
  exact absurd hcost (by simp [CleanupAct.cost])

/-- What a run does of which the caller keeps its promise. -/
lemma stepsLeft_run (h : s.Fresh) (hrun : Run (Restrict CleanupStep NodeIsFree) (s, .empty) as p) (k : ℕ) :
    ∃ n, StepsLeft (p, k) n := by
  refine hrun.invariant (I := fun p => ∃ n, StepsLeft (p, k) n) ?_ ⟨_, .init h, [], .init h, rfl⟩
  rintro p a q ⟨n, hexit, l, hinv, -⟩ hstep
  obtain ⟨m, -, hexit', l', hinv', -⟩ := stepsLeft_step (y := (q, k)) (x := (p, k + a.cost)) ⟨hexit, l, hinv, rfl⟩
    ⟨a, hstep, rfl⟩
  exact ⟨_, hexit', l', hinv', rfl⟩

end Progress

/-- The handlers of a coroutine run once unless they are discarded, those that are pending at some point, say at the
call of `suspenders_exit`, in reverse order.  The coroutine is then done, and a zombie once.  It does get there if
linked nodes are not pushed and its code makes finitely many calls. -/
theorem cleanup_handlers_run_once [DecidableEq φ] [DecidableEq α] {s : CleanupState ν φ α} (h : s.Fresh)
    {as : List (CleanupAct ν φ α)} {p : CleanupState ν φ α × CleanupHist ν φ α}
    (hrun : Run CleanupStep (s, .empty) as p) :
    (p.1.zombies = if p.1.state = .done then 1 else 0) ∧
    (p.1.state = .done →
      (∀ a, p.1.step a = none) ∧
      (∀ g, .ran g ∈ p.2.log → .pushed g ∈ p.2.log) ∧
      (∀ g, .pushed g ∈ p.2.log →
        p.2.log.count (.ran g) = 1 ∧ p.2.log.count (.discarded g) = 0 ∨
          p.2.log.count (.ran g) = 0 ∧ p.2.log.count (.discarded g) = 1) ∧
      ∀ bs cs q, Run CleanupStep (s, .empty) bs q → Run CleanupStep q cs p →
        ∀ f g, q.2.Pending f → q.2.Pending g → f.num < g.num → .ran f ∈ p.2.log → .ran g ∈ p.2.log →
          ∃ later, p.2.log = q.2.log ++ later ∧ List.Sublist [.ran g, .ran f] later) ∧
    (Run (Restrict CleanupStep NodeIsFree) (s, .empty) as p →
      ∀ calls, Leads BudgetStep (fun x => x.1.1.state = .done) (p, calls)) := by
  have hexit : ExitInv p.1 := .run h hrun
  refine ⟨hexit.zombies, fun hdone => ?_, fun hfree calls => ?_⟩
  · have hpushed (g : Handler φ α) (hg : .ran g ∈ p.2.log) : .pushed g ∈ p.2.log :=
      mem_pushedIn.mp ((perm_of_done h hrun hdone).mem_iff.mp (mem_takenIn.mpr (.inl hg)))
    have hkept (g : Handler φ α) (hg : .ran g ∈ p.2.log) : .discarded g ∉ p.2.log := by
      have hpos := List.count_pos_iff.mpr hg
      have honce := once_of_done h hrun hdone (hpushed g hg)
      exact List.count_eq_zero.mp (by omega)
    refine ⟨ExitInv.step_eq_none hdone, hpushed, fun g hg => once_of_done h hrun hdone hg, ?_⟩
    intro bs cs q hbs hcs f g hf hg hlt hfran hgran
    exact reverse_of_done h hbs hcs hdone hf hg hlt (hkept f hfran) (hkept g hgran)
  · obtain ⟨n, hn⟩ := stepsLeft_run h hfree calls
    exact leads_to_done hn

/-- The function pushes two handlers and calls `suspenders_exit`; the second handler parks, and the first one pushes
a third. -/
theorem cleanup_handlers_run_once_of_three : ∃ p : CleanupState ℕ ℕ ℕ × CleanupHist ℕ ℕ ℕ,
    p.1.state = .done ∧ p.1.zombies = 1 ∧
      p.2.log = [.pushed ⟨0, some 7, 1⟩, .pushed ⟨1, some 8, 2⟩, .ran ⟨1, some 8, 2⟩, .ran ⟨0, some 7, 1⟩,
        .pushed ⟨2, some 9, 3⟩, .ran ⟨2, some 9, 3⟩] := by
  let s : CleanupState ℕ ℕ ℕ := ⟨none, fun _ => ⟨none, 0, none⟩, true, false, .running, 1, 0, [.user]⟩
  have h : Run CleanupStep (s, .empty) [.push (some 0) (some 7) 1, .push (some 1) (some 8) 2, .exit, .turn, .park, .wake,
      .dispatch, .ret, .turn, .push (some 0) (some 9) 3, .ret, .turn, .ret, .turn] _ :=
    .cons (t := (_, _)) ⟨rfl, rfl⟩ <| .cons (t := (_, _)) ⟨rfl, rfl⟩ <| .cons (t := (_, _)) ⟨rfl, rfl⟩ <|
    .cons (t := (_, _)) ⟨rfl, rfl⟩ <| .cons (t := (_, _)) ⟨rfl, rfl⟩ <| .cons (t := (_, _)) ⟨rfl, rfl⟩ <|
    .cons (t := (_, _)) ⟨rfl, rfl⟩ <| .cons (t := (_, _)) ⟨rfl, rfl⟩ <| .cons (t := (_, _)) ⟨rfl, rfl⟩ <|
    .cons (t := (_, _)) ⟨rfl, rfl⟩ <| .cons (t := (_, _)) ⟨rfl, rfl⟩ <| .cons (t := (_, _)) ⟨rfl, rfl⟩ <|
    .cons (t := (_, _)) ⟨rfl, rfl⟩ <| .cons (t := (_, _)) ⟨rfl, rfl⟩ <| .nil _
  exact ⟨_, rfl, (cleanup_handlers_run_once ⟨rfl, rfl, rfl, rfl⟩ h).1, rfl⟩

end Suspenders.Coro
