import Mathlib
import Suspenders.Lib.Memory
import Suspenders.Lib.Run

/-!
# Switching between contexts in one memory

A processor runs several computations by turns.  What a computation needs to go on is its *frame*; while
it does not run, bytes of the memory encode the frame, and these bytes are the *footprint* of the frame.
`Switcher` lists what an architecture contributes, `Switcher.Lawful` the rules that its code has to meet:
a switch gives back the frame of the new context and leaves behind that of the old one, and it writes
nothing but the footprint it leaves.

For every lawful switcher the computations do not disturb each other, however they take turns: each
parked frame stays encoded (`inv_run`), so that a context goes on exactly where it left (`resumes`).
-/

namespace Suspenders.Lib

/-- The parts of a context switch, for processor states `κ`, frames `F` and the parameters `A` of a
context that has not run. -/
structure Switcher (κ F A : Type*) where
  /-- The memory of a processor state. -/
  mem : κ → Mem
  /-- The memory encodes the frame for the context at this address. -/
  Holds : Mem → Word → F → Prop
  /-- The bytes on which the encoding of a frame rests. -/
  foot : Word → F → Set Word
  /-- The frame can be encoded for the context at this address. -/
  Fits : Word → F → Prop
  /-- The frame that a call of the switch, made in this state with this return address, has to give
  back. -/
  leave : Word → κ → F
  /-- The frame of a context that starts. -/
  fresh : A → F
  /-- The switch: return address, old context, new context. -/
  switch : Word → Word → Word → κ → Option κ
  /-- Prepare the context at this address. -/
  make : Word → A → κ → κ
  /-- The processor is where the frame says. -/
  Resumes : κ → F → Prop

namespace Switcher

variable {κ F A ι : Type*} (S : Switcher κ F A)

/-- The rules a switcher obeys. -/
structure Lawful : Prop where
  congr {m m' : Mem} {c : Word} {f : F} :
    S.Holds m c f → (∀ x ∈ S.foot c f, m' x = m x) → S.Holds m' c f
  switch_spec {ra old new : Word} {k : κ} {f : F} :
    S.Holds (S.mem k) new f → S.Fits old (S.leave ra k) →
    Disjoint (S.foot new f) (S.foot old (S.leave ra k)) →
    ∃ k', S.switch ra old new k = some k' ∧ S.Resumes k' f ∧
      S.Holds (S.mem k') old (S.leave ra k) ∧
      ∀ x ∉ S.foot old (S.leave ra k), S.mem k' x = S.mem k x
  make_spec (c : Word) (a : A) (k : κ) : S.Fits c (S.fresh a) →
    S.Holds (S.mem (S.make c a k)) c (S.fresh a) ∧
      ∀ x ∉ S.foot c (S.fresh a), S.mem (S.make c a k) x = S.mem k x

/-- Where the contexts are, and the memory each of them may use for its frames. -/
structure Layout (ι : Type*) where
  ctx : ι → Word
  area : ι → Set Word
  disjoint : ∀ i j, i ≠ j → Disjoint (area i) (area j)

/-- Two contexts of 64 KiB each. -/
def Layout.two : Layout Bool where
  ctx b := if b then 0x20000 else 0x1000
  area b := span (if b then 0x20000 else 0x1000) 0x10000
  disjoint := by
    have hdis : Disjoint (span 0x20000 0x10000) (span 0x1000 0x10000) := by
      rw [Set.disjoint_left]
      intro x hx hx'
      rw [mem_span] at hx hx'
      bv_omega
    intro i j hij
    cases i <;> cases j
    · exact absurd rfl hij
    · exact hdis.symm
    · exact hdis
    · exact absurd rfl hij

/-- The processor, the context that runs, and the frames that were left behind (a history: no step of
the code reads it). -/
structure State (κ F ι : Type*) where
  cpu : κ
  running : ι
  saved : ι → Option F

/-- What happens on the processor. -/
inductive Event (κ A ι : Type*)
  /-- The running code computes. -/
  | compute (k : κ)
  /-- The running code calls the switch to `j`; the call returns to `ra`. -/
  | switch (j : ι) (ra : Word)
  /-- The running code prepares the context `j`. -/
  | make (j : ι) (a : A)
  /-- The context `j` is given up. -/
  | drop (j : ι)

variable (L : Layout ι)

/-- The frame fits into the memory of context `i`. -/
def Room (i : ι) (f : F) : Prop := S.Fits (L.ctx i) f ∧ S.foot (L.ctx i) f ⊆ L.area i

/-- Every frame that was left behind is in memory, in the area of its context; the running context has
left none. -/
structure Inv (s : State κ F ι) : Prop where
  parked : ∀ j f, s.saved j = some f → S.Holds (S.mem s.cpu) (L.ctx j) f
  inside : ∀ j f, s.saved j = some f → S.foot (L.ctx j) f ⊆ L.area j
  running : s.saved s.running = none

variable {S} {L} {s t : State κ F ι} {e : Event κ A ι}

/-- At first no frame is parked. -/
lemma inv_init (h : ∀ i, s.saved i = none) : S.Inv L s where
  parked j f hf := by rw [h j] at hf; cases hf
  inside j f hf := by rw [h j] at hf; cases hf
  running := h s.running

/-- A write inside the area of `i` leaves the frame of another context as it is. -/
lemma Inv.kept (hS : S.Lawful) (hs : S.Inv L s) {i j : ι} {f : F} {m : Mem} {B : Set Word}
    (hB : B ⊆ L.area i) (hm : ∀ x ∉ B, m x = S.mem s.cpu x) (hij : j ≠ i)
    (hf : s.saved j = some f) : S.Holds m (L.ctx j) f := by
  refine hS.congr (hs.parked j f hf) fun x hx => hm x fun hxB => ?_
  exact Set.disjoint_left.1 (L.disjoint j i hij) (hs.inside j f hf hx) (hB hxB)

/-- The frames of two contexts rest on different bytes. -/
lemma Inv.foot_disjoint (hs : S.Inv L s) {i j : ι} {f g : F} (hij : j ≠ i)
    (hf : s.saved j = some f) (hg : S.foot (L.ctx i) g ⊆ L.area i) :
    Disjoint (S.foot (L.ctx j) f) (S.foot (L.ctx i) g) :=
  (L.disjoint j i hij).mono (hs.inside j f hf) hg

/-- A context whose frame is saved does not run. -/
lemma Inv.ne_running (hs : S.Inv L s) {j : ι} {f : F} (hf : s.saved j = some f) :
    j ≠ s.running := by
  rintro rfl
  rw [hs.running] at hf
  cases hf

/-- What a switch to a parked context does. -/
lemma Inv.switch (hS : S.Lawful) (hs : S.Inv L s) {j : ι} {f : F} {ra : Word}
    (hf : s.saved j = some f) (hroom : S.Room L s.running (S.leave ra s.cpu)) :
    ∃ k, S.switch ra (L.ctx s.running) (L.ctx j) s.cpu = some k ∧ S.Resumes k f ∧
      S.Holds (S.mem k) (L.ctx s.running) (S.leave ra s.cpu) ∧
      ∀ x ∉ S.foot (L.ctx s.running) (S.leave ra s.cpu), S.mem k x = S.mem s.cpu x :=
  hS.switch_spec (hs.parked j f hf) hroom.1
    (hs.foot_disjoint (hs.ne_running hf) hf hroom.2)

variable [DecidableEq ι]

variable (S L) in
/-- One event.  Computing may change every register and all of the memory but the parked frames. -/
inductive Step : State κ F ι → Event κ A ι → State κ F ι → Prop
  | compute {s : State κ F ι} {k : κ}
      (keeps : ∀ j f, s.saved j = some f → ∀ x ∈ S.foot (L.ctx j) f, S.mem k x = S.mem s.cpu x) :
      Step s (.compute k) { s with cpu := k }
  | switch {s : State κ F ι} {j : ι} {ra : Word} {f : F} {k : κ} (parked : s.saved j = some f)
      (room : S.Room L s.running (S.leave ra s.cpu))
      (runs : S.switch ra (L.ctx s.running) (L.ctx j) s.cpu = some k) :
      Step s (.switch j ra)
        { cpu := k, running := j
          saved := Function.update
            (Function.update s.saved s.running (some (S.leave ra s.cpu))) j none }
  | make {s : State κ F ι} {j : ι} {a : A} (idle : j ≠ s.running)
      (room : S.Room L j (S.fresh a)) :
      Step s (.make j a)
        { s with
          cpu := S.make (L.ctx j) a s.cpu
          saved := Function.update s.saved j (some (S.fresh a)) }
  | drop {s : State κ F ι} {j : ι} :
      Step s (.drop j) { s with saved := Function.update s.saved j none }

/-- A frame that is saved after one entry changed is the new one, or it was saved before. -/
lemma update_eq_some {saved : ι → Option F} {i j : ι} {o : Option F} {f : F}
    (h : Function.update saved j o i = some f) : i = j ∧ o = some f ∨ i ≠ j ∧ saved i = some f := by
  by_cases hij : i = j
  · rw [hij, Function.update_self] at h
    exact .inl ⟨hij, h⟩
  · rw [Function.update_of_ne hij] at h
    exact .inr ⟨hij, h⟩

lemma inv_step (hS : S.Lawful) (hs : S.Inv L s) (h : S.Step L s e t) : S.Inv L t := by
  cases h with
  | compute keeps =>
    exact { parked := fun j f hf => hS.congr (hs.parked j f hf) (keeps j f hf)
            inside := hs.inside
            running := hs.running }
  | switch parked room runs =>
    obtain ⟨k', hk', -, hold, hframe⟩ := hs.switch hS parked room
    cases hk'.symm.trans runs
    refine ⟨fun i g hg => ?_, fun i g hg => ?_, Function.update_self ..⟩
    · obtain ⟨-, h⟩ | ⟨-, hg⟩ := update_eq_some hg
      · cases h
      obtain ⟨rfl, h⟩ | ⟨hi, hg⟩ := update_eq_some hg
      · cases h
        exact hold
      · exact hs.kept hS room.2 hframe hi hg
    · obtain ⟨-, h⟩ | ⟨-, hg⟩ := update_eq_some hg
      · cases h
      obtain ⟨rfl, h⟩ | ⟨-, hg⟩ := update_eq_some hg
      · cases h
        exact room.2
      · exact hs.inside i g hg
  | make idle room =>
    obtain ⟨hnew, hframe⟩ := hS.make_spec _ _ s.cpu room.1
    refine ⟨fun i g hg => ?_, fun i g hg => ?_, ?_⟩
    · obtain ⟨rfl, h⟩ | ⟨hi, hg⟩ := update_eq_some hg
      · cases h
        exact hnew
      · exact hs.kept hS room.2 hframe hi hg
    · obtain ⟨rfl, h⟩ | ⟨-, hg⟩ := update_eq_some hg
      · cases h
        exact room.2
      · exact hs.inside i g hg
    · exact (Function.update_of_ne idle.symm ..).trans hs.running
  | drop =>
    have hkept {j i : ι} {g : F} (hg : Function.update s.saved j none i = some g) :
        s.saved i = some g := by
      obtain ⟨-, h⟩ | ⟨-, hg⟩ := update_eq_some hg
      · cases h
      · exact hg
    refine ⟨fun i g hg => hs.parked i g (hkept hg), fun i g hg => hs.inside i g (hkept hg), ?_⟩
    change Function.update s.saved _ none s.running = none
    rw [Function.update_apply, hs.running, ite_self]

lemma inv_run (hS : S.Lawful) {es : List (Event κ A ι)} (hs : S.Inv L s)
    (h : Run (S.Step L) s es t) : S.Inv L t :=
  h.invariant (fun _ _ _ hinv hstep => inv_step hS hinv hstep) hs

/-- The event does not concern the parked context `i`. -/
def Event.Spares (i : ι) : Event κ A ι → Prop
  | .compute _ => True
  | .switch j _ => j ≠ i
  | .make j _ => j ≠ i
  | .drop j => j ≠ i

lemma saved_step (hs : S.Inv L s) (h : S.Step L s e t) {i : ι} {f : F} (hf : s.saved i = some f)
    (hspare : e.Spares i) : t.saved i = some f := by
  cases h with
  | compute => exact hf
  | switch =>
    exact (Function.update_of_ne hspare.symm ..).trans
      ((Function.update_of_ne (hs.ne_running hf) ..).trans hf)
  | make => exact (Function.update_of_ne hspare.symm ..).trans hf
  | drop => exact (Function.update_of_ne hspare.symm ..).trans hf

lemma saved_run (hS : S.Lawful) {es : List (Event κ A ι)} (hs : S.Inv L s)
    (h : Run (S.Step L) s es t) {i : ι} {f : F} (hf : s.saved i = some f)
    (hspare : ∀ e ∈ es, e.Spares i) : t.saved i = some f := by
  induction h with
  | nil => exact hf
  | cons hstep _ ih =>
    exact ih (inv_step hS hs hstep) (saved_step hs hstep hf (hspare _ (.head _)))
      fun e he => hspare e (.tail _ he)

/-- A context that is parked gets its frame back, whatever the others did meanwhile. -/
lemma resumes (hS : S.Lawful) {es : List (Event κ A ι)} (hs : S.Inv L s)
    (h : Run (S.Step L) s es t) {i : ι} {f : F} (hf : s.saved i = some f)
    (hspare : ∀ e ∈ es, e.Spares i) {ra : Word} (hroom : S.Room L t.running (S.leave ra t.cpu)) :
    ∃ k, S.switch ra (L.ctx t.running) (L.ctx i) t.cpu = some k ∧ S.Resumes k f ∧
      ∀ x ∉ S.foot (L.ctx t.running) (S.leave ra t.cpu), S.mem k x = S.mem t.cpu x :=
  let ⟨k, hk, hres, _, hframe⟩ :=
    (inv_run hS hs h).switch hS (saved_run hS hs h hf hspare) hroom
  ⟨k, hk, hres, hframe⟩

/-- The context that calls the switch comes back as it left. -/
lemma returns (hS : S.Lawful) {s₀ s₁ s₂ s₃ : State κ F ι} {es es' : List (Event κ A ι)} {j : ι}
    {ra ra' : Word} (h₀ : ∀ i, s₀.saved i = none) (h₁ : Run (S.Step L) s₀ es s₁)
    (hleave : S.Step L s₁ (.switch j ra) s₂) (h₂ : Run (S.Step L) s₂ es' s₃)
    (hspare : ∀ e ∈ es', e.Spares s₁.running)
    (hroom : S.Room L s₃.running (S.leave ra' s₃.cpu)) :
    ∃ k, S.switch ra' (L.ctx s₃.running) (L.ctx s₁.running) s₃.cpu = some k ∧
      S.Resumes k (S.leave ra s₁.cpu) ∧
      ∀ x ∉ S.foot (L.ctx s₃.running) (S.leave ra' s₃.cpu), S.mem k x = S.mem s₃.cpu x := by
  have hinv := inv_run hS (inv_init h₀) h₁
  refine resumes hS (inv_step hS hinv hleave) h₂ ?_ hspare hroom
  cases hleave with
  | switch parked room runs =>
    exact (Function.update_of_ne (hinv.ne_running parked).symm ..).trans (Function.update_self ..)

/-- A context that is made starts as it was made. -/
lemma starts (hS : S.Lawful) {s₀ s₁ s₂ s₃ : State κ F ι} {es es' : List (Event κ A ι)} {j : ι}
    {a : A} {ra : Word} (h₀ : ∀ i, s₀.saved i = none) (h₁ : Run (S.Step L) s₀ es s₁)
    (hmake : S.Step L s₁ (.make j a) s₂) (h₂ : Run (S.Step L) s₂ es' s₃)
    (hspare : ∀ e ∈ es', e.Spares j) (hroom : S.Room L s₃.running (S.leave ra s₃.cpu)) :
    ∃ k, S.switch ra (L.ctx s₃.running) (L.ctx j) s₃.cpu = some k ∧
      S.Resumes k (S.fresh a) ∧
      ∀ x ∉ S.foot (L.ctx s₃.running) (S.leave ra s₃.cpu), S.mem k x = S.mem s₃.cpu x := by
  refine resumes hS (inv_step hS (inv_run hS (inv_init h₀) h₁) hmake) h₂ ?_ hspare hroom
  cases hmake with
  | make idle room => exact Function.update_self ..

end Switcher

end Suspenders.Lib
