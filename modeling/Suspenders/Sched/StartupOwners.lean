import Suspenders.Sched.Startup

/-!
# What the runtime holds

`Sys.Inv` says who owns every block and every descriptor between two steps, which threads there are, and what the
array of the workers holds; `Sys.Inv.step` says that every step keeps it.  `runtime_accounted` reads it off: nothing
is freed, closed or used that is not there, and nothing is left when the runtime is down, whichever call has failed.
-/

namespace Suspenders.Startup

open Lib Function

/-- The blocks of a backend. -/
inductive Slot
  | self
  | second
  | third
  deriving DecidableEq

/-- Who can own a block or a descriptor. -/
inductive Holder
  /-- `s_workers` -/
  | workers
  /-- `wake_rd` of a worker, and `wake_wr` if it is another descriptor. -/
  | wakeRd (i : ℕ)
  | wakeWr (i : ℕ)
  /-- `suspenders_backend` of a thread. -/
  | backend (i : ℕ) (k : Slot)
  /-- `suspenders_timer_heap.data` of a thread. -/
  | timers (i : ℕ)
  deriving DecidableEq

def Desc.id : Desc → Option ℕ
  | opened id => some id
  | _ => none

def Backend.slot : Backend → Slot → Option ℕ
  | iouring self _, .self | kqueue self _ _, .self | poll self _ _, .self => some self
  | iouring _ ring, .second => some ring
  | iouring _ _, .third => none
  | kqueue _ kq _, .second => some kq
  | kqueue _ _ events, .third => some events
  | poll _ fds _, .second => some fds
  | poll _ _ crs, .third => some crs

/-- The owners, if the backend of worker `i` has the blocks `f`. -/
def slots (owns : Holder → Option ℕ) (i : ℕ) (f : Slot → Option ℕ) : Holder → Option ℕ
  | .backend j k => if j = i then f k else owns (.backend j k)
  | o => owns o

/-- The blocks of a backend, if there is one. -/
def slotsOf (be : Option Backend) (k : Slot) : Option ℕ := be.bind fun b => b.slot k

/-- What is closed with `wake_rd`, and with `wake_wr`. -/
def Worker.rd (w : Worker) : Option ℕ := w.wakeRd.id

def Worker.wr (w : Worker) : Option ℕ := if w.wakeWr = w.wakeRd then none else w.wakeWr.id

namespace Sys

variable (s : Sys)

/-- What each owner has. -/
def owns : Holder → Option ℕ
  | .workers => s.workers
  | .wakeRd i => (s.cell i).rd
  | .wakeWr i => (s.cell i).wr
  | .backend i k => slotsOf (s.backend i) k
  | .timers i => s.timers i

/-- How large it is. -/
def sizes : Holder → ℕ
  | .workers => s.numWorkers
  | _ => 1

end Sys

/-! ## Backends -/

section Backends

variable {m : Alloc} {owns : Holder → Option ℕ} {sz : Holder → ℕ} {i : ℕ} {f : Slot → Option ℕ} {k : Slot} {id : ℕ}

lemma slots_ne {o : Holder} (ho : o ≠ .backend i k) (x : Option ℕ) :
    slots owns i (update f k x) o = slots owns i f o := by
  cases o with
  | backend j l =>
    by_cases hj : j = i
    · subst hj
      have hl : l ≠ k := fun heq => ho (heq ▸ rfl)
      simp [slots, update_of_ne hl]
    · simp [slots, hj]
  | _ => rfl

lemma slots_self : slots owns i f (.backend i k) = f k := if_pos rfl

lemma acquire_slot (h : m.Sized (slots owns i f) sz) (hsz : ∀ k, sz (.backend i k) = 1) (hk : f k = none) :
    (m.malloc 1).Sized (slots owns i (update f k (some m.next))) sz :=
  h.acquire (slots_self.trans hk) (slots_self.trans (update_self ..)) (fun _ hx => slots_ne hx _) (hsz k) fun _ _ => rfl

lemma release_slot (h : m.Sized (slots owns i f) sz) (hk : f k = some id) :
    (m.free id).Sized (slots owns i (update f k none)) sz :=
  h.release (slots_self.trans hk) (slots_self.trans (update_self ..)) (fun _ hx => slots_ne hx _) fun _ _ => rfl

/-- A backend can be made for worker `i` from what `m` has. -/
def Makes (owns : Holder → Option ℕ) (sz : Holder → ℕ) (i : ℕ) (r : Option Backend × Alloc) : Prop :=
  r.2.Sized (slots owns i (slotsOf r.1)) sz

lemma Makes.of_slots {be : Option Backend} (h : m.Sized (slots owns i f) sz) (hf : ∀ k, slotsOf be k = f k) :
    Makes owns sz i (be, m) := by
  rw [Makes, funext hf]
  exact h

variable (h : m.Sized (slots owns i fun _ => none) sz) (hsz : ∀ k, sz (.backend i k) = 1)

include h hsz

lemma makes_iouCreate (x y : Bool) : Makes owns sz i (iouCreate x y m) := by
  have h₁ := acquire_slot (k := .self) h hsz rfl
  cases x with
  | false => exact .of_slots h fun _ => rfl
  | true =>
    cases y with
    | false =>
      have h₂ := release_slot (k := .self) h₁ rfl
      exact .of_slots h₂ fun k => by cases k <;> rfl
    | true =>
      have h₂ := acquire_slot (k := .second) h₁ hsz rfl
      exact .of_slots h₂ fun k => by cases k <;> rfl

lemma makes_kqCreate (x y z : Bool) : Makes owns sz i (kqCreate x y z m) := by
  have h₁ := acquire_slot (k := .self) h hsz rfl
  have h₂ := acquire_slot (k := .second) h₁ hsz rfl
  cases x with
  | false => exact .of_slots h fun _ => rfl
  | true =>
    cases y with
    | false =>
      have h₃ := release_slot (k := .self) h₁ rfl
      exact .of_slots h₃ fun k => by cases k <;> rfl
    | true =>
      cases z with
      | false =>
        have h₃ := release_slot (k := .self) (release_slot (k := .second) h₂ rfl) rfl
        exact .of_slots h₃ fun k => by cases k <;> rfl
      | true =>
        have h₃ := acquire_slot (k := .third) h₂ hsz rfl
        exact .of_slots h₃ fun k => by cases k <;> rfl

lemma makes_pollCreate (x y z : Bool) : Makes owns sz i (pollCreate x y z m) := by
  have h₁ := acquire_slot (k := .self) h hsz rfl
  have h₂ := acquire_slot (k := .second) h₁ hsz rfl
  cases x with
  | false => exact .of_slots h fun _ => rfl
  | true =>
    cases y with
    | false =>
      cases z with
      | false =>
        have h₃ := release_slot (k := .self) h₁ rfl
        exact .of_slots h₃ fun k => by cases k <;> rfl
      | true =>
        have h₃ := acquire_slot (k := .third) h₁ hsz rfl
        have h₄ := release_slot (k := .self) (release_slot (k := .third) h₃ rfl) rfl
        exact .of_slots h₄ fun k => by cases k <;> rfl
    | true =>
      cases z with
      | false =>
        have h₃ := release_slot (k := .self) (release_slot (k := .second) h₂ rfl) rfl
        exact .of_slots h₃ fun k => by cases k <;> rfl
      | true =>
        have h₃ := acquire_slot (k := .third) h₂ hsz rfl
        exact .of_slots h₃ fun k => by cases k <;> rfl

lemma makes_otherCreate (p : Platform) (o : BackendCalls) : Makes owns sz i (otherCreate p o m) := by
  rw [otherCreate]
  split
  · exact makes_kqCreate h hsz ..
  · exact makes_pollCreate h hsz ..

/-- Whatever fails, what is left is a backend, or nothing. -/
lemma makes_backendCreate (p : Platform) (o : BackendCalls) : Makes owns sz i (backendCreate p o m) := by
  rw [backendCreate]
  split
  · have hiou := makes_iouCreate h hsz o.iou.1 o.iou.2
    split
    next be m' heq => rwa [heq] at hiou
    next m' heq =>
      rw [heq] at hiou
      exact makes_otherCreate hiou hsz p o
  · exact makes_otherCreate h hsz p o

omit h hsz

lemma sized_backendDestroy {be : Option Backend} (h : m.Sized (slots owns i (slotsOf be)) sz) :
    (backendDestroy be m).Sized (slots owns i fun _ => none) sz := by
  have hdone {m' : Alloc} {f : Slot → Option ℕ} (h : m'.Sized (slots owns i f) sz) (hf : ∀ k, f k = none) :
      m'.Sized (slots owns i fun _ => none) sz := by
    rw [← funext hf]
    exact h
  cases be with
  | none => exact h
  | some be =>
    cases be with
    | iouring self ring =>
      have h₁ := release_slot (k := .self) (release_slot (k := .second) h rfl) rfl
      exact hdone h₁ fun k => by cases k <;> rfl
    | kqueue self kq events =>
      have h₁ := release_slot (k := .self) (release_slot (k := .third) (release_slot (k := .second) h rfl) rfl) rfl
      exact hdone h₁ fun k => by cases k <;> rfl
    | poll self fds crs =>
      have h₁ := release_slot (k := .self) (release_slot (k := .third) (release_slot (k := .second) h rfl) rfl) rfl
      exact hdone h₁ fun k => by cases k <;> rfl

end Backends

/-- The thread is between `s_backend_create` and `s_backend_destroy`. -/
def Helper.HasBackend : Helper → Prop
  | register | top | slice _ | parked | wait | left => True
  | _ => False

/-! ## Wake descriptors -/

section Wakes

variable {m : Alloc} {owns : Holder → Option ℕ} {sz : Holder → ℕ} {i id : ℕ} {rd wr : Option ℕ}

/-- The owners, if worker `i` has the descriptors `rd` and `wr`. -/
def wakes (owns : Holder → Option ℕ) (i : ℕ) (rd wr : Option ℕ) : Holder → Option ℕ
  | .wakeRd j => if j = i then rd else owns (.wakeRd j)
  | .wakeWr j => if j = i then wr else owns (.wakeWr j)
  | o => owns o

lemma wakes_rd {o : Holder} (ho : o ≠ .wakeRd i) (x y : Option ℕ) : wakes owns i x wr o = wakes owns i y wr o := by
  cases o with
  | wakeRd j =>
    have hj : j ≠ i := fun heq => ho (heq ▸ rfl)
    simp [wakes, hj]
  | _ => rfl

lemma wakes_wr {o : Holder} (ho : o ≠ .wakeWr i) (x y : Option ℕ) : wakes owns i rd x o = wakes owns i rd y o := by
  cases o with
  | wakeWr j =>
    have hj : j ≠ i := fun heq => ho (heq ▸ rfl)
    simp [wakes, hj]
  | _ => rfl

lemma acquire_rd (h : m.Sized (wakes owns i none wr) sz) (hsz : sz (.wakeRd i) = 1) :
    (m.malloc 1).Sized (wakes owns i (some m.next) wr) sz :=
  h.acquire (o := .wakeRd i) (if_pos rfl) (if_pos rfl) (fun _ hx => wakes_rd hx _ _) hsz fun _ _ => rfl

lemma acquire_wr (h : m.Sized (wakes owns i rd none) sz) (hsz : sz (.wakeWr i) = 1) :
    (m.malloc 1).Sized (wakes owns i rd (some m.next)) sz :=
  h.acquire (o := .wakeWr i) (if_pos rfl) (if_pos rfl) (fun _ hx => wakes_wr hx _ _) hsz fun _ _ => rfl

lemma release_rd (h : m.Sized (wakes owns i (some id) wr) sz) : (m.free id).Sized (wakes owns i none wr) sz :=
  h.release (o := .wakeRd i) (if_pos rfl) (if_pos rfl) (fun _ hx => wakes_rd hx _ _) fun _ _ => rfl

lemma release_wr (h : m.Sized (wakes owns i rd (some id)) sz) : (m.free id).Sized (wakes owns i rd none) sz :=
  h.release (o := .wakeWr i) (if_pos rfl) (if_pos rfl) (fun _ hx => wakes_wr hx _ _) fun _ _ => rfl

end Wakes

/-- The descriptors of the worker are open. -/
def Worker.Open (w : Worker) : Prop := ∃ r w', w = ⟨.opened r, .opened w'⟩

/-- They have not been opened, or have been closed. -/
def Worker.Shut (w : Worker) : Prop := w.rd = none ∧ w.wr = none

namespace Sys

variable {s t : Sys} {p : Platform} {m : Alloc} {c : ℕ → Worker} {w : Worker} {i j k n : ℕ}

/-- The blocks are those of the runtime. -/
abbrev Held (s : Sys) (m : Alloc) : Prop := m.Sized s.owns s.sizes

lemma owns_update (hc : t.cell = update s.cell i w) (hworkers : t.workers = s.workers)
    (hbackend : t.backend = s.backend) (htimers : t.timers = s.timers) : t.owns = wakes s.owns i w.rd w.wr := by
  funext o
  cases o with
  | workers => exact hworkers
  | wakeRd j =>
    by_cases hj : j = i
    · simp [owns, wakes, hc, hj]
    · simp [owns, wakes, hc, hj]
  | wakeWr j =>
    by_cases hj : j = i
    · simp [owns, wakes, hc, hj]
    · simp [owns, wakes, hc, hj]
  | backend j k => simp [owns, wakes, hbackend]
  | timers j => simp [owns, wakes, htimers]

lemma owns_eq_wakes (s : Sys) (i : ℕ) : s.owns = wakes s.owns i (s.cell i).rd (s.cell i).wr :=
  owns_update (update_eq_self i s.cell).symm rfl rfl rfl

/-- The owners, when only the backend of a worker differs. -/
lemma owns_backend {be : Option Backend} (hb : t.backend = update s.backend i be) (hworkers : t.workers = s.workers)
    (hcell : t.cell = s.cell) (htimers : t.timers = s.timers) : t.owns = slots s.owns i (slotsOf be) := by
  funext o
  cases o with
  | workers => exact hworkers
  | wakeRd j => simp [owns, slots, hcell]
  | wakeWr j => simp [owns, slots, hcell]
  | backend j k =>
    by_cases hj : j = i
    · simp [owns, slots, hb, hj]
    · simp [owns, slots, hb, hj]
  | timers j => simp [owns, slots, htimers]

lemma owns_eq_slots (s : Sys) (i : ℕ) : s.owns = slots s.owns i (slotsOf (s.backend i)) :=
  owns_backend (update_eq_self i s.backend).symm rfl rfl rfl

/-- The owners, when only the timers of a worker differ. -/
lemma owns_timers {x : Option ℕ} (ht : t.timers = update s.timers i x) (hworkers : t.workers = s.workers)
    (hcell : t.cell = s.cell) (hbackend : t.backend = s.backend) : t.owns = update s.owns (.timers i) x := by
  funext o
  cases o with
  | workers => exact hworkers
  | wakeRd j => simp [owns, hcell]
  | wakeWr j => simp [owns, hcell]
  | backend j k => simp [owns, hbackend]
  | timers j =>
    by_cases hj : j = i
    · simp [owns, ht, hj]
    · simp [owns, ht, hj]

lemma sizes_eq (h : t.numWorkers = s.numWorkers) : t.sizes = s.sizes := by
  funext o
  cases o with
  | workers => exact h
  | _ => rfl

lemma held_of_wakes (hc : t.cell = update s.cell i w) (hworkers : t.workers = s.workers)
    (hbackend : t.backend = s.backend) (htimers : t.timers = s.timers) (hn : t.numWorkers = s.numWorkers)
    (h : m.Sized (wakes s.owns i w.rd w.wr) s.sizes) : t.Held m := by
  rw [Held, owns_update hc hworkers hbackend htimers, sizes_eq hn]
  exact h

lemma held_of_backend {be : Option Backend} (hb : t.backend = update s.backend i be) (hworkers : t.workers = s.workers)
    (hcell : t.cell = s.cell) (htimers : t.timers = s.timers) (hn : t.numWorkers = s.numWorkers)
    (h : m.Sized (slots s.owns i (slotsOf be)) s.sizes) : t.Held m := by
  rw [Held, owns_backend hb hworkers hcell htimers, sizes_eq hn]
  exact h

lemma held_of_timers {x : Option ℕ} (ht : t.timers = update s.timers i x) (hworkers : t.workers = s.workers)
    (hcell : t.cell = s.cell) (hbackend : t.backend = s.backend) (hn : t.numWorkers = s.numWorkers)
    (h : m.Sized (update s.owns (.timers i) x) s.sizes) : t.Held m := by
  rw [Held, owns_timers ht hworkers hcell hbackend, sizes_eq hn]
  exact h

lemma held_touch (h : s.Held s.alloc) (hw : s.workers ≠ none) (hk : k < s.numWorkers) : s.Held (s.touch k) := by
  obtain ⟨a, ha⟩ := Option.ne_none_iff_exists'.mp hw
  have howns : s.owns .workers = some a := ha
  rw [touch, ha]
  exact h.access_one howns hk

lemma held_use_wakeRd (h : s.Held m) (hi : (s.cell i).Open) : s.Held ((s.cell i).wakeRd.use m) := by
  obtain ⟨r, w, hrw⟩ := hi
  have howns : s.owns (.wakeRd i) = some r := by rw [owns, hrw]; rfl
  rw [hrw]
  exact h.access_all howns le_rfl

lemma held_use_wakeWr (h : s.Held m) (hi : (s.cell i).Open) : s.Held ((s.cell i).wakeWr.use m) := by
  obtain ⟨r, w, hrw⟩ := hi
  by_cases heq : w = r
  · have howns : s.owns (.wakeRd i) = some w := by rw [owns, hrw, heq]; rfl
    rw [hrw]
    exact h.access_all howns le_rfl
  · have howns : s.owns (.wakeWr i) = some w := by
      rw [owns, hrw, Worker.wr, if_neg (by simpa using heq)]
      rfl
    rw [hrw]
    exact h.access_all howns le_rfl

lemma held_wakeFdCreate (h : s.Held s.alloc) (hi : (s.cell i).Shut) :
    (s.wakeFdCreate p i).Held (s.wakeFdCreate p i).alloc := by
  rw [Held, owns_eq_wakes s i, hi.1, hi.2] at h
  rw [wakeFdCreate]
  split
  · have hwr : Worker.wr ⟨.opened s.alloc.next, .opened s.alloc.next⟩ = none := if_pos rfl
    refine held_of_wakes (s := s) (i := i) rfl rfl rfl rfl rfl ?_
    rw [hwr]
    exact acquire_rd h rfl
  · have hne : Desc.opened (s.alloc.malloc 1).next ≠ .opened s.alloc.next := by simp [Alloc.malloc]
    have hwr : Worker.wr ⟨.opened s.alloc.next, .opened (s.alloc.malloc 1).next⟩ = some (s.alloc.malloc 1).next :=
      if_neg hne
    refine held_of_wakes (s := s) (i := i) rfl rfl rfl rfl rfl ?_
    rw [hwr]
    exact acquire_wr (acquire_rd h rfl) rfl

lemma open_wakeFdCreate : ((s.wakeFdCreate p i).cell i).Open := by
  rw [wakeFdCreate]
  split
  · exact ⟨_, _, update_self ..⟩
  · exact ⟨_, _, update_self ..⟩

lemma held_wakeFdDestroy (h : s.Held s.alloc) (hi : (s.cell i).Open) :
    (s.wakeFdDestroy i).Held (s.wakeFdDestroy i).alloc := by
  obtain ⟨r, w, hrw⟩ := hi
  rw [Held, owns_eq_wakes s i, hrw] at h
  refine held_of_wakes (s := s) (i := i) (w := ⟨.invalid, .invalid⟩) rfl rfl rfl rfl rfl ?_
  rw [wakeFdDestroy, hrw]
  by_cases heq : w = r
  · subst heq
    have hwr : Worker.wr ⟨.opened w, .opened w⟩ = none := if_pos rfl
    rw [hwr] at h
    rw [if_pos rfl]
    exact release_rd h
  · have hne : Desc.opened w ≠ .opened r := by simpa using heq
    have hwr : Worker.wr ⟨.opened r, .opened w⟩ = some w := if_neg hne
    rw [hwr] at h
    rw [if_neg hne]
    exact release_wr (release_rd h)

/-- Only what belongs to the wake descriptors differs. -/
def SameButWakes (s t : Sys) : Prop := ∃ m c r, t = { s with alloc := m, cell := c, readable := r }

lemma SameButWakes.refl (s : Sys) : s.SameButWakes s := ⟨_, _, _, rfl⟩

lemma SameButWakes.trans {u : Sys} (h₁ : s.SameButWakes t) (h₂ : t.SameButWakes u) : s.SameButWakes u := by
  obtain ⟨m₁, c₁, r₁, rfl⟩ := h₁
  obtain ⟨m₂, c₂, r₂, rfl⟩ := h₂
  exact ⟨m₂, c₂, r₂, rfl⟩

lemma same_wakeFdCreate : s.SameButWakes (s.wakeFdCreate p i) := by
  rw [wakeFdCreate]
  split
  · exact ⟨_, _, _, rfl⟩
  · exact ⟨_, _, _, rfl⟩

lemma cell_wakeFdCreate (hj : j ≠ i) : (s.wakeFdCreate p i).cell j = s.cell j := by
  rw [wakeFdCreate]
  split
  · exact update_of_ne hj ..
  · exact update_of_ne hj ..

lemma shut_invalid : Worker.Shut ⟨.invalid, .invalid⟩ := ⟨rfl, rfl⟩

/-- All descriptors of the first workers are closed. -/
lemma held_wakesDestroy (n : ℕ) (h : s.Held s.alloc) (hopen : ∀ i < n, (s.cell i).Open) :
    (s.wakesDestroy n).Held (s.wakesDestroy n).alloc ∧ s.SameButWakes (s.wakesDestroy n) ∧
      (∀ i < n, ((s.wakesDestroy n).cell i).Shut) ∧ ∀ i, n ≤ i → (s.wakesDestroy n).cell i = s.cell i := by
  induction n with
  | zero => exact ⟨h, .refl s, fun i hi => absurd hi (by omega), fun _ _ => rfl⟩
  | succ n ih =>
    obtain ⟨hheld, hsame, hshut, hrest⟩ := ih fun i hi => hopen i (by omega)
    have hn : ((s.wakesDestroy n).cell n).Open := by
      rw [hrest n le_rfl]
      exact hopen n (by omega)
    refine ⟨held_wakeFdDestroy hheld hn, hsame.trans ⟨_, _, _, rfl⟩, fun i hi => ?_, fun i hi => ?_⟩
    · by_cases hin : i = n
      · have hcell : (s.wakesDestroy (n + 1)).cell i = ⟨.invalid, .invalid⟩ := by
          rw [hin]
          exact update_self ..
        rw [hcell]
        exact shut_invalid
      · have hcell : (s.wakesDestroy (n + 1)).cell i = (s.wakesDestroy n).cell i := update_of_ne hin ..
        rw [hcell]
        exact hshut i (by omega)
    · exact (update_of_ne (by omega : i ≠ n) ..).trans (hrest i (by omega))

/-- The descriptors of the first workers are open, or none is. -/
lemma held_wakesCreate (ok : ℕ → Bool) (n : ℕ) (h : s.Held s.alloc) (hshut : ∀ i, (s.cell i).Shut) :
    (wakesCreate p ok n s).2.Held (wakesCreate p ok n s).2.alloc ∧ s.SameButWakes (wakesCreate p ok n s).2 ∧
      (∀ i, n ≤ i → ((wakesCreate p ok n s).2.cell i).Shut) ∧
      ((wakesCreate p ok n s).1 = true → ∀ i < n, ((wakesCreate p ok n s).2.cell i).Open) ∧
      ((wakesCreate p ok n s).1 = false → ∀ i, ((wakesCreate p ok n s).2.cell i).Shut) := by
  induction n with
  | zero => exact ⟨h, .refl s, fun i _ => hshut i, fun _ i hi => absurd hi (by omega), fun hf => by cases hf⟩
  | succ n ih =>
    obtain ⟨hheld, hsame, hafter, hopen, hnone⟩ := ih
    rw [wakesCreate]
    split
    next s' heq =>
      rw [heq] at hheld hsame hafter hopen
      split
      · refine ⟨held_wakeFdCreate hheld (hafter n le_rfl), hsame.trans same_wakeFdCreate, fun i hi => ?_,
          fun _ i hi => ?_, fun hf => by cases hf⟩
        · rw [cell_wakeFdCreate (by omega)]
          exact hafter i (by omega)
        · by_cases hin : i = n
          · exact hin ▸ open_wakeFdCreate
          · rw [cell_wakeFdCreate hin]
            exact hopen rfl i (by omega)
      · obtain ⟨hheld', hsame', hshut', hrest⟩ := held_wakesDestroy n hheld (hopen rfl)
        have hall (i : ℕ) : ((s'.wakesDestroy n).cell i).Shut := by
          rcases Nat.lt_or_ge i n with hlt | hge
          · exact hshut' i hlt
          · rw [hrest i hge]
            exact hafter i hge
        exact ⟨hheld', hsame.trans hsame', fun i _ => hall i, Bool.false_ne_true.elim, fun _ => hall⟩
    next s' heq =>
      rw [heq] at hheld hsame hafter hnone
      exact ⟨hheld, hsame, fun i hi => hafter i (by omega), Bool.false_ne_true.elim, hnone⟩

/-! ## The invariant -/

/-- The runtime is down. -/
def Off (s : Sys) : Prop := s.main = .out ∧ s.initialized = false

/-- The thread of worker `k` has been started and not been joined. -/
def Pending (s : Sys) (k : ℕ) : Prop :=
  match s.main with
  | .out => s.initialized = true ∧ 1 ≤ k ∧ k < s.numWorkers
  | .starts i => 1 ≤ k ∧ k < i
  | .undoes j i | .undoJoins j i => j ≤ k ∧ k < i
  | .kicks _ => 1 ≤ k ∧ k < s.numWorkers
  | .joins i => i ≤ k ∧ k < s.numWorkers

/-- The thread of worker `k` has been told to stop. -/
def Kicked (s : Sys) (k : ℕ) : Prop :=
  match s.main with
  | .undoJoins j _ => k = j
  | .kicks i => k < i
  | .joins _ => True
  | _ => False

/-- The number of the worker that the main thread is at. -/
def Bounds (s : Sys) : Prop :=
  match s.main with
  | .out => s.initialized = true → 1 ≤ s.numWorkers
  | .starts i => 1 ≤ i ∧ i ≤ s.numWorkers ∧ s.initialized = false
  | .undoes j i => 1 ≤ j ∧ j ≤ i ∧ i < s.numWorkers ∧ s.initialized = false ∧ s.stop = true
  | .undoJoins j i => 1 ≤ j ∧ j < i ∧ i < s.numWorkers ∧ s.initialized = false ∧ s.stop = true
  | .kicks i => 1 ≤ i ∧ i ≤ s.numWorkers ∧ s.initialized = true ∧ s.stop = true
  | .joins i => 1 ≤ i ∧ i ≤ s.numWorkers ∧ s.initialized = true ∧ s.stop = true

/-- What is true between two steps. -/
structure Inv (s : Sys) : Prop where
  held : s.Held s.alloc
  pending : ∀ k, s.helper k ≠ .none ↔ s.Pending k
  bounds : s.Bounds
  backend : ∀ k, k ≠ 0 → (s.backend k ≠ none ↔ (s.helper k).HasBackend)
  timers : ∀ k, k ≠ 0 → s.timers k ≠ none → (s.helper k).HasBackend
  timers_zero : s.initialized = false → s.timers 0 = none
  shut : ∀ i, s.Off ∨ s.numWorkers ≤ i → (s.cell i).Shut
  opened : ¬ s.Off → ∀ i < s.numWorkers, (s.cell i).Open
  off : s.Off → s.workers = none ∧ s.backend 0 = none
  array : ¬ s.Off → s.workers ≠ none
  kicked : ∀ k, s.Kicked k → s.stop = true ∧ (s.helper k = .wait → s.readable k = true)

lemma inv_start : start.Inv := by
  have howns : start.owns = fun _ => none := by
    funext o
    cases o <;> rfl
  refine ⟨?_, fun k => ?_, Bool.false_ne_true.elim, fun k _ => ?_, fun k _ hk => absurd rfl hk, fun _ => rfl,
    fun _ _ => shut_invalid, fun h => absurd ⟨rfl, rfl⟩ h, fun _ => ⟨rfl, rfl⟩,
    fun h => absurd ⟨rfl, rfl⟩ h, fun _ h => h.elim⟩
  · refine ⟨howns ▸ Alloc.Holds.start, fun {o q} ho => ?_⟩
    rw [howns] at ho
    cases ho
  · exact ⟨fun h => absurd rfl h, fun h => absurd h.1 Bool.false_ne_true⟩
  · exact ⟨fun h => absurd rfl h, False.elim⟩

namespace Inv

variable (hs : s.Inv)

include hs

/-- A thread that is pending is one of a worker. -/
lemma lt_of_pending (hk : s.Pending k) : ¬ s.Off ∧ 1 ≤ k ∧ k < s.numWorkers := by
  have hb := hs.bounds
  rw [Bounds] at hb
  rw [Pending] at hk
  rw [Off]
  split at hb
  next heq => simp only [heq] at hk ⊢; exact ⟨by simp [hk.1], hk.2⟩
  next heq => simp only [heq] at hk ⊢; exact ⟨by simp, by omega, by omega⟩
  next heq => simp only [heq] at hk ⊢; exact ⟨by simp, by omega, by omega⟩
  next heq => simp only [heq] at hk ⊢; exact ⟨by simp, by omega, by omega⟩
  next heq => simp only [heq] at hk ⊢; exact ⟨by simp, by omega, by omega⟩
  next heq => simp only [heq] at hk ⊢; exact ⟨by simp, by omega, by omega⟩

lemma lt_of_helper (hk : s.helper k ≠ .none) : ¬ s.Off ∧ 1 ≤ k ∧ k < s.numWorkers :=
  hs.lt_of_pending ((hs.pending k).mp hk)

lemma touch (hoff : ¬ s.Off) (hk : k < s.numWorkers) : s.Held (s.touch k) := held_touch hs.held (hs.array hoff) hk

omit hs

/-- Only what belongs to the thread of worker `i` differs. -/
structure Only (i : ℕ) (s t : Sys) : Prop where
  main : t.main = s.main
  initialized : t.initialized = s.initialized
  numWorkers : t.numWorkers = s.numWorkers
  stop : t.stop = s.stop
  workers : t.workers = s.workers
  cell : t.cell = s.cell
  helper : ∀ k, k ≠ i → t.helper k = s.helper k
  backend : ∀ k, k ≠ i → t.backend k = s.backend k
  timers : ∀ k, k ≠ i → t.timers k = s.timers k
  readable : ∀ k, k ≠ i → s.readable k = true → t.readable k = true

include hs

/-- The thread of a worker goes on. -/
lemma of_only (h : Only i s t) (hi : s.helper i ≠ .none) (hh : t.helper i ≠ .none) (hm : t.Held t.alloc)
    (hb : t.backend i ≠ none ↔ (t.helper i).HasBackend) (ht : t.timers i ≠ none → (t.helper i).HasBackend)
    (hwait : t.helper i = .wait → s.stop = false) : t.Inv := by
  have hi0 : (0 : ℕ) ≠ i := Nat.ne_of_lt (hs.lt_of_helper hi).2.1
  have hpending (k : ℕ) : t.Pending k ↔ s.Pending k := by rw [Pending, Pending, h.main, h.initialized, h.numWorkers]
  have hkicked (k : ℕ) : t.Kicked k ↔ s.Kicked k := by rw [Kicked, Kicked, h.main]
  have hoff : t.Off ↔ s.Off := by rw [Off, Off, h.main, h.initialized]
  refine ⟨hm, fun k => ?_, ?_, fun k hk => ?_, fun k hk htk => ?_, fun hf => ?_, ?_, ?_, fun ho => ?_, fun ho => ?_,
    fun k hk => ⟨?_, fun hw => ?_⟩⟩
  · rw [hpending]
    by_cases hki : k = i
    · exact hki ▸ iff_of_true hh ((hs.pending i).mp hi)
    · rw [h.helper k hki]
      exact hs.pending k
  · have hb := hs.bounds
    rw [Bounds] at hb ⊢
    rw [h.main, h.numWorkers, h.initialized, h.stop]
    exact hb
  · by_cases hki : k = i
    · exact hki ▸ hb
    · rw [h.backend k hki, h.helper k hki]
      exact hs.backend k hk
  · by_cases hki : k = i
    · exact hki ▸ ht (hki ▸ htk)
    · rw [h.timers k hki] at htk
      rw [h.helper k hki]
      exact hs.timers k hk htk
  · rw [h.timers 0 hi0]
    exact hs.timers_zero (h.initialized ▸ hf)
  · rw [h.cell, hoff, h.numWorkers]
    exact hs.shut
  · rw [h.cell, hoff, h.numWorkers]
    exact hs.opened
  · rw [h.workers, h.backend 0 hi0]
    exact hs.off (hoff.mp ho)
  · rw [h.workers]
    exact hs.array fun hs => ho (hoff.mpr hs)
  · rw [h.stop]
    exact (hs.kicked k ((hkicked k).mp hk)).1
  · obtain ⟨hstop, hread⟩ := hs.kicked k ((hkicked k).mp hk)
    by_cases hki : k = i
    · rw [hwait (hki ▸ hw)] at hstop
      cases hstop
    · rw [h.helper k hki] at hw
      exact h.readable k hki (hread hw)

/-- It goes on, and has the same backend and the same timers. -/
lemma goto {h : Helper} {r : ℕ → Bool} (hi : s.helper i ≠ .none) (hh : h ≠ .none)
    (hb : h.HasBackend ↔ (s.helper i).HasBackend) (hwait : h = .wait → s.stop = false)
    (hr : ∀ k, k ≠ i → s.readable k = true → r k = true) (hm : s.Held m) :
    Inv { s with alloc := m, readable := r, helper := update s.helper i h } := by
  have hi0 : i ≠ 0 := (Nat.ne_of_lt (hs.lt_of_helper hi).2.1).symm
  have hself : update s.helper i h i = h := update_self ..
  refine hs.of_only (i := i) ⟨rfl, rfl, rfl, rfl, rfl, rfl, fun k hk => update_of_ne hk .., fun _ _ => rfl,
    fun _ _ => rfl, hr⟩ hi ?_ hm ?_ ?_ ?_
  · exact fun h => hh (hself.symm.trans h)
  · show _ ↔ (update s.helper i h i).HasBackend
    rw [hself, hb]
    exact hs.backend i hi0
  · show _ → (update s.helper i h i).HasBackend
    rw [hself, hb]
    exact hs.timers i hi0
  · exact fun h => hwait (hself.symm.trans h)

/-- A backend is made for a worker that has none. -/
lemma held_backendCreate (hnone : s.backend i = none) (o : BackendCalls) :
    (backendCreate p o s.alloc).2.Sized (slots s.owns i (slotsOf (backendCreate p o s.alloc).1)) s.sizes := by
  have hheld := hs.held
  rw [Held, owns_eq_slots s i, hnone] at hheld
  exact makes_backendCreate hheld (fun _ => rfl) p o

end Inv

lemma held_backendFree (h : s.Held s.alloc) : (s.backendFree i).Held (s.backendFree i).alloc := by
  rw [Held, owns_eq_slots s i] at h
  have hb : (s.backendFree i).backend = update s.backend i none := rfl
  exact held_of_backend hb rfl rfl rfl rfl (sized_backendDestroy h)

lemma held_timersFree (h : s.Held s.alloc) : (s.timersFree i).Held (s.timersFree i).alloc ∧
    s.timersFree i = { s with alloc := (s.timersFree i).alloc, timers := update s.timers i none } := by
  have hself : update s.timers i (s.timers i) = s.timers := update_eq_self ..
  rw [timersFree]
  split
  next id hid =>
    have howns : s.owns (.timers i) = some id := hid
    have hfree : (s.alloc.free id).Sized (update s.owns (.timers i) none) s.sizes :=
      h.release howns (update_self ..) (fun _ ho => update_of_ne ho ..) fun _ _ => rfl
    exact ⟨held_of_timers (s := s) rfl rfl rfl rfl rfl hfree, rfl⟩
  next hnone =>
    rw [hnone] at hself
    rw [hself]
    exact ⟨h, rfl⟩

/-- `suspenders_timer_heap_ensure_cap` and `s_worker_signal`. -/
lemma held_work (h : s.Held s.alloc) (hw : s.workers ≠ none) (hopen : ∀ k < s.numWorkers, (s.cell k).Open) (w : Work) :
    (s.work i w).Held (s.work i w).alloc := by
  cases w with
  | signal k parked =>
    rw [work]
    split
    next hk =>
      have htouch := held_touch h hw hk
      split
      · exact held_use_wakeWr htouch (hopen k hk)
      · exact htouch
    next => exact h
  | grow ok =>
    rw [work]
    split
    · refine held_of_timers (s := s) (i := i) rfl rfl rfl rfl rfl ?_
      split
      next id hid =>
        have howns : s.owns (.timers i) = some id := hid
        exact h.replace howns (update_self ..) (fun _ ho => update_of_ne ho ..) rfl fun _ _ => rfl
      next hnone =>
        have howns : s.owns (.timers i) = none := hnone
        exact h.acquire howns (update_self ..) (fun _ ho => update_of_ne ho ..) rfl fun _ _ => rfl
    · exact h

namespace Inv

/-- What a coroutine calls on worker `i` belongs to this worker. -/
lemma only_work (w : Work) : Only i s (s.work i w) := by
  have hsame {m : Alloc} {r : ℕ → Bool} (hr : ∀ k, s.readable k = true → r k = true) :
      Only i s { s with alloc := m, readable := r } :=
    ⟨rfl, rfl, rfl, rfl, rfl, rfl, fun _ _ => rfl, fun _ _ => rfl, fun _ _ => rfl, fun k _ => hr k⟩
  cases w with
  | signal k parked =>
    rw [work]
    split
    · split
      · refine hsame fun l hl => ?_
        by_cases hlk : l = k
        · rw [hlk, update_self]
        · rwa [update_of_ne hlk]
      · exact hsame fun _ hl => hl
    · exact hsame fun _ hl => hl
  | grow ok =>
    rw [work]
    split
    · exact ⟨rfl, rfl, rfl, rfl, rfl, rfl, fun _ _ => rfl, fun _ _ => rfl, fun k hk => update_of_ne hk ..,
        fun _ _ hl => hl⟩
    · exact hsame fun _ hl => hl

lemma Only.goto (h : Only i s t) (x : Helper) : Only i s (t.goto i x) :=
  ⟨h.main, h.initialized, h.numWorkers, h.stop, h.workers, h.cell,
    fun k hk => (update_of_ne hk ..).trans (h.helper k hk), h.backend, h.timers, h.readable⟩

lemma backend_work (w : Work) : (s.work i w).backend = s.backend := by
  cases w with
  | signal k parked =>
    rw [work]
    split
    · split <;> rfl
    · rfl
  | grow ok =>
    rw [work]
    split <;> rfl

lemma helper_work (w : Work) : (s.work i w).helper = s.helper := by
  cases w with
  | signal k parked =>
    rw [work]
    split
    · split <;> rfl
    · rfl
  | grow ok =>
    rw [work]
    split <;> rfl

/-- A step of a thread changes only what belongs to it. -/
lemma only_thread {a : Act} (he : s.thread p i a = some t) : Only i s t := by
  have hsame {m : Alloc} {h : Helper} : Only i s { s with alloc := m, helper := update s.helper i h } :=
    ⟨rfl, rfl, rfl, rfl, rfl, rfl, fun k hk => update_of_ne hk .., fun _ _ => rfl, fun _ _ => rfl, fun _ _ hr => hr⟩
  unfold Sys.thread at he
  split at he
  next => cases he; exact hsame
  next o heq =>
    generalize backendCreate p o s.alloc = r at he
    obtain ⟨be, m⟩ := r
    cases he
    exact ⟨rfl, rfl, rfl, rfl, rfl, rfl, fun k hk => update_of_ne hk .., fun k hk => update_of_ne hk .., fun _ _ => rfl,
      fun _ _ hr => hr⟩
  next => cases he; exact hsame
  next => cases he; exact hsame
  next => cases he; exact hsame
  next n w heq => cases he; exact (only_work w).goto _
  next => cases he; exact hsame
  next => cases he; exact hsame
  next =>
    split at he
    · cases he
      refine ⟨rfl, rfl, rfl, rfl, rfl, rfl, fun k hk => update_of_ne hk .., fun _ _ => rfl, fun _ _ => rfl,
        fun k hk hr => ?_⟩
      exact (update_of_ne hk ..).trans hr
    · cases he
  next => cases he; exact hsame
  next =>
    cases he
    rw [timersFree]
    split
    · exact ⟨rfl, rfl, rfl, rfl, rfl, rfl, fun k hk => update_of_ne hk .., fun k hk => update_of_ne hk ..,
        fun k hk => update_of_ne hk .., fun _ _ hr => hr⟩
    · exact ⟨rfl, rfl, rfl, rfl, rfl, rfl, fun k hk => update_of_ne hk .., fun k hk => update_of_ne hk ..,
        fun _ _ => rfl, fun _ _ hr => hr⟩
  next => cases he

/-- Every step of a thread keeps the invariant. -/
lemma thread {a : Act} (hs : s.Inv) (he : s.thread p i a = some t) : t.Inv := by
  have hi : s.helper i ≠ .none := by
    intro hnone
    unfold Sys.thread at he
    rw [hnone] at he
    cases he
  obtain ⟨hoff, hpos, hlt⟩ := hs.lt_of_helper hi
  have htouch := hs.touch hoff hlt
  have hopen := hs.opened hoff i hlt
  have hi0 : i ≠ 0 := (Nat.ne_of_lt hpos).symm
  have hbackend := hs.backend i hi0
  have htimers := hs.timers i hi0
  have honly := only_thread he
  -- a step after which the thread is at `h`
  have hgoto {h : Helper} {m : Alloc} (hm : s.Held m) (hh : h ≠ .none) (hb : h.HasBackend ↔ (s.helper i).HasBackend)
      (hwait : h = .wait → s.stop = false) : Inv { s with alloc := m, helper := update s.helper i h } :=
    hs.goto hi hh hb hwait (fun _ _ hr => hr) hm
  unfold Sys.thread at he
  split at he
  -- the heap of the thread
  next ok heq =>
    cases he
    cases ok with
    | true => exact hgoto hs.held (by simp) (by simp [heq, Helper.HasBackend]) (by simp)
    | false => exact hgoto hs.held (by simp) (by simp [heq, Helper.HasBackend]) (by simp)
  -- the backend is made
  next o heq =>
    have hnone : s.backend i = none := by
      by_contra hsome
      have hb := hbackend.mp hsome
      rw [heq] at hb
      exact hb.elim
    have htnone : s.timers i = none := by
      by_contra hsome
      have hb := htimers hsome
      rw [heq] at hb
      exact hb.elim
    have hheld := hs.held_backendCreate (p := p) hnone o
    generalize backendCreate p o s.alloc = r at he hheld
    obtain ⟨be, m⟩ := r
    cases he
    refine hs.of_only honly hi ?_ (held_of_backend (s := s) rfl rfl rfl rfl rfl hheld) ?_ ?_ ?_
    · simp only [Sys.goto, update_self]
      split <;> simp
    · simp only [Sys.goto, update_self]
      cases be <;> simp [Helper.HasBackend]
    · exact fun h => absurd htnone h
    · simp only [Sys.goto, update_self]
      split <;> simp
  -- the wake descriptor is registered
  next heq =>
    cases he
    exact hgoto (held_use_wakeRd htouch hopen) (by simp) (by simp [heq, Helper.HasBackend]) (by simp)
  -- a coroutine is resumed, or the loop is left
  next n heq =>
    cases he
    refine hgoto htouch ?_ ?_ ?_
    all_goals split <;> simp [heq, Helper.HasBackend]
  -- there is nothing to run
  next heq =>
    cases he
    refine hgoto htouch ?_ ?_ ?_
    all_goals split <;> simp [heq, Helper.HasBackend]
  -- the coroutine calls
  next n w heq =>
    cases he
    have hbe : (s.work i w).backend i = s.backend i := congrFun (backend_work w) i
    refine hs.of_only honly hi ?_ (held_work hs.held (hs.array hoff) (hs.opened hoff) w) ?_ ?_ ?_
    · simp [Sys.goto]
    · simp only [Sys.goto, update_self, hbe]
      rw [hbackend, heq]
      exact Iff.rfl
    · simp [Sys.goto, Helper.HasBackend]
    · simp [Sys.goto]
  -- the coroutine switches out
  next heq =>
    cases he
    exact hgoto hs.held (by simp) (by simp [heq, Helper.HasBackend]) (by simp)
  -- `parked` is set, and the thread looks again
  next found heq =>
    cases he
    refine hgoto htouch ?_ ?_ ?_
    · split <;> simp
    · split <;> simp [heq, Helper.HasBackend]
    · split
      next => simp
      next hnot =>
        rw [Bool.or_eq_true, not_or] at hnot
        exact fun _ => Bool.not_eq_true _ |>.mp hnot.2
  -- the wake descriptor is readable
  next heq =>
    split at he
    · cases he
      refine hs.goto hi (by simp) (by simp [heq, Helper.HasBackend]) (by simp) (fun k hk hr => ?_)
        (held_use_wakeRd htouch hopen)
      rwa [update_of_ne hk]
    · cases he
  -- the wait ends otherwise
  next heq =>
    cases he
    exact hgoto htouch (by simp) (by simp [heq, Helper.HasBackend]) (by simp)
  -- the thread frees what it has
  next heq =>
    cases he
    obtain ⟨hheld, hfree⟩ := held_timersFree (i := i) hs.held
    have hdown := held_backendFree (i := i) hheld
    rw [hfree] at hdown honly ⊢
    refine hs.of_only honly hi ?_ hdown ?_ ?_ ?_
    · simp [Sys.goto]
    · simp [Sys.goto, backendFree, Helper.HasBackend]
    · simp [Sys.goto, backendFree]
    · simp [Sys.goto]
  next => cases he

/-! ## The main thread -/

/-- When the runtime is down there is nothing but closed descriptors. -/
lemma of_off (hm : t.Held t.alloc) (hmain : t.main = .out) (hinit : t.initialized = false)
    (hhelper : ∀ k, t.helper k = .none) (hworkers : t.workers = none) (hbackend : ∀ k, t.backend k = none)
    (htimers : ∀ k, t.timers k = none) (hcell : ∀ i, (t.cell i).Shut) : t.Inv := by
  have hoff : t.Off := ⟨hmain, hinit⟩
  refine ⟨hm, fun k => ?_, ?_, fun k _ => ?_, fun k _ hk => absurd (htimers k) hk, fun _ => htimers 0,
    fun i _ => hcell i, fun h => absurd hoff h, fun _ => ⟨hworkers, hbackend 0⟩, fun h => absurd hoff h, fun k hk => ?_⟩
  · rw [Pending, hmain, hinit]
    exact iff_of_false (fun h => h (hhelper k)) fun h => Bool.false_ne_true h.1
  · rw [Bounds, hmain, hinit]
    exact Bool.false_ne_true.elim
  · rw [hhelper k]
    exact iff_of_false (fun h => h (hbackend k)) id
  · rw [Kicked, hmain] at hk
    exact hk.elim

/-- A worker without a thread has no backend and no timers. -/
lemma none_of_helper (hs : s.Inv) (hk : k ≠ 0) (hnone : s.helper k = .none) :
    s.backend k = none ∧ s.timers k = none := by
  have hno : ¬ (s.helper k).HasBackend := by
    rw [hnone]
    exact id
  constructor
  · by_contra h
    exact hno ((hs.backend k hk).mp h)
  · by_contra h
    exact hno (hs.timers k hk h)

lemma helper_of_not_pending (hs : s.Inv) (h : ¬ s.Pending k) : s.helper k = .none := by
  by_contra hk
  exact h ((hs.pending k).mp hk)

end Inv

lemma held_workersFree (h : s.Held s.alloc) : s.workersFree.Held s.workersFree.alloc := by
  rw [workersFree]
  split
  next a ha =>
    have howns : s.owns .workers = some a := ha
    refine h.release howns rfl (fun o ho => ?_) fun o ho => ?_
    · cases o with
      | workers => exact absurd rfl ho
      | _ => rfl
    · cases o with
      | workers => exact absurd rfl ho
      | _ => rfl
  next hnone =>
    refine h.congr (fun o => by cases o <;> rfl) fun o ho => ?_
    cases o with
    | workers => exact absurd hnone ho
    | _ => rfl

/-- `free(s_workers)` changes the array and its size. -/
lemma workersFree_eq (s : Sys) :
    s.workersFree = { s with alloc := s.workersFree.alloc, workers := none, numWorkers := 0 } := by
  rw [workersFree]
  split
  next => rfl
  next hnone => rw [hnone]

namespace Inv

/-- What is left when all threads have been joined is freed. -/
lemma undone (hs : s.Inv) (hmain : s.main = .undoes i i) : s.undone.Inv := by
  have hinit : s.initialized = false := by
    have hb := hs.bounds
    rw [Bounds, hmain] at hb
    exact hb.2.2.2.1
  have hoff : ¬ s.Off := by
    rintro ⟨h, -⟩
    rw [hmain] at h
    cases h
  have hhelper (k : ℕ) : s.helper k = .none := by
    refine hs.helper_of_not_pending ?_
    rw [Pending, hmain]
    dsimp only
    omega
  obtain ⟨hheld, ⟨m, c, r, heq⟩, hshut, hrest⟩ := held_wakesDestroy s.numWorkers hs.held (hs.opened hoff)
  have hfree := held_backendFree (i := 0) (held_workersFree hheld)
  have hcell (i : ℕ) : (c i).Shut := by
    rw [heq] at hshut hrest
    rcases Nat.lt_or_ge i s.numWorkers with hlt | hge
    · exact hshut i hlt
    · have hci : c i = s.cell i := hrest i hge
      rw [hci]
      exact hs.shut i (.inr hge)
  rw [workersFree_eq, heq] at hfree
  rw [Sys.undone, workersFree_eq, heq]
  refine of_off hfree rfl hinit hhelper rfl (fun k => ?_) (fun k => ?_) hcell
  · by_cases hk : k = 0
    · exact hk ▸ update_self ..
    · exact (update_of_ne hk ..).trans (hs.none_of_helper hk (hhelper k)).1
  · by_cases hk : k = 0
    · exact hk ▸ hs.timers_zero hinit
    · exact (hs.none_of_helper hk (hhelper k)).2

lemma down (hs : s.Inv) (hmain : s.main = .joins i) (hi : s.numWorkers ≤ i) : s.down.Inv := by
  have hoff : ¬ s.Off := by
    rintro ⟨h, -⟩
    rw [hmain] at h
    cases h
  have hhelper (k : ℕ) : s.helper k = .none := by
    refine hs.helper_of_not_pending ?_
    rw [Pending, hmain]
    dsimp only
    omega
  obtain ⟨a, ha⟩ := Option.ne_none_iff_exists'.mp (hs.array hoff)
  obtain ⟨hheld, htimers⟩ := held_timersFree (i := 0) (held_backendFree (i := 0) hs.held)
  have hsome : s.workers.isSome = true := by rw [ha]; rfl
  -- the backend and the timers are freed before the array
  have hdown : s.down = { (((s.backendFree 0).timersFree 0).wakesDestroy s.numWorkers).workersFree with
      stop := false, initialized := false, main := .out } := by
    have hworkers : ((s.backendFree 0).timersFree 0).workers = s.workers := by rw [htimers]; rfl
    have hn : ((s.backendFree 0).timersFree 0).numWorkers = s.numWorkers := by rw [htimers]; rfl
    rw [Sys.down]
    dsimp only
    rw [hworkers, hn, if_pos hsome]
  rw [hdown]
  generalize hu : (s.backendFree 0).timersFree 0 = u at hheld htimers
  have hopened : ∀ i < s.numWorkers, (u.cell i).Open := by
    rw [htimers]
    exact hs.opened hoff
  obtain ⟨hheld, ⟨m, c, r, heq⟩, hshut, hrest⟩ := held_wakesDestroy s.numWorkers hheld hopened
  have hfree := held_workersFree hheld
  rw [workersFree_eq, heq] at hfree ⊢
  rw [heq, htimers] at hshut hrest
  have hcell (i : ℕ) : (c i).Shut := by
    rcases Nat.lt_or_ge i s.numWorkers with hlt | hge
    · exact hshut i hlt
    · have hci : c i = s.cell i := hrest i hge
      rw [hci]
      exact hs.shut i (.inr hge)
  rw [htimers] at hfree ⊢
  refine of_off hfree rfl rfl hhelper rfl (fun k => ?_) (fun k => ?_) hcell
  · by_cases hk : k = 0
    · exact hk ▸ update_self ..
    · exact (update_of_ne hk ..).trans (hs.none_of_helper hk (hhelper k)).1
  · by_cases hk : k = 0
    · exact hk ▸ update_self ..
    · exact (update_of_ne hk ..).trans (hs.none_of_helper hk (hhelper k)).2

/-- The main thread goes on while the runtime is not down. -/
lemma of_on (hs : s.Inv) (hoff : ¬ s.Off) (hoff' : ¬ t.Off) (hworkers : t.workers = s.workers) (hcell : t.cell = s.cell)
    (hn : t.numWorkers = s.numWorkers) (hbackend : t.backend = s.backend)
    (htimers : ∀ k, k ≠ 0 → t.timers k = s.timers k) (hm : t.Held t.alloc)
    (hpending : ∀ k, t.helper k ≠ .none ↔ t.Pending k) (hbounds : t.Bounds)
    (hhelper : ∀ k, (t.helper k).HasBackend ↔ (s.helper k).HasBackend)
    (hzero : t.initialized = false → t.timers 0 = none)
    (hkicked : ∀ k, t.Kicked k → t.stop = true ∧ (t.helper k = .wait → t.readable k = true)) : t.Inv := by
  refine ⟨hm, hpending, hbounds, fun k hk => ?_, fun k hk ht => ?_, hzero, fun i hi => ?_, fun _ i hi => ?_,
    fun h => absurd h hoff', fun _ => ?_, hkicked⟩
  · rw [hhelper, hbackend]
    exact hs.backend k hk
  · rw [htimers k hk] at ht
    rw [hhelper]
    exact hs.timers k hk ht
  · rw [hcell]
    exact hs.shut i (.inr (hn ▸ hi.resolve_left hoff'))
  · rw [hcell]
    exact hs.opened hoff i (hn ▸ hi)
  · rw [hworkers]
    exact hs.array hoff

lemma not_off_of_main (h : s.main ≠ .out) : ¬ s.Off := fun hoff => h hoff.1

/-- The main thread gets to `x`; a thread may have begun or have been joined, and wake descriptors have been written. -/
lemma goes (hs : s.Inv) (hoff : ¬ s.Off) {x : Main} (hx : x ≠ .out) {h : ℕ → Helper} {r : ℕ → Bool} {b : Bool}
    (hm : s.Held m) (hpending : ∀ k, h k ≠ .none ↔ Pending { s with main := x } k)
    (hbounds : Bounds { s with main := x, stop := b }) (hhelper : ∀ k, (h k).HasBackend ↔ (s.helper k).HasBackend)
    (hkicked : ∀ k, Kicked { s with main := x } k → b = true ∧ (h k = .wait → r k = true)) :
    Inv { s with alloc := m, main := x, helper := h, readable := r, stop := b } :=
  hs.of_on hoff (not_off_of_main hx) rfl rfl rfl rfl (fun _ _ => rfl) hm hpending hbounds hhelper hs.timers_zero hkicked

lemma hasBackend_update {h : Helper} (hh : ¬ h.HasBackend) (hi : ¬ (s.helper i).HasBackend) (k : ℕ) :
    (update s.helper i h k).HasBackend ↔ (s.helper k).HasBackend := by
  by_cases hk : k = i
  · subst hk
    rw [update_self]
    exact iff_of_false hh hi
  · rw [update_of_ne hk]

/-- `pthread_create` for the next worker. -/
lemma create (hs : s.Inv) (hmain : s.main = .starts i) (ok : Bool) : (s.create i ok).Inv := by
  have hoff : ¬ s.Off := not_off_of_main (by rw [hmain]; simp)
  have hb := hs.bounds
  rw [Bounds, hmain] at hb
  obtain ⟨hpos, hle, hinit⟩ := hb
  have hp (k : ℕ) : s.helper k ≠ .none ↔ 1 ≤ k ∧ k < i := by
    rw [hs.pending, Pending, hmain]
  have hnone : s.helper i = .none := by
    by_contra h
    exact absurd ((hp i).mp h).2 (lt_irrefl i)
  have hno : ¬ (s.helper i).HasBackend := by
    rw [hnone]
    exact id
  rw [Sys.create]
  split
  next hlt =>
    split
    · refine hs.goes hoff (by simp) (hs.touch hoff hlt) (fun k => ?_) ⟨by omega, hlt, hinit⟩ (hasBackend_update id hno)
        fun k hk => hk.elim
      show update s.helper i .heap k ≠ .none ↔ 1 ≤ k ∧ k < i + 1
      by_cases hk : k = i
      · subst hk
        simp [hpos]
      · rw [update_of_ne hk, hp]
        omega
    · exact hs.goes hoff (by simp) (hs.touch hoff hlt) hp ⟨le_rfl, hpos, hlt, hinit, rfl⟩ (fun _ => Iff.rfl)
        fun k hk => hk.elim
  next hge =>
    obtain rfl : i = s.numWorkers := by omega
    refine hs.of_on hoff ?_ rfl rfl rfl rfl (fun _ _ => rfl) hs.held (fun k => ?_) (fun _ => hpos)
      (fun _ => Iff.rfl) (fun _ => hs.timers_zero hinit) fun k hk => hk.elim
    · rintro ⟨-, h⟩
      cases h
    · rw [hp]
      exact ⟨fun h => ⟨rfl, h⟩, fun h => h.2⟩

/-- The wake descriptor of a worker is written. -/
lemma held_kick (hs : s.Inv) (hoff : ¬ s.Off) (hk : k < s.numWorkers) : s.Held (s.kick k).alloc :=
  held_use_wakeWr (hs.touch hoff hk) (hs.opened hoff k hk)

lemma readable_kick (h : j = k ∨ s.readable j = true) : (s.kick k).readable j = true := by
  show update s.readable k true j = true
  by_cases hj : j = k
  · rw [hj, update_self]
  · rw [update_of_ne hj]
    exact h.resolve_left hj

/-- A thread that has returned is joined. -/
lemma helper_join (hs : s.Inv) (i : ℕ) (k : ℕ) :
    update s.helper i .none k ≠ .none ↔ k ≠ i ∧ s.Pending k := by
  by_cases hk : k = i
  · simp [hk]
  · rw [update_of_ne hk, hs.pending]
    simp [hk]

/-- A thread that could not be started: the others are stopped and joined one after the other. -/
lemma undoes (hs : s.Inv) (hmain : s.main = .undoes j i) (hji : j < i) :
    Inv { s.kick j with main := .undoJoins j i } := by
  have hoff : ¬ s.Off := not_off_of_main (by rw [hmain]; simp)
  have hb := hs.bounds
  rw [Bounds, hmain] at hb
  obtain ⟨hpos, -, hlt, hinit, hstop⟩ := hb
  refine hs.goes hoff (by simp) (hs.held_kick hoff (by omega)) (fun k => ?_) ⟨hpos, hji, hlt, hinit, hstop⟩
    (fun _ => Iff.rfl) fun k hk => ⟨hstop, fun _ => readable_kick (.inl hk)⟩
  have hp := hs.pending k
  rw [Pending, hmain] at hp
  exact hp

lemma undoJoins (hs : s.Inv) (hmain : s.main = .undoJoins j i) (hj : s.helper j = .exited) :
    Inv { s.goto j .none with alloc := s.touch j, main := .undoes (j + 1) i } := by
  have hoff : ¬ s.Off := not_off_of_main (by rw [hmain]; simp)
  have hb := hs.bounds
  rw [Bounds, hmain] at hb
  obtain ⟨hpos, hji, hlt, hinit, hstop⟩ := hb
  have hno : ¬ (s.helper j).HasBackend := by
    rw [hj]
    exact id
  refine hs.goes hoff (by simp) (hs.touch hoff (by omega)) (fun k => ?_) ⟨by omega, hji, hlt, hinit, hstop⟩
    (hasBackend_update id hno) fun k hk => hk.elim
  refine (hs.helper_join j k).trans ?_
  rw [Pending, hmain]
  show k ≠ j ∧ j ≤ k ∧ k < i ↔ j + 1 ≤ k ∧ k < i
  omega

/-- The workers are told to stop when the runtime is shut down. -/
lemma kicks (hs : s.Inv) (hmain : s.main = .kicks i) :
    Inv (if i < s.numWorkers then { s.kick i with main := .kicks (i + 1) } else { s with main := .joins 1 }) := by
  have hoff : ¬ s.Off := not_off_of_main (by rw [hmain]; simp)
  have hb := hs.bounds
  rw [Bounds, hmain] at hb
  obtain ⟨hpos, hle, hinit, hstop⟩ := hb
  have hp (k : ℕ) : s.helper k ≠ .none ↔ 1 ≤ k ∧ k < s.numWorkers := by
    rw [hs.pending, Pending, hmain]
  have hread (k : ℕ) (hk : k < i) : s.helper k = .wait → s.readable k = true := by
    refine (hs.kicked k ?_).2
    rw [Kicked, hmain]
    exact hk
  split
  next hlt =>
    refine hs.goes hoff (by simp) (hs.held_kick hoff hlt) hp ⟨by omega, hlt, hinit, hstop⟩ (fun _ => Iff.rfl)
      fun k hk => ⟨hstop, fun hw => readable_kick ?_⟩
    have hki : k < i + 1 := hk
    by_cases h : k = i
    · exact .inl h
    · exact .inr (hread k (by omega) hw)
  next hge =>
    refine hs.goes hoff (by simp) hs.held hp ⟨le_rfl, hpos.trans hle, hinit, hstop⟩ (fun _ => Iff.rfl)
      fun k hk => ⟨hstop, fun hw => ?_⟩
    have hsome : s.helper k ≠ .none := by
      rw [show s.helper k = .wait from hw]
      simp
    have hk : k < s.numWorkers := ((hp k).mp hsome).2
    exact hread k (by omega) hw

lemma joins (hs : s.Inv) (hmain : s.main = .joins i) (hlt : i < s.numWorkers) (hi : s.helper i = .exited) :
    Inv { s.goto i .none with alloc := s.touch i, main := .joins (i + 1) } := by
  have hoff : ¬ s.Off := not_off_of_main (by rw [hmain]; simp)
  have hb := hs.bounds
  rw [Bounds, hmain] at hb
  obtain ⟨hpos, -, hinit, hstop⟩ := hb
  have hno : ¬ (s.helper i).HasBackend := by
    rw [hi]
    exact id
  refine hs.goes hoff (by simp) (hs.touch hoff hlt) (fun k => ?_) ⟨by omega, hlt, hinit, hstop⟩
    (hasBackend_update id hno) fun k _ => ⟨hstop, fun hw => ?_⟩
  · refine (hs.helper_join i k).trans ?_
    rw [Pending, hmain]
    show k ≠ i ∧ i ≤ k ∧ k < s.numWorkers ↔ i + 1 ≤ k ∧ k < s.numWorkers
    omega
  · have hk : k ≠ i := by
      rintro rfl
      exact absurd ((update_self ..).symm.trans hw) (by simp)
    refine (hs.kicked k ?_).2 ((update_of_ne hk ..).symm.trans hw)
    rw [Kicked, hmain]
    trivial

/-- `suspenders_shutdown` is called. -/
lemma shutdown (hs : s.Inv) (hmain : s.main = .out) :
    Inv (if s.initialized then { s with stop := true, main := .kicks 1 } else s) := by
  split
  next hinit =>
    have hoff : ¬ s.Off := fun h => absurd h.2 (by rw [hinit]; simp)
    have hp (k : ℕ) : s.helper k ≠ .none ↔ 1 ≤ k ∧ k < s.numWorkers := by
      rw [hs.pending, Pending, hmain]
      exact ⟨fun h => h.2, fun h => ⟨hinit, h⟩⟩
    have hb := hs.bounds
    rw [Bounds, hmain] at hb
    refine hs.goes hoff (by simp) hs.held hp ⟨le_rfl, hb hinit, hinit, rfl⟩ (fun _ => Iff.rfl)
      fun k hk => ⟨rfl, fun hw => ?_⟩
    have hk : k < 1 := hk
    have hsome : s.helper k ≠ .none := by
      rw [show s.helper k = .wait from hw]
      simp
    have hpos := ((hp k).mp hsome).1
    omega
  next => exact hs

/-- The array of the workers is allocated and cleared. -/
lemma held_workersAlloc (h : s.Held s.alloc) (hworkers : s.workers = none) (hcell : ∀ i, (s.cell i).Shut) (n : ℕ) :
    Held { s with
      alloc := s.alloc.malloc n, workers := some s.alloc.next, cell := fun _ => ⟨.zero, .zero⟩, numWorkers := n }
      (s.alloc.malloc n) := by
  have howns : s.owns .workers = none := hworkers
  refine h.acquire howns rfl (fun o ho => ?_) rfl fun o ho => ?_
  · cases o with
    | workers => exact absurd rfl ho
    | wakeRd i => exact (hcell i).1.symm
    | wakeWr i => exact (hcell i).2.symm
    | _ => rfl
  · cases o with
    | workers => exact absurd rfl ho
    | _ => rfl

/-- What the main thread calls while the runtime is up. -/
lemma work (hs : s.Inv) (hmain : s.main = .out) (hinit : s.initialized = true) (w : Work) : (s.work 0 w).Inv := by
  have hoff : ¬ s.Off := fun h => absurd h.2 (by rw [hinit]; simp)
  have hheld := held_work (i := 0) hs.held (hs.array hoff) (hs.opened hoff) w
  have hb := hs.bounds
  rw [Bounds, hmain] at hb
  have hp (k : ℕ) : s.helper k ≠ .none ↔ s.initialized = true ∧ 1 ≤ k ∧ k < s.numWorkers := by
    rw [hs.pending, Pending, hmain]
  have honly : Only 0 s (s.work 0 w) := only_work w
  have hhelper : (s.work 0 w).helper = s.helper := helper_work w
  refine hs.of_on hoff (fun h => hoff ⟨hmain, honly.initialized ▸ h.2⟩) honly.workers honly.cell honly.numWorkers
    (backend_work w) honly.timers hheld (fun k => ?_) ?_ (fun k => by rw [hhelper]) (fun h => ?_) fun k hk => ?_
  · rw [hhelper, hp, Pending, honly.main, hmain, honly.initialized, honly.numWorkers]
  · rw [Bounds, honly.main, hmain, honly.initialized, honly.numWorkers]
    exact hb
  · rw [honly.initialized, hinit] at h
    cases h
  · rw [Kicked, honly.main, hmain] at hk
    exact hk.elim

/-- `suspenders_init`, whichever of its calls fail. -/
lemma init (hs : s.Inv) (hmain : s.main = .out) (hinit : s.initialized = false) (n : ℕ) (o : InitCalls) :
    (s.init p n o).Inv := by
  have hoff : s.Off := ⟨hmain, hinit⟩
  have hhelper (k : ℕ) : s.helper k = .none := by
    refine hs.helper_of_not_pending ?_
    rw [Pending, hmain, hinit]
    exact fun h => Bool.false_ne_true h.1
  obtain ⟨hworkers, hnone⟩ := hs.off hoff
  have hbackend (k : ℕ) (hk : k ≠ 0) : s.backend k = none := (hs.none_of_helper hk (hhelper k)).1
  have htimers (k : ℕ) : s.timers k = none := by
    by_cases hk : k = 0
    · exact hk ▸ hs.timers_zero hinit
    · exact (hs.none_of_helper hk (hhelper k)).2
  have hcell (i : ℕ) : (s.cell i).Shut := hs.shut i (.inl hoff)
  have hheld := hs.held_backendCreate (p := p) hnone o.backend
  rw [Sys.init]
  split
  next =>
    generalize backendCreate p o.backend s.alloc = r at hheld
    obtain ⟨be, m⟩ := r
    dsimp only
    have h₁ : Held { s with alloc := m, backend := update s.backend 0 be } m :=
      held_of_backend (s := s) rfl rfl rfl rfl rfl hheld
    have hother (k : ℕ) (hk : k ≠ 0) (x : Option Backend) : update s.backend 0 x k = none :=
      (update_of_ne hk ..).trans (hbackend k hk)
    have hfreed (k : ℕ) : update (update s.backend 0 be) 0 none k = none := by
      by_cases hk : k = 0
      · exact hk ▸ update_self ..
      · exact (update_of_ne hk ..).trans (hother k hk be)
    split
    next hsome =>
      have h₂ : Held { s with alloc := m, backend := update s.backend 0 be, stop := false, workers := none } m :=
        h₁.congr (fun x => by cases x <;> simp [owns, hworkers]) fun _ _ => rfl
      split
      next =>
        have hpos : 1 ≤ if n = 0 then 1 else n := by
          split <;> omega
        generalize (if n = 0 then 1 else n) = n at hpos
        have h₃ := held_workersAlloc h₂ rfl hcell n
        obtain ⟨hheld, ⟨m', c, r, heq⟩, hafter, hopen, hshut⟩ :=
          held_wakesCreate (p := p) o.wake n h₃ fun _ => ⟨rfl, rfl⟩
        split
        next s₄ hpair =>
          rw [hpair] at hheld heq hafter hopen
          dsimp only at heq
          subst heq
          have hopen := hopen rfl
          have htouch := held_touch (k := 0) hheld (by simp) hpos
          refine ⟨held_use_wakeRd htouch (hopen 0 hpos), fun k => ?_, ⟨le_rfl, hpos, hinit⟩, fun k hk => ?_,
            fun k _ ht => absurd (htimers k) ht, fun _ => htimers 0, fun i hi => ?_, fun _ => hopen,
            fun h => absurd h.1 (by simp), fun _ => by simp, fun k hk => hk.elim⟩
          · refine iff_of_false (fun h => h (hhelper k)) fun h => ?_
            have hlt : 1 ≤ k ∧ k < 1 := h
            omega
          · refine iff_of_false (fun h => h (hother k hk be)) ?_
            show ¬ (s.helper k).HasBackend
            rw [hhelper k]
            exact id
          · rcases hi with h | hle
            · exact absurd h.1 (by simp)
            · exact hafter i hle
        next s₄ hpair =>
          rw [hpair] at hheld heq hshut
          dsimp only at heq
          subst heq
          have hfree := held_backendFree (i := 0) (held_workersFree hheld)
          rw [workersFree_eq] at hfree ⊢
          exact of_off hfree hmain hinit hhelper rfl hfreed htimers (hshut rfl)
      next => exact of_off (held_backendFree h₂) hmain hinit hhelper rfl hfreed htimers hcell
    next hfail =>
      have hbe : be = none := by simpa using hfail
      refine of_off h₁ hmain hinit hhelper hworkers (fun k => ?_) htimers hcell
      by_cases hk : k = 0
      · exact hk ▸ (update_self ..).trans hbe
      · exact (update_of_ne hk ..).trans (hbackend k hk)
  next => exact hs

/-- Every step keeps the invariant. -/
lemma step {e : Event} (hs : s.Inv) (he : Step p s e t) : t.Inv := by
  obtain ⟨he, hdown⟩ := he
  rw [StepOf] at he
  unfold Sys.step at he
  split at he
  next n o hmain =>
    cases he
    exact hs.init hmain (hdown n o rfl) n o
  next ok i hmain =>
    cases he
    exact hs.create hmain ok
  next j i hmain =>
    cases he
    split
    next hji => exact hs.undoes hmain hji
    next hji =>
      have hb := hs.bounds
      rw [Bounds, hmain] at hb
      obtain rfl : j = i := by omega
      exact hs.undone hmain
  next j i hmain =>
    split at he
    next hj =>
      cases he
      exact hs.undoJoins hmain hj
    next => cases he
  next hmain =>
    cases he
    exact hs.shutdown hmain
  next i hmain =>
    cases he
    exact hs.kicks hmain
  next i hmain =>
    split at he
    next hlt =>
      split at he
      next hi =>
        cases he
        exact hs.joins hmain hlt hi
      next => cases he
    next hge =>
      cases he
      exact hs.down hmain (by omega)
  next w hmain =>
    split at he
    next hinit =>
      cases he
      exact hs.work hmain hinit w
    next => cases he
  next i a => exact hs.thread he
  next => cases he

end Inv

lemma inv_of_reachable (h : Reachable (Step p) start s) : s.Inv := h.invariant inv_start fun _ _ _ hs he => hs.step he

end Sys

/-- When the runtime is down nobody owns anything. -/
lemma Sys.Inv.owns_off {s : Sys} (hs : s.Inv) (hoff : s.Off) (o : Holder) : s.owns o = none := by
  have hhelper (k : ℕ) : s.helper k = .none := by
    refine hs.helper_of_not_pending ?_
    rw [Sys.Pending, hoff.1, hoff.2]
    exact fun h => Bool.false_ne_true h.1
  cases o with
  | workers => exact (hs.off hoff).1
  | wakeRd i => exact (hs.shut i (.inl hoff)).1
  | wakeWr i => exact (hs.shut i (.inl hoff)).2
  | backend i k =>
    have hnone : s.backend i = none := by
      by_cases hi : i = 0
      · exact hi ▸ (hs.off hoff).2
      · exact (hs.none_of_helper hi (hhelper i)).1
    rw [Sys.owns, hnone]
    rfl
  | timers i =>
    by_cases hi : i = 0
    · exact hi ▸ hs.timers_zero hoff.2
    · exact (hs.none_of_helper hi (hhelper i)).2

/-- Whichever calls of the system fail, and however the threads interleave: no block or descriptor is used, freed or
closed that is not there, each one has one owner, and when `suspenders_init` has failed or `suspenders_shutdown` has
returned there are none left, and no thread. -/
theorem runtime_accounted {p : Platform} {s : Sys} (h : Reachable (Step p) .start s) :
    s.alloc.bad = false ∧ (∀ id, s.alloc.size id ≠ none → ∃! o, s.owns o = some id) ∧
      (s.main = .out → s.initialized = false → (∀ id, s.alloc.size id = none) ∧ ∀ i, s.helper i = .none) := by
  have hs := Sys.inv_of_reachable h
  refine ⟨hs.held.bad, fun id hid => hs.held.account.owner hid not_false,
    fun hmain hinit => ⟨fun id => ?_, fun i => ?_⟩⟩
  · exact hs.held.toHolds.size_eq_none (hs.owns_off ⟨hmain, hinit⟩) id
  · refine hs.helper_of_not_pending ?_
    rw [Sys.Pending, hmain, hinit]
    exact fun h => Bool.false_ne_true h.1

/-- Two workers on Linux without io_uring, and there is no wake descriptor for the second one. -/
theorem runtime_accounted_failed :
    (Sys.start.init ⟨false, false, true⟩ 2
      ⟨true, ⟨false, (false, false), true, true, true⟩, true, fun i => i == 0⟩).alloc.size = fun _ => none := by
  have hrun : Reachable (Step ⟨false, false, true⟩) .start (Sys.start.init ⟨false, false, true⟩ 2
      ⟨true, ⟨false, (false, false), true, true, true⟩, true, fun i => i == 0⟩) := by
    refine (Reachable.refl _ _).step
      (a := .init 2 ⟨true, ⟨false, (false, false), true, true, true⟩, true, fun i => i == 0⟩) ?_
    exact ⟨rfl, fun _ _ _ => rfl⟩
  exact funext ((runtime_accounted hrun).2.2 rfl rfl).1

end Suspenders.Startup
