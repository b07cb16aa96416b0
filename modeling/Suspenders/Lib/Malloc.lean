import Mathlib.Data.List.Range
import Suspenders.Lib.Ledger

/-!
# Allocated blocks

`Alloc` is the state of an allocator: the blocks that are allocated, and whether a block has been misused, that is
accessed, reallocated or freed when it was not allocated, or accessed behind its end.  A block that is allocated is
always a new one, so a block that is used after it was freed is a misuse whatever has been allocated since.

`Alloc.Holds m owns` says that nothing has been misused and that the blocks that are allocated are those that `owns`
names, each once.
-/

namespace Suspenders.Lib

open Function

/-- The blocks of an allocator. -/
structure Alloc where
  /-- The sizes of the blocks that are allocated. -/
  size : ℕ → Option ℕ
  /-- The blocks from here on have never been allocated. -/
  next : ℕ
  /-- A block has been misused. -/
  bad : Bool

/-- What `realloc` answers: `NULL`, the same address, or another one. -/
inductive Realloc
  | fails
  | stays
  | moves
  deriving DecidableEq

namespace Alloc

/-- No block is allocated. -/
def start : Alloc := ⟨fun _ => none, 0, false⟩

variable (m : Alloc) (p n : ℕ)

/-- A block of `n` entries is allocated; its address is `m.next`. -/
def malloc : Alloc := ⟨update m.size m.next (some n), m.next + 1, m.bad⟩

/-- `free` -/
def free : Alloc := ⟨update m.size p none, m.next, m.bad || (m.size p).isNone⟩

/-- `realloc`: the address it returns, and the blocks. -/
def realloc : Realloc → Option ℕ × Alloc
  | .fails => (none, ⟨m.size, m.next, m.bad || (m.size p).isNone⟩)
  | .stays => (some p, ⟨update m.size p (some n), m.next, m.bad || (m.size p).isNone⟩)
  | .moves => (some m.next, (m.free p).malloc n)

/-- Entry `i` of block `p` can be accessed. -/
def reaches (i : ℕ) : Bool :=
  match m.size p with
  | some k => decide (i < k)
  | none => false

/-- The first `n` entries that satisfy `q` are accessed. -/
def access (q : ℕ → Bool) : Alloc := ⟨m.size, m.next, m.bad || (List.range n).any fun i => q i && !m.reaches p i⟩

variable {m p n} {q : ℕ → Bool} {r : Realloc} {i : ℕ}

lemma bad_access : (m.access p n q).bad = true ↔ m.bad = true ∨ ∃ i < n, q i = true ∧ m.reaches p i = false := by
  simp [access]

lemma bad_free : (m.free p).bad = true ↔ m.bad = true ∨ m.size p = none := by
  simp [free]

lemma bad_realloc : (m.realloc p n r).2.bad = true ↔ m.bad = true ∨ m.size p = none := by
  cases r <;> simp [realloc, malloc, free]

/-- A block that is not allocated stays so while others are freed. -/
lemma size_free {x : ℕ} (hx : m.size x = none) : (m.free p).size x = none := by
  by_cases h : x = p
  · rw [h]
    exact update_self ..
  · exact (update_of_ne h ..).trans hx

lemma reaches_of_none (hp : m.size p = none) : m.reaches p i = false := by
  rw [reaches, hp]

lemma reaches_of_lt {k : ℕ} (hp : m.size p = some k) (hi : i < k) : m.reaches p i = true := by
  rw [reaches, hp]
  exact decide_eq_true hi

/-- A block that is moved is not allocated at its old address. -/
lemma size_realloc_moves (hp : p < m.next) : (m.realloc p n .moves).2.size p = none := by
  have hne : p ≠ m.next := by omega
  exact (update_of_ne hne ..).trans (update_self ..)

/-- A block is freed before or after another one is allocated. -/
lemma free_malloc (hp : p < m.next) : (m.malloc n).free p = (m.free p).malloc n := by
  have hne : p ≠ m.next := by omega
  simp [free, malloc, update_of_ne hne, update_comm hne]

variable {ω : Type*}

/-- Nothing has been misused, and the blocks that are allocated are those of `owns`. -/
structure Holds (m : Alloc) (owns : ω → Option ℕ) : Prop where
  bad : m.bad = false
  fresh : ∀ p, m.next ≤ p → m.size p = none
  account : Accounted (fun _ => False) (fun p => m.size p ≠ none) owns

namespace Holds

variable {owns : ω → Option ℕ} {o : ω}

/-- At the beginning nothing is allocated. -/
lemma start : start.Holds fun _ : ω => none :=
  ⟨rfl, fun _ _ => rfl, (Accounted.start fun _ => rfl).congr (fun _ => by simp [Alloc.start]) fun _ => rfl⟩

lemma congr {owns' : ω → Option ℕ} (h : m.Holds owns) (howns : ∀ o, owns' o = owns o) : m.Holds owns' :=
  ⟨h.bad, h.fresh, h.account.congr (fun _ => Iff.rfl) howns⟩

/-- Nobody owns a block any more. -/
lemma of_none (h : m.Holds owns) (hnone : ∀ o, owns o = none) : m.Holds fun _ : ω => none :=
  h.congr fun o => (hnone o).symm

lemma size_ne_none (h : m.Holds owns) (ho : owns o = some p) : m.size p ≠ none := h.account.used_of ho

/-- When nobody owns a block, none is allocated. -/
lemma size_eq_none (h : m.Holds owns) (hnone : ∀ o, owns o = none) (p : ℕ) : m.size p = none := by
  by_contra hp
  exact (h.account.all_returned hnone p).mp hp

/-- A block of somebody is older than those that were never allocated. -/
lemma lt_next (h : m.Holds owns) (ho : owns o = some p) : p < m.next := by
  by_contra hle
  exact h.size_ne_none ho (h.fresh p (by omega))

/-- Accesses to entries that are there. -/
lemma access (h : m.Holds owns) (hq : ∀ i < n, q i = true → m.reaches p i = true) :
    (m.access p n q).Holds owns := by
  refine ⟨?_, h.fresh, h.account⟩
  by_contra hbad
  rcases bad_access.mp (Bool.not_eq_false _ ▸ hbad) with hold | ⟨i, hi, hqi, hri⟩
  · rw [h.bad] at hold
    cases hold
  · rw [hq i hi hqi] at hri
    cases hri

/-- A new block. -/
lemma acquire {owns' : ω → Option ℕ} (h : m.Holds owns) (ho : owns o = none) (hnew : owns' o = some m.next)
    (hold : ∀ x, x ≠ o → owns' x = owns x) : (m.malloc n).Holds owns' := by
  refine ⟨h.bad, fun p hp => ?_, ?_⟩
  · have hlt : m.next + 1 ≤ p := hp
    exact (update_of_ne (by omega) ..).trans (h.fresh p (by omega))
  · refine h.account.acquire (o := o) (r := m.next) (fun hr => hr (h.fresh _ le_rfl)) (fun q => ?_) ho hnew hold
    by_cases hq : q = m.next
    · simp [Alloc.malloc, hq]
    · simp [Alloc.malloc, hq]

/-- A block is freed. -/
lemma release {owns' : ω → Option ℕ} (h : m.Holds owns) (ho : owns o = some p) (hnew : owns' o = none)
    (hold : ∀ x, x ≠ o → owns' x = owns x) : (m.free p).Holds owns' := by
  have hsize := h.size_ne_none ho
  refine ⟨?_, fun x hx => ?_, ?_⟩
  · by_contra hbad
    rcases bad_free.mp (Bool.not_eq_false _ ▸ hbad) with hold | hnone
    · rw [h.bad] at hold
      cases hold
    · exact hsize hnone
  · exact size_free (h.fresh x hx)
  · refine h.account.release (o := o) (fun q => ?_) hnew hold
    rw [ho]
    by_cases hq : q = p
    · simp [Alloc.free, hq]
    · simp [Alloc.free, hq, Ne.symm hq]

variable [DecidableEq ω]

lemma malloc (h : m.Holds owns) (ho : owns o = none) (n : ℕ) :
    (m.malloc n).Holds (update owns o (some m.next)) :=
  h.acquire ho (update_self ..) fun _ hx => update_of_ne hx ..

lemma free (h : m.Holds owns) (ho : owns o = some p) : (m.free p).Holds (update owns o none) :=
  h.release ho (update_self ..) fun _ hx => update_of_ne hx ..

/-- A block is reallocated. -/
lemma realloc {p' : ℕ} (h : m.Holds owns) (ho : owns o = some p) (hr : (m.realloc p n r).1 = some p') :
    (m.realloc p n r).2.Holds (update owns o (some p')) ∧ (m.realloc p n r).2.size p' = some n ∧
      ∀ x, x ≠ p → x < m.next → (m.realloc p n r).2.size x = m.size x := by
  have hlt := h.lt_next ho
  have hsize := h.size_ne_none ho
  cases r with
  | fails => cases hr
  | stays =>
    obtain rfl : p = p' := Option.some.inj hr
    refine ⟨⟨?_, fun x hx => ?_, ?_⟩, update_self .., fun x hx _ => update_of_ne hx ..⟩
    · show (m.bad || (m.size p).isNone) = false
      rw [h.bad, Bool.false_or, Option.isNone_eq_false_iff]
      exact Option.isSome_iff_ne_none.mpr hsize
    · have hle : m.next ≤ x := hx
      exact (update_of_ne (by omega) ..).trans (h.fresh x hle)
    · refine h.account.congr (fun q => ?_) fun x => ?_
      · by_cases hq : q = p
        · simp [Alloc.realloc, hq, hsize]
        · simp [Alloc.realloc, hq]
      · rw [← ho, update_eq_self]
  | moves =>
    obtain rfl : m.next = p' := Option.some.inj hr
    refine ⟨?_, update_self .., fun x hx hlt => ?_⟩
    · have hnew := (h.free ho).malloc (o := o) (update_self ..) n
      rwa [update_idem] at hnew
    · exact (update_of_ne (by show x ≠ m.next; omega) ..).trans (update_of_ne hx ..)

/-- A block that a reallocation does not move is as large as before, or has the new size. -/
lemma realloc_unmoved (h : m.Holds owns) (ho : owns o = some p) (hr : r ≠ .moves) :
    (m.realloc p n r).2.Holds owns ∧ (∀ x, x ≠ p → (m.realloc p n r).2.size x = m.size x) ∧
      ∃ k ∈ (m.realloc p n r).2.size p, k = n ∨ k ∈ m.size p := by
  have hsize := h.size_ne_none ho
  cases r with
  | fails =>
    obtain ⟨k, hk⟩ := Option.ne_none_iff_exists'.mp hsize
    refine ⟨⟨?_, h.fresh, h.account⟩, fun _ _ => rfl, k, hk, .inr hk⟩
    show (m.bad || (m.size p).isNone) = false
    rw [h.bad, hk]
    rfl
  | stays =>
    obtain ⟨hholds, hself, hothers⟩ := h.realloc (r := .stays) (n := n) ho rfl
    rw [← ho, update_eq_self] at hholds
    exact ⟨hholds, fun x hx => update_of_ne hx .., n, hself, .inl rfl⟩
  | moves => exact absurd rfl hr

end Holds

/-- The blocks that are held have the sizes `sz`. -/
structure Sized (m : Alloc) (owns : ω → Option ℕ) (sz : ω → ℕ) : Prop extends m.Holds owns where
  size_eq : ∀ {o p}, owns o = some p → m.size p = some (sz o)

namespace Sized

variable {owns owns' : ω → Option ℕ} {sz sz' : ω → ℕ} {o : ω}

lemma congr (h : m.Sized owns sz) (howns : ∀ o, owns' o = owns o) (hsz : ∀ o, owns o ≠ none → sz' o = sz o) :
    m.Sized owns' sz' := by
  refine ⟨h.toHolds.congr howns, fun {o p} ho => ?_⟩
  rw [howns o] at ho
  rw [hsz o (by rw [ho]; exact Option.some_ne_none p)]
  exact h.size_eq ho

/-- An access to an entry of a block that is held. -/
lemma access_one {i : ℕ} (h : m.Sized owns sz) (ho : owns o = some p) (hi : i < sz o) :
    (m.access p (i + 1) (· == i)).Sized owns sz := by
  refine ⟨h.toHolds.access fun j hj hji => ?_, h.size_eq⟩
  rw [beq_iff_eq] at hji
  exact Alloc.reaches_of_lt (h.size_eq ho) (by omega)

/-- An access to a whole block that is held. -/
lemma access_all (h : m.Sized owns sz) (ho : owns o = some p) (hn : n ≤ sz o) :
    (m.access p n fun _ => true).Sized owns sz :=
  ⟨h.toHolds.access fun _ hj _ => Alloc.reaches_of_lt (h.size_eq ho) (by omega), h.size_eq⟩

/-- A new block. -/
lemma acquire (h : m.Sized owns sz) (ho : owns o = none) (hnew : owns' o = some m.next)
    (hold : ∀ x, x ≠ o → owns' x = owns x) (hsz : sz' o = n) (hsz' : ∀ x, x ≠ o → sz' x = sz x) :
    (m.malloc n).Sized owns' sz' := by
  refine ⟨h.toHolds.acquire ho hnew hold, fun {x q} hx => ?_⟩
  by_cases hxo : x = o
  · subst hxo
    obtain rfl : m.next = q := Option.some.inj (hnew.symm.trans hx)
    exact (update_self ..).trans (congrArg some hsz.symm)
  · rw [hold x hxo] at hx
    rw [hsz' x hxo]
    exact (update_of_ne (h.toHolds.lt_next hx).ne ..).trans (h.size_eq hx)

/-- A block is freed. -/
lemma release (h : m.Sized owns sz) (ho : owns o = some p) (hnew : owns' o = none)
    (hold : ∀ x, x ≠ o → owns' x = owns x) (hsz : ∀ x, x ≠ o → sz' x = sz x) : (m.free p).Sized owns' sz' := by
  refine ⟨h.toHolds.release ho hnew hold, fun {x q} hx => ?_⟩
  have hxo : x ≠ o := fun heq => by rw [heq, hnew] at hx; cases hx
  rw [hold x hxo] at hx
  rw [hsz x hxo]
  have hne : q ≠ p := fun heq => hxo (h.account.unique hx (heq ▸ ho))
  exact (update_of_ne hne ..).trans (h.size_eq hx)

/-- A block is replaced by a new one. -/
lemma replace (h : m.Sized owns sz) (ho : owns o = some p) (hnew : owns' o = some m.next)
    (hold : ∀ x, x ≠ o → owns' x = owns x) (hsz : sz' o = n) (hsz' : ∀ x, x ≠ o → sz' x = sz x) :
    ((m.malloc n).free p).Sized owns' sz' := by
  classical
  rw [Alloc.free_malloc (h.lt_next ho)]
  have hfree : (m.free p).Sized (update owns o none) sz :=
    h.release ho (update_self ..) (fun _ hx => update_of_ne hx ..) fun _ _ => rfl
  exact hfree.acquire (update_self ..) hnew (fun x hx => (hold x hx).trans (update_of_ne hx ..).symm) hsz hsz'

end Sized

end Alloc

end Suspenders.Lib
