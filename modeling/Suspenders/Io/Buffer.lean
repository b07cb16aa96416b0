import Mathlib.Algebra.Group.Nat.Defs
import Suspenders.Lib.Blocks
import Suspenders.Lib.Run

/-!
# Dynamic buffers

A `struct buf` has a block of `cap + 1` bytes: the `len` bytes of its content, and a NUL behind them.  `buf_append`
wants `len < cap` afterwards and otherwise moves the content to a larger block, while `buf_append_byte` also fills the
last place and leaves `len = cap`.

Numbers of type `size_t` have 64 bits.  Memory is accessed through `Blocks`, so a call that writes outside of the
block, or frees it with another size, has no result.
-/

namespace Suspenders.Io

open Lib Function

/-- `struct buf` -/
structure Buf where
  data : Option ℕ
  len : ℕ
  cap : ℕ

/-- A buffer, and the heap that it is in. -/
structure BufMem where
  buf : Buf
  heap : Blocks

/-- What `BUF_MALLOC` returns when it is called: a block with some content, or `NULL`. -/
abbrev Malloc := Option (ℕ × (ℕ → UInt8))

/-- The bytes that `buf_append(buf, data, len)` appends, where `src` are the bytes from `data` on. -/
def appended (src : List UInt8) (len : ℤ) : Option (List UInt8) :=
  if len < 0 then if 0 ∈ src then some (src.takeWhile (· ≠ 0)) else none
  else if len ≤ src.length then some (src.take len.toNat) else none

/-- `while (cap <= needed) cap *= 2` in at most `rounds` rounds -/
def growCap (needed : ℕ) : ℕ → ℕ → Option ℕ
  | 0, _ => none
  | rounds + 1, cap => if cap ≤ needed then growCap needed rounds (cap * 2 % 2 ^ 64) else some cap

namespace BufMem

/-- The last lines of `buf_append` -/
def finish (s : BufMem) (piece : List UInt8) (needed : ℕ) : Option (Bool × BufMem) := do
  let d ← s.buf.data
  let m ← s.heap.write d s.buf.len piece
  let m ← m.write d needed [0]
  some (true, ⟨{ s.buf with len := needed }, m⟩)

/-- The content moves to block `p`. -/
def moveTo (s : BufMem) (p cap : ℕ) (junk : ℕ → UInt8) : Option BufMem := do
  let m := s.heap.malloc p ((cap + 1) % 2 ^ 64) junk
  let m ← match s.buf.data with
    | some d => do
      let old ← m.read d 0 s.buf.len
      let m ← m.write p 0 old
      m.free d ((s.buf.cap + 1) % 2 ^ 64)
    | none => some m
  some ⟨{ s.buf with data := some p, cap := cap }, m⟩

/-- `buf_append`, where the source is not in the buffer -/
def append (s : BufMem) (src : List UInt8) (len : ℤ) (malloc : Malloc) (rounds : ℕ) : Option (Bool × BufMem) := do
  let piece ← appended src len
  let needed := (s.buf.len + piece.length) % 2 ^ 64
  if s.buf.cap ≤ needed then
    let cap ← growCap needed rounds (if s.buf.cap ≠ 0 then s.buf.cap else 64)
    match malloc with
    | none => some (false, s)
    | some (p, junk) =>
      let s ← s.moveTo p cap junk
      s.finish piece needed
  else s.finish piece needed

/-- `buf_append_byte` -/
def appendByte (s : BufMem) (ch : UInt8) (malloc : Malloc) (rounds : ℕ) : Option (Bool × BufMem) :=
  if s.buf.len < s.buf.cap then do
    let d ← s.buf.data
    let m ← s.heap.write d s.buf.len [ch]
    let m ← m.write d (s.buf.len + 1) [0]
    some (true, ⟨{ s.buf with len := s.buf.len + 1 }, m⟩)
  else s.append [ch] 1 malloc rounds

/-- `buf_clear` -/
def clear (s : BufMem) : Option BufMem := do
  let m ← match s.buf.data with
    | some d => s.heap.free d ((s.buf.cap + 1) % 2 ^ 64)
    | none => some s.heap
  some ⟨⟨none, 0, 0⟩, m⟩

end BufMem

/-- A call, and what `BUF_MALLOC` returns if it is called. -/
inductive BufAct
  | append (src : List UInt8) (len : ℤ) (malloc : Malloc)
  | appendByte (ch : UInt8) (malloc : Malloc)
  | clear

/-- A call: the returned value (`true` for `buf_clear`), and the memory. -/
def BufMem.exec (s : BufMem) (rounds : ℕ) : BufAct → Option (Bool × BufMem)
  | .append src len malloc => s.append src len malloc rounds
  | .appendByte ch malloc => s.appendByte ch malloc rounds
  | .clear => s.clear.map fun t => (true, t)

/-! ## The content -/

/-- The bytes that a call appends if it succeeds. -/
def BufAct.piece : BufAct → List UInt8
  | .append src len _ => (appended src len).getD []
  | .appendByte ch _ => [ch]
  | .clear => []

/-- What `BUF_MALLOC` may return. -/
def BufAct.malloc : BufAct → Malloc
  | .append _ _ malloc => malloc
  | .appendByte _ malloc => malloc
  | .clear => none

/-- What the caller and the allocator promise: the source is readable, less than `2 ^ 62` bytes come together, and a
block that is allocated is a new one. -/
structure BufAct.Legal (s : BufMem) (c : List UInt8) (a : BufAct) : Prop where
  source : ∀ src len malloc, a = .append src len malloc → (appended src len).isSome
  small : c.length + a.piece.length < 2 ^ 62
  fresh : ∀ p junk, a.malloc = some (p, junk) → s.heap.size p = none

/-- The content after a call that returned `ret`. -/
def BufAct.content (c : List UInt8) (ret : Bool) : BufAct → List UInt8
  | .clear => []
  | a => if ret then c ++ a.piece else c

/-- The buffer has content `c`, and all blocks but its own are those of `base`. -/
structure Stored (base : ℕ → Option ℕ) (s : BufMem) (c : List UInt8) : Prop where
  len_eq : s.buf.len = c.length
  len_le : s.buf.len ≤ s.buf.cap
  cap_le : s.buf.cap ≤ 2 ^ 63
  null : s.buf.data = none → s.buf.cap = 0
  size : ∀ p, s.buf.data = some p → s.heap.size p = some (s.buf.cap + 1) ∧ base p = none
  bytes : ∀ p, s.buf.data = some p → slice (s.heap.bytes p) 0 s.buf.len = c
  rest : ∀ p, s.buf.data ≠ some p → s.heap.size p = base p

/-- There is a NUL behind the content. -/
def Terminated (s : BufMem) : Prop := ∀ p, s.buf.data = some p → s.heap.bytes p s.buf.len = 0

section Calls

variable {base : ℕ → Option ℕ} {s : BufMem} {c piece : List UInt8} {needed : ℕ}

/-- The growth loop ends. -/
lemma growCap_spec (hneeded : needed < 2 ^ 62) (rounds : ℕ) {cap : ℕ} (hcap : cap ≤ 2 ^ 63)
    (hlt : needed < cap * 2 ^ rounds) :
    ∃ cap', growCap needed (rounds + 1) cap = some cap' ∧ needed < cap' ∧ cap' ≤ 2 ^ 63 := by
  induction rounds generalizing cap with
  | zero =>
    rw [Nat.pow_zero, Nat.mul_one] at hlt
    exact ⟨cap, if_neg (Nat.not_le.mpr hlt), hlt, hcap⟩
  | succ rounds ih =>
    by_cases hle : cap ≤ needed
    · have hmod : cap * 2 % 2 ^ 64 = cap * 2 := Nat.mod_eq_of_lt (by omega)
      rw [growCap, if_pos hle, hmod]
      refine ih (by omega) ?_
      rwa [Nat.mul_assoc, Nat.mul_comm 2, ← Nat.pow_succ]
    · exact ⟨cap, if_neg hle, Nat.not_le.mp hle, hcap⟩

/-- The content, the bytes behind it and a NUL. -/
lemma slice_finish (b : ℕ → UInt8) (n : ℕ) (piece : List UInt8) :
    slice (blit (blit b n piece) (n + piece.length) [0]) 0 (n + piece.length) = slice b 0 n ++ piece := by
  have hlast : slice (blit (blit b n piece) (n + piece.length) [0]) 0 (n + piece.length) =
      slice (blit b n piece) 0 (n + piece.length) :=
    slice_congr fun j _ hj => blit_of_not_mem _ _ (.inl (by omega))
  have hfirst : slice (blit b n piece) 0 n = slice b 0 n :=
    slice_congr fun j _ hj => blit_of_not_mem _ _ (.inl (by omega))
  rw [hlast, slice_add, hfirst, Nat.zero_add, slice_blit]

/-- Bytes that fit are written behind the content. -/
lemma Stored.finish (h : Stored base s c) (piece : List UInt8) {d : ℕ} (hd : s.buf.data = some d)
    (hle : s.buf.len + piece.length ≤ s.buf.cap) :
    ∃ t, s.finish piece (s.buf.len + piece.length) = some (true, t) ∧ Stored base t (c ++ piece) ∧ Terminated t := by
  obtain ⟨hsize, hbase⟩ := h.size d hd
  obtain ⟨m₁, hw₁, hs₁, hb₁, -⟩ := Blocks.exists_write piece hsize (i := s.buf.len) (by omega)
  obtain ⟨m₂, hw₂, hs₂, hb₂, -⟩ := Blocks.exists_write (m := m₁) [0] (i := s.buf.len + piece.length)
    (hs₁ ▸ hsize) (Nat.succ_le_succ hle)
  rw [hs₁] at hs₂
  rw [hb₁] at hb₂
  refine ⟨⟨{ s.buf with len := s.buf.len + piece.length }, m₂⟩, ?_, ⟨?_, hle, h.cap_le, h.null, fun p hp => ?_,
    fun p hp => ?_, fun p hp => ?_⟩, fun p hp => ?_⟩
  · simp only [BufMem.finish, hd, hw₁, hw₂, Option.bind_eq_bind, Option.bind_some]
  · rw [List.length_append, ← h.len_eq]
  · rw [hs₂]
    exact h.size p hp
  · obtain rfl : d = p := Option.some.inj (hd.symm.trans hp)
    rw [hb₂, slice_finish, h.bytes d hd]
  · rw [hs₂]
    exact h.rest p hp
  · obtain rfl : d = p := Option.some.inj (hd.symm.trans hp)
    rw [hb₂, blit_cons, blit_nil, update_self]

/-- The content is moved to a larger block. -/
lemma Stored.moveTo (h : Stored base s c) {p cap : ℕ} (junk : ℕ → UInt8) (hp : s.heap.size p = none)
    (hlt : s.buf.len < cap) (hcap : cap ≤ 2 ^ 63) :
    ∃ m, s.moveTo p cap junk = some ⟨{ s.buf with data := some p, cap := cap }, m⟩ ∧
      Stored base ⟨{ s.buf with data := some p, cap := cap }, m⟩ c := by
  have hmod (n : ℕ) (hn : n ≤ 2 ^ 63) : (n + 1) % 2 ^ 64 = n + 1 := Nat.mod_eq_of_lt (by omega)
  rcases hd : s.buf.data with - | d
  · have hbase : base p = none := (h.rest p (by simp [hd])).symm.trans hp
    have hcap0 := h.null hd
    have hlen : s.buf.len = 0 := Nat.le_zero.mp (hcap0 ▸ h.len_le)
    have hc : c = [] := List.length_eq_zero_iff.mp (h.len_eq.symm.trans hlen)
    refine ⟨s.heap.malloc p (cap + 1) junk, ?_, ⟨h.len_eq, hlt.le, hcap, by simp, fun q hq => ?_, fun q _ => ?_,
      fun q hq => ?_⟩⟩
    · simp only [BufMem.moveTo, hd, hmod cap hcap, Option.bind_eq_bind, Option.bind_some]
    · obtain rfl : p = q := Option.some.inj hq
      exact ⟨update_self _ _ _, hbase⟩
    · rw [hlen, hc, slice_zero]
    · have hne : q ≠ p := fun heq => hq (by rw [heq])
      exact (update_of_ne hne _ _).trans (h.rest q (by simp [hd]))
  · obtain ⟨hsize, hbased⟩ := h.size d hd
    have hdp : d ≠ p := by
      rintro rfl
      rw [hp] at hsize
      cases hsize
    have hpd : s.buf.data ≠ some p := fun heq => hdp (Option.some.inj (hd.symm.trans heq))
    have hsized : (s.heap.malloc p (cap + 1) junk).size d = some (s.buf.cap + 1) := (update_of_ne hdp _ _).trans hsize
    have hread : (s.heap.malloc p (cap + 1) junk).read d 0 s.buf.len = some c := by
      rw [Blocks.read_eq hsized (by have := h.len_le; omega), ← h.bytes d hd]
      refine congrArg some (slice_congr fun j _ _ => ?_)
      exact congrFun (update_of_ne hdp _ _) j
    obtain ⟨m₁, hw₁, hs₁, hb₁, -⟩ := Blocks.exists_write (m := s.heap.malloc p (cap + 1) junk) (p := p) (i := 0)
      c (update_self _ _ _) (by rw [← h.len_eq]; omega)
    have hfree : m₁.free d (s.buf.cap + 1) = some { m₁ with size := update m₁.size d none } :=
      Blocks.free_eq (by rw [hs₁, hsized])
    refine ⟨{ m₁ with size := update m₁.size d none }, ?_, ⟨h.len_eq, hlt.le, hcap, by simp, fun q hq => ?_,
      fun q hq => ?_, fun q hq => ?_⟩⟩
    · simp only [BufMem.moveTo, hd, hmod cap hcap, hmod _ h.cap_le, hread, hw₁, hfree, Option.bind_eq_bind,
        Option.bind_some]
    · obtain rfl : p = q := Option.some.inj hq
      refine ⟨(update_of_ne (Ne.symm hdp) _ _).trans ?_, (h.rest p hpd).symm.trans hp⟩
      rw [hs₁]
      exact update_self _ _ _
    · obtain rfl : p = q := Option.some.inj hq
      rw [hb₁, h.len_eq]
      exact slice_blit _ 0 c
    · have hqp : q ≠ p := fun heq => hq (by rw [heq])
      by_cases hqd : q = d
      · rw [hqd, hbased]
        exact update_self _ _ _
      · refine (update_of_ne hqd _ _).trans ?_
        rw [hs₁]
        refine (update_of_ne hqp _ _).trans (h.rest q fun heq => hqd ?_)
        exact (Option.some.inj (hd.symm.trans heq)).symm

variable {src : List UInt8} {len : ℤ} {malloc : Malloc} {rounds : ℕ}

/-- A buffer with room has a block. -/
lemma Stored.exists_data (h : Stored base s c) (hcap : 0 < s.buf.cap) : ∃ d, s.buf.data = some d := by
  rcases hd : s.buf.data with - | d
  · exact absurd (h.null hd) hcap.ne'
  · exact ⟨d, rfl⟩

lemma append_spec (h : Stored base s c) (hnul : Terminated s) (hpiece : appended src len = some piece)
    (hsmall : c.length + piece.length < 2 ^ 62) (hfresh : ∀ p junk, malloc = some (p, junk) → s.heap.size p = none)
    (hrounds : 64 ≤ rounds) :
    ∃ ret t, s.append src len malloc rounds = some (ret, t) ∧ Stored base t (if ret then c ++ piece else c) ∧
      Terminated t ∧ (ret = false → t = s) := by
  have hsum : s.buf.len + piece.length < 2 ^ 62 := by rwa [h.len_eq]
  have hmod : (s.buf.len + piece.length) % 2 ^ 64 = s.buf.len + piece.length := Nat.mod_eq_of_lt (by omega)
  by_cases hle : s.buf.cap ≤ s.buf.len + piece.length
  · have hcap : (if s.buf.cap ≠ 0 then s.buf.cap else 64) ≤ 2 ^ 63 := by
      have := h.cap_le
      split <;> omega
    have hpos : 1 ≤ if s.buf.cap ≠ 0 then s.buf.cap else 64 := by split <;> omega
    obtain ⟨r, rfl⟩ : ∃ r, rounds = r + 1 := ⟨rounds - 1, by omega⟩
    have hpow : 2 ^ 62 ≤ 2 ^ r := Nat.pow_le_pow_right (by decide) (by omega)
    obtain ⟨cap, hgrow, hlt, hcap'⟩ := growCap_spec hsum r hcap
      (hsum.trans_le (hpow.trans (Nat.le_mul_of_pos_left _ hpos)))
    rcases malloc with - | ⟨p, junk⟩
    · refine ⟨false, s, ?_, h, hnul, fun _ => rfl⟩
      simp only [BufMem.append, hpiece, hmod, if_pos hle, hgrow, Option.bind_eq_bind, Option.bind_some]
    · obtain ⟨m, hmove, hstored⟩ := h.moveTo junk (hfresh p junk rfl) (by omega) hcap'
      obtain ⟨t, hfinish, hstoredt, hnult⟩ := hstored.finish piece rfl hlt.le
      refine ⟨true, t, ?_, hstoredt, hnult, by simp⟩
      simpa only [BufMem.append, hpiece, hmod, if_pos hle, hgrow, hmove, Option.bind_eq_bind, Option.bind_some]
        using hfinish
  · obtain ⟨d, hd⟩ := h.exists_data (by omega)
    obtain ⟨t, hfinish, hstored, hnult⟩ := h.finish piece hd (Nat.le_of_not_le hle)
    refine ⟨true, t, ?_, hstored, hnult, by simp⟩
    simpa only [BufMem.append, hpiece, hmod, if_neg hle, Option.bind_eq_bind, Option.bind_some] using hfinish

/-- A byte that fits is appended like any other piece. -/
lemma appendByte_of_lt (h : Stored base s c) (hlt : s.buf.len < s.buf.cap) (ch : UInt8) :
    s.appendByte ch malloc rounds = s.finish [ch] (s.buf.len + 1) := by
  obtain ⟨d, hd⟩ := h.exists_data (Nat.zero_lt_of_lt hlt)
  simp only [BufMem.appendByte, BufMem.finish, if_pos hlt, hd, Option.bind_eq_bind, Option.bind_some]

lemma clear_spec (h : Stored base s c) : ∃ t, s.clear = some t ∧ Stored base t [] ∧ Terminated t := by
  have hmod : (s.buf.cap + 1) % 2 ^ 64 = s.buf.cap + 1 := Nat.mod_eq_of_lt (by have := h.cap_le; omega)
  rcases hd : s.buf.data with - | d
  · refine ⟨⟨⟨none, 0, 0⟩, s.heap⟩, ?_, ⟨rfl, le_rfl, Nat.zero_le _, fun _ => rfl, fun p hp => (by cases hp),
      fun p hp => (by cases hp), fun p _ => h.rest p (by simp [hd])⟩, fun p hp => (by cases hp)⟩
    simp only [BufMem.clear, hd, Option.bind_eq_bind, Option.bind_some]
  · obtain ⟨hsize, hbase⟩ := h.size d hd
    refine ⟨⟨⟨none, 0, 0⟩, { s.heap with size := update s.heap.size d none }⟩, ?_, ⟨rfl, le_rfl, Nat.zero_le _,
      fun _ => rfl, fun p hp => (by cases hp), fun p hp => (by cases hp), fun p _ => ?_⟩, fun p hp => (by cases hp)⟩
    · simp only [BufMem.clear, hd, hmod, Blocks.free_eq hsize, Option.bind_eq_bind, Option.bind_some]
    · by_cases hp : p = d
      · rw [hp, hbase]
        exact update_self _ _ _
      · refine (update_of_ne hp _ _).trans (h.rest p fun heq => hp ?_)
        exact (Option.some.inj (hd.symm.trans heq)).symm

/-- A call returns and appends its piece, or fails and changes nothing. -/
lemma exec_spec (h : Stored base s c) (hnul : Terminated s) {a : BufAct} (ha : a.Legal s c) (hrounds : 64 ≤ rounds) :
    ∃ ret t, s.exec rounds a = some (ret, t) ∧ Stored base t (a.content c ret) ∧ Terminated t ∧
      (ret = false → t = s) := by
  cases a with
  | append src len malloc =>
    obtain ⟨piece, hpiece⟩ := Option.isSome_iff_exists.mp (ha.source src len malloc rfl)
    have hsmall := ha.small
    simp only [BufAct.piece, hpiece, Option.getD_some] at hsmall
    have hfresh : ∀ p junk, malloc = some (p, junk) → s.heap.size p = none := ha.fresh
    have hspec := append_spec h hnul hpiece hsmall hfresh hrounds
    simpa only [BufMem.exec, BufAct.content, BufAct.piece, hpiece, Option.getD_some] using hspec
  | appendByte ch malloc =>
    by_cases hlt : s.buf.len < s.buf.cap
    · obtain ⟨d, hd⟩ := h.exists_data (Nat.zero_lt_of_lt hlt)
      obtain ⟨t, hfinish, hstored, hnult⟩ := h.finish [ch] hd hlt
      exact ⟨true, t, (appendByte_of_lt h hlt ch).trans hfinish, hstored, hnult, by simp⟩
    · have hexec : s.exec rounds (.appendByte ch malloc) = s.append [ch] 1 malloc rounds := if_neg hlt
      rw [hexec]
      exact append_spec h hnul (show appended [ch] 1 = some [ch] from rfl) ha.small ha.fresh hrounds
  | clear =>
    obtain ⟨t, hclear, hstored, hnult⟩ := clear_spec h
    exact ⟨true, t, by rw [BufMem.exec, hclear]; rfl, hstored, hnult, by simp⟩

end Calls

/-! ## Sequences of calls -/

/-- A legal call that returns, in a buffer with content `p.2`. -/
def BufStep (rounds : ℕ) (p : BufMem × List UInt8) (a : BufAct × Bool) (q : BufMem × List UInt8) : Prop :=
  a.1.Legal p.1 p.2 ∧ p.1.exec rounds a.1 = some (a.2, q.1) ∧ q.2 = a.1.content p.2 a.2

lemma stored_reachable {rounds : ℕ} (hrounds : 64 ≤ rounds) {s : BufMem} (hs : s.buf = ⟨none, 0, 0⟩)
    {p : BufMem × List UInt8} (h : Reachable (BufStep rounds) (s, []) p) :
    Stored s.heap.size p.1 p.2 ∧ Terminated p.1 := by
  refine h.invariant (I := fun p => Stored s.heap.size p.1 p.2 ∧ Terminated p.1) ?_ ?_
  · refine ⟨⟨?_, ?_, ?_, ?_, fun p hp => ?_, fun p hp => ?_, fun _ _ => rfl⟩, fun p hp => ?_⟩ <;> simp [hs] at *
  · rintro ⟨s, c⟩ ⟨a, ret⟩ ⟨t, c'⟩ ⟨hstored, hnul⟩ ⟨hlegal, hexec, rfl⟩
    obtain ⟨ret', t', hexec', hstored', hnul', -⟩ := exec_spec hstored hnul hlegal hrounds
    obtain ⟨rfl, rfl⟩ : ret' = ret ∧ t' = t := by simpa using hexec'.symm.trans hexec
    exact ⟨hstored', hnul'⟩

/-- Whatever is appended to a buffer and cleared, and whenever there is no memory: the buffer holds the pieces that were
appended since it was cleared, with a NUL behind them, in a block of `cap + 1` bytes, and every other block is as it was
at the start.  Every call returns, without a write outside of a block and a `free` of a wrong size, and one that fails
changes nothing. -/
theorem buffer_holds_content {rounds : ℕ} (hrounds : 64 ≤ rounds) {s : BufMem} (hs : s.buf = ⟨none, 0, 0⟩)
    {p : BufMem × List UInt8} (h : Reachable (BufStep rounds) (s, []) p) :
    p.1.buf.len = p.2.length ∧
      (p.1.buf.data = none → p.2 = []) ∧
      (∀ d, p.1.buf.data = some d → slice (p.1.heap.bytes d) 0 p.1.buf.len = p.2 ∧
        p.1.heap.bytes d p.1.buf.len = 0 ∧ p.1.buf.len ≤ p.1.buf.cap ∧
        p.1.heap.size d = some (p.1.buf.cap + 1)) ∧
      (∀ q, p.1.buf.data ≠ some q → p.1.heap.size q = s.heap.size q) ∧
      ∀ a, BufAct.Legal p.1 p.2 a → ∃ ret t, p.1.exec rounds a = some (ret, t) ∧ (ret = false → t = p.1) := by
  obtain ⟨hstored, hnul⟩ := stored_reachable hrounds hs h
  refine ⟨hstored.len_eq, fun hd => ?_, fun d hd => ⟨hstored.bytes d hd, hnul d hd, hstored.len_le, (hstored.size d hd).1⟩,
    hstored.rest, fun a ha => ?_⟩
  · have hle := hstored.len_le
    rw [hstored.null hd, hstored.len_eq] at hle
    exact List.length_eq_zero_iff.mp (Nat.le_zero.mp hle)
  · obtain ⟨ret, t, hexec, -, -, hfail⟩ := exec_spec hstored hnul ha hrounds
    exact ⟨ret, t, hexec, hfail⟩

/-- A word is appended to a zero-initialised buffer, and then a byte. -/
theorem buffer_holds_content_of_two_calls : ∃ p : BufMem × List UInt8,
    p.2 = [104, 105, 33] ∧ p.1.buf.data = some 1 ∧ slice (p.1.heap.bytes 1) 0 p.1.buf.len = p.2 := by
  have h : Reachable (BufStep 64) (⟨⟨none, 0, 0⟩, ⟨fun _ => none, fun _ _ => 7⟩⟩, []) _ :=
    ⟨[(.append [104, 105, 0, 9] (-1) (some (1, fun _ => 7)), true), (.appendByte 33 none, true)],
      .cons (t := (_, _)) ⟨⟨fun _ _ _ h => by cases h; rfl, by decide, fun _ _ _ => rfl⟩, rfl, rfl⟩ <|
      .cons (t := (_, _)) ⟨⟨fun _ _ _ h => (by cases h), by decide, fun _ _ h => (by cases h)⟩, rfl, rfl⟩ <| .nil _⟩
  exact ⟨_, rfl, rfl, ((buffer_holds_content (by decide) rfl h).2.2.1 1 rfl).1⟩

end Suspenders.Io
