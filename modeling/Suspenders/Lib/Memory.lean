import Mathlib

/-!
# Byte memory with 64-bit words

A memory maps 64-bit addresses to bytes; words are little-endian and lie at any address.  Address
arithmetic wraps.  The rules say what a word reads after stores at other places: `load_store_off` for
two offsets from one base, `load_stores` for a record of words that is written field by field, and
`load_congr` for memories that agree on the bytes of a word.
-/

namespace Suspenders.Lib

/-- A 64-bit word, also an address. -/
abbrev Word := BitVec 64

/-- A byte memory. -/
abbrev Mem := Word → BitVec 8

/-- The `n` bytes from `a` on. -/
def span (a : Word) (n : ℕ) : Set Word := {x | (x - a).toNat < n}

lemma mem_span {a x : Word} {n : ℕ} : x ∈ span a n ↔ (x - a).toNat < n := Iff.rfl

/-- A word at an offset lies in the record around it. -/
lemma span_off_subset {c : Word} {i n : ℕ} (h : i + 8 ≤ n) (hn : n ≤ 2 ^ 32) :
    span (c + BitVec.ofNat 64 i) 8 ⊆ span c n := by
  intro x hx
  rw [mem_span] at hx ⊢
  bv_omega

lemma ofNat_sub_toNat (a : Word) {i : ℕ} (h : i < 8) : (a + BitVec.ofNat 64 i - a).toNat = i := by
  bv_omega

namespace Mem

variable {m m' : Mem} {a b c v x : Word}

/-- The byte `i` places behind `a`. -/
def byte (m : Mem) (a : Word) (i : ℕ) : BitVec 8 := m (a + BitVec.ofNat 64 i)

/-- The word at `a`. -/
def load (m : Mem) (a : Word) : Word :=
  m.byte a 7 ++ m.byte a 6 ++ m.byte a 5 ++ m.byte a 4 ++ m.byte a 3 ++ m.byte a 2 ++
    m.byte a 1 ++ m.byte a 0

/-- The memory after the word `v` is written at `a`. -/
def store (m : Mem) (a v : Word) : Mem := fun x =>
  if (x - a).toNat < 8 then v.extractLsb' (8 * (x - a).toNat) 8 else m x

lemma store_of_notMem (h : x ∉ span a 8) : m.store a v x = m x := if_neg h

lemma byte_store_self (m : Mem) (a v : Word) {i : ℕ} (h : i < 8) :
    (m.store a v).byte a i = v.extractLsb' (8 * i) 8 := by
  rw [byte, store, ofNat_sub_toNat a h, if_pos h]

@[simp] lemma load_store_self (m : Mem) (a v : Word) : (m.store a v).load a = v := by
  have hbyte (i : ℕ) (h : i < 8) := byte_store_self m a v h
  simp only [load, hbyte 0 (by decide), hbyte 1 (by decide), hbyte 2 (by decide),
    hbyte 3 (by decide), hbyte 4 (by decide), hbyte 5 (by decide), hbyte 6 (by decide),
    hbyte 7 (by decide)]
  -- neighbouring bytes are put together again, from the top
  iterate 7 rw [BitVec.extractLsb'_append_extractLsb'_eq_extractLsb' (by decide)]
  exact BitVec.extractLsb'_eq_self

/-- A word depends on its own bytes only. -/
lemma load_congr (h : ∀ x ∈ span a 8, m' x = m x) : m'.load a = m.load a := by
  have hbyte (i : ℕ) (hi : i < 8) : m'.byte a i = m.byte a i := by
    refine h _ ?_
    rw [mem_span, ofNat_sub_toNat a hi]
    exact hi
  simp only [load, hbyte 0 (by decide), hbyte 1 (by decide), hbyte 2 (by decide),
    hbyte 3 (by decide), hbyte 4 (by decide), hbyte 5 (by decide), hbyte 6 (by decide),
    hbyte 7 (by decide)]

lemma load_store_of_disjoint (h : Disjoint (span b 8) (span a 8)) :
    (m.store a v).load b = m.load b :=
  load_congr fun _ hx => store_of_notMem (Set.disjoint_left.1 h hx)

/-- Two words of one record do not overlap. -/
lemma load_store_off (m : Mem) (c v : Word) {i j : ℕ} (hi : i < 2 ^ 32) (hj : j < 2 ^ 32)
    (h : i + 8 ≤ j ∨ j + 8 ≤ i) :
    (m.store (c + BitVec.ofNat 64 i) v).load (c + BitVec.ofNat 64 j) =
      m.load (c + BitVec.ofNat 64 j) := by
  apply load_store_of_disjoint
  rw [Set.disjoint_left]
  intro x hx hx'
  rw [mem_span] at hx hx'
  bv_omega

/-- The memory after words are written at offsets from `c`, one after the other. -/
def stores (m : Mem) (c : Word) : List (ℕ × Word) → Mem
  | [] => m
  | (i, v) :: l => stores (m.store (c + BitVec.ofNat 64 i) v) c l

/-- Two offsets at which words do not overlap. -/
def Apart (i j : ℕ) : Prop := i + 8 ≤ j ∨ j + 8 ≤ i

instance (i j : ℕ) : Decidable (Apart i j) := inferInstanceAs (Decidable (_ ∨ _))

/-- Words that are written elsewhere leave a word as it is. -/
lemma load_stores_of_apart {l : List (ℕ × Word)} {i : ℕ} (hi : i < 2 ^ 32)
    (hl : ∀ j ∈ l.map Prod.fst, j < 2 ^ 32) (h : ∀ j ∈ l.map Prod.fst, Apart i j) (m : Mem) :
    (m.stores c l).load (c + BitVec.ofNat 64 i) = m.load (c + BitVec.ofNat 64 i) := by
  induction l generalizing m with
  | nil => rfl
  | cons p l ih =>
    rw [stores, ih (fun j hj => hl j (.tail _ hj)) (fun j hj => h j (.tail _ hj))]
    exact load_store_off m c p.2 (hl p.1 (.head _)) hi (h p.1 (.head _)).symm

/-- Every word of a record reads as it was written. -/
lemma load_stores {l : List (ℕ × Word)} (hl : ∀ j ∈ l.map Prod.fst, j < 2 ^ 32)
    (h : (l.map Prod.fst).Pairwise Apart) {i : ℕ} (hv : (i, v) ∈ l) (m : Mem) :
    (m.stores c l).load (c + BitVec.ofNat 64 i) = v := by
  induction l generalizing m with
  | nil => cases hv
  | cons p l ih =>
    obtain ⟨hp, hrest⟩ := List.pairwise_cons.1 h
    rcases List.mem_cons.1 hv with rfl | hv
    · rw [stores, load_stores_of_apart (hl _ (.head _)) (fun j hj => hl j (.tail _ hj)) hp]
      exact load_store_self m _ v
    · exact ih (fun j hj => hl j (.tail _ hj)) hrest hv _

/-- A record is written inside its bounds. -/
lemma stores_of_notMem {l : List (ℕ × Word)} {n : ℕ} (hl : ∀ j ∈ l.map Prod.fst, j + 8 ≤ n)
    (hn : n ≤ 2 ^ 32) (hx : x ∉ span c n) (m : Mem) : m.stores c l x = m x := by
  induction l generalizing m with
  | nil => rfl
  | cons p l ih =>
    rw [stores, ih fun j hj => hl j (.tail _ hj)]
    exact store_of_notMem fun h => hx (span_off_subset (hl p.1 (.head _)) hn h)

end Mem

end Suspenders.Lib
