import Mathlib.Data.Nat.Notation
import Suspenders.Lib.Bytes
import Suspenders.Lib.Prog

/-!
# Programs that read memory

A checked program over a state returns a value, fails, or gets stuck: it reads outside of its memory, a sum does not fit
into 64 bits, or a loop has no rounds left.  A program that never gets stuck is one of `Prog`.

Memory is a sequence of bytes, and a pointer is an index into it.  `cut m p q` are the bytes from `p` up to `q`.
-/

namespace Suspenders.Lib

/-- A program that returns an `α`, fails or gets stuck. -/
def Checked (σ α : Type) : Type := σ → Option (Option α × σ)

namespace Checked

variable {σ α β : Type}

instance : Monad (Checked σ) where
  pure a := fun s => some (some a, s)
  bind x f := fun s =>
    match x s with
    | some (some a, s') => f a s'
    | some (none, s') => some (none, s')
    | none => none

/-- Get stuck here. -/
def stuck : Checked σ α := fun _ => none

/-- A program that reads nothing. -/
def ofProg (x : Prog σ α) : Checked σ α := fun s => some (x s)

/-- Fail here. -/
def fail : Checked σ α := ofProg Prog.fail

/-- Fail unless `p`. -/
def require (p : Prop) [Decidable p] : Checked σ Unit := if p then pure () else fail

/-- Go on when a program fails. -/
def attempt (x : Checked σ α) : Checked σ (Option α) := fun s => (x s).map fun r => (some r.1, r.2)

/-- The sum of two numbers of 64 bits. -/
def add64 (a b : ℕ) : Checked σ ℕ := if a + b < 2 ^ 64 then pure (a + b) else stuck

lemma pure_bind (a : α) (f : α → Checked σ β) : (pure a : Checked σ α) >>= f = f a := rfl

lemma fail_bind (f : α → Checked σ β) : (fail : Checked σ α) >>= f = fail := rfl

lemma stuck_bind (f : α → Checked σ β) : (stuck : Checked σ α) >>= f = stuck := rfl

lemma ofProg_bind (x : Prog σ α) (f : α → Prog σ β) : ofProg (x >>= f) = ofProg x >>= fun a => ofProg (f a) := by
  funext s
  simp only [ofProg, bind]
  rcases x s with ⟨- | a, s'⟩ <;> rfl

lemma get_bind (f : σ → Checked σ β) (s : σ) : (ofProg Prog.get >>= f) s = f s s := rfl

lemma modify_bind (g : σ → σ) (f : Unit → Checked σ β) (s : σ) : (ofProg (Prog.modify g) >>= f) s = f () (g s) := rfl

/-- A program goes on with the value of its first part. -/
lemma bind_of_some {x : Checked σ α} {f : α → Checked σ β} {s s' : σ} {a : α} (h : x s = some (some a, s')) :
    (x >>= f) s = f a s' := by
  simp only [bind, h]

/-- A program fails if its first part does. -/
lemma bind_of_none {x : Checked σ α} {f : α → Checked σ β} {s s' : σ} (h : x s = some (none, s')) :
    (x >>= f) s = some (none, s') := by
  simp only [bind, h]

lemma ofProg_pure (a : α) : ofProg (pure a : Prog σ α) = pure a := rfl

lemma require_bind_of {p : Prop} [Decidable p] (hp : p) (f : Unit → Checked σ β) : require p >>= f = f () := by
  rw [require, if_pos hp, pure_bind]

lemma require_bind_of_not {p : Prop} [Decidable p] (hp : ¬ p) (f : Unit → Checked σ β) : require p >>= f = fail := by
  rw [require, if_neg hp, fail_bind]

lemma require_require {p q : Prop} [Decidable p] [Decidable q] (f : Unit → Checked σ β) :
    (require p >>= fun _ => require q >>= f) = require (p ∧ q) >>= f := by
  by_cases hp : p
  · by_cases hq : q
    · rw [require_bind_of hp, require_bind_of hq, require_bind_of ⟨hp, hq⟩]
    · rw [require_bind_of hp, require_bind_of_not hq, require_bind_of_not fun h => hq h.2]
  · rw [require_bind_of_not hp, require_bind_of_not fun h => hp h.1]

lemma add64_of_lt {a b : ℕ} (h : a + b < 2 ^ 64) : (add64 a b : Checked σ ℕ) = pure (a + b) := if_pos h

/-! ## Reading -/

/-- `m[i]` -/
def load (m : Bytes) (i : ℕ) : Checked σ UInt8 := if h : i < m.length then pure m[i] else stuck

end Checked

/-- The bytes of `m` from `p` up to `q`. -/
def cut (m : Bytes) (p q : ℕ) : Bytes := (m.take q).drop p

/-- The `n` bytes of `m` from `p` on are read. -/
def Checked.loads {σ : Type} (m : Bytes) (p n : ℕ) : Checked σ Bytes :=
  if p + n ≤ m.length then pure (cut m p (p + n)) else stuck

/-- `(size_t)(q - p)` for two pointers. -/
def distance (p q : ℕ) : ℕ := if p ≤ q then q - p else 2 ^ 64 - (p - q)

lemma distance_of_le {p q : ℕ} (h : p ≤ q) : distance p q = q - p := if_pos h

section Slice

variable {m : Bytes} {p q : ℕ}

lemma length_cut (h : q ≤ m.length) : (cut m p q).length = q - p := by
  rw [cut, List.length_drop, List.length_take, Nat.min_eq_left h]

lemma drop_cut (m : Bytes) (p q n : ℕ) : (cut m p q).drop n = cut m (p + n) q := by
  rw [cut, cut, List.drop_drop]

lemma take_cut {n : ℕ} (h : p + n ≤ q) : (cut m p q).take n = cut m p (p + n) := by
  rw [cut, cut, List.take_drop, List.take_take, Nat.min_eq_left h]

lemma cut_cons (h : p < q) (hq : q ≤ m.length) : ∃ b, cut m p q = b :: cut m (p + 1) q ∧
    ∀ {σ : Type}, (Checked.load m p : Checked σ UInt8) = pure b := by
  have hlt : p < m.length := h.trans_le hq
  refine ⟨m[p], ?_, fun {σ} => dif_pos hlt⟩
  have hlen : p < (m.take q).length := by rw [List.length_take]; omega
  rw [cut, cut, List.drop_eq_getElem_cons hlen, List.getElem_take]

lemma cut_add (m : Bytes) (p n : ℕ) : cut m p (p + n) = (m.drop p).take n := by
  rw [cut, List.take_drop]

lemma loads_of_le {σ : Type} {n : ℕ} (h : p + n ≤ m.length) :
    (Checked.loads m p n : Checked σ Bytes) = pure (cut m p (p + n)) := if_pos h

end Slice

end Suspenders.Lib
