import Mathlib.Data.Nat.Notation
import Mathlib.Algebra.Order.Ring.Nat
import Mathlib.Tactic.Ring

/-!
# Numbers in bytes

`toBytes n v` are the last `n` bytes of `v`, the most significant one first, and `ofBytes` reads them.
-/

namespace Suspenders.Lib

/-- A sequence of bytes. -/
abbrev Bytes := List UInt8

/-- Read bytes behind a number that is already read. -/
def readBytes (v : ℕ) (bs : Bytes) : ℕ := bs.foldl (fun v b => v * 256 + b.toNat) v

/-- The number that `bs` are, the most significant byte first. -/
def ofBytes (bs : Bytes) : ℕ := readBytes 0 bs

/-- The last `n` bytes of `v`, the most significant one first. -/
def toBytes : ℕ → ℕ → Bytes
  | 0, _ => []
  | n + 1, v => UInt8.ofNat (v >>> (8 * n)) :: toBytes n v

@[simp] lemma length_toBytes (n v : ℕ) : (toBytes n v).length = n := by
  induction n with
  | zero => rfl
  | succ n ih => simp [toBytes, ih]

@[simp] lemma readBytes_nil (v : ℕ) : readBytes v [] = v := rfl

@[simp] lemma readBytes_cons (v : ℕ) (b : UInt8) (bs : Bytes) :
    readBytes v (b :: bs) = readBytes (v * 256 + b.toNat) bs := rfl

lemma readBytes_lt (v : ℕ) (bs : Bytes) : readBytes v bs < (v + 1) * 256 ^ bs.length := by
  induction bs generalizing v with
  | nil => simp
  | cons b bs ih =>
    have hb := b.toNat_lt
    calc readBytes (v * 256 + b.toNat) bs < (v * 256 + b.toNat + 1) * 256 ^ bs.length := ih _
      _ ≤ ((v + 1) * 256) * 256 ^ bs.length := Nat.mul_le_mul_right _ (by omega)
      _ = (v + 1) * 256 ^ (b :: bs).length := by rw [List.length_cons, Nat.pow_succ]; ring

/-- Bytes that are read behind `v` are the bytes of a number with `v` in front. -/
lemma readBytes_toBytes (n v w : ℕ) : readBytes v (toBytes n w) = v * 256 ^ n + w % 256 ^ n := by
  induction n generalizing v with
  | zero => simp [toBytes, Nat.mod_one]
  | succ n ih =>
    have hdigit : (UInt8.ofNat (w >>> (8 * n))).toNat = w / 256 ^ n % 256 := by
      rw [UInt8.toNat_ofNat', Nat.shiftRight_eq_div_pow, Nat.pow_mul]
    have hsplit : w % 256 ^ (n + 1) = w / 256 ^ n % 256 * 256 ^ n + w % 256 ^ n := by
      rw [Nat.pow_succ, Nat.mod_mul, Nat.add_comm, Nat.mul_comm]
    rw [toBytes, readBytes_cons, ih, hdigit, hsplit, Nat.pow_succ]
    ring

/-- What is written is read. -/
lemma ofBytes_toBytes {n v : ℕ} (h : v < 256 ^ n) : ofBytes (toBytes n v) = v := by
  rw [ofBytes, readBytes_toBytes, Nat.mod_eq_of_lt h, Nat.zero_mul, Nat.zero_add]

/-- Two bits above six. -/
lemma or_eq_add {x : ℕ} (h : x < 64) (k : ℕ) : x ||| 64 * k = 64 * k + x := by
  rw [Nat.or_comm]
  exact (Nat.two_pow_add_eq_or_of_lt (i := 6) h k).symm

end Suspenders.Lib
