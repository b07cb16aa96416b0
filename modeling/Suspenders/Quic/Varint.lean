import Suspenders.Lib.Bytes

/-!
# Variable-length integers

The first two bits of an integer say how many bytes it has: one, two, four or eight.
-/

namespace Suspenders.Quic

open Lib

/-- `s_quic_varint_size` -/
def varintSize (v : ℕ) : ℕ :=
  if v ≤ 63 then 1
  else if v ≤ 16383 then 2
  else if v ≤ 1073741823 then 4
  else 8

/-- The bytes that `s_quic_put_varint` writes. -/
def varint (v : ℕ) : Bytes :=
  if v ≤ 63 then [UInt8.ofNat v]
  else if v ≤ 16383 then UInt8.ofNat (v >>> 8 ||| 0x40) :: toBytes 1 v
  else if v ≤ 1073741823 then UInt8.ofNat (v >>> 24 ||| 0x80) :: toBytes 3 v
  else UInt8.ofNat (v >>> 56 ||| 0xc0) :: toBytes 7 v

/-- `s_quic_put_varint` into a buffer of `cap` bytes -/
def putVarint (cap v : ℕ) : Option Bytes := if cap < varintSize v then none else some (varint v)

/-- `s_quic_get_varint`: the integer, and the bytes behind it -/
def getVarint : Bytes → Option (ℕ × Bytes)
  | [] => none
  | b :: rest =>
    let n := 1 <<< (b.toNat >>> 6)
    if (b :: rest).length < n then none
    else some (readBytes (b.toNat &&& 0x3f) (rest.take (n - 1)), rest.drop (n - 1))

/-- An integer has at least one byte. -/
lemma getVarint_length {p rest : Bytes} {v : ℕ} (h : getVarint p = some (v, rest)) : rest.length < p.length := by
  cases p with
  | nil => cases h
  | cons b bs =>
    rw [getVarint, Option.ite_none_left_eq_some] at h
    cases h.2
    simp only [List.length_drop, List.length_cons]
    omega

lemma length_varint (v : ℕ) : (varint v).length = varintSize v := by
  unfold varint varintSize
  split
  · rfl
  · split
    · simp
    · split <;> simp

lemma varintSize_pos (v : ℕ) : 0 < varintSize v := by
  unfold varintSize
  split_ifs <;> omega

/-- The number of bytes of an integer. -/
lemma varint_bytes (b : UInt8) : 0 < 1 <<< (b.toNat >>> 6) ∧ 1 <<< (b.toNat >>> 6) ≤ 8 := by
  have hb : b.toNat >>> 6 ≤ 3 := by
    have := b.toNat_lt
    rw [Nat.shiftRight_eq_div_pow]
    omega
  rw [Nat.one_shiftLeft]
  exact ⟨Nat.two_pow_pos _, Nat.pow_le_pow_right (by decide) hb⟩

/-- Two bits of the first byte do not belong to the integer. -/
lemma readBytes_varint (b : UInt8) {bs : Bytes} (h : bs.length ≤ 7) : readBytes (b.toNat &&& 0x3f) bs < 2 ^ 62 := by
  have hfirst : b.toNat &&& 0x3f ≤ 63 := Nat.and_le_right
  calc readBytes (b.toNat &&& 0x3f) bs < ((b.toNat &&& 0x3f) + 1) * 256 ^ bs.length := readBytes_lt _ _
    _ ≤ 64 * 256 ^ 7 := Nat.mul_le_mul (by omega) (Nat.pow_le_pow_right (by decide) h)
    _ = 2 ^ 62 := by decide

/-- An integer of `2 ^ k` bytes. -/
lemma getVarint_cons (k m x : ℕ) (bs rest : Bytes) (hk : k < 4) (hx : x < 64) (hm : m + 1 = 2 ^ k)
    (hbs : bs.length = m) :
    getVarint (UInt8.ofNat (x ||| 64 * k) :: (bs ++ rest)) = some (readBytes x bs, rest) := by
  have hnat : (UInt8.ofNat (x ||| 64 * k)).toNat = 64 * k + x := by
    rw [or_eq_add hx, UInt8.toNat_ofNat']
    omega
  have hn : 1 <<< ((64 * k + x) >>> 6) = m + 1 := by
    rw [Nat.shiftRight_eq_div_pow, Nat.one_shiftLeft, hm]
    congr 1
    omega
  have hlow : (64 * k + x) &&& 0x3f = x := by
    have := Nat.and_two_pow_sub_one_eq_mod (64 * k + x) 6
    simp only [Nat.reducePow, Nat.add_one_sub_one] at this
    rw [this]
    omega
  simp only [getVarint, hnat, hn, hlow, Nat.add_sub_cancel]
  rw [if_neg (by simp [hbs]), List.take_left' hbs, List.drop_left' hbs]

/-- What is written is read. -/
lemma getVarint_varint {v : ℕ} (hv : v < 2 ^ 62) (rest : Bytes) : getVarint (varint v ++ rest) = some (v, rest) := by
  have hshift (n : ℕ) : v >>> (8 * n) * 256 ^ n + v % 256 ^ n = v := by
    rw [Nat.shiftRight_eq_div_pow, Nat.pow_mul]
    exact Nat.div_add_mod' v _
  unfold varint
  split_ifs with h1 h2 h3
  · have := getVarint_cons 0 0 v [] rest (by decide) (by omega) rfl rfl
    simpa using this
  · have := getVarint_cons 1 1 (v >>> 8) (toBytes 1 v) rest (by decide)
      (by rw [Nat.shiftRight_eq_div_pow]; omega) rfl (by simp)
    rw [readBytes_toBytes, hshift 1] at this
    simpa using this
  · have := getVarint_cons 2 3 (v >>> 24) (toBytes 3 v) rest (by decide)
      (by rw [Nat.shiftRight_eq_div_pow]; omega) rfl (by simp)
    rw [readBytes_toBytes, hshift 3] at this
    simpa using this
  · have := getVarint_cons 3 7 (v >>> 56) (toBytes 7 v) rest (by decide)
      (by rw [Nat.shiftRight_eq_div_pow]; omega) rfl (by simp)
    rw [readBytes_toBytes, hshift 7] at this
    simpa using this

end Suspenders.Quic
