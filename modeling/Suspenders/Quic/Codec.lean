import Suspenders.Lib.Blit
import Suspenders.Quic.Varint

/-!
# Variable-length integers in memory

`s_quic_put_varint` and `s_quic_get_varint` with the words of the machine: an integer has 64 bits, a byte is written
through a cast to `uint8_t`, and pointers are addresses in a memory that holds one byte at each.  They compute what
`putVarint` and `getVarint` say about lists of bytes.
-/

namespace Suspenders.Quic

open Lib Function

/-- `s_quic_put_varint`: the returned number, and the memory. -/
def putVarintMem (m : ℕ → UInt8) (p cap : ℕ) (v : UInt64) : ℤ × (ℕ → UInt8) :=
  let n := varintSize v.toNat
  if cap < n then (-1, m)
  else if n = 1 then (1, update m p v.toUInt8)
  else if n = 2 then (2, update (update m p (v >>> 8 ||| 0x40).toUInt8) (p + 1) v.toUInt8)
  else if n = 4 then
    let m := update m p (v >>> 24 ||| 0x80).toUInt8
    let m := update m (p + 1) (v >>> 16).toUInt8
    let m := update m (p + 2) (v >>> 8).toUInt8
    (4, update m (p + 3) v.toUInt8)
  else
    let m := update m p (v >>> 56 ||| 0xc0).toUInt8
    (8, (List.range' 1 7).foldl (fun m i => update m (p + i) (v >>> UInt64.ofNat (56 - 8 * i)).toUInt8) m)

/-- `s_quic_get_varint`: the returned number, the pointer `*pp` and the integer `*out`. -/
def getVarintMem (m : ℕ → UInt8) (p stop : ℕ) (out : UInt64) : ℤ × ℕ × UInt64 :=
  if stop ≤ p then (-1, p, out)
  else
    let n := 1 <<< (m p >>> 6).toNat
    if stop - p < n then (-1, p, out)
    else
      let v := (m p &&& 0x3f).toUInt64
      (0, p + n, (List.range' 1 (n - 1)).foldl (fun v i => v <<< 8 ||| (m (p + i)).toUInt64) v)

/-! ## The size -/

section Size

variable {v : ℕ}

lemma varintSize_mem (v : ℕ) : varintSize v ∈ [1, 2, 4, 8] := by
  unfold varintSize
  split_ifs <;> simp

/-- An integer of `n` bytes has two bits for its size. -/
lemma lt_varintSize (hv : v < 2 ^ 62) : v < 2 ^ (8 * varintSize v - 2) := by
  unfold varintSize
  split_ifs <;> simp only [Nat.reduceMul, Nat.reduceSub, Nat.reducePow] at * <;> omega

lemma varintSize_le_of_lt {n : ℕ} (hn : n ∈ [1, 2, 4, 8]) (hv : v < 2 ^ (8 * n - 2)) : varintSize v ≤ n := by
  simp only [List.mem_cons, List.not_mem_nil, or_false] at hn
  unfold varintSize
  rcases hn with rfl | rfl | rfl | rfl <;> simp only [Nat.reduceMul, Nat.reduceSub, Nat.reducePow] at hv <;>
    split_ifs <;> omega

end Size

/-! ## Writing -/

section Write

variable {m : ℕ → UInt8} {p cap : ℕ} {v : UInt64}

lemma toUInt8_shiftRight (v : UInt64) {s : UInt64} (hs : s.toNat < 64) :
    (v >>> s).toUInt8 = UInt8.ofNat (v.toNat >>> s.toNat) := by
  apply UInt8.toNat_inj.mp
  rw [UInt8.toNat_ofNat', UInt64.toNat_toUInt8, UInt64.toNat_shiftRight, Nat.mod_eq_of_lt hs]

lemma toUInt8_or (v : UInt64) {s : UInt64} (hs : s.toNat < 64) (x : UInt64) :
    (v >>> s ||| x).toUInt8 = UInt8.ofNat (v.toNat >>> s.toNat ||| x.toNat) := by
  apply UInt8.toNat_inj.mp
  rw [UInt8.toNat_ofNat', UInt64.toNat_toUInt8, UInt64.toNat_or, UInt64.toNat_shiftRight, Nat.mod_eq_of_lt hs]

lemma toUInt8_eq (v : UInt64) : v.toUInt8 = UInt8.ofNat v.toNat := by
  apply UInt8.toNat_inj.mp
  rw [UInt8.toNat_ofNat', UInt64.toNat_toUInt8]

/-- Nothing is written if the integer does not fit. -/
lemma putVarintMem_of_lt (h : cap < varintSize v.toNat) : putVarintMem m p cap v = (-1, m) := if_pos h

/-- The bytes of the integer are written. -/
lemma putVarintMem_of_le (h : varintSize v.toNat ≤ cap) :
    putVarintMem m p cap v = (↑(varintSize v.toNat), blit m p (varint v.toNat)) := by
  rw [putVarintMem, if_neg (Nat.not_lt.mpr h)]
  unfold varint varintSize
  by_cases h1 : v.toNat ≤ 63
  · rw [if_pos h1, if_pos h1, if_pos rfl, ← toUInt8_eq]
    rfl
  rw [if_neg h1, if_neg h1]
  by_cases h2 : v.toNat ≤ 16383
  · rw [if_pos h2, if_pos h2, if_neg (by decide), if_pos rfl, toUInt8_or v (by decide), toUInt8_eq]
    rfl
  rw [if_neg h2, if_neg h2]
  by_cases h3 : v.toNat ≤ 1073741823
  · rw [if_pos h3, if_pos h3, if_neg (by decide), if_neg (by decide), if_pos rfl, toUInt8_or v (by decide),
      toUInt8_shiftRight v (by decide), toUInt8_shiftRight v (by decide), toUInt8_eq]
    rfl
  · rw [if_neg h3, if_neg h3, if_neg (by decide), if_neg (by decide), if_neg (by decide), toUInt8_or v (by decide)]
    have hbyte (i : ℕ) : (v >>> UInt64.ofNat (56 - 8 * i)).toUInt8 = UInt8.ofNat (v.toNat >>> (56 - 8 * i)) := by
      have hs : (UInt64.ofNat (56 - 8 * i)).toNat = 56 - 8 * i := by
        rw [UInt64.toNat_ofNat']
        omega
      rw [toUInt8_shiftRight v (by omega), hs]
    simp only [hbyte]
    rfl

end Write

/-! ## Reading -/

section Read

variable {m : ℕ → UInt8} {p stop : ℕ} {out : UInt64}

/-- One more byte. -/
lemma toNat_shiftLeft_or {v : UInt64} (hv : v.toNat < 2 ^ 56) (b : UInt8) :
    (v <<< 8 ||| b.toUInt64).toNat = v.toNat * 256 + b.toNat := by
  have hb := b.toNat_lt
  have hshift : (v <<< 8).toNat = 2 ^ 8 * v.toNat := by
    rw [UInt64.toNat_shiftLeft, Nat.shiftLeft_eq]
    simp only [UInt64.reduceToNat, Nat.reduceMod, Nat.reducePow]
    omega
  rw [UInt64.toNat_or, hshift, UInt8.toNat_toUInt64, ← Nat.two_pow_add_eq_or_of_lt hb]
  omega

/-- The loop reads the bytes behind `v`. -/
lemma toNat_foldl (is : List ℕ) (v : UInt64) (h : (v.toNat + 1) * 256 ^ is.length ≤ 2 ^ 64) :
    (is.foldl (fun (v : UInt64) i => v <<< 8 ||| (m (p + i)).toUInt64) v).toNat =
      readBytes v.toNat (is.map fun i => m (p + i)) := by
  induction is generalizing v with
  | nil => rfl
  | cons i is ih =>
    rw [List.length_cons, Nat.pow_succ, Nat.mul_comm (256 ^ is.length), ← Nat.mul_assoc] at h
    have hle : (v.toNat + 1) * 256 ≤ 2 ^ 64 := (Nat.le_mul_of_pos_right _ (Nat.pow_pos (by decide))).trans h
    have hbyte := toNat_shiftLeft_or (v := v) (by omega) (m (p + i))
    have hb := (m (p + i)).toNat_lt
    rw [List.foldl_cons, List.map_cons, readBytes_cons, ← hbyte]
    refine ih _ (le_trans (Nat.mul_le_mul_right _ ?_) h)
    omega

/-- The bytes behind the first one. -/
lemma map_range' (m : ℕ → UInt8) (p n : ℕ) : ((List.range' 1 n).map fun i => m (p + i)) = slice m (p + 1) n := by
  rw [slice, ← List.map_add_range', List.map_map]
  rfl

/-- The integer that begins at `p`. -/
lemma toNat_fetch {n : ℕ} (hn : n ≤ 7) :
    ((List.range' 1 n).foldl (fun (v : UInt64) i => v <<< 8 ||| (m (p + i)).toUInt64)
        (m p &&& 0x3f).toUInt64).toNat =
      readBytes ((m p).toNat &&& 0x3f) (slice m (p + 1) n) := by
  have hlow : (m p &&& 0x3f).toUInt64.toNat = (m p).toNat &&& 0x3f := by
    rw [UInt8.toNat_toUInt64, UInt8.toNat_and]
    rfl
  have hlt : (m p).toNat &&& 0x3f ≤ 63 := Nat.and_le_right
  rw [toNat_foldl, hlow, map_range']
  rw [hlow, List.length_range']
  calc (((m p).toNat &&& 0x3f) + 1) * 256 ^ n ≤ 64 * 256 ^ 7 :=
        Nat.mul_le_mul (by omega) (Nat.pow_le_pow_right (by decide) hn)
    _ ≤ 2 ^ 64 := by decide

/-- Reading fails and moves nothing, or it reads an integer of one, two, four or eight bytes, as from the list of
bytes. -/
lemma getVarintMem_cases (m : ℕ → UInt8) (p stop : ℕ) (out : UInt64) :
    (getVarintMem m p stop out = (-1, p, out) ∧ getVarint (slice m p (stop - p)) = none) ∨
      ∃ n ∈ [1, 2, 4, 8], p + n ≤ stop ∧ ∃ v : UInt64, getVarintMem m p stop out = (0, p + n, v) ∧
        v.toNat < 2 ^ 62 ∧
        getVarint (slice m p (stop - p)) = some (v.toNat, slice m (p + n) (stop - (p + n))) := by
  by_cases hstop : stop ≤ p
  · refine .inl ⟨if_pos hstop, ?_⟩
    rw [Nat.sub_eq_zero_of_le hstop]
    rfl
  have hshift : (m p >>> 6).toNat = (m p).toNat >>> 6 := UInt8.toNat_shiftRight _ _
  obtain ⟨hpos, hle⟩ := varint_bytes (m p)
  have hmem : 1 <<< ((m p).toNat >>> 6) ∈ [1, 2, 4, 8] := by
    have hlt : (m p).toNat >>> 6 < 4 := by
      have := (m p).toNat_lt
      rw [Nat.shiftRight_eq_div_pow]
      omega
    exact (by decide : ∀ k < 4, 1 <<< k ∈ [1, 2, 4, 8]) _ hlt
  have hhead : slice m p (stop - p) = m p :: slice m (p + 1) (stop - (p + 1)) := by
    rw [show stop - p = stop - (p + 1) + 1 by omega, slice_succ]
  have hlen : (m p :: slice m (p + 1) (stop - (p + 1))).length = stop - p := by
    rw [← hhead, length_slice]
  rw [getVarintMem, if_neg hstop, hshift, hhead, getVarint, hlen]
  generalize 1 <<< ((m p).toNat >>> 6) = n at *
  by_cases hn : stop - p < n
  · exact .inl ⟨if_pos hn, if_pos hn⟩
  obtain ⟨r, rfl⟩ : ∃ r, n = r + 1 := ⟨n - 1, by omega⟩
  refine .inr ⟨r + 1, hmem, by omega, _, if_neg hn, ?_, ?_⟩
  · rw [toNat_fetch (by omega)]
    exact readBytes_varint (m p) (by rw [length_slice]; omega)
  · have hsplit : slice m (p + 1) (stop - (p + 1)) =
        slice m (p + 1) r ++ slice m (p + (r + 1)) (stop - (p + (r + 1))) := by
      rw [show stop - (p + 1) = r + (stop - (p + (r + 1))) by omega, slice_add]
      congr 2
      omega
    rw [if_neg hn, toNat_fetch (by omega), hsplit, Nat.add_sub_cancel,
      List.take_left' (length_slice _ _ _), List.drop_left' (length_slice _ _ _)]

end Read

/-! ## Both -/

variable {m m' : ℕ → UInt8} {p cap stop : ℕ} {v : UInt64}

/-- Writing fails exactly when the integer does not fit. -/
lemma putVarintMem_eq_neg_one : (putVarintMem m p cap v).1 = -1 ↔ cap < varintSize v.toNat := by
  by_cases h : cap < varintSize v.toNat
  · simp [putVarintMem_of_lt h, h]
  · rw [putVarintMem_of_le (Nat.not_lt.mp h)]
    simp [h]

/-- An integer is read where its bytes are, whatever follows. -/
lemma getVarintMem_of_slice (hv : v.toNat < 2 ^ 62) (hm : slice m p (varintSize v.toNat) = varint v.toNat)
    (hstop : p + varintSize v.toNat ≤ stop) (out : UInt64) :
    getVarintMem m p stop out = (0, p + varintSize v.toNat, v) := by
  have hlist : getVarint (slice m p (stop - p)) =
      some (v.toNat, slice m (p + varintSize v.toNat) (stop - (p + varintSize v.toNat))) := by
    rw [show stop - p = varintSize v.toNat + (stop - (p + varintSize v.toNat)) by omega, slice_add, hm]
    exact getVarint_varint hv _
  rcases getVarintMem_cases m p stop out with ⟨-, hnone⟩ | ⟨n, -, hle, w, hget, -, hsome⟩
  · rw [hnone] at hlist
    cases hlist
  · rw [hsome, Option.some.injEq, Prod.mk.injEq] at hlist
    have hlen := congrArg List.length hlist.2
    rw [length_slice, length_slice] at hlen
    obtain rfl : w = v := UInt64.toNat_inj.mp hlist.1
    obtain rfl : n = varintSize w.toNat := by omega
    exact hget

/-- Writing fails exactly when the size of the integer is more than `cap`, and otherwise writes as many bytes as its
size says, from which the integer is read again; the size is the least possible; and reading either moves nothing or
goes on by one, two, four or eight bytes. -/
theorem varint_codec (m : ℕ → UInt8) (p : ℕ) :
    (∀ cap (v : UInt64), v.toNat < 2 ^ 62 →
      ((putVarintMem m p cap v).1 = -1 ↔ cap < varintSize v.toNat) ∧
      (cap < varintSize v.toNat → (putVarintMem m p cap v).2 = m) ∧
      (varintSize v.toNat ≤ cap →
        (putVarintMem m p cap v).1 = varintSize v.toNat ∧
        slice (putVarintMem m p cap v).2 p (varintSize v.toNat) = varint v.toNat ∧
        (∀ a, a < p ∨ p + varintSize v.toNat ≤ a → (putVarintMem m p cap v).2 a = m a) ∧
        ∀ m' stop out, (∀ a, p ≤ a → a < p + varintSize v.toNat → m' a = (putVarintMem m p cap v).2 a) →
          p + varintSize v.toNat ≤ stop →
            getVarintMem m' p stop out = (0, p + varintSize v.toNat, v))) ∧
    (∀ v < 2 ^ 62, varintSize v ∈ [1, 2, 4, 8] ∧ v < 2 ^ (8 * varintSize v - 2) ∧
      ∀ n ∈ [1, 2, 4, 8], v < 2 ^ (8 * n - 2) → varintSize v ≤ n) ∧
    ∀ stop out, getVarintMem m p stop out = (-1, p, out) ∨
      ∃ n ∈ [1, 2, 4, 8], ∃ v, getVarintMem m p stop out = (0, p + n, v) ∧ p + n ≤ stop ∧ v.toNat < 2 ^ 62 := by
  refine ⟨fun cap v hv => ⟨putVarintMem_eq_neg_one, fun h => ?_, fun h => ?_⟩, fun v hv => ?_, fun stop out => ?_⟩
  · rw [putVarintMem_of_lt h]
  · rw [putVarintMem_of_le h]
    have hwritten : slice (blit m p (varint v.toNat)) p (varintSize v.toNat) = varint v.toNat := by
      rw [← length_varint]
      exact slice_blit m p _
    refine ⟨rfl, hwritten, fun a ha => blit_of_not_mem m _ (by rwa [length_varint]), ?_⟩
    intro m' stop out hm hstop
    exact getVarintMem_of_slice hv ((slice_congr hm).trans hwritten) hstop out
  · exact ⟨varintSize_mem v, lt_varintSize hv, fun n => varintSize_le_of_lt⟩
  · rcases getVarintMem_cases m p stop out with ⟨hfail, -⟩ | ⟨n, hn, hle, v, hget, hv, -⟩
    · exact .inl hfail
    · exact .inr ⟨n, hn, v, hget, hle, hv⟩

/-- The integer `15293`, written to address `3`. -/
theorem varint_codec_two_bytes :
    (putVarintMem (fun _ => 0) 3 2 15293).1 = 2 ∧
      getVarintMem (putVarintMem (fun _ => 0) 3 2 15293).2 3 9 0 = (0, 5, 15293) := by
  have h := ((varint_codec (fun _ => 0) 3).1 2 15293 (by decide)).2.2 (by decide)
  exact ⟨h.1, h.2.2.2 _ 9 0 (fun _ _ _ => rfl) (by decide)⟩

end Suspenders.Quic
