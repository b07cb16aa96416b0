import Mathlib.Tactic.Ring
import Suspenders.Wait.Channel

/-!
# The memory of a channel

`suspenders_chan_create` allocates the channel and its ring in one piece.  The size is a sum and a product of
numbers of 64 bits, which may wrap; the ring is indexed with the capacity as it was given.  So the ring lies
inside the piece if, and only if, the size has not wrapped.

The allocator is a parameter: it answers a size with an address, or not at all.  So is the size of
`suspenders_chan_t`, which depends on the platform.
-/

namespace Suspenders.Wait

/-- A channel that has just been made, and the memory it is in. -/
structure Storage where
  /-- `alloc_base` -/
  base : ℕ
  /-- `alloc_size` -/
  allocSize : ℕ
  /-- `sizeof(suspenders_chan_t)`; `buf` points behind the channel. -/
  header : ℕ
  chan : Chan

/-- `suspenders_chan_create` -/
def chanCreate (alloc : ℕ → Option ℕ) (sizeofChan elemSz bufSz : ℕ) : Except Code Storage :=
  if elemSz = 0 then .error .inval
  else
    let total := (sizeofChan + elemSz * bufSz) % 2 ^ 64
    match alloc total with
    | none => .error .nomem
    | some base => .ok ⟨base, total, sizeofChan, Chan.create elemSz bufSz⟩

namespace Storage

variable (s : Storage)

/-- Where `s_chan_buf_push` writes, counted from the beginning of the memory. -/
def pushAt (head count : ℕ) : ℕ :=
  s.header + (head + count) % 2 ^ 64 % s.chan.bufSz * s.chan.elemSz % 2 ^ 64

/-- Where `s_chan_buf_pop` reads. -/
def popAt (head : ℕ) : ℕ := s.header + head * s.chan.elemSz % 2 ^ 64

/-- The element at offset `i` lies inside the memory. -/
def Inside (i : ℕ) : Prop := i + s.chan.elemSz ≤ s.allocSize

/-- Every slot that is written or read lies inside the memory, wherever the ring begins and however full it is. -/
def Covered : Prop :=
  ∀ head count, head < s.chan.bufSz → count ≤ s.chan.bufSz → s.Inside (s.pushAt head count) ∧ s.Inside (s.popAt head)

end Storage

variable {alloc : ℕ → Option ℕ} {sizeofChan elemSz bufSz : ℕ} {s : Storage}

lemma chanCreate_ok (h : chanCreate alloc sizeofChan elemSz bufSz = .ok s) :
    0 < elemSz ∧ s.allocSize = (sizeofChan + elemSz * bufSz) % 2 ^ 64 ∧ s.header = sizeofChan ∧
      s.chan = Chan.create elemSz bufSz := by
  simp only [chanCreate] at h
  split at h
  · cases h
  · rename_i hne
    split at h
    · cases h
    · obtain rfl := Except.ok.inj h
      exact ⟨Nat.pos_of_ne_zero hne, rfl, rfl, rfl⟩

/-- A slot of a ring that has room for all of them. -/
lemma slot_inside {idx : ℕ} (hidx : idx < bufSz) (hfit : sizeofChan + elemSz * bufSz < 2 ^ 64) :
    sizeofChan + idx * elemSz % 2 ^ 64 + elemSz ≤ sizeofChan + elemSz * bufSz := by
  have hle : idx * elemSz + elemSz ≤ elemSz * bufSz := by
    calc idx * elemSz + elemSz = elemSz * (idx + 1) := by ring
      _ ≤ elemSz * bufSz := Nat.mul_le_mul_left _ hidx
  rw [Nat.mod_eq_of_lt (by omega)]
  omega

/-- A piece of memory that is smaller than the ring cuts a slot off. -/
lemma exists_slot_outside {size : ℕ} (hpos : 0 < elemSz) (hsize : size < 2 ^ 64)
    (hsmall : size < sizeofChan + elemSz * bufSz) (hring : 0 < bufSz) :
    ∃ head < bufSz, size < sizeofChan + head * elemSz % 2 ^ 64 + elemSz := by
  by_cases hheader : size < sizeofChan
  · refine ⟨0, hring, ?_⟩
    omega
  · -- the slot that the end of the memory falls into
    have hdiv := Nat.div_mul_le_self (size - sizeofChan) elemSz
    have hnext := Nat.lt_div_mul_add hpos (a := size - sizeofChan)
    refine ⟨(size - sizeofChan) / elemSz, ?_, ?_⟩
    · rw [Nat.div_lt_iff_lt_mul hpos]
      have hcomm : bufSz * elemSz = elemSz * bufSz := Nat.mul_comm _ _
      omega
    · rw [Nat.mod_eq_of_lt (by omega)]
      omega

/-- The memory of a new channel is as big as the channel and its ring if, and only if, this size fits in 64 bits.
That is also when every slot of the ring lies inside the memory. -/
theorem storage_covers_ring (hsizeof : sizeofChan < 2 ^ 64) (h : chanCreate alloc sizeofChan elemSz bufSz = .ok s) :
    ((sizeofChan + elemSz * bufSz ≤ s.allocSize ∧ s.Covered) ↔ sizeofChan + elemSz * bufSz < 2 ^ 64) ∧
    (s.Covered ↔ sizeofChan + elemSz * bufSz < 2 ^ 64) := by
  obtain ⟨hpos, hsize, hheader, hchan⟩ := chanCreate_ok h
  have hcovered : s.Covered ↔ sizeofChan + elemSz * bufSz < 2 ^ 64 := by
    simp only [Storage.Covered, Storage.Inside, Storage.pushAt, Storage.popAt, hchan, hheader, Chan.create]
    constructor
    · intro hall
      by_contra hwrap
      have hlt : s.allocSize < 2 ^ 64 := by
        rw [hsize]
        exact Nat.mod_lt _ (by decide)
      have hring : 0 < bufSz := by
        rcases Nat.eq_zero_or_pos bufSz with hz | hz
        · rw [hz, Nat.mul_zero] at hwrap
          exact absurd hsizeof hwrap
        · exact hz
      obtain ⟨head, hhead, hout⟩ := exists_slot_outside hpos hlt (lt_of_lt_of_le hlt (Nat.not_lt.mp hwrap)) hring
      exact absurd (hall head 0 hhead (Nat.zero_le _)).2 (Nat.not_le.mpr hout)
    · intro hfit head count hhead _
      rw [hsize, Nat.mod_eq_of_lt hfit]
      exact ⟨slot_inside (Nat.mod_lt _ (by omega)) hfit, slot_inside hhead hfit⟩
  refine ⟨⟨?_, ?_⟩, hcovered⟩
  · intro hall
    exact hcovered.mp hall.2
  · intro hfit
    refine ⟨?_, hcovered.mpr hfit⟩
    rw [hsize, Nat.mod_eq_of_lt hfit]

/-- A channel of eight elements of four bytes, behind a header of 128 bytes. -/
theorem storage_covers_ring_of_eight : ∃ s, chanCreate (fun _ => some 4096) 128 4 8 = .ok s ∧ s.allocSize = 160 ∧
    s.Covered := by
  have h : chanCreate (fun _ => some 4096) 128 4 8 = .ok ⟨4096, 160, 128, Chan.create 4 8⟩ := rfl
  exact ⟨_, h, rfl, ((storage_covers_ring (by decide) h).2).mpr (by decide)⟩

/-- A channel of `2 ^ 32` elements of `2 ^ 32` bytes is made in memory for the header, and its first slot lies
outside. -/
theorem storage_of_a_huge_ring : ∃ s, chanCreate (fun _ => some 4096) 128 (2 ^ 32) (2 ^ 32) = .ok s ∧
    s.allocSize < 128 + 2 ^ 32 * 2 ^ 32 ∧ ¬ s.Inside (s.pushAt 0 0) := by
  have h : chanCreate (fun _ => some 4096) 128 (2 ^ 32) (2 ^ 32) =
      .ok ⟨4096, 128, 128, Chan.create (2 ^ 32) (2 ^ 32)⟩ := rfl
  refine ⟨_, h, by decide, ?_⟩
  simp [Storage.Inside, Storage.pushAt, Chan.create]

end Suspenders.Wait
