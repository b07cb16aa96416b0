import Mathlib.Data.Finset.Card
import Mathlib.Data.Nat.Find
import Mathlib.Data.Nat.ModEq
import Mathlib.Tactic.Common

/-!
# Searching a circle

The places of a circle are the numbers below `n`.  A search begins at some place, goes round, and ends at the
first marked one.  Each marked place ends the searches that begin behind the marked place before it, so that its
share is its distance from that place (`share_eq`).

So the shares are equal if, and only if, the marked places are equally far apart, that is, if they are the
places with one remainder modulo a divisor of `n` (`equal_shares_iff`).
-/

namespace Suspenders.Lib.Cyclic

variable {n s x y k : ℕ} {p : ℕ → Bool}

/-- How far it is from place `s` to place `x`. -/
def ahead (n s x : ℕ) : ℕ := if s ≤ x then x - s else x + n - s

/-- The places of the circle, from place `s` on. -/
def round (n s : ℕ) : List ℕ := (List.range n).map fun i => (s + i) % n

/-- How many searches end at place `x`. -/
def share (n : ℕ) (p : ℕ → Bool) (x : ℕ) : ℕ := ((Finset.range n).filter fun s => (round n s).find? p = some x).card

lemma ahead_lt (hs : s < n) (hx : x < n) : ahead n s x < n := by
  unfold ahead
  split <;> omega

lemma add_ahead (hs : s < n) (hx : x < n) : (s + ahead n s x) % n = x := by
  unfold ahead
  split
  · rw [Nat.mod_eq_of_lt (by omega)]
    omega
  · rw [show s + (x + n - s) = x + n by omega, Nat.add_mod_right, Nat.mod_eq_of_lt hx]

lemma ahead_add {i : ℕ} (hs : s < n) (hi : i < n) : ahead n s ((s + i) % n) = i := by
  by_cases h : s + i < n
  · rw [Nat.mod_eq_of_lt h, ahead, if_pos (by omega)]
    omega
  · rw [Nat.mod_eq_sub_mod (by omega), Nat.mod_eq_of_lt (by omega), ahead, if_neg (by omega)]
    omega

/-- A round meets each place once. -/
lemma round_perm (hn : 0 < n) (s : ℕ) : (round n s).Perm (List.range n) := by
  have hnodup : (round n s).Nodup := by
    refine List.Nodup.map_on ?_ List.nodup_range
    intro i hi j hj heq
    have hmod : i ≡ j [MOD n] := Nat.ModEq.add_left_cancel' s heq
    exact hmod.eq_of_lt_of_lt (List.mem_range.mp hi) (List.mem_range.mp hj)
  have hsub : round n s ⊆ List.range n := by
    intro x hx
    obtain ⟨i, -, rfl⟩ := List.mem_map.mp hx
    exact List.mem_range.mpr (Nat.mod_lt _ hn)
  exact (List.subperm_of_subset hnodup hsub).perm_of_length_le (by simp [round])

/-- A search ends at the nearest marked place. -/
lemma find?_round (hs : s < n) : (round n s).find? p = some x ↔
    x < n ∧ p x = true ∧ ∀ y < n, p y = true → ahead n s x ≤ ahead n s y := by
  unfold round
  rw [List.find?_eq_some_iff_getElem]
  constructor
  · rintro ⟨hp, i, hi, hget, hbefore⟩
    simp only [List.length_map, List.length_range] at hi
    simp only [List.getElem_map, List.getElem_range] at hget hbefore
    subst hget
    refine ⟨Nat.mod_lt _ (by omega), hp, ?_⟩
    intro y hy hpy
    rw [ahead_add hs hi]
    by_contra hlt
    have hno := hbefore (ahead n s y) (by omega)
    rw [add_ahead hs hy, hpy] at hno
    cases hno
  · rintro ⟨hx, hp, hnear⟩
    refine ⟨hp, ahead n s x, by simpa using ahead_lt hs hx, by simpa using add_ahead hs hx, ?_⟩
    intro j hj
    have hjn : j < n := hj.trans (ahead_lt hs hx)
    simp only [List.getElem_map, List.getElem_range]
    by_contra hyes
    have hle := hnear ((s + j) % n) (Nat.mod_lt _ (by omega)) (by simpa using hyes)
    rw [ahead_add hs hjn] at hle
    omega

/-- The marked place before `x` is `k` places behind it; it is `x` itself if there is no other. -/
structure Gap (n : ℕ) (p : ℕ → Bool) (x k : ℕ) : Prop where
  pos : 0 < k
  le : k ≤ n
  before : k < n → ∃ y < n, p y = true ∧ ahead n y x = k
  free : ∀ y < n, p y = true → y ≠ x → k ≤ ahead n y x

/-- The searches that end at a place are those that begin in the gap behind the marked place before it. -/
lemma share_eq (hx : x < n) (hp : p x = true) (h : Gap n p x k) : share n p x = k := by
  have hends : ∀ s < n, ((round n s).find? p = some x ↔ ahead n s x < k) := by
    intro s hs
    rw [find?_round hs]
    constructor
    · rintro ⟨-, -, hnear⟩
      by_contra hge
      have hk : k < n := by
        have := ahead_lt hs hx
        omega
      obtain ⟨y, hy, hpy, hyx⟩ := h.before hk
      have hle := hnear y hy hpy
      have hpos := h.pos
      unfold ahead at *
      split_ifs at * <;> omega
    · intro hlt
      refine ⟨hx, hp, ?_⟩
      intro y hy hpy
      by_cases hyx : y = x
      · rw [hyx]
      · have hfree := h.free y hy hpy hyx
        unfold ahead at *
        split_ifs at * <;> omega
  have hcard : share n p x = (Finset.range k).card := by
    refine Finset.card_bij (fun s _ => ahead n s x) ?_ ?_ ?_
    · intro s hs
      obtain ⟨hs, hf⟩ := Finset.mem_filter.mp hs
      exact Finset.mem_range.mpr ((hends s (Finset.mem_range.mp hs)).mp hf)
    · intro s hs s' hs' heq
      have hs := Finset.mem_range.mp (Finset.mem_filter.mp hs).1
      have hs' := Finset.mem_range.mp (Finset.mem_filter.mp hs').1
      unfold ahead at heq
      split_ifs at heq <;> omega
    · intro j hj
      have hj := Finset.mem_range.mp hj
      have hle := h.le
      refine ⟨if j ≤ x then x - j else x + n - j, ?_, ?_⟩
      · have hlt : (if j ≤ x then x - j else x + n - j) < n := by split <;> omega
        refine Finset.mem_filter.mpr ⟨Finset.mem_range.mpr hlt, (hends _ hlt).mpr ?_⟩
        unfold ahead
        split_ifs <;> omega
      · unfold ahead
        split_ifs <;> omega
  rw [hcard, Finset.card_range]

lemma exists_gap (hx : x < n) : ∃ k, Gap n p x k := by
  classical
  have hex : ∃ k, 0 < k ∧ (k = n ∨ ∃ y < n, p y = true ∧ ahead n y x = k) := ⟨n, by omega, Or.inl rfl⟩
  obtain ⟨hpos, hk⟩ := Nat.find_spec hex
  refine ⟨Nat.find hex, hpos, Nat.find_le ⟨by omega, Or.inl rfl⟩, ?_, ?_⟩
  · intro hlt
    rcases hk with hk | hk
    · omega
    · exact hk
  · intro y hy hp hyx
    refine Nat.find_le ⟨?_, Or.inr ⟨y, hy, hp, rfl⟩⟩
    unfold ahead
    split <;> omega

/-- From a marked place one comes, a gap back, to a marked place; the circle is unrolled here. -/
lemma Gap.back {i d : ℕ} (h : Gap n p (i % n) d) (hp : p (i % n) = true) (hd : d ≤ i) : p ((i - d) % n) = true := by
  by_cases hdn : d = n
  · rw [hdn, ← Nat.mod_eq_sub_mod (by omega)]
    exact hp
  · have hle := h.le
    obtain ⟨y, hy, hpy, hyd⟩ := h.before (by omega)
    have hback : (i - d) % n = y := by
      have hsum : (y + d) % n = i % n := by
        rw [← hyd]
        exact add_ahead hy (Nat.mod_lt _ (by omega))
      have hcancel : y ≡ i - d [MOD n] := Nat.ModEq.add_right_cancel' d (by
        rw [Nat.sub_add_cancel hd]
        exact hsum)
      rw [← hcancel, Nat.mod_eq_of_lt hy]
    rw [hback]
    exact hpy

lemma Gap.between {i d j : ℕ} (h : Gap n p (i % n) d) (hj : 0 < j) (hjd : j < d) (hji : j ≤ i) :
    p ((i - j) % n) = false := by
  have hle := h.le
  have hpos := h.pos
  have hy : (i - j) % n < n := Nat.mod_lt _ (by omega)
  have hahead : ahead n ((i - j) % n) (i % n) = j := by
    have hsum : ((i - j) % n + j) % n = i % n := by
      rw [Nat.mod_add_mod, Nat.sub_add_cancel hji]
    rw [← hsum]
    exact ahead_add hy (by omega)
  by_contra hyes
  have hne : (i - j) % n ≠ i % n := by
    intro heq
    rw [heq, ahead, if_pos le_rfl] at hahead
    omega
  have hfree := h.free _ hy (by simpa using hyes) hne
  omega

/-- If all gaps are `d` then the marked places are those with one remainder modulo `d`. -/
lemma class_of_gaps {a d : ℕ} (ha : a < n) (hpa : p a = true) (h : ∀ x < n, p x = true → Gap n p x d) :
    d ∣ n ∧ ∀ x < n, p x = true ↔ x % d = a % d := by
  have hpos := (h a ha hpa).pos
  have hgap : ∀ i, p (i % n) = true → Gap n p (i % n) d := fun i => h _ (Nat.mod_lt _ (by omega))
  have hwalk : ∀ t, d * t ≤ a + n → p ((a + n - d * t) % n) = true := by
    intro t
    induction t with
    | zero =>
      intro _
      simpa [Nat.mod_eq_of_lt ha] using hpa
    | succ t ih =>
      intro hle
      rw [Nat.mul_succ] at hle
      have hp := ih (by omega)
      rw [Nat.mul_succ, ← Nat.sub_sub]
      exact (hgap _ hp).back hp (by omega)
  have hdvd : ∀ x < n, p x = true ↔ d ∣ a + n - x := by
    intro x hx
    have hdiv := Nat.div_add_mod (a + n - x) d
    have hmod := Nat.mod_lt (a + n - x) hpos
    constructor
    · intro hp
      by_contra hnot
      have hrem : 0 < (a + n - x) % d := Nat.pos_of_ne_zero fun h0 => hnot (Nat.dvd_of_mod_eq_zero h0)
      have hq := hwalk ((a + n - x) / d) (by omega)
      have hbetween := (hgap _ hq).between hrem hmod (by omega)
      rw [show a + n - d * ((a + n - x) / d) - (a + n - x) % d = x by omega, Nat.mod_eq_of_lt hx, hp] at hbetween
      cases hbetween
    · intro hd
      have hq := hwalk ((a + n - x) / d) (by omega)
      rw [Nat.mul_div_cancel' hd, Nat.sub_sub_self (by omega), Nat.mod_eq_of_lt hx] at hq
      exact hq
  have hn : d ∣ n := by
    have hself := (hdvd a ha).mp hpa
    rwa [Nat.add_sub_cancel_left] at hself
  refine ⟨hn, ?_⟩
  intro x hx
  rw [hdvd x hx, ← Nat.modEq_iff_dvd' (by omega)]
  have hturn : a + n ≡ a [MOD d] := (Nat.modEq_iff_dvd' (Nat.le_add_right a n)).mpr (by simpa using hn) |>.symm
  exact ⟨fun h => h.trans hturn, fun h => Nat.ModEq.trans h hturn.symm⟩

lemma gap_of_class {a d : ℕ} (hd : 0 < d) (hdn : d ∣ n) (h : ∀ x < n, p x = true ↔ x % d = a % d) (hx : x < n)
    (hp : p x = true) : Gap n p x d := by
  have hle : d ≤ n := Nat.le_of_dvd (by omega) hdn
  have hcls := (h x hx).mp hp
  obtain ⟨c, hc⟩ := hdn
  refine ⟨hd, hle, ?_, ?_⟩
  · intro hlt
    refine ⟨if d ≤ x then x - d else x + n - d, by split <;> omega, (h _ (by split <;> omega)).mpr ?_, ?_⟩
    · rw [← hcls]
      split
      · rw [← Nat.mod_eq_sub_mod (by omega)]
      · rw [← Nat.mod_eq_sub_mod (by omega), hc, Nat.add_mul_mod_self_left]
    · unfold ahead
      split_ifs <;> omega
  · intro y hy hpy hyx
    have hsame : y ≡ x [MOD d] := ((h y hy).mp hpy).trans hcls.symm
    have hdvd : d ∣ ahead n y x := by
      unfold ahead
      split
      · exact (Nat.modEq_iff_dvd' (by omega)).mp hsame
      · refine (Nat.modEq_iff_dvd' (by omega)).mp (hsame.trans ?_)
        rw [hc]
        exact (Nat.add_mul_mod_self_left x d c).symm
    refine Nat.le_of_dvd ?_ hdvd
    unfold ahead
    split <;> omega

/-- The shares are equal just for the residue classes modulo a divisor of `n`. -/
theorem equal_shares_iff (hex : ∃ x < n, p x = true) :
    (∀ x < n, p x = true → ∀ y < n, p y = true → share n p x = share n p y) ↔
    ∃ d, 0 < d ∧ d ∣ n ∧ ∃ a, ∀ x < n, p x = true ↔ x % d = a % d := by
  constructor
  · intro heq
    obtain ⟨a, ha, hpa⟩ := hex
    obtain ⟨d, hd⟩ := exists_gap (p := p) ha
    have hgaps : ∀ x < n, p x = true → Gap n p x d := by
      intro x hx hp
      obtain ⟨k, hk⟩ := exists_gap (p := p) hx
      have hkd : k = d := by
        rw [← share_eq hx hp hk, ← share_eq ha hpa hd]
        exact heq x hx hp a ha hpa
      rw [← hkd]
      exact hk
    obtain ⟨hdn, hcls⟩ := class_of_gaps ha hpa hgaps
    exact ⟨d, hd.pos, hdn, a, hcls⟩
  · rintro ⟨d, hd, hdn, a, hcls⟩ x hx hpx y hy hpy
    rw [share_eq hx hpx (gap_of_class hd hdn hcls hx hpx), share_eq hy hpy (gap_of_class hd hdn hcls hy hpy)]

end Suspenders.Lib.Cyclic
