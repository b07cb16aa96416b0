import Suspenders.Wait.Proto
import Suspenders.Lib.Cyclic

/-!
# The try scan of a select

A select tries its cases one after the other, from a random one on, and takes the first that can proceed.

The start is a random 32-bit word, and the index of a case is counted up from it in 32 bits before it is
reduced modulo the number of cases.  Where the count wraps, the indices begin again at `0` instead of going
on, so some cases are tried twice and others not at all, unless the number of cases divides `2 ^ 32`
(`scanOrder_perm_iff`).

From a start within the cases the scan goes once round.  A case is then taken by the starts behind the case
before it that can proceed, so that the cases have equal chances only where those that can proceed are evenly
spaced (`equal_chances_iff`).
-/

namespace Suspenders.Wait

open Lib

/-- `s_rand32`: the next value, which is also the next seed. -/
def rand32 (seed : UInt32) (now : UInt64) : UInt32 :=
  let x := if seed = 0 then (now ||| 1).toUInt32 else seed
  let x := x ^^^ (x <<< 13)
  let x := x ^^^ (x >>> 17)
  x ^^^ (x <<< 5)

/-- `suspenders_chan_op_t`, whose `val` may be `NULL`. -/
structure SelOp extends Case where
  /-- `val == NULL` -/
  null : Bool

/-- `suspenders_chan_try_send` or `suspenders_chan_try_recv` on a case. -/
def SelOp.tryOp (h : Heap) (a : Ctx) (o : SelOp) : Heap × Out :=
  if o.null then (h, .ret .inval) else exec h a o.op

/-- The try scan over the cases in the given order: the case that ended it, and its status. -/
def tryScan (a : Ctx) (ops : List SelOp) : List ℕ → Heap → Heap × Option (ℕ × Code)
  | [], h => (h, none)
  | i :: rest, h =>
    match ops[i]? with
    | none => tryScan a ops rest h
    | some o =>
      match (o.tryOp h a).2.hit with
      | some code => ((o.tryOp h a).1, some (i, code))
      | none => tryScan a ops rest (o.tryOp h a).1

/-- What a select returns behind its first scan, for the random number `r`; nothing if it goes on. -/
def selectFirst (h : Heap) (a : Ctx) (ops : List SelOp) (r : ℕ) : Option (Option ℕ × Code) :=
  match (tryScan a ops (scanOrder r ops.length) h).2 with
  | some (i, code) => some (some i, code)
  | none =>
    match a with
    | .co _ => none
    | _ => some (none, .perm)

/-! ## Which case ends a scan -/

instance (w : Waits) : DecidablePred w.Usable
  | .wq _ => inferInstanceAs (Decidable True)
  | .sel c _ => inferInstanceAs (Decidable (w.winner c = none))

/-- The list a case finds its counterparts on. -/
def Case.peers (k : Case) : ListId := if k.isSend then .receivers k.ch else .senders k.ch

/-- Whether the ring has room, or a value, for a case. -/
def Case.fits (k : Case) (x : Chan) : Bool :=
  if k.isSend then decide (x.bufSz ≠ 0 ∧ x.count < x.bufSz) else decide (x.bufSz ≠ 0 ∧ 0 < x.count)

/-- Whether a case can proceed. -/
def Case.canProceed (h : Heap) (k : Case) : Bool :=
  (h.chan k.ch).closed || k.fits (h.chan k.ch) || (h.waits.queue k.peers).any fun n => decide (h.waits.Usable n)

/-- Whether case `i` has a value and can proceed. -/
def ready (h : Heap) (ops : List SelOp) (i : ℕ) : Bool :=
  match ops[i]? with
  | some o => !o.null && o.canProceed h
  | none => false

lemma ready_lt {h : Heap} {ops : List SelOp} {i : ℕ} (hi : ready h ops i = true) : i < ops.length := by
  by_contra hge
  rw [ready, List.getElem?_eq_none (by omega)] at hi
  cases hi

section Scan

variable {h : Heap} {a : Ctx}

/-- A try completes a case that can proceed; otherwise it only throws nodes of decided selects away. -/
lemma tryOp_cases (hw : h.waits.WF) (k : Case) :
    (k.canProceed h = true ∧ ∃ code, (exec h a k.op).2.hit = some code ∧ (code = .ok ∨ code = .closed)) ∨
    (k.canProceed h = false ∧ (exec h a k.op).2.hit = none ∧
      ∃ w', (exec h a k.op).1 = { h with waits := w' } ∧ h.waits.Emptied k.peers w') := by
  have husable : ∀ {l : ListId} {n : NodeRef} {w' : Waits}, h.waits.Took .ok l n w' →
      (h.waits.queue l).any (fun n => decide (h.waits.Usable n)) = true := by
    intro l n w' htook
    exact List.any_eq_true.mpr ⟨n, htook.mem, by simpa using htook.usable⟩
  have hnone : ∀ {l : ListId} {w' : Waits}, h.waits.Emptied l w' →
      (h.waits.queue l).any (fun n => decide (h.waits.Usable n)) = false := by
    intro l w' hempty
    exact List.any_eq_false.mpr fun n hn => by simpa using hempty.unusable n hn
  unfold Case.canProceed Case.op Case.peers Case.fits
  cases hsend : k.isSend with
  | true =>
    simp only [if_true]
    obtain ⟨hcl, heq⟩ | ⟨-, rx, w', heq, htook, -⟩ | ⟨hcl, hroom, w', heq, hempty⟩ | ⟨hcl, hfull, w', heq, hempty⟩ :=
      exec_send_cases hw a k.ch k.val true
    · exact Or.inl ⟨by simp [hcl], .closed, by rw [heq]; rfl, Or.inr rfl⟩
    · exact Or.inl ⟨by simp [husable htook], .ok, by rw [heq]; rfl, Or.inl rfl⟩
    · refine Or.inl ⟨?_, .ok, by rw [heq]; rfl, Or.inl rfl⟩
      have hpos : (h.chan k.ch).bufSz ≠ 0 := by omega
      simp [hroom, hpos]
    · right
      have hno : ¬((h.chan k.ch).bufSz ≠ 0 ∧ (h.chan k.ch).count < (h.chan k.ch).bufSz) := by omega
      refine ⟨?_, ?_, w', by rw [heq], hempty⟩
      · rw [hcl, hnone hempty, decide_eq_false hno]
        rfl
      · rw [heq]
        split <;> rfl
  | false =>
    simp only [Bool.false_eq_true, if_false]
    obtain ⟨hbuf, hcount, tx, w', heq, -⟩ | ⟨hbuf, hcount, w', heq, -⟩ | ⟨-, tx, w', heq, htook⟩ |
      ⟨-, hcl, w', heq, -⟩ | ⟨hno, hcl, w', heq, hempty⟩ := exec_recv_cases hw a k.ch true
    · exact Or.inl ⟨by simp [hbuf, hcount], .ok, by rw [heq]; rfl, Or.inl rfl⟩
    · exact Or.inl ⟨by simp [hbuf, hcount], .ok, by rw [heq]; rfl, Or.inl rfl⟩
    · exact Or.inl ⟨by simp [husable htook], .ok, by rw [heq]; rfl, Or.inl rfl⟩
    · exact Or.inl ⟨by simp [hcl], .closed, by rw [heq]; rfl, Or.inr rfl⟩
    · right
      have hno' : ¬((h.chan k.ch).bufSz ≠ 0 ∧ 0 < (h.chan k.ch).count) := by omega
      refine ⟨?_, ?_, w', by rw [heq], hempty⟩
      · rw [hcl, hnone hempty, decide_eq_false hno']
        rfl
      · rw [heq]
        split <;> rfl

/-- Nodes of decided selects make no case proceed, so a case does not mind their going. -/
lemma Case.canProceed_emptied {l : ListId} {w' : Waits} (hempty : h.waits.Emptied l w') (k : Case) :
    k.canProceed { h with waits := w' } = k.canProceed h := by
  have hsame : ∀ n, w'.Usable n ↔ h.waits.Usable n := by
    intro n
    cases n with
    | wq c => exact Iff.rfl
    | sel c i =>
      show w'.winner c = none ↔ h.waits.winner c = none
      rw [hempty.winner]
  have hany : (w'.queue k.peers).any (fun n => decide (w'.Usable n)) =
      (h.waits.queue k.peers).any fun n => decide (h.waits.Usable n) := by
    simp only [hsame]
    by_cases hl : k.peers = l
    · rw [hl, hempty.nil]
      exact (List.any_eq_false.mpr fun n hn => by simpa using hempty.unusable n hn).symm
    · rw [hempty.queue _ hl]
  simp only [Case.canProceed, hany]

lemma ready_emptied {l : ListId} {w' : Waits} (hempty : h.waits.Emptied l w') (ops : List SelOp) :
    ready { h with waits := w' } ops = ready h ops := by
  funext i
  unfold ready
  split
  · rw [Case.canProceed_emptied hempty]
  · rfl

/-- A scan ends at the first case in its order that is ready when it begins. -/
lemma tryScan_find? (hw : h.waits.WF) (ops : List SelOp) (order : List ℕ) :
    (tryScan a ops order h).2.map Prod.fst = order.find? (ready h ops) := by
  induction order generalizing h with
  | nil => rfl
  | cons i rest ih =>
    rw [List.find?_cons, tryScan]
    cases hi : ops[i]? with
    | none =>
      have hno : ready h ops i = false := by rw [ready, hi]
      simp only [hno]
      exact ih hw
    | some o =>
      cases hnull : o.null with
      | true =>
        have hno : ready h ops i = false := by simp [ready, hi, hnull]
        have htry : o.tryOp h a = (h, .ret .inval) := by simp [SelOp.tryOp, hnull]
        simp only [hno, htry]
        exact ih hw
      | false =>
        have htry : o.tryOp h a = exec h a o.op := by simp [SelOp.tryOp, hnull]
        rcases tryOp_cases (a := a) hw o.toCase with ⟨hcan, code, hhit, -⟩ | ⟨hcan, hhit, w', hheap, hempty⟩
        · have hyes : ready h ops i = true := by simp [ready, hi, hnull, hcan]
          simp only [htry, hhit, hyes, Option.map_some]
        · have hno : ready h ops i = false := by simp [ready, hi, hcan]
          simp only [htry, hhit, hno, hheap]
          rw [← ready_emptied hempty]
          exact @ih { h with waits := w' } (hempty.granted .ok).wf

end Scan

/-! ## The order of the indices -/

lemma scanOrder_of_le {r n : ℕ} (h : r + n ≤ 2 ^ 32) : scanOrder r n = Cyclic.round n r := by
  refine List.map_congr_left ?_
  intro i hi
  have hlt : r + i < 2 ^ 32 := by
    have hi := List.mem_range.mp hi
    omega
  rw [Nat.mod_eq_of_lt hlt]

lemma scanOrder_of_dvd {n : ℕ} (r : ℕ) (h : n ∣ 2 ^ 32) : scanOrder r n = Cyclic.round n r :=
  List.map_congr_left fun _ _ => Nat.mod_mod_of_dvd _ h

/-- Where the count wraps an index comes twice, unless the number of cases divides `2 ^ 32`. -/
lemma scanOrder_not_nodup {r n : ℕ} (hr : r < 2 ^ 32) (hle : n ≤ 2 ^ 32) (hwrap : 2 ^ 32 < r + n)
    (hdvd : ¬ n ∣ 2 ^ 32) : ¬ (scanOrder r n).Nodup := by
  intro hnodup
  have hinj : ∀ i < n, ∀ j < n, (r + i) % 2 ^ 32 % n = (r + j) % 2 ^ 32 % n → i = j := by
    intro i hi j hj heq
    exact List.inj_on_of_nodup_map hnodup (List.mem_range.mpr hi) (List.mem_range.mpr hj) heq
  revert hr hle hwrap hdvd hinj
  generalize 2 ^ 32 = N
  intro hr hle hwrap hdvd hinj
  have hm : 0 < N % n := Nat.pos_of_ne_zero fun h0 => hdvd (Nat.dvd_of_mod_eq_zero h0)
  have hmn : N % n < n := Nat.mod_lt _ (by omega)
  have hN := Nat.div_add_mod N n
  have hbefore : ∀ i j, r + i < N → r + i = n * (N / n) + j → j < n → (r + i) % N % n = j := by
    intro i j hlt heq hj
    rw [Nat.mod_eq_of_lt hlt, heq, Nat.mul_add_mod, Nat.mod_eq_of_lt hj]
  have hbehind : ∀ i j, r + i = j + N → j < n → (r + i) % N % n = j := by
    intro i j heq hj
    rw [heq, Nat.add_mod_right, Nat.mod_eq_of_lt (lt_of_lt_of_le hj hle), Nat.mod_eq_of_lt hj]
  by_cases hfirst : N % n ≤ n - (N - r)
  · -- the last index before the wrap comes again behind it
    have heq := hinj (N - r - 1) (by omega) (N - r + (N % n - 1)) (by omega) (by
      rw [hbefore _ (N % n - 1) (by omega) (by omega) (by omega), hbehind _ (N % n - 1) (by omega) (by omega)])
    omega
  · -- the last index of all has come before the wrap
    have heq := hinj (n - N % n - 1) (by omega) (n - 1) (by omega) (by
      rw [hbefore _ (n - (N - r) - 1) (by omega) (by omega) (by omega),
        hbehind _ (n - (N - r) - 1) (by omega) (by omega)])
    omega

/-- The indices of a scan are those of all cases unless the count wraps. -/
lemma scanOrder_perm_iff {r n : ℕ} (hr : r < 2 ^ 32) (hn : 0 < n) (hle : n ≤ 2 ^ 32) :
    (scanOrder r n).Perm (List.range n) ↔ r + n ≤ 2 ^ 32 ∨ n ∣ 2 ^ 32 := by
  constructor
  · intro hperm
    by_contra hnot
    have hnodup := hperm.nodup_iff.mpr List.nodup_range
    exact scanOrder_not_nodup hr hle (by omega) (fun hdvd => hnot (Or.inr hdvd)) hnodup
  · rintro (hfit | hdvd)
    · rw [scanOrder_of_le hfit]
      exact Cyclic.round_perm hn r
    · rw [scanOrder_of_dvd r hdvd]
      exact Cyclic.round_perm hn r

/-- A scan from `r` over `n` cases tries them all. -/
structure TriesAll (r n : ℕ) : Prop where
  /-- Its indices are those of all cases. -/
  perm : (scanOrder r n).Perm (List.range n)
  /-- If a case is ready then the select returns with a ready case. -/
  completes : ∀ (h : Heap) (a : Ctx) (ops : List SelOp), h.waits.WF → ops.length = n →
    (∃ i, ready h ops i = true) →
    ∃ i code, selectFirst h a ops r = some (some i, code) ∧ ready h ops i = true
  /-- Outside a coroutine it returns `PERM` only if no case is ready. -/
  permOnly : ∀ (h : Heap) (a : Ctx) (ops : List SelOp), h.waits.WF → ops.length = n →
    (∀ c, a ≠ .co c) → selectFirst h a ops r = some (none, .perm) → ∀ i, ready h ops i = false

lemma selectFirst_of_find? {h : Heap} {a : Ctx} {ops : List SelOp} {r i : ℕ} (hw : h.waits.WF)
    (hfind : (scanOrder r ops.length).find? (ready h ops) = some i) :
    ∃ code, selectFirst h a ops r = some (some i, code) := by
  rw [← tryScan_find? (a := a) hw] at hfind
  obtain ⟨⟨j, code⟩, hscan, rfl⟩ := Option.map_eq_some_iff.mp hfind
  exact ⟨code, by simp only [selectFirst, hscan]⟩

/-- A scan tries every case if, and only if, the count does not wrap or the number of cases divides `2 ^ 32`. -/
theorem scan_tries_every_case (seed : UInt32) (now : UInt64) {n : ℕ} (hn : 0 < n) (hle : n ≤ 64) :
    TriesAll (rand32 seed now).toNat n ↔ (rand32 seed now).toNat + n ≤ 2 ^ 32 ∨ n ∣ 2 ^ 32 := by
  have hiff := scanOrder_perm_iff (rand32 seed now).toNat_lt hn (by omega)
  constructor
  · intro hall
    exact hiff.mp hall.perm
  · intro hcond
    have hperm := hiff.mpr hcond
    have hcompletes : ∀ (h : Heap) (a : Ctx) (ops : List SelOp), h.waits.WF → ops.length = n →
        (∃ i, ready h ops i = true) →
        ∃ i code, selectFirst h a ops (rand32 seed now).toNat = some (some i, code) ∧ ready h ops i = true := by
      rintro h a ops hw hlen ⟨i, hi⟩
      have hmem : i ∈ scanOrder (rand32 seed now).toNat ops.length := by
        rw [hlen, hperm.mem_iff, List.mem_range, ← hlen]
        exact ready_lt hi
      obtain ⟨j, hj⟩ := Option.isSome_iff_exists.mp (List.find?_isSome.mpr ⟨i, hmem, hi⟩)
      obtain ⟨code, hsel⟩ := selectFirst_of_find? (a := a) hw hj
      exact ⟨j, code, hsel, List.find?_some hj⟩
    refine ⟨hperm, hcompletes, ?_⟩
    intro h a ops hw hlen _ hperm i
    by_contra hi
    obtain ⟨j, code, hsel, -⟩ := hcompletes h a ops hw hlen ⟨i, by simpa using hi⟩
    rw [hsel] at hperm
    cases hperm

/-- The first value behind the seed `1` does not make the count wrap. -/
theorem scan_tries_every_case_of_three : TriesAll (rand32 1 0).toNat 3 :=
  (scan_tries_every_case 1 0 (by decide) (by decide)).mpr (Or.inl (by decide))

/-- Channels without values, of which those that `p` picks are closed. -/
def closedWhere (p : ℕ → Bool) : Heap :=
  { Heap.init fun _ => (4, 1) with chan := fun ch => { Chan.create 4 1 with closed := p ch } }

/-- Receiving from one of the first `n` channels. -/
def recvAny (n : ℕ) : List SelOp := (List.range n).map fun ch => ⟨⟨ch, false, []⟩, false⟩

/-- From the last 32-bit word on a scan of three cases does not try the third one, and outside a coroutine the
select returns `PERM` although that case is ready. -/
theorem scan_at_the_wrap : scanOrder (rand32 1584200935 0).toNat 3 = [0, 0, 1] ∧
    ready (closedWhere (· = 2)) (recvAny 3) 2 = true ∧
    selectFirst (closedWhere (· = 2)) (.ext 0) (recvAny 3) (rand32 1584200935 0).toNat = some (none, .perm) ∧
    ¬ TriesAll (rand32 1584200935 0).toNat 3 := by
  have horder : scanOrder (rand32 1584200935 0).toNat 3 = [0, 0, 1] := by decide
  refine ⟨horder, rfl, ?_, ?_⟩
  · simp only [selectFirst, recvAny, List.length_map, List.length_range, horder]
    rfl
  · intro hall
    have hperm := hall.perm
    rw [horder] at hperm
    exact absurd hperm (by decide)

/-! ## The chances of the cases -/

/-- From how many of the starts `0`, …, `n - 1` the try scan takes case `x`. -/
def chances (h : Heap) (a : Ctx) (ops : List SelOp) (x : ℕ) : ℕ :=
  ((Finset.range ops.length).filter fun s =>
    (tryScan a ops (scanOrder s ops.length) h).2.map Prod.fst = some x).card

lemma chances_eq {h : Heap} {a : Ctx} {ops : List SelOp} (hw : h.waits.WF) (hlen : ops.length ≤ 64) (x : ℕ) :
    chances h a ops x = Cyclic.share ops.length (ready h ops) x := by
  unfold chances Cyclic.share
  congr 1
  refine Finset.filter_congr ?_
  intro s hs
  rw [Finset.mem_range] at hs
  rw [tryScan_find? hw, scanOrder_of_le (by omega)]

/-- The ready cases have equal chances if, and only if, they are evenly spaced: they are the cases with one
remainder modulo a divisor of the number of cases. -/
theorem equal_chances_iff {h : Heap} (a : Ctx) {ops : List SelOp} (hw : h.waits.WF) (hlen : ops.length ≤ 64)
    (hex : ∃ i, ready h ops i = true) :
    (∀ x, ready h ops x = true → ∀ y, ready h ops y = true → chances h a ops x = chances h a ops y) ↔
    ∃ d, 0 < d ∧ d ∣ ops.length ∧ ∃ b, ∀ x < ops.length, ready h ops x = true ↔ x % d = b % d := by
  simp only [chances_eq hw hlen]
  obtain ⟨i, hi⟩ := hex
  rw [← Cyclic.equal_shares_iff ⟨i, ready_lt hi, hi⟩]
  constructor
  · intro heq x _ hx y _ hy
    exact heq x hx y hy
  · intro heq x hx y hy
    exact heq x (ready_lt hx) hx y (ready_lt hy) hy

/-- Of four cases every other one is ready: these two have equal chances. -/
theorem equal_chances_of_two : chances (closedWhere (· % 2 = 1)) (.co 0) (recvAny 4) 1 =
    chances (closedWhere (· % 2 = 1)) (.co 0) (recvAny 4) 3 :=
  (equal_chances_iff (h := closedWhere (· % 2 = 1)) (.co 0) Waits.wf_init (by decide)
    ⟨1, rfl⟩).mpr ⟨2, by decide, by decide, 1, by decide⟩ 1 rfl 3 rfl

/-- Of three cases the first two are ready: the first one is taken twice as often as the second. -/
theorem chances_of_two_neighbours : ready (closedWhere (· < 2)) (recvAny 3) 0 = true ∧
    ready (closedWhere (· < 2)) (recvAny 3) 1 = true ∧
    chances (closedWhere (· < 2)) (.co 0) (recvAny 3) 0 = 2 ∧
    chances (closedWhere (· < 2)) (.co 0) (recvAny 3) 1 = 1 := by
  refine ⟨rfl, rfl, ?_, ?_⟩
  · rw [chances_eq Waits.wf_init (by decide)]
    decide
  · rw [chances_eq Waits.wf_init (by decide)]
    decide

end Suspenders.Wait
