import Mathlib.Algebra.Order.Ring.Int
import Mathlib.Data.List.TakeWhile
import Mathlib.Tactic.Common

/-!
# Conversions of `scanf`

`%d` skips blanks, takes an optional sign and then as many digits as there are, and leaves the rest.  If the
number is not an `int` the result is not defined; here it is any `int` the library likes (`wide`).
`scanInt_isSome_iff` says on which texts the conversion succeeds, `scanInt_decimal` what it yields on a text of
digits alone.

`%w[^c]` takes up to `w` characters other than `c`, at least one.
-/

namespace Suspenders.Lib.Scanf

/-- A C `int`. -/
abbrev CInt := { v : ℤ // -2 ^ 31 ≤ v ∧ v < 2 ^ 31 }

/-- `isspace`. -/
def isSpace (c : UInt8) : Bool := c == 32 || (9 ≤ c && c ≤ 13)

/-- `isdigit`. -/
def isDigit (c : UInt8) : Bool := 48 ≤ c && c ≤ 57

/-- The number that a text of digits spells. -/
def value (ds : List UInt8) : ℕ := ds.foldl (fun v c => 10 * v + (c.toNat - 48)) 0

/-- A text without its sign, and whether that was a minus. -/
def dropSign : List UInt8 → Bool × List UInt8
  | [] => (false, [])
  | c :: s => if c = 45 then (true, s) else if c = 43 then (false, s) else (false, c :: s)

/-- `%d`. -/
def scanInt (wide : ℤ → CInt) (s : List UInt8) : Option CInt :=
  let r := dropSign (s.dropWhile isSpace)
  let ds := r.2.takeWhile isDigit
  if ds = [] then none
  else
    let v : ℤ := if r.1 then -value ds else value ds
    some (if h : -2 ^ 31 ≤ v ∧ v < 2 ^ 31 then ⟨v, h⟩ else wide v)

/-- `%w[^c]`: the text taken, and the text left. -/
def scanUntil (w : ℕ) (c : UInt8) (s : List UInt8) : Option (List UInt8 × List UInt8) :=
  let t := (s.takeWhile (· != c)).take w
  if t = [] then none else some (t, s.drop t.length)

/-- A text that begins with a number, behind blanks and a sign. -/
def NumberAhead (s : List UInt8) : Prop :=
  ∃ blanks sign d tail, s = blanks ++ (sign ++ d :: tail) ∧ (∀ b ∈ blanks, isSpace b = true) ∧
    (sign = [] ∨ sign = [45] ∨ sign = [43]) ∧ isDigit d = true

/-- A text of digits alone. -/
def IsDecimal (s : List UInt8) : Prop := s ≠ [] ∧ ∀ d ∈ s, isDigit d = true

section Digit

variable {d : UInt8}

lemma isSpace_of_isDigit (hd : isDigit d = true) : isSpace d = false := by
  have hrange : 48 ≤ d.toNat ∧ d.toNat ≤ 57 := by simpa [isDigit, UInt8.le_iff_toNat_le] using hd
  simp only [isSpace, Bool.or_eq_false_iff, Bool.and_eq_false_iff, beq_eq_false_iff_ne, decide_eq_false_iff_not,
    UInt8.le_iff_toNat_le, ne_eq, ← UInt8.toNat_inj]
  exact ⟨by simp; omega, Or.inr (by simp; omega)⟩

lemma ne_sign_of_isDigit (hd : isDigit d = true) : d ≠ 45 ∧ d ≠ 43 := by
  constructor <;> rintro rfl <;> revert hd <;> decide

lemma dropSign_digit (hd : isDigit d = true) (tail : List UInt8) : dropSign (d :: tail) = (false, d :: tail) := by
  obtain ⟨hminus, hplus⟩ := ne_sign_of_isDigit hd
  rw [dropSign, if_neg hminus, if_neg hplus]

end Digit

lemma dropWhile_isSpace {blanks s : List UInt8} (hblanks : ∀ b ∈ blanks, isSpace b = true)
    (hs : ∀ c tail, s = c :: tail → isSpace c = false) : (blanks ++ s).dropWhile isSpace = s := by
  rw [List.dropWhile_append_of_pos hblanks]
  cases s with
  | nil => rfl
  | cons c tail => rw [List.dropWhile_cons_of_neg (by simp [hs c tail rfl])]

/-- `%d` succeeds on the texts that begin with a number. -/
lemma scanInt_isSome_iff {wide : ℤ → CInt} {s : List UInt8} :
    (∃ v, scanInt wide s = some v) ↔ NumberAhead s := by
  have hsome : (∃ v, scanInt wide s = some v) ↔ (dropSign (s.dropWhile isSpace)).2.takeWhile isDigit ≠ [] := by
    simp only [scanInt]
    split
    · rename_i hnil
      simp [hnil]
    · rename_i hne
      exact iff_of_true ⟨_, rfl⟩ hne
  rw [hsome]
  constructor
  · intro hne
    -- the blanks, then the three ways the text may go on
    obtain ⟨blanks, hblanks, hsplit⟩ : ∃ blanks, (∀ b ∈ blanks, isSpace b = true) ∧
        s = blanks ++ s.dropWhile isSpace :=
      ⟨_, fun b hb => List.mem_takeWhile_imp hb, List.takeWhile_append_dropWhile.symm⟩
    have hdigit : ∀ {t : List UInt8}, t.takeWhile isDigit ≠ [] → ∃ d tail, t = d :: tail ∧ isDigit d = true := by
      intro t ht
      cases t with
      | nil => exact absurd rfl ht
      | cons d tail =>
        refine ⟨d, tail, rfl, ?_⟩
        by_contra hd
        exact ht (List.takeWhile_cons_of_neg hd)
    cases hrest : s.dropWhile isSpace with
    | nil =>
      rw [hrest] at hne
      exact absurd rfl hne
    | cons c t =>
      rw [hrest] at hne hsplit
      simp only [dropSign] at hne
      split_ifs at hne with hminus hplus
      · obtain ⟨d, tail, rfl, hd⟩ := hdigit hne
        exact ⟨blanks, [45], d, tail, by rw [hsplit, hminus]; rfl, hblanks, by simp, hd⟩
      · obtain ⟨d, tail, rfl, hd⟩ := hdigit hne
        exact ⟨blanks, [43], d, tail, by rw [hsplit, hplus]; rfl, hblanks, by simp, hd⟩
      · obtain ⟨d, tail, heq, hd⟩ := hdigit (t := c :: t) hne
        exact ⟨blanks, [], d, tail, by rw [hsplit, heq]; rfl, hblanks, by simp, hd⟩
  · rintro ⟨blanks, sign, d, tail, rfl, hblanks, hsign, hd⟩
    have hfirst : ∀ c t, sign ++ d :: tail = c :: t → isSpace c = false := by
      intro c t heq
      rcases hsign with rfl | rfl | rfl
      · obtain ⟨rfl, -⟩ := List.cons.inj heq
        exact isSpace_of_isDigit hd
      · obtain ⟨rfl, -⟩ := List.cons.inj heq
        rfl
      · obtain ⟨rfl, -⟩ := List.cons.inj heq
        rfl
    have hsigned : (dropSign (sign ++ d :: tail)).2 = d :: tail := by
      rcases hsign with rfl | rfl | rfl
      · rw [List.nil_append, dropSign_digit hd]
      · rfl
      · rfl
    rw [dropWhile_isSpace hblanks hfirst, hsigned, List.takeWhile_cons_of_pos hd]
    exact List.cons_ne_nil _ _

lemma IsDecimal.numberAhead {s : List UInt8} (hs : IsDecimal s) : NumberAhead s := by
  obtain ⟨hne, hall⟩ := hs
  cases s with
  | nil => exact absurd rfl hne
  | cons d tail => exact ⟨[], [], d, tail, rfl, by simp, by simp, hall d List.mem_cons_self⟩

/-- On a text of digits alone `%d` yields the number they spell, if it is an `int`. -/
lemma scanInt_decimal {wide : ℤ → CInt} {s : List UInt8} (hs : IsDecimal s) {v : CInt}
    (hscan : scanInt wide s = some v) : if value s < 2 ^ 31 then v.1 = value s else v = wide (value s) := by
  obtain ⟨hne, hall⟩ := hs
  cases s with
  | nil => exact absurd rfl hne
  | cons d tail =>
    have hd := hall d List.mem_cons_self
    have htake : (d :: tail).takeWhile isDigit = d :: tail := List.takeWhile_eq_self_iff.mpr hall
    rw [scanInt, List.dropWhile_cons_of_neg (by simp [isSpace_of_isDigit hd]), dropSign_digit hd] at hscan
    simp only [htake, if_neg hne, Bool.false_eq_true, if_false, Option.some.injEq] at hscan
    rw [← hscan]
    split
    · rename_i hlt
      rw [dif_pos ⟨by omega, by exact_mod_cast hlt⟩]
    · rename_i hge
      rw [dif_neg]
      rintro ⟨-, hlt⟩
      exact hge (by exact_mod_cast hlt)

/-- `%w[^c]` takes the text up to the first `c`, if it is not longer than `w`, and never anything longer. -/
lemma scanUntil_cons {w : ℕ} {c : UInt8} {s t rest : List UInt8} :
    scanUntil w c s = some (t, c :: rest) ↔ s = t ++ c :: rest ∧ t ≠ [] ∧ c ∉ t ∧ t.length ≤ w := by
  simp only [scanUntil]
  constructor
  · intro h
    split at h
    · cases h
    · rename_i hne
      simp only [Option.some.injEq, Prod.mk.injEq] at h
      obtain ⟨rfl, hdrop⟩ := h
      have hstarts : (s.takeWhile (· != c)).take w <+: s := (List.take_prefix w _).trans (List.takeWhile_prefix _)
      refine ⟨?_, hne, ?_, by simp⟩
      · have htake := List.prefix_iff_eq_take.mp hstarts
        calc s = s.take _ ++ s.drop _ := (List.take_append_drop _ s).symm
          _ = _ := by rw [← htake, hdrop]
      · intro hmem
        have hc := List.mem_takeWhile_imp (List.mem_of_mem_take hmem)
        simp at hc
  · rintro ⟨rfl, hne, hnot, hlen⟩
    have htake : ((t ++ c :: rest).takeWhile (· != c)).take w = t := by
      have hno : ∀ b ∈ t, (b != c) = true := by
        intro b hb
        simp only [bne_iff_ne, ne_eq]
        rintro rfl
        exact hnot hb
      rw [List.takeWhile_append_of_pos hno]
      simp [List.take_of_length_le hlen]
    simp only [htake, if_neg hne, List.drop_left]

end Suspenders.Lib.Scanf
