import Mathlib.Data.List.Basic
import Mathlib.Data.Nat.Notation
import Mathlib.Order.Basic

/-!
# Messages in a stream

In a stream of messages, each message says at its beginning how long it is.  A `Framing` is the function that finds
this length out, as soon as enough of the message is there.  A stream splits into the messages that are `complete` and
a `rest`; `complete_append` says that a stream may just as well be split piece by piece, if the rest is kept.
-/

namespace Suspenders.Lib

variable {α : Type*}

/-- How the length of the message in front of a stream is found. -/
structure Framing (α : Type*) where
  /-- The length, once it is known. -/
  size : List α → Option ℕ
  /-- A message is not empty. -/
  pos : ∀ s n, size s = some n → 0 < n
  /-- More of the stream does not change the length. -/
  stable : ∀ s t n, size s = some n → size (s ++ t) = some n
  /-- A message knows its own length. -/
  own : ∀ s n, size s = some n → n ≤ s.length → size (s.take n) = some n

namespace Framing

variable (F : Framing α)

/-- The length of the message in front of a stream, if all of it is there. -/
def front (s : List α) : Option ℕ := (F.size s).filter fun n => decide (n ≤ s.length)

lemma front_eq_some {s : List α} {n : ℕ} : F.front s = some n ↔ F.size s = some n ∧ n ≤ s.length := by
  simp [front, Option.filter_eq_some_iff]

/-- The messages of a stream, at most `k` of them, and what is behind them. -/
def split : ℕ → List α → List (List α) × List α
  | 0, s => ([], s)
  | k + 1, s =>
    match F.front s with
    | some n => (s.take n :: (split k (s.drop n)).1, (split k (s.drop n)).2)
    | none => ([], s)

/-- The messages of a stream. -/
def complete (s : List α) : List (List α) := (F.split s.length s).1

/-- What is behind the messages of a stream. -/
def rest (s : List α) : List α := (F.split s.length s).2

variable {F}

lemma length_drop_lt {s : List α} {n : ℕ} (h : F.front s = some n) : (s.drop n).length < s.length := by
  obtain ⟨hsize, hle⟩ := F.front_eq_some.1 h
  have hpos := F.pos s n hsize
  rw [List.length_drop]
  omega

/-- A message is not empty, so that there are at most as many messages as elements. -/
lemma split_eq {k : ℕ} {s : List α} (h : s.length ≤ k) : F.split k s = F.split s.length s := by
  induction k using Nat.strongRecOn generalizing s with
  | _ k ih =>
    obtain rfl | hlt := Nat.eq_or_lt_of_le h
    · rfl
    cases hs : s.length with
    | zero =>
      have hnil : s = [] := List.length_eq_zero_iff.1 hs
      have hfront : F.front [] = none := by
        rw [Option.eq_none_iff_forall_ne_some]
        intro n hn
        exact absurd (length_drop_lt hn) (by simp)
      subst hnil
      cases k with
      | zero => rfl
      | succ k => simp [split, hfront]
    | succ m =>
      obtain ⟨k, rfl⟩ : ∃ j, k = j + 1 := ⟨k - 1, by omega⟩
      simp only [split]
      cases hfront : F.front s with
      | none => rfl
      | some n =>
        have hdrop := length_drop_lt hfront
        have hsame : F.split k (s.drop n) = F.split m (s.drop n) :=
          (ih k (by omega) (by omega)).trans (ih m (by omega) (by omega)).symm
        simp only [hsame]

lemma split_of_front {s : List α} {n : ℕ} (h : F.front s = some n) :
    F.complete s = s.take n :: F.complete (s.drop n) ∧ F.rest s = F.rest (s.drop n) := by
  have hdrop := length_drop_lt h
  obtain ⟨k, hk⟩ : ∃ k, s.length = k + 1 := ⟨s.length - 1, by omega⟩
  have hsplit : F.split s.length s = (s.take n :: F.complete (s.drop n), F.rest (s.drop n)) := by
    rw [hk]
    simp only [split, h]
    rw [split_eq (by omega)]
    rfl
  exact ⟨by rw [complete, hsplit], by rw [rest, hsplit]⟩

lemma split_of_none {s : List α} (h : F.front s = none) : F.complete s = [] ∧ F.rest s = s := by
  have hsplit : F.split s.length s = ([], s) := by
    cases s.length with
    | zero => rfl
    | succ k => simp [split, h]
  exact ⟨congrArg Prod.fst hsplit, congrArg Prod.snd hsplit⟩

variable (F)

/-- Induction over the messages of a stream. -/
lemma split_induction {motive : List α → Prop} (none : ∀ s, F.front s = none → motive s)
    (some : ∀ s n, F.front s = some n → motive (s.drop n) → motive s) (s : List α) : motive s := by
  induction hk : s.length using Nat.strongRecOn generalizing s with
  | _ k ih =>
    cases hfront : F.front s with
    | none => exact none s hfront
    | some n => exact some s n hfront (ih _ (hk ▸ length_drop_lt hfront) _ rfl)

/-- A stream may be split piece by piece. -/
theorem complete_append (s t : List α) :
    F.complete (s ++ t) = F.complete s ++ F.complete (F.rest s ++ t) ∧ F.rest (s ++ t) = F.rest (F.rest s ++ t) := by
  induction s using F.split_induction with
  | none s h =>
    obtain ⟨hcomplete, hrest⟩ := split_of_none h
    rw [hcomplete, hrest]
    exact ⟨rfl, rfl⟩
  | some s n h ih =>
    obtain ⟨hsize, hle⟩ := F.front_eq_some.1 h
    have hlong : F.front (s ++ t) = some n :=
      F.front_eq_some.2 ⟨F.stable s t n hsize, by rw [List.length_append]; omega⟩
    obtain ⟨hcomplete, hrest⟩ := split_of_front h
    obtain ⟨hcomplete', hrest'⟩ := split_of_front hlong
    have htake : (s ++ t).take n = s.take n := List.take_append_of_le_length hle
    have hdrop : (s ++ t).drop n = s.drop n ++ t := List.drop_append_of_le_length hle
    rw [hcomplete, hrest, hcomplete', hrest', htake, hdrop, ih.1, ih.2]
    exact ⟨rfl, rfl⟩

/-- Nothing is lost. -/
theorem flatten_complete (s : List α) : (F.complete s).flatten ++ F.rest s = s := by
  induction s using F.split_induction with
  | none s h =>
    obtain ⟨hcomplete, hrest⟩ := split_of_none h
    rw [hcomplete, hrest]
    rfl
  | some s n h ih =>
    obtain ⟨hcomplete, hrest⟩ := split_of_front h
    rw [hcomplete, hrest, List.flatten_cons, List.append_assoc, ih, List.take_append_drop]

/-- Each piece is a whole message. -/
theorem size_of_mem_complete {s m : List α} (hm : m ∈ F.complete s) : F.size m = some m.length := by
  induction s using F.split_induction with
  | none s h =>
    rw [(split_of_none h).1] at hm
    cases hm
  | some s n h ih =>
    rw [(split_of_front h).1, List.mem_cons] at hm
    rcases hm with rfl | hm
    · obtain ⟨hsize, hle⟩ := F.front_eq_some.1 h
      rw [F.own s n hsize hle, List.length_take, Nat.min_eq_left hle]
    · exact ih hm

/-- There is no message in the rest. -/
theorem front_rest (s : List α) : F.front (F.rest s) = none := by
  induction s using F.split_induction with
  | none s h => rwa [(split_of_none h).2]
  | some s n h ih => rwa [(split_of_front h).2]

end Framing

end Suspenders.Lib
