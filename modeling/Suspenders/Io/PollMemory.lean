import Suspenders.Io.Poll
import Suspenders.Lib.Malloc

/-!
# The memory of the poll backend

The poll backend has a block for itself and one for each of its two arrays.  `s_poll_register` grows the arrays with
two reallocations, and returns -1 if one of them fails.  If one array was moved and the other one was not grown, the
backend keeps the address at which the array has been: the growth is torn.

`poll_memory` says that this is the only defect.  Until a growth is torn the blocks that are allocated are those of
the backend, and no call misuses one.  After it the backend cannot be used or destroyed without a misuse.
-/

namespace Suspenders.Io

open Lib Function

/-- The backend: its own block and those of `poll.fds` and `poll.crs`, and what is in them. -/
structure PollBackend where
  self : ℕ
  fds : ℕ
  crs : ℕ
  set : PollSet

/-- The blocks of a thread and its `suspenders_backend`. -/
structure PollMem where
  alloc : Alloc
  be : Option PollBackend

namespace PollMem

/-- Nothing is allocated. -/
def start : PollMem := ⟨.start, none⟩

/-- `s_poll_create`; each argument says whether a `malloc` succeeds. -/
def create (self fds crs : Bool) (s : PollMem) : PollMem :=
  if self then
    let m₁ := s.alloc.malloc 1
    let m₂ := if fds then m₁.malloc PollSet.create.cap else m₁
    let m₃ := if crs then m₂.malloc PollSet.create.cap else m₂
    if fds && crs then ⟨m₃, some ⟨s.alloc.next, m₁.next, m₂.next, .create⟩⟩
    else
      let m₄ := if fds then m₃.free m₁.next else m₃
      let m₅ := if crs then m₄.free m₂.next else m₄
      ⟨m₅.free s.alloc.next, s.be⟩
  else s

/-- `s_poll_register`; the last arguments say what the reallocations answer. -/
def register (b : PollBackend) (fd : ℤ) (events : Events) (cr : Option CrId) (r₁ r₂ : Realloc) (s : PollMem) :
    PollMem :=
  if b.set.cap ≤ b.set.nfds then
    let (fds, m₁) := s.alloc.realloc b.fds (b.set.cap * 2) r₁
    let (crs, m₂) := m₁.realloc b.crs (b.set.cap * 2) r₂
    match fds, crs, b.set.register fd events cr (fds.isSome && crs.isSome) with
    | some fds, some crs, some set =>
      ⟨(m₂.access fds set.nfds (· == b.set.nfds)).access crs set.nfds (· == b.set.nfds), some ⟨b.self, fds, crs, set⟩⟩
    | _, _, _ => ⟨m₂, s.be⟩
  else
    match b.set.register fd events cr true with
    | some set =>
      ⟨(s.alloc.access b.fds set.nfds (· == b.set.nfds)).access b.crs set.nfds (· == b.set.nfds),
        some { b with set := set }⟩
    | none => s

/-- `s_poll_unregister`: it looks at the coroutines of the entries that it keeps. -/
def unregister (b : PollBackend) (fd : ℤ) (s : PollMem) : PollMem where
  alloc := (s.alloc.access b.fds b.set.nfds fun _ => true).access b.crs b.set.nfds fun i => (b.set.fds i).fd != fd
  be := some { b with set := b.set.unregister fd }

/-- `s_poll_wait`: it looks at the coroutines if there is an event. -/
def wait (b : PollBackend) (rev : ℕ → Bool) (crs : Crs) (s : PollMem) : PollMem where
  alloc := (s.alloc.access b.fds b.set.nfds fun _ => true).access b.crs b.set.nfds
    fun _ => (List.range b.set.nfds).any rev
  be := some { b with set := (b.set.wait rev crs).1 }

/-- `s_poll_destroy`. -/
def destroy (b : PollBackend) (s : PollMem) : PollMem where
  alloc := ((s.alloc.free b.fds).free b.crs).free b.self
  be := none

end PollMem

/-- A call of a function of the backend. -/
inductive PollCall
  | create (self fds crs : Bool)
  | register (fd : ℤ) (events : Events) (cr : Option CrId) (r₁ r₂ : Realloc)
  | unregister (fd : ℤ)
  | wait (rev : ℕ → Bool) (crs : Crs)
  | destroy

/-- The steps: a backend is created when there is none. -/
def PollMem.step (s : PollMem) : PollCall → Option PollMem
  | .create self fds crs => if s.be.isNone then some (s.create self fds crs) else none
  | .register fd events cr r₁ r₂ => s.be.map fun b => s.register b fd events cr r₁ r₂
  | .unregister fd => s.be.map fun b => s.unregister b fd
  | .wait rev crs => s.be.map fun b => s.wait b rev crs
  | .destroy => s.be.map fun b => s.destroy b

/-- One array is moved, and the other one is not grown. -/
def tears : Realloc → Realloc → Bool
  | .moves, .fails | .fails, .moves => true
  | _, _ => false

/-- The call tears the growth of the arrays. -/
def PollMem.Tears (s : PollMem) : PollCall → Prop
  | .register _ _ _ r₁ r₂ => tears r₁ r₂ = true ∧ ∃ b ∈ s.be, b.set.cap ≤ b.set.nfds
  | _ => False

/-- The call looks at both arrays: a call to unregister keeps an entry, or there is an event. -/
def PollMem.LooksAtBoth (s : PollMem) : PollCall → Prop
  | .unregister fd => ∃ b ∈ s.be, ∃ i < b.set.nfds, (b.set.fds i).fd ≠ fd
  | .wait rev _ => ∃ b ∈ s.be, ∃ i < b.set.nfds, rev i = true
  | _ => True

/-- The steps, and whether a growth has been torn. -/
abbrev PollMem.Step : PollMem × Prop → PollCall → PollMem × Prop → Prop :=
  Recorded (StepOf PollMem.step) fun torn s e => torn ∨ s.Tears e

/-! ## What is allocated -/

/-- What the blocks are for. -/
inductive PollBlock
  | self
  | fds
  | crs
  deriving DecidableEq

/-- The blocks of a backend. -/
def PollBackend.owns (b : PollBackend) : PollBlock → Option ℕ
  | .self => some b.self
  | .fds => some b.fds
  | .crs => some b.crs

/-- The arrays have room for the entries. -/
structure PollBackend.Fits (b : PollBackend) (m : Alloc) : Prop where
  fds : ∃ k ∈ m.size b.fds, b.set.cap ≤ k
  crs : ∃ k ∈ m.size b.crs, b.set.cap ≤ k
  pos : 0 < b.set.cap
  room : b.set.nfds ≤ b.set.cap

namespace PollMem

/-- The blocks of the backend are those that are allocated. -/
def Sound (s : PollMem) : Prop :=
  match s.be with
  | some b => s.alloc.Holds b.owns ∧ b.Fits s.alloc
  | none => s.alloc.Holds fun _ : PollBlock => none

/-- There was a misuse, or an array is not where the backend has it. -/
def Lost (b : PollBackend) (m : Alloc) : Prop :=
  m.bad = true ∨ b.crs < m.next ∧ (m.size b.fds = none ∨ m.size b.crs = none)

/-- The backend has lost an array, or there was a misuse. -/
def Broken (s : PollMem) : Prop :=
  match s.be with
  | some b => Lost b s.alloc
  | none => s.alloc.bad = true

variable {s t : PollMem} {b : PollBackend} {m : Alloc} {fd : ℤ} {events : Events} {cr : Option CrId} {r₁ r₂ : Realloc}
  {rev : ℕ → Bool} {crs : Crs} {n : ℕ} {q q' : ℕ → Bool}

/-- Accesses to entries of both arrays. -/
lemma holds_access (h : m.Holds b.owns) (hb : b.Fits m) (hn : n ≤ b.set.cap) :
    ((m.access b.fds n q).access b.crs n q').Holds b.owns := by
  obtain ⟨k, hk, hcap⟩ := hb.fds
  obtain ⟨k', hk', hcap'⟩ := hb.crs
  have hfds : (m.access b.fds n q).Holds b.owns := h.access fun i hi _ => Alloc.reaches_of_lt hk (by omega)
  exact hfds.access fun i hi _ => Alloc.reaches_of_lt (m := m.access b.fds n q) hk' (by omega)

lemma nfds_unregister_le (be : PollSet) : (be.unregister fd).nfds ≤ be.nfds := by
  have hlen := congrArg List.length (PollSet.entries_unregister be fd)
  have hle := List.length_filter_le (fun e : Entry => decide (e.1.fd ≠ fd)) be.entries
  simp only [PollSet.entries, length_slice] at hlen hle
  omega

lemma nfds_wait_le (be : PollSet) : (be.wait rev crs).1.nfds ≤ be.nfds := by
  by_cases hrev : (List.range be.nfds).any rev = true
  · have hlen := congrArg List.length (PollSet.entries_wait be rev crs hrev)
    have hle := List.length_filterMap_le PollSet.keepUnready (be.reported rev)
    simp only [PollSet.entries, PollSet.reported, length_slice] at hlen hle
    omega
  · rw [PollSet.wait, if_neg hrev]

lemma cap_wait (be : PollSet) : (be.wait rev crs).1.cap = be.cap := by
  unfold PollSet.wait
  split <;> rfl

/-! ## The calls on a sound backend -/

/-- A call that only looks at the entries. -/
lemma sound_access {set : PollSet} (h : m.Holds b.owns) (hb : b.Fits m) (hcap : set.cap = b.set.cap)
    (hn : set.nfds ≤ set.cap) (hn' : n ≤ b.set.cap) :
    Sound ⟨(m.access b.fds n q).access b.crs n q', some { b with set := set }⟩ := by
  refine ⟨holds_access h hb hn', ?_⟩
  obtain ⟨k, hk, hle⟩ := hb.fds
  obtain ⟨k', hk', hle'⟩ := hb.crs
  exact ⟨⟨k, hk, hcap ▸ hle⟩, ⟨k', hk', hcap ▸ hle'⟩, hcap ▸ hb.pos, hn⟩

lemma sound_create (hs : s.Sound) (hbe : s.be = none) (x y z : Bool) : (s.create x y z).Sound := by
  have h₀ : s.alloc.Holds fun _ : PollBlock => none := by
    rw [Sound, hbe] at hs
    exact hs
  cases x with
  | false => exact hs
  | true =>
    have h₁ := h₀.malloc (o := .self) rfl 1
    cases y with
    | false =>
      cases z with
      | false =>
        have h₂ := h₁.free (o := .self) rfl
        simpa [create, Sound, hbe] using h₂.of_none fun o => by cases o <;> rfl
      | true =>
        have h₂ := h₁.malloc (o := .crs) rfl PollSet.create.cap
        have h₃ := (h₂.free (o := .crs) rfl).free (o := .self) rfl
        simpa [create, Sound, hbe] using h₃.of_none fun o => by cases o <;> rfl
    | true =>
      have h₂ := h₁.malloc (o := .fds) rfl PollSet.create.cap
      cases z with
      | false =>
        have h₃ := (h₂.free (o := .fds) rfl).free (o := .self) rfl
        simpa [create, Sound, hbe] using h₃.of_none fun o => by cases o <;> rfl
      | true =>
        have h₃ := h₂.malloc (o := .crs) rfl PollSet.create.cap
        refine ⟨h₃.congr fun o => by cases o <;> rfl, ⟨PollSet.create.cap, ?_, le_rfl⟩,
          ⟨PollSet.create.cap, update_self .., le_rfl⟩, Nat.succ_pos 255, Nat.zero_le _⟩
        have hne : (s.alloc.malloc 1).next ≠ ((s.alloc.malloc 1).malloc PollSet.create.cap).next :=
          Nat.ne_of_lt (Nat.lt_succ_self _)
        exact (update_of_ne hne ..).trans (update_self ..)

lemma sound_destroy (hs : s.Sound) (hbe : s.be = some b) : (s.destroy b).Sound := by
  rw [Sound, hbe] at hs
  exact (((hs.1.free (o := .fds) rfl).free (o := .crs) rfl).free (o := .self) rfl).congr fun o => by cases o <;> rfl

lemma sound_unregister (hs : s.Sound) (hbe : s.be = some b) : (s.unregister b fd).Sound := by
  rw [Sound, hbe] at hs
  exact sound_access hs.1 hs.2 rfl ((nfds_unregister_le b.set).trans hs.2.room) hs.2.room

lemma sound_wait (hs : s.Sound) (hbe : s.be = some b) : (s.wait b rev crs).Sound := by
  rw [Sound, hbe] at hs
  have hcap : (b.set.wait rev crs).1.cap = b.set.cap := cap_wait b.set
  exact sound_access hs.1 hs.2 hcap (hcap.symm ▸ (nfds_wait_le b.set).trans hs.2.room) hs.2.room

/-- The set after a registration. -/
lemma nfds_register {be be' : PollSet} {ok : Bool} (h : be.register fd events cr ok = some be') :
    be'.nfds = be.nfds + 1 ∧ be'.cap = if be.cap ≤ be.nfds then be.cap * 2 else be.cap := by
  unfold PollSet.register at h
  split at h
  · cases h
  · cases h
    exact ⟨rfl, rfl⟩

/-- A registration that need not grow the arrays. -/
lemma sound_register_of_lt (hs : s.Sound) (hbe : s.be = some b) (hlt : b.set.nfds < b.set.cap) :
    (s.register b fd events cr r₁ r₂).Sound := by
  rw [register, if_neg (by omega)]
  cases hset : b.set.register fd events cr true with
  | none => exact hs
  | some set =>
    rw [Sound, hbe] at hs
    obtain ⟨hnfds, hcap⟩ := nfds_register hset
    rw [if_neg (by omega)] at hcap
    exact sound_access hs.1 hs.2 hcap (by omega) (by omega)

/-- Both reallocations succeed. -/
lemma sound_register_grow (hs : s.Sound) (hbe : s.be = some b) (hle : b.set.cap ≤ b.set.nfds) (h₁ : r₁ ≠ .fails)
    (h₂ : r₂ ≠ .fails) : (s.register b fd events cr r₁ r₂).Sound := by
  rw [Sound, hbe] at hs
  have hb := hs.2
  obtain ⟨fds, hfds⟩ : ∃ x, (s.alloc.realloc b.fds (b.set.cap * 2) r₁).1 = some x := by
    cases r₁ with
    | fails => exact absurd rfl h₁
    | stays => exact ⟨_, rfl⟩
    | moves => exact ⟨_, rfl⟩
  obtain ⟨crs, hcrs⟩ :
      ∃ x, ((s.alloc.realloc b.fds (b.set.cap * 2) r₁).2.realloc b.crs (b.set.cap * 2) r₂).1 = some x := by
    cases r₂ with
    | fails => exact absurd rfl h₂
    | stays => exact ⟨_, rfl⟩
    | moves => exact ⟨_, rfl⟩
  obtain ⟨hm₁, hsize₁, -⟩ := hs.1.realloc (o := .fds) rfl hfds
  obtain ⟨hm₂, hsize₂, hothers⟩ := hm₁.realloc (o := .crs) rfl hcrs
  cases hset : b.set.register fd events cr true with
  | none => simp [PollSet.register] at hset
  | some set =>
    obtain ⟨hnfds, hcap⟩ := nfds_register hset
    rw [if_pos hle] at hcap
    have hpos := hb.pos
    have hroom := hb.room
    -- the first array is another block than the one of the coroutines
    have hne : fds ≠ b.crs := fun heq => by cases hm₁.account.unique (o := .fds) (p := .crs) rfl (heq ▸ rfl)
    have hm : (((s.alloc.realloc b.fds (b.set.cap * 2) r₁).2.realloc b.crs (b.set.cap * 2) r₂).2).Holds
        (PollBackend.owns ⟨b.self, fds, crs, set⟩) := hm₂.congr fun o => by cases o <;> rfl
    have hfits : PollBackend.Fits ⟨b.self, fds, crs, set⟩
        ((s.alloc.realloc b.fds (b.set.cap * 2) r₁).2.realloc b.crs (b.set.cap * 2) r₂).2 := by
      refine ⟨⟨b.set.cap * 2, ?_, hcap.le⟩, ⟨b.set.cap * 2, hsize₂, hcap.le⟩, ?_, ?_⟩
      · rw [hothers fds hne (hm₁.lt_next (o := .fds) rfl)]
        exact hsize₁
      · show 0 < set.cap
        omega
      · show set.nfds ≤ set.cap
        omega
    rw [register, if_pos hle]
    simp only [hfds, hcrs, Option.isSome_some, Bool.and_self, hset]
    exact sound_access (b := ⟨b.self, fds, crs, set⟩) hm hfits rfl hfits.room hfits.room

/-- A reallocation fails, and no array is moved. -/
lemma sound_register_fails (hs : s.Sound) (hbe : s.be = some b) (hle : b.set.cap ≤ b.set.nfds)
    (h : r₁ = .fails ∨ r₂ = .fails) (h₁ : r₁ ≠ .moves) (h₂ : r₂ ≠ .moves) :
    (s.register b fd events cr r₁ r₂).Sound := by
  rw [Sound, hbe] at hs
  obtain ⟨hm₁, hothers₁, k₁, hk₁, hcap₁⟩ := hs.1.realloc_unmoved (n := b.set.cap * 2) (o := .fds) rfl h₁
  obtain ⟨hm₂, hothers₂, k₂, hk₂, hcap₂⟩ := hm₁.realloc_unmoved (n := b.set.cap * 2) (o := .crs) rfl h₂
  have hb := hs.2
  have hne : b.fds ≠ b.crs := fun heq => by cases hs.1.account.unique (o := .fds) (p := .crs) rfl (heq ▸ rfl)
  have hsound : Sound ⟨((s.alloc.realloc b.fds (b.set.cap * 2) r₁).2.realloc b.crs (b.set.cap * 2) r₂).2, s.be⟩ := by
    rw [Sound, hbe]
    refine ⟨hm₂, ⟨k₁, ?_, ?_⟩, ⟨k₂, hk₂, ?_⟩, hb.pos, hb.room⟩
    · rw [hothers₂ _ hne]
      exact hk₁
    · obtain ⟨k, hk, hle⟩ := hb.fds
      rcases hcap₁ with rfl | hold
      · omega
      · rw [Option.mem_unique hold hk]
        exact hle
    · obtain ⟨k, hk, hle⟩ := hb.crs
      rcases hcap₂ with rfl | hold
      · omega
      · rw [hothers₁ _ hne.symm] at hold
        rw [Option.mem_unique hold hk]
        exact hle
  rw [register, if_pos hle]
  rcases h with rfl | rfl
  · exact hsound
  · cases r₁ with
    | fails => exact hsound
    | stays => exact hsound
    | moves => exact absurd rfl h₁

/-! ## The growth that is torn -/

/-- A misuse is no part of what is sound. -/
lemma Sound.bad (hs : s.Sound) : s.alloc.bad = false := by
  rw [Sound] at hs
  split at hs
  · exact hs.1.bad
  · exact Alloc.Holds.bad hs

/-- The blocks that are allocated. -/
lemma Sound.size_ne_none_iff (hs : s.Sound) (p : ℕ) :
    s.alloc.size p ≠ none ↔ ∃ b ∈ s.be, p = b.self ∨ p = b.fds ∨ p = b.crs := by
  rw [Sound] at hs
  split at hs
  next b hbe =>
    rw [hs.1.account.used_iff p, false_or]
    constructor
    · rintro ⟨o, ho⟩
      refine ⟨b, hbe, ?_⟩
      cases o with
      | self => exact .inl (Option.some.inj ho).symm
      | fds => exact .inr (.inl (Option.some.inj ho).symm)
      | crs => exact .inr (.inr (Option.some.inj ho).symm)
    · rintro ⟨b', hb', hp⟩
      obtain rfl : b = b' := Option.mem_unique hbe hb'
      rcases hp with rfl | rfl | rfl
      · exact ⟨.self, rfl⟩
      · exact ⟨.fds, rfl⟩
      · exact ⟨.crs, rfl⟩
  next hbe =>
    constructor
    · exact fun hp => absurd (Alloc.Holds.size_eq_none hs (fun _ => rfl) p) hp
    · rintro ⟨b, hb, -⟩
      rw [hbe] at hb
      cases hb

/-- One array has been moved, and the backend does not know; this is not yet a misuse. -/
lemma broken_register (hs : s.Sound) (hbe : s.be = some b) (hle : b.set.cap ≤ b.set.nfds) (h : tears r₁ r₂ = true) :
    (s.register b fd events cr r₁ r₂).alloc.bad = false ∧ (s.register b fd events cr r₁ r₂).Broken := by
  rw [Sound, hbe] at hs
  have hfds := hs.1.lt_next (o := .fds) rfl
  have hcrs := hs.1.lt_next (o := .crs) rfl
  rw [register, if_pos hle]
  cases r₁ with
  | fails =>
    cases r₂ with
    | fails => cases h
    | stays => cases h
    | moves =>
      have hnone := Alloc.size_realloc_moves (m := (s.alloc.realloc b.fds (b.set.cap * 2) .fails).2)
        (n := b.set.cap * 2) hcrs
      have hm := (hs.1.realloc_unmoved (r := .fails) (n := b.set.cap * 2) (o := .fds) rfl (by decide)).1
      refine ⟨(hm.realloc (o := .crs) (r := .moves) (n := b.set.cap * 2) rfl rfl).1.bad, ?_⟩
      show Broken ⟨_, s.be⟩
      rw [Broken, hbe]
      exact .inr ⟨Nat.lt_succ_of_lt hcrs, .inr hnone⟩
  | stays => cases r₂ <;> cases h
  | moves =>
    cases r₂ with
    | fails =>
      have hm := (hs.1.realloc (o := .fds) (r := .moves) (n := b.set.cap * 2) rfl rfl).1
      refine ⟨(hm.realloc_unmoved (o := .crs) (r := .fails) (n := b.set.cap * 2) rfl (by decide)).1.bad, ?_⟩
      show Broken ⟨_, s.be⟩
      rw [Broken, hbe]
      exact .inr ⟨Nat.lt_succ_of_lt hcrs, .inl (Alloc.size_realloc_moves hfds)⟩
    | stays => cases h
    | moves => cases h

/-- An access to an array that is not there is a misuse. -/
lemma bad_access_both (h : Lost b m) {i : ℕ} (hi : i < n) (hq : q i = true) (hq' : q' i = true) :
    ((m.access b.fds n q).access b.crs n q').bad = true := by
  rcases h with hbad | ⟨-, hfds | hcrs⟩
  · exact Alloc.bad_access.mpr (.inl (Alloc.bad_access.mpr (.inl hbad)))
  · exact Alloc.bad_access.mpr (.inl (Alloc.bad_access.mpr (.inr ⟨i, hi, hq, Alloc.reaches_of_none hfds⟩)))
  · exact Alloc.bad_access.mpr (.inr ⟨i, hi, hq', Alloc.reaches_of_none (m := m.access b.fds n q) hcrs⟩)

/-- What is lost stays so, whatever is looked at. -/
lemma lost_access {set : PollSet} (h : Lost b m) :
    Lost { b with set := set } ((m.access b.fds n q).access b.crs n q') := by
  rcases h with hbad | hlost
  · exact .inl (Alloc.bad_access.mpr (.inl (Alloc.bad_access.mpr (.inl hbad))))
  · exact .inr hlost

/-- What is lost cannot be grown without a misuse. -/
lemma bad_realloc_both (h : Lost b m) : ((m.realloc b.fds n r₁).2.realloc b.crs n r₂).2.bad = true := by
  rcases h with hbad | ⟨hlt, hnone⟩
  · exact Alloc.bad_realloc.mpr (.inl (Alloc.bad_realloc.mpr (.inl hbad)))
  · by_cases hfds : m.size b.fds = none
    · exact Alloc.bad_realloc.mpr (.inl (Alloc.bad_realloc.mpr (.inr hfds)))
    · have hcrs : m.size b.crs = none := hnone.resolve_left hfds
      have hne : b.crs ≠ b.fds := fun heq => hfds (heq ▸ hcrs)
      refine Alloc.bad_realloc.mpr (.inr ?_)
      cases r₁ with
      | fails => exact hcrs
      | stays => exact (update_of_ne hne ..).trans hcrs
      | moves => exact (update_of_ne (by show b.crs ≠ m.next; omega) ..).trans (Alloc.size_free hcrs)

/-- A backend that has lost an array cannot register. -/
lemma bad_register (h : Lost b s.alloc) : (s.register b fd events cr r₁ r₂).alloc.bad = true := by
  by_cases hle : b.set.cap ≤ b.set.nfds
  · have hbad : ((s.alloc.realloc b.fds (b.set.cap * 2) r₁).2.realloc b.crs (b.set.cap * 2) r₂).2.bad = true :=
      bad_realloc_both h
    rw [register, if_pos hle]
    dsimp only
    split
    · exact Alloc.bad_access.mpr (.inl (Alloc.bad_access.mpr (.inl hbad)))
    · exact hbad
  · rw [register, if_neg hle]
    cases hset : b.set.register fd events cr true with
    | none => simp [PollSet.register] at hset
    | some set =>
      obtain ⟨hnfds, -⟩ := nfds_register hset
      exact bad_access_both h (i := b.set.nfds) (by omega) (beq_self_eq_true _) (beq_self_eq_true _)

/-- Nor can it be destroyed. -/
lemma bad_destroy (h : Lost b s.alloc) : (s.destroy b).alloc.bad = true := by
  refine Alloc.bad_free.mpr (.inl (Alloc.bad_free.mpr ?_))
  rcases h with hbad | ⟨-, hfds | hcrs⟩
  · exact .inl (Alloc.bad_free.mpr (.inl hbad))
  · exact .inl (Alloc.bad_free.mpr (.inr hfds))
  · exact .inr (Alloc.size_free hcrs)

/-- A misuse is not forgotten. -/
lemma bad_create (h : s.alloc.bad = true) (x y z : Bool) : (s.create x y z).alloc.bad = true := by
  cases x with
  | false => exact h
  | true => cases y <;> cases z <;> simp [create, Alloc.malloc, Alloc.free, h]

/-! ## Every call -/

/-- A call on a sound backend keeps it sound, unless it tears the growth of the arrays. -/
lemma sound_step {e : PollCall} (hs : s.Sound) (he : s.step e = some t) :
    (¬ s.Tears e → t.Sound) ∧ (s.Tears e → t.alloc.bad = false ∧ t.Broken) := by
  cases e with
  | create x y z =>
    rw [step] at he
    split at he
    next hbe =>
      cases he
      exact ⟨fun _ => sound_create hs (Option.isNone_iff_eq_none.mp hbe) x y z, False.elim⟩
    next => cases he
  | register fd events cr r₁ r₂ =>
    obtain ⟨b, hbe, rfl⟩ := Option.map_eq_some_iff.mp he
    refine ⟨fun ht => ?_, fun ht => ?_⟩
    · rcases Nat.lt_or_ge b.set.nfds b.set.cap with hlt | hle
      · exact sound_register_of_lt hs hbe hlt
      · have hnot : tears r₁ r₂ = false := by
          by_contra htears
          exact ht ⟨Bool.not_eq_false _ ▸ htears, b, hbe, hle⟩
        by_cases hf : r₁ = .fails ∨ r₂ = .fails
        · have hunmoved : r₁ ≠ .moves ∧ r₂ ≠ .moves := by
            cases r₁ <;> cases r₂ <;> simp_all [tears]
          exact sound_register_fails hs hbe hle hf hunmoved.1 hunmoved.2
        · rw [not_or] at hf
          exact sound_register_grow hs hbe hle hf.1 hf.2
    · obtain ⟨htears, b', hb', hle⟩ := ht
      obtain rfl : b = b' := Option.mem_unique hbe hb'
      exact broken_register hs hbe hle htears
  | unregister fd =>
    obtain ⟨b, hbe, rfl⟩ := Option.map_eq_some_iff.mp he
    exact ⟨fun _ => sound_unregister hs hbe, False.elim⟩
  | wait rev crs =>
    obtain ⟨b, hbe, rfl⟩ := Option.map_eq_some_iff.mp he
    exact ⟨fun _ => sound_wait hs hbe, False.elim⟩
  | destroy =>
    obtain ⟨b, hbe, rfl⟩ := Option.map_eq_some_iff.mp he
    exact ⟨fun _ => sound_destroy hs hbe, False.elim⟩

/-- A broken backend stays so, and a call that looks at both arrays is a misuse. -/
lemma broken_step {e : PollCall} (hs : s.Broken) (he : s.step e = some t) :
    t.Broken ∧ (s.LooksAtBoth e → t.alloc.bad = true) := by
  have hbroken (hbad : t.alloc.bad = true) : t.Broken := by
    rw [Broken]
    split
    · exact .inl hbad
    · exact hbad
  have hlost {b : PollBackend} (hbe : s.be = some b) : Lost b s.alloc := by
    rw [Broken, hbe] at hs
    exact hs
  cases e with
  | create x y z =>
    rw [step] at he
    split at he
    next hbe =>
      cases he
      rw [Broken, Option.isNone_iff_eq_none.mp hbe] at hs
      have hbad := bad_create hs x y z
      exact ⟨hbroken hbad, fun _ => hbad⟩
    next => cases he
  | register fd events cr r₁ r₂ =>
    obtain ⟨b, hbe, rfl⟩ := Option.map_eq_some_iff.mp he
    have hbad : (s.register b fd events cr r₁ r₂).alloc.bad = true := bad_register (hlost hbe)
    exact ⟨hbroken hbad, fun _ => hbad⟩
  | unregister fd =>
    obtain ⟨b, hbe, rfl⟩ := Option.map_eq_some_iff.mp he
    refine ⟨lost_access (hlost hbe), fun h => ?_⟩
    obtain ⟨b', hb', i, hi, hne⟩ := h
    obtain rfl : b = b' := Option.mem_unique hbe hb'
    exact bad_access_both (hlost hbe) hi rfl (bne_iff_ne.mpr hne)
  | wait rev crs =>
    obtain ⟨b, hbe, rfl⟩ := Option.map_eq_some_iff.mp he
    refine ⟨lost_access (hlost hbe), fun h => ?_⟩
    obtain ⟨b', hb', i, hi, hrev⟩ := h
    obtain rfl : b = b' := Option.mem_unique hbe hb'
    exact bad_access_both (hlost hbe) hi rfl (List.any_eq_true.mpr ⟨i, List.mem_range.mpr hi, hrev⟩)
  | destroy =>
    obtain ⟨b, hbe, rfl⟩ := Option.map_eq_some_iff.mp he
    have hbad := bad_destroy (hlost hbe)
    exact ⟨hbroken hbad, fun _ => hbad⟩

/-- In every run the backend is sound until a growth is torn, and broken from then on. -/
lemma sound_or_broken {torn : Prop} (h : Reachable Step (start, False) (s, torn)) :
    (¬ torn → s.Sound) ∧ (torn → s.Broken) := by
  refine h.invariant (I := fun p => (¬ p.2 → p.1.Sound) ∧ (p.2 → p.1.Broken))
    ⟨fun _ => Alloc.Holds.start, False.elim⟩ ?_
  rintro ⟨s, torn⟩ e ⟨t, torn'⟩ ⟨hsound, hbroken⟩ ⟨he, rfl⟩
  by_cases htorn : torn
  · exact ⟨fun hn => absurd (.inl htorn) hn, fun _ => (broken_step (hbroken htorn) he).1⟩
  · have hstep := sound_step (hsound htorn) he
    exact ⟨fun hn => hstep.1 fun ht => hn (.inr ht), fun ht => (hstep.2 (ht.resolve_left htorn)).2⟩

end PollMem

/-- In every run of the poll backend the blocks that are allocated are those of the backend until a growth is torn,
and no call misuses a block.  From then on every call is a misuse that looks at both arrays, and so are registering
and destroying the backend. -/
theorem poll_memory {s t : PollMem} {torn : Prop} {e : PollCall}
    (h : Reachable PollMem.Step (.start, False) (s, torn)) (he : s.step e = some t) :
    (¬ torn → t.alloc.bad = false ∧
      ∀ p, s.alloc.size p ≠ none ↔ ∃ b ∈ s.be, p = b.self ∨ p = b.fds ∨ p = b.crs) ∧
    (torn → s.LooksAtBoth e → t.alloc.bad = true) := by
  obtain ⟨hsound, hbroken⟩ := PollMem.sound_or_broken h
  refine ⟨fun hn => ⟨?_, fun p => ?_⟩, fun htorn hlooks => (PollMem.broken_step (hbroken htorn) he).2 hlooks⟩
  · have hstep := PollMem.sound_step (hsound hn) he
    by_cases ht : s.Tears e
    · exact (hstep.2 ht).1
    · exact (hstep.1 ht).bad
  · exact (hsound hn).size_ne_none_iff p

/-- A backend is created, registers a descriptor and is destroyed. -/
theorem poll_memory_created :
    ((PollMem.start.create true true true).destroy ⟨0, 1, 2, .create⟩).alloc.bad = false := by
  have hcreate : PollMem.step .start (.create true true true) = some (PollMem.start.create true true true) := rfl
  have hrun : Reachable PollMem.Step (.start, False) (PollMem.start.create true true true, False ∨ False) :=
    (Reachable.refl _ _).step ⟨hcreate, rfl⟩
  exact ((poll_memory hrun (e := .destroy) rfl).1 (by simp)).1

end Suspenders.Io
