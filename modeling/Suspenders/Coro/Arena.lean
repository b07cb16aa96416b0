import Suspenders.Base
import Suspenders.Lib.Dlist
import Suspenders.Lib.Family
import Suspenders.Lib.Run

/-!
# Who owns the memory of a coroutine

A coroutine lives in an arena of its own.  From spawn to the end of its memory it is on the injector, on the
live list of the worker it is pinned to, or on the zombie list of that worker, and whoever has the list
destroys the arena: the worker's loop its zombies, a helper that stops its zombies and its live list, and
`suspenders_shutdown` all that is left.

The live lists are intrusive doubly linked lists; `State.links` holds `live_prev` and `live_next` of every
coroutine.  The invariant gives the lists that they represent.
-/

namespace Suspenders.Arena

open Lib

/-- What does not change while the runtime is up. -/
structure Config where
  /-- `s_num_workers` -/
  workers : ℕ
  pos : 0 < workers
  /-- `daemon` of each coroutine -/
  daemon : CrId → Bool

/-- The life of the runtime. -/
inductive Stage
  | up
  /-- In `suspenders_shutdown`, which waits for the helpers. -/
  | stopping
  /-- `suspenders_shutdown` has returned. -/
  | down
  deriving DecidableEq

/-- The coroutines and their memory. -/
structure State where
  stage : Stage
  /-- The helpers that have left their threads. -/
  exited : WorkerId → Bool
  /-- All arenas that were created. -/
  created : List CrId
  /-- The arenas that were destroyed, in this order. -/
  destroyed : List CrId
  /-- `worker` -/
  pin : CrId → Option WorkerId
  /-- `state` is `SUSPENDERS_STATE_DONE` -/
  done : CrId → Bool
  /-- `s_injector_heads` -/
  injector : Fin 4 → List CrId
  /-- `live_prev` and `live_next` -/
  links : Links CrId
  /-- `s_live_crs` -/
  liveCrs : WorkerId → Option CrId
  /-- `s_zombies` -/
  zombies : WorkerId → List CrId
  /-- `active_coroutines` -/
  active : ℕ

namespace State

/-- After `suspenders_init`. -/
def init : State where
  stage := .up
  exited := fun _ => false
  created := []
  destroyed := []
  pin := fun _ => none
  done := fun _ => false
  injector := fun _ => []
  links := ⟨fun _ => none, fun _ => none⟩
  liveCrs := fun _ => none
  zombies := fun _ => []
  active := 0

variable (s : State) (w : WorkerId) (c : CrId)

/-- The memory of a new coroutine, and its count. -/
def create (cfg : Config) : State :=
  { s with
    created := c :: s.created
    active := if cfg.daemon c then s.active else s.active + 1 }

/-- The coroutine is pinned to worker `w`; `s_live_link`. -/
def liveLink : State :=
  { s with
    pin := Function.update s.pin c (some w)
    links := s.links.link (s.liveCrs w) c
    liveCrs := Function.update s.liveCrs w (some c) }

/-- `s_live_unlink` -/
def liveUnlink : State :=
  { s with
    links := s.links.unlink c
    liveCrs := Function.update s.liveCrs w (s.links.unlinkHead (s.liveCrs w) c) }

/-- `suspenders_zombie_enqueue` -/
def zombieEnqueue : State :=
  { s.liveUnlink w c with zombies := Function.update s.zombies w (c :: s.zombies w) }

/-- `suspenders_cr_exit` -/
def crExit (cfg : Config) : State :=
  { s with
    done := Function.update s.done c true
    active := if cfg.daemon c then s.active else s.active - 1 }.zombieEnqueue w c

/-- `s_zombie_reap` -/
def zombieReap : State :=
  { s with
    destroyed := s.destroyed ++ s.zombies w
    zombies := Function.update s.zombies w [] }

/-- `s_live_reap` -/
def liveReap : State :=
  { s with
    destroyed := s.destroyed ++ (s.links.walk s.created.length (s.liveCrs w)).1
    liveCrs := Function.update s.liveCrs w (s.links.walk s.created.length (s.liveCrs w)).2 }

/-- The coroutines that never ran. -/
def injectorReap : State :=
  { s with
    destroyed := s.destroyed ++ (List.finRange 4).flatMap s.injector
    injector := fun _ => [] }

/-- The end of a helper's thread. -/
def helperExit : State :=
  { (s.zombieReap w).liveReap w with exited := Function.update s.exited w true }

/-- `suspenders_shutdown` behind the joins. -/
def shutdownReap : State :=
  { (s.injectorReap.zombieReap 0).liveReap 0 with active := 0, stage := .down }

/-- The coroutines on the live list of worker `w`. -/
def live : List CrId := (s.links.walk s.created.length (s.liveCrs w)).1

/-- The scheduler loop of worker `w` runs.  That of worker 0 does not run inside `suspenders_shutdown`. -/
def Running (cfg : Config) : Prop :=
  w < cfg.workers ∧ s.exited w = false ∧ (w = 0 → s.stage = .up) ∧ s.stage ≠ .down

end State

/-- What happens. -/
inductive Event
  | spawn (a : Thread) (c : CrId)
  | take (w : WorkerId) (c : CrId)
  | exit (w : WorkerId) (c : CrId)
  | reap (w : WorkerId)
  | shutdown
  | helperExit (w : WorkerId)
  | finish

/-- One step of the runtime. -/
inductive Step (cfg : Config) : State → Event → State → Prop
  | spawn {s : State} {a : Thread} {c : CrId} {q : Fin 4} :
      s.stage = .up → c ∉ s.created → (cfg.workers ≠ 1 ∨ a.worker = none) →
      Step cfg s (.spawn a c) { s.create c cfg with
        injector := Function.update s.injector q (s.injector q ++ [c]) }
  -- a single worker keeps what it spawns
  | spawnLocal {s : State} {c : CrId} :
      s.stage = .up → c ∉ s.created → cfg.workers = 1 →
      Step cfg s (.spawn (.on 0) c) ((s.create c cfg).liveLink 0 c)
  -- `s_injector_take`
  | take {s : State} {w : WorkerId} {c : CrId} {q : Fin 4} {rest : List CrId} :
      s.Running w cfg → s.injector q = c :: rest → (∀ q' < q, s.injector q' = []) →
      Step cfg s (.take w c)
        ({ s with injector := Function.update s.injector q rest }.liveLink w c)
  | exit {s : State} {w : WorkerId} {c : CrId} :
      s.Running w cfg → s.pin c = some w → s.done c = false →
      Step cfg s (.exit w c) (s.crExit w c cfg)
  | reap {s : State} {w : WorkerId} :
      s.Running w cfg → Step cfg s (.reap w) (s.zombieReap w)
  | shutdown {s : State} :
      s.stage = .up → Step cfg s .shutdown { s with stage := .stopping }
  -- the loop has read `s_stop`
  | helperExit {s : State} {w : WorkerId} :
      s.stage = .stopping → 0 < w → w < cfg.workers → s.exited w = false →
      Step cfg s (.helperExit w) (s.helperExit w)
  | finish {s : State} :
      s.stage = .stopping → (∀ w, 0 < w → w < cfg.workers → s.exited w = true) →
      Step cfg s .finish s.shutdownReap

/-! ## Places -/

/-- Where an arena can be. -/
inductive Place
  | injector (q : Fin 4)
  | live (w : WorkerId)
  | zombies (w : WorkerId)
  /-- It is destroyed. -/
  | gone
  deriving DecidableEq

/-- The coroutines in each place; `L` gives the live lists. -/
def places (s : State) (L : WorkerId → List CrId) : Place → List CrId
  | .injector q => s.injector q
  | .live w => L w
  | .zombies w => s.zombies w
  | .gone => s.destroyed

section Update

variable (s : State) (L : WorkerId → List CrId) (w : WorkerId) (q : Fin 4) (l : List CrId)

lemma places_injector : places { s with injector := Function.update s.injector q l } L =
    Function.update (places s L) (.injector q) l := by
  funext p
  cases p <;> simp [places, Function.update_apply]

lemma places_live : places s (Function.update L w l) = Function.update (places s L) (.live w) l := by
  funext p
  cases p <;> simp [places, Function.update_apply]

lemma places_zombies : places { s with zombies := Function.update s.zombies w l } L =
    Function.update (places s L) (.zombies w) l := by
  funext p
  cases p <;> simp [places, Function.update_apply]

end Update

/-- What the fields of a coroutine say in each place. -/
def Fits (s : State) (c : CrId) : Place → Prop
  | .injector _ => s.pin c = none ∧ s.done c = false
  | .live w => s.pin c = some w ∧ s.done c = false
  | .zombies w => s.pin c = some w ∧ s.done c = true
  -- a coroutine that is not done was abandoned
  | .gone => s.done c = true ∨ s.stage = .down ∨ ∃ w, s.pin c = some w ∧ s.exited w = true

lemma Fits.mono {s s' : State} {c : CrId} {p : Place} (h : Fits s c p) (hpin : s'.pin c = s.pin c)
    (hdone : s'.done c = s.done c) (hstage : s.stage = .down → s'.stage = .down)
    (hexit : ∀ w, s.exited w = true → s'.exited w = true) : Fits s' c p := by
  cases p with
  | injector | live | zombies => simpa [Fits, hpin, hdone] using h
  | gone =>
    rcases h with h | h | ⟨w, hw, h⟩
    · exact Or.inl (hdone.trans h)
    · exact Or.inr (Or.inl (hstage h))
    · exact Or.inr (Or.inr ⟨w, hpin.trans hw, hexit w h⟩)

/-- The number of non-daemon coroutines that are not done. -/
def unfinished (cfg : Config) (s : State) : ℕ :=
  s.created.countP fun c => !cfg.daemon c && !s.done c

/-- Every arena is in one place. -/
structure ArenaInv (cfg : Config) (s : State) (L : WorkerId → List CrId) : Prop where
  dlist : ∀ w, Dlist s.links (s.liveCrs w) (L w)
  nodup : s.created.Nodup
  part : Partition (places s L) s.created
  fits : ∀ p, ∀ c ∈ places s L p, Fits s c p
  fresh : ∀ c ∉ s.created, s.pin c = none ∧ s.done c = false
  quiet : ∀ w, cfg.workers ≤ w ∨ s.exited w = true → L w = [] ∧ s.zombies w = []
  exited : ∀ w, s.exited w = true → s.stage ≠ .up ∧ 0 < w
  down : s.stage = .down → ∀ p ≠ .gone, places s L p = []
  active : s.stage ≠ .down → s.active = unfinished cfg s
  reset : s.stage = .down → s.active = 0

/-! ## The lists -/

section Lists

variable {cfg : Config} {s : State} {L : WorkerId → List CrId} {w : WorkerId} {c : CrId}

lemma live_disjoint (hpart : Partition (places s L) s.created) {v : WorkerId} (hv : v ≠ w) :
    ∀ b ∈ L w, b ∉ L v := by
  intro b hb hb'
  exact hv (by simpa using hpart.unique (i := .live v) (j := .live w) hb' hb)

lemma dlist_liveLink (hd : ∀ v, Dlist s.links (s.liveCrs v) (L v)) (hpart : Partition (places s L) s.created)
    (hc : ∀ v, c ∉ L v) (v : WorkerId) :
    Dlist (s.links.link (s.liveCrs w) c) (Function.update s.liveCrs w (some c) v)
      (Function.update L w (c :: L w) v) := by
  by_cases hv : v = w
  · subst hv
    simpa using (hd v).link (hpart.nodup (.live v)) (hc v)
  · simp only [Function.update_of_ne hv]
    exact (hd w).link_other (hd v) (hc v) (live_disjoint hpart hv)

lemma dlist_liveUnlink (hd : ∀ v, Dlist s.links (s.liveCrs v) (L v))
    (hpart : Partition (places s L) s.created) (hc : c ∈ L w) (v : WorkerId) :
    Dlist (s.links.unlink c) (Function.update s.liveCrs w (s.links.unlinkHead (s.liveCrs w) c) v)
      (Function.update L w ((L w).erase c) v) := by
  by_cases hv : v = w
  · subst hv
    simpa using (hd v).unlink (hpart.nodup (.live v)) hc
  · simp only [Function.update_of_ne hv]
    exact (hd w).unlink_other (hd v) hc (live_disjoint hpart hv)

/-- The loop of `s_live_reap` ends, and it has visited the whole live list. -/
lemma walk_live (hi : ArenaInv cfg s L) (w : WorkerId) :
    s.links.walk s.created.length (s.liveCrs w) = (L w, none) :=
  (hi.dlist w).walk_eq (hi.part.length_le (.live w))

end Lists

/-! ## The steps -/

section Steps

variable {cfg : Config} {s : State} {L : WorkerId → List CrId} {w : WorkerId} {c : CrId}

lemma unfinished_create (hfresh : s.done c = false) :
    unfinished cfg (s.create c cfg) =
      if cfg.daemon c then unfinished cfg s else unfinished cfg s + 1 := by
  unfold unfinished State.create
  rw [List.countP_cons]
  cases cfg.daemon c <;> simp [hfresh]

lemma unfinished_crExit (hnodup : s.created.Nodup) (hc : c ∈ s.created) (hdone : s.done c = false) :
    unfinished cfg s = unfinished cfg (s.crExit w c cfg) + if cfg.daemon c then 0 else 1 := by
  have hperm := List.perm_cons_erase hc
  have hother : ∀ d ∈ s.created.erase c, Function.update s.done c true d = s.done d := by
    intro d hd
    exact Function.update_of_ne (fun hdc => hnodup.not_mem_erase (hdc ▸ hd)) _ _
  have hsame : (s.created.erase c).countP (fun d => !cfg.daemon d && !Function.update s.done c true d) =
      (s.created.erase c).countP fun d => !cfg.daemon d && !s.done d :=
    List.countP_congr fun d hd => by rw [hother d hd]
  unfold unfinished State.crExit State.zombieEnqueue State.liveUnlink
  rw [hperm.countP_eq, hperm.countP_eq, List.countP_cons, List.countP_cons, hsame]
  cases cfg.daemon c <;> simp [hdone]

lemma arenaInv_spawn (hi : ArenaInv cfg s L) (hup : s.stage = .up) (hc : c ∉ s.created) (q : Fin 4) :
    ArenaInv cfg { s.create c cfg with
      injector := Function.update s.injector q (s.injector q ++ [c]) } L := by
  obtain ⟨hpin, hdone⟩ := hi.fresh c hc
  have hplaces : places { s.create c cfg with
      injector := Function.update s.injector q (s.injector q ++ [c]) } L =
      Function.update (places s L) (.injector q) (places s L (.injector q) ++ [c]) :=
    places_injector (s.create c cfg) L q _
  refine ⟨hi.dlist, ?_, ?_, ?_, ?_, hi.quiet, hi.exited, ?_, ?_, ?_⟩
  · exact List.nodup_cons.mpr ⟨hc, hi.nodup⟩
  · rw [hplaces]
    exact hi.part.add hc (List.perm_append_singleton c _)
  · intro p d hd
    rw [hplaces] at hd
    rcases Partition.mem_add (List.perm_append_singleton c _) hd with hd | ⟨rfl, rfl⟩
    · exact (hi.fits p d hd).mono rfl rfl id fun _ => id
    · exact ⟨hpin, hdone⟩
  · intro d hd
    exact hi.fresh d fun h => hd (List.mem_cons_of_mem _ h)
  · intro h
    simp [State.create, hup] at h
  · intro _
    have hnew := @unfinished_create cfg _ _ hdone
    have hold := hi.active (by simp [hup])
    simp only [unfinished, State.create] at hnew hold ⊢
    rw [hnew, hold]
  · intro h
    simp [State.create, hup] at h

lemma arenaInv_spawnLocal (hi : ArenaInv cfg s L) (hup : s.stage = .up) (hc : c ∉ s.created) :
    ArenaInv cfg ((s.create c cfg).liveLink 0 c) (Function.update L 0 (c :: L 0)) := by
  obtain ⟨hpin, hdone⟩ := hi.fresh c hc
  have hplaces : places ((s.create c cfg).liveLink 0 c) (Function.update L 0 (c :: L 0)) =
      Function.update (places s L) (.live 0) (c :: places s L (.live 0)) :=
    places_live s L 0 _
  refine ⟨?_, ?_, ?_, ?_, ?_, ?_, hi.exited, ?_, ?_, ?_⟩
  · exact dlist_liveLink (s := s) hi.dlist hi.part fun v => hi.part.only c hc (.live v)
  · exact List.nodup_cons.mpr ⟨hc, hi.nodup⟩
  · rw [hplaces]
    exact hi.part.add hc (List.Perm.refl _)
  · intro p d hd
    rw [hplaces] at hd
    rcases Partition.mem_add (List.Perm.refl _) hd with hd | ⟨rfl, rfl⟩
    · have hne : d ≠ c := fun h => hc (h ▸ hi.part.mem hd)
      exact (hi.fits p d hd).mono (by simp [State.liveLink, State.create, hne]) rfl id fun _ => id
    · exact ⟨by simp [State.liveLink], hdone⟩
  · intro d hd
    have hne : d ≠ c := fun h => hd (by simp [State.liveLink, State.create, h])
    obtain ⟨hpin, hdone⟩ := hi.fresh d fun h => hd (List.mem_cons_of_mem _ h)
    exact ⟨by simpa [State.liveLink, State.create, hne] using hpin, hdone⟩
  · intro v hv
    have hne : v ≠ 0 := by
      rintro rfl
      rcases hv with hv | hv
      · exact absurd cfg.pos (Nat.not_lt.mpr hv)
      · exact absurd (hi.exited 0 hv).2 (by simp)
    simpa [hne, State.liveLink, State.create] using hi.quiet v hv
  · intro h
    simp [State.liveLink, State.create, hup] at h
  · intro _
    have hnew := @unfinished_create cfg _ _ hdone
    have hold := hi.active (by simp [hup])
    simp only [unfinished, State.create, State.liveLink] at hnew hold ⊢
    rw [hnew, hold]
  · intro h
    simp [State.liveLink, State.create, hup] at h

lemma arenaInv_take (hi : ArenaInv cfg s L) (hw : s.Running w cfg) {q : Fin 4} {rest : List CrId}
    (hq : s.injector q = c :: rest) :
    ArenaInv cfg ({ s with injector := Function.update s.injector q rest }.liveLink w c)
      (Function.update L w (c :: L w)) := by
  obtain ⟨hlt, hexit, -, hdown⟩ := hw
  have hmem : c ∈ places s L (.injector q) := by simp [places, hq]
  obtain ⟨hpin, hdone⟩ := hi.fits _ c hmem
  have hcreated := hi.part.mem hmem
  have hplaces : places ({ s with injector := Function.update s.injector q rest }.liveLink w c)
      (Function.update L w (c :: L w)) =
      Function.update (Function.update (places s L) (.injector q) ((places s L (.injector q)).erase c))
        (.live w) (c :: places s L (.live w)) := by
    have hrest : (places s L (.injector q)).erase c = rest := by simp [places, hq]
    rw [hrest, ← places_injector, ← places_live]
    rfl
  refine ⟨?_, hi.nodup, ?_, ?_, ?_, ?_, hi.exited, ?_, ?_, ?_⟩
  · refine dlist_liveLink (s := s) hi.dlist hi.part fun v hv => ?_
    have hplace := hi.part.unique hmem (show c ∈ places s L (.live v) from hv)
    simp at hplace
  · rw [hplaces]
    exact hi.part.move hmem (by simp)
  · intro p d hd
    rw [hplaces] at hd
    rcases hi.part.mem_move hmem (by simp) hd with ⟨rfl, rfl⟩ | ⟨hne, hd⟩
    · exact ⟨by simp [State.liveLink], hdone⟩
    · exact (hi.fits p d hd).mono (by simp [State.liveLink, hne]) rfl id fun _ => id
  · intro d hd
    have hne : d ≠ c := fun h => hd (h ▸ hcreated)
    exact ⟨by simpa [State.liveLink, hne] using (hi.fresh d hd).1, (hi.fresh d hd).2⟩
  · intro v hv
    have hne : v ≠ w := by
      rintro rfl
      rcases hv with hv | hv
      · exact absurd hlt (Nat.not_lt.mpr hv)
      · simp [State.liveLink, hexit] at hv
    simpa [hne, State.liveLink] using hi.quiet v hv
  · intro h
    exact absurd h hdown
  · exact hi.active
  · exact hi.reset

/-- The running coroutine of a worker is on its live list. -/
lemma mem_live (hi : ArenaInv cfg s L) (hw : s.Running w cfg) (hpin : s.pin c = some w)
    (hdone : s.done c = false) : c ∈ places s L (.live w) := by
  obtain ⟨-, hexit, -, hdown⟩ := hw
  have hcreated : c ∈ s.created := by
    by_contra hc
    simp [(hi.fresh c hc).1] at hpin
  obtain ⟨p, hcount⟩ := hi.part.once c hcreated
  have hmem : c ∈ places s L p := List.count_pos_iff.mp (by simp [hcount])
  have hfits := hi.fits p c hmem
  cases p with
  | injector q => simp [Fits, hpin] at hfits
  | live v =>
    obtain rfl : w = v := by simpa [hpin] using hfits.1
    exact hmem
  | zombies v => simp [Fits, hdone] at hfits
  | gone => simp [Fits, hdone, hdown, hpin, hexit] at hfits

lemma arenaInv_exit (hi : ArenaInv cfg s L) (hw : s.Running w cfg) (hpin : s.pin c = some w)
    (hdone : s.done c = false) :
    ArenaInv cfg (s.crExit w c cfg) (Function.update L w ((L w).erase c)) := by
  have hmem := mem_live hi hw hpin hdone
  have hcreated := hi.part.mem hmem
  obtain ⟨hlt, hexit, -, hdown⟩ := hw
  have hplaces : places (s.crExit w c cfg) (Function.update L w ((L w).erase c)) =
      Function.update (Function.update (places s L) (.live w) ((places s L (.live w)).erase c))
        (.zombies w) (c :: places s L (.zombies w)) := by
    rw [show (places s L (.live w)).erase c = (L w).erase c from rfl, ← places_live, ← places_zombies]
    rfl
  refine ⟨?_, hi.nodup, ?_, ?_, ?_, ?_, hi.exited, ?_, ?_, ?_⟩
  · exact dlist_liveUnlink (s := s) hi.dlist hi.part hmem
  · rw [hplaces]
    exact hi.part.move hmem (by simp)
  · intro p d hd
    rw [hplaces] at hd
    rcases hi.part.mem_move hmem (by simp) hd with ⟨rfl, rfl⟩ | ⟨hne, hd⟩
    · exact ⟨hpin, by simp [State.crExit, State.zombieEnqueue, State.liveUnlink]⟩
    · refine (hi.fits p d hd).mono rfl ?_ id fun _ => id
      simp [State.crExit, State.zombieEnqueue, State.liveUnlink, hne]
  · intro d hd
    have hne : d ≠ c := fun h => hd (h ▸ hcreated)
    refine ⟨(hi.fresh d hd).1, ?_⟩
    simpa [State.crExit, State.zombieEnqueue, State.liveUnlink, hne] using (hi.fresh d hd).2
  · intro v hv
    have hne : v ≠ w := by
      rintro rfl
      rcases hv with hv | hv
      · exact absurd hlt (Nat.not_lt.mpr hv)
      · exact absurd (hexit.symm.trans hv) (by simp)
    simpa [hne, State.crExit, State.zombieEnqueue, State.liveUnlink] using hi.quiet v hv
  · intro h
    exact absurd h hdown
  · intro _
    have hcount := @unfinished_crExit cfg _ w _ hi.nodup hcreated hdone
    have hold := hi.active hdown
    have hactive : (s.crExit w c cfg).active = if cfg.daemon c then s.active else s.active - 1 := rfl
    rw [hactive, hold, hcount]
    split <;> simp
  · intro h
    exact absurd h hdown

/-- The zombies of a worker are destroyed. -/
lemma places_zombieReap : places (s.zombieReap w) L =
    Function.update (Function.update (places s L) (.zombies w) []) .gone
      (places s L .gone ++ places s L (.zombies w)) := by
  rw [← places_zombies]
  funext p
  cases p <;> simp [places, State.zombieReap]

/-- The live list of a worker is destroyed. -/
lemma places_liveReap {s' : State} {l : List CrId} (hlist : s'.destroyed = s.destroyed ++ l)
    (hinj : s'.injector = s.injector) (hzom : s'.zombies = s.zombies) (hl : L w = l) :
    places s' (Function.update L w []) =
      Function.update (Function.update (places s L) (.live w) []) .gone
        (places s L .gone ++ places s L (.live w)) := by
  rw [← places_live]
  funext p
  cases p <;> simp [places, hlist, hinj, hzom, hl]

lemma arenaInv_reap (hi : ArenaInv cfg s L) (hdown : s.stage ≠ .down) : ArenaInv cfg (s.zombieReap w) L := by
  refine ⟨hi.dlist, hi.nodup, ?_, ?_, hi.fresh, ?_, hi.exited, ?_, hi.active, hi.reset⟩
  · rw [places_zombieReap]
    exact hi.part.sweep (by simp)
  · intro p d hd
    rw [places_zombieReap] at hd
    rcases Partition.mem_sweep hd with hold | ⟨rfl, hzombie⟩
    · exact (hi.fits p d hold).mono rfl rfl id fun _ => id
    · exact Or.inl (hi.fits _ d hzombie).2
  · intro v hv
    obtain ⟨hlive, hzombies⟩ := hi.quiet v hv
    refine ⟨hlive, ?_⟩
    by_cases hvw : v = w
    · simp [State.zombieReap, hvw]
    · simpa [State.zombieReap, hvw] using hzombies
  · intro h
    exact absurd h hdown

lemma dlist_clear (hd : ∀ v, Dlist s.links (s.liveCrs v) (L v)) (v : WorkerId) :
    Dlist s.links (Function.update s.liveCrs w none v) (Function.update L w [] v) := by
  by_cases hv : v = w
  · subst hv
    simpa using Dlist.nil
  · simpa [hv] using hd v

lemma arenaInv_helperExit (hi : ArenaInv cfg s L) (hstop : s.stage = .stopping) (hpos : 0 < w) :
    ArenaInv cfg (s.helperExit w) (Function.update L w []) := by
  have hi₁ : ArenaInv cfg (s.zombieReap w) L := arenaInv_reap hi (by simp [hstop])
  have hwalk := walk_live hi₁ w
  have hplaces := @places_liveReap (s.zombieReap w) L w (s.helperExit w) _
    (by simp [State.helperExit, State.liveReap, hwalk]) rfl rfl rfl
  refine ⟨?_, hi₁.nodup, ?_, ?_, hi₁.fresh, ?_, ?_, ?_, hi₁.active, hi₁.reset⟩
  · simpa [State.helperExit, State.liveReap, hwalk] using dlist_clear (s := s.zombieReap w) hi₁.dlist
  · rw [hplaces]
    exact hi₁.part.sweep (by simp)
  · intro p d hd
    rw [hplaces] at hd
    rcases Partition.mem_sweep hd with hold | ⟨rfl, hlive⟩
    · refine (hi₁.fits p d hold).mono rfl rfl id fun v hv => ?_
      by_cases hvw : v = w
      · simp [State.helperExit, hvw]
      · simpa [State.helperExit, State.zombieReap, hvw] using hv
    · exact Or.inr (Or.inr ⟨w, (hi₁.fits _ d hlive).1, by simp [State.helperExit]⟩)
  · intro v hv
    by_cases hvw : v = w
    · simp [hvw, State.helperExit, State.liveReap, State.zombieReap]
    · have hold := hi₁.quiet v (by simpa [State.helperExit, State.zombieReap, hvw] using hv)
      simpa [State.helperExit, State.liveReap, State.zombieReap, hvw] using hold
  · intro v hv
    refine ⟨by simp [State.helperExit, State.liveReap, State.zombieReap, hstop], ?_⟩
    by_cases hvw : v = w
    · exact hvw ▸ hpos
    · exact (hi₁.exited v (by simpa [State.helperExit, State.zombieReap, hvw] using hv)).2
  · intro h
    simp [State.helperExit, State.liveReap, State.zombieReap, hstop] at h

/-- The injector is destroyed. -/
lemma partition_injectorReap (hpart : Partition (places s L) s.created) :
    Partition (places s.injectorReap L) s.created := by
  have hnodup : ((List.finRange 4).map Place.injector).Nodup := by decide
  have hgone : Place.gone ∉ (List.finRange 4).map Place.injector := by simp
  convert hpart.sweepAll hgone hnodup using 1
  funext p
  cases p <;> simp [places, State.injectorReap, List.flatMap_map]

lemma arenaInv_finish (hi : ArenaInv cfg s L) (hjoin : ∀ w, 0 < w → w < cfg.workers → s.exited w = true) :
    ArenaInv cfg s.shutdownReap (Function.update L 0 []) := by
  -- nothing is left on the lists of the other workers
  have hquiet (w : WorkerId) (hw : w ≠ 0) : L w = [] ∧ s.zombies w = [] := by
    refine hi.quiet w ?_
    by_cases hlt : w < cfg.workers
    · exact Or.inr (hjoin w (Nat.pos_of_ne_zero hw) hlt)
    · exact Or.inl (Nat.not_lt.mp hlt)
  have hwalk : (s.injectorReap.zombieReap 0).links.walk (s.injectorReap.zombieReap 0).created.length
      ((s.injectorReap.zombieReap 0).liveCrs 0) = (L 0, none) := walk_live hi 0
  have hplaces := @places_liveReap (s.injectorReap.zombieReap 0) L 0 s.shutdownReap _
    (by simp [State.shutdownReap, State.liveReap, hwalk]) rfl rfl rfl
  have hempty : ∀ p ≠ .gone, places s.shutdownReap (Function.update L 0 []) p = [] := by
    intro p hp
    cases p with
    | injector q => rfl
    | live w =>
      by_cases hw : w = 0
      · simp [places, hw]
      · simpa [places, hw] using (hquiet w hw).1
    | zombies w =>
      by_cases hw : w = 0
      · simp [places, hw, State.shutdownReap, State.liveReap, State.zombieReap]
      · simpa [places, hw, State.shutdownReap, State.liveReap, State.zombieReap, State.injectorReap]
          using (hquiet w hw).2
    | gone => exact absurd rfl hp
  refine ⟨?_, hi.nodup, ?_, ?_, hi.fresh, ?_, ?_, fun _ => hempty, ?_, ?_⟩
  · simpa [State.shutdownReap, State.liveReap, hwalk]
      using dlist_clear (s := s.injectorReap.zombieReap 0) (w := 0) hi.dlist
  · rw [hplaces, places_zombieReap]
    exact ((partition_injectorReap hi.part).sweep (by simp)).sweep (by simp)
  · intro p d hd
    by_cases hp : p = .gone
    · exact hp ▸ Or.inr (Or.inl rfl)
    · simp [hempty p hp] at hd
  · intro w _
    exact ⟨hempty (.live w) (by simp), hempty (.zombies w) (by simp)⟩
  · intro w hw
    exact ⟨by simp [State.shutdownReap], (hi.exited w hw).2⟩
  · intro h
    exact absurd rfl h
  · intro _
    rfl

end Steps

theorem arenaInv_step {cfg : Config} {s s' : State} {e : Event} (hi : ∃ L, ArenaInv cfg s L)
    (h : Step cfg s e s') : ∃ L, ArenaInv cfg s' L := by
  obtain ⟨L, hi⟩ := hi
  cases h with
  | spawn hup hc => exact ⟨L, arenaInv_spawn hi hup hc _⟩
  | spawnLocal hup hc => exact ⟨_, arenaInv_spawnLocal hi hup hc⟩
  | take hw hq => exact ⟨_, arenaInv_take hi hw hq⟩
  | exit hw hpin hdone => exact ⟨_, arenaInv_exit hi hw hpin hdone⟩
  | reap hw => exact ⟨L, arenaInv_reap hi hw.2.2.2⟩
  | shutdown hup =>
    refine ⟨L, hi.dlist, hi.nodup, hi.part, ?_, hi.fresh, hi.quiet, ?_, ?_, ?_, ?_⟩
    · exact fun p d hd => (hi.fits p d hd).mono rfl rfl (fun h => by simp [hup] at h) fun _ => id
    · exact fun w hw => ⟨by simp, (hi.exited w hw).2⟩
    · simp
    · exact fun _ => hi.active (by simp [hup])
    · simp
  | helperExit hstop hpos => exact ⟨_, arenaInv_helperExit hi hstop hpos⟩
  | finish _ hjoin => exact ⟨_, arenaInv_finish hi hjoin⟩

lemma arenaInv_init (cfg : Config) : ArenaInv cfg .init fun _ => [] := by
  have hempty (p : Place) : places .init (fun _ => []) p = [] := by cases p <;> rfl
  refine ⟨fun _ => .nil, List.nodup_nil, ⟨?_, ?_⟩, ?_, ?_, ?_, ?_, fun _ => ?_, fun _ => rfl, ?_⟩
  · simp [State.init]
  · simp [hempty]
  · simp [hempty]
  · simp [State.init]
  · simp [State.init]
  · simp [State.init]
  · simp [hempty]
  · simp [State.init]

lemma arenaInv_reachable {cfg : Config} {s : State} (h : Reachable (Step cfg) .init s) :
    ∃ L, ArenaInv cfg s L :=
  h.invariant (I := fun s => ∃ L, ArenaInv cfg s L) ⟨_, arenaInv_init cfg⟩
    fun _ _ _ hi hstep => arenaInv_step hi hstep

/-! ## The contract -/

/-- An arena that was not destroyed has one owner: it is once in the list of place `p`, in no other list, and the
worker whose list it is is the one the coroutine is pinned to. -/
def Owned (s : State) (c : CrId) (p : Place) : Prop :=
  p ≠ .gone ∧ Fits s c p ∧ ∀ p', (places s s.live p').count c = if p' = p then 1 else 0

/-- Helpers that have read `s_stop` leave, one after the other. -/
lemma helpers_exit {cfg : Config} {s : State} (hstop : s.stage = .stopping) (k : ℕ) (hk : k ≤ cfg.workers) :
    ∃ t, Reachable (Step cfg) s t ∧ t.stage = .stopping ∧ ∀ w, 0 < w → w < k → t.exited w = true := by
  induction k with
  | zero => exact ⟨s, .refl _ _, hstop, fun w _ hw => absurd hw (Nat.not_lt_zero w)⟩
  | succ k ih =>
    obtain ⟨t, hreach, ht, hexited⟩ := ih (by omega)
    by_cases hk' : 0 < k ∧ t.exited k = false
    · refine ⟨t.helperExit k, hreach.step (.helperExit ht hk'.1 (Nat.lt_of_succ_le hk) hk'.2), ht, fun w hpos hw => ?_⟩
      by_cases hwk : w = k
      · simp [State.helperExit, hwk]
      · have := hexited w hpos (by omega)
        simpa [State.helperExit, State.liveReap, State.zombieReap, hwk] using this
    · refine ⟨t, hreach, ht, fun w hpos hw => ?_⟩
      by_cases hwk : w = k
      · subst hwk
        simpa [hpos] using hk'
      · exact hexited w hpos (by omega)

/-- `suspenders_shutdown` can always be called and run to its end. -/
lemma shutdown_completes {cfg : Config} {s : State} (hs : s.stage ≠ .down) :
    ∃ t, Reachable (Step cfg) s t ∧ t.stage = .down := by
  have finish {s : State} (hstop : s.stage = .stopping) : ∃ t, Reachable (Step cfg) s t ∧ t.stage = .down := by
    obtain ⟨t, hreach, ht, hexited⟩ := @helpers_exit cfg _ hstop cfg.workers (Nat.le_refl _)
    exact ⟨t.shutdownReap, hreach.step (.finish ht hexited), rfl⟩
  cases hstage : s.stage with
  | up =>
    obtain ⟨t, ⟨es, hrun⟩, ht⟩ := finish (s := { s with stage := .stopping }) rfl
    exact ⟨t, ⟨_, .cons (.shutdown hstage) hrun⟩, ht⟩
  | stopping => exact finish hstage
  | down => exact absurd hstage hs

/-- Every arena that was not destroyed has exactly one owner; `active_coroutines` is the number of non-daemon
coroutines that are not done, until the end of `suspenders_shutdown` resets it; no arena is destroyed twice;
and `suspenders_shutdown` gets to its end, where every arena is destroyed and all lists are empty. -/
theorem arena_ownership {cfg : Config} {s : State} (h : Reachable (Step cfg) .init s) :
    (∀ c ∈ s.created, c ∉ s.destroyed → ∃! p, Owned s c p) ∧
    (s.stage ≠ .down → s.active = unfinished cfg s) ∧
    s.destroyed.Nodup ∧ (∀ c ∈ s.destroyed, c ∈ s.created) ∧
    (s.stage ≠ .down → ∃ t, Reachable (Step cfg) s t ∧ t.stage = .down) ∧
    (s.stage = .down → s.active = 0 ∧ (∀ c ∈ s.created, c ∈ s.destroyed) ∧
      ∀ p ≠ .gone, places s s.live p = []) := by
  obtain ⟨L, hi⟩ := arenaInv_reachable h
  have hlive : s.live = L := by
    funext w
    simp [State.live, walk_live hi w]
  rw [hlive]
  refine ⟨fun c hc hgone => ?_, hi.active, hi.part.nodup .gone, fun c hc => ?_, shutdown_completes, ?_⟩
  · obtain ⟨p, hcount⟩ := hi.part.once c hc
    have hmem : c ∈ places s L p := List.count_pos_iff.mp (by simp [hcount])
    have hp : p ≠ .gone := by
      rintro rfl
      exact hgone hmem
    refine ⟨p, ⟨hp, hi.fits p c hmem, by rwa [hlive]⟩, ?_⟩
    rintro p' ⟨-, -, hcount'⟩
    rw [hlive] at hcount'
    exact hi.part.unique (List.count_pos_iff.mp (by simp [hcount'])) hmem
  · exact hi.part.mem (show c ∈ places s L .gone from hc)
  · intro hdown
    refine ⟨hi.reset hdown, fun c hc => ?_, hi.down hdown⟩
    obtain ⟨p, hcount⟩ := hi.part.once c hc
    have hmem : c ∈ places s L p := List.count_pos_iff.mp (by simp [hcount])
    by_cases hp : p = .gone
    · subst hp
      exact hmem
    · simp [hi.down hdown p hp] at hmem

/-- Two workers; coroutine 2 is a daemon. -/
def pair : Config := ⟨2, Nat.two_pos, fun c => c == 2⟩

/-- Shutdown while busy: coroutine 0 is finished, but not reaped, coroutine 1 is suspended on the helper, and
coroutine 2 has never run. -/
theorem arena_ownership_busy : ∃ s, Reachable (Step pair) .init s ∧ s.stage = .down ∧
    s.created = [2, 1, 0] ∧ s.destroyed = [0, 1, 2] ∧ s.active = 0 ∧ s.destroyed.Nodup := by
  have hreach : Reachable (Step pair) .init _ :=
    ⟨_, .cons (.spawn (a := .on 0) (c := 0) (q := 1) rfl (by simp [State.init]) (.inl (by decide))) <|
      .cons (.spawn (a := .on 0) (c := 1) (q := 1) rfl (by decide) (.inl (by decide))) <|
      .cons (.spawn (a := .on 0) (c := 2) (q := 1) rfl (by decide) (.inl (by decide))) <|
      .cons (.take (w := 1) (c := 0) (q := 1) ⟨by decide, rfl, by decide, by decide⟩ rfl (by decide)) <|
      .cons (.take (w := 1) (c := 1) (q := 1) ⟨by decide, rfl, by decide, by decide⟩ rfl (by decide)) <|
      .cons (.exit (w := 1) (c := 0) ⟨by decide, rfl, by decide, by decide⟩ rfl rfl) <|
      .cons (.shutdown rfl) <|
      .cons (.helperExit (w := 1) rfl (by decide) (by decide) rfl) <|
      .cons (.finish rfl (by
        intro w hpos hlt
        obtain rfl : w = 1 := by
          have : w < 2 := hlt
          omega
        rfl)) <| .nil _⟩
  obtain ⟨-, -, hnodup, -, -, hdown⟩ := arena_ownership hreach
  exact ⟨_, hreach, rfl, rfl, rfl, (hdown rfl).1, hnodup⟩

end Suspenders.Arena
