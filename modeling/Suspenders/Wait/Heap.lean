import Suspenders.Wait.Channel

/-!
# The structures and their critical sections

`Heap` is the shared state that ticket locks protect: channels, mutexes, read-write locks, condition
variables and wait groups, with all wait nodes.  An `Op` is one critical section: what an API call does
between taking and releasing the lock of one structure.  `exec` runs it.  Its `Out` says how the call
goes on (it returns, or it parks) and which waiters it has granted; the caller then wakes them.

`exec_granted` summarises all operations for the wait protocol: whatever the operation, its effect on
the nodes is `Waits.Granted`.
-/

namespace Suspenders.Wait

open Lib (Bytes)

/-- `suspenders_rwlock_t` without its list and its lock. -/
structure RwLock where
  /-- `readers` -/
  readers : ℕ
  /-- `writer` -/
  writer : Bool

/-- Everything the ticket locks protect. -/
structure Heap where
  /-- Wait nodes and lists. -/
  waits : Waits
  /-- The channels. -/
  chan : ℕ → Chan
  /-- `owner` of each mutex. -/
  owner : ℕ → Option Ctx
  /-- The read-write locks. -/
  rw : ℕ → RwLock
  /-- `count` of each wait group. -/
  wg : ℕ → ℤ

/-- The element sizes and capacities the channels are created with. -/
abbrev Config := ℕ → ℕ × ℕ

/-- Freshly initialised structures. -/
def Heap.init (cfg : Config) : Heap where
  waits := .init
  chan := fun ch => .create (cfg ch).1 (cfg ch).2
  owner := fun _ => none
  rw := fun _ => ⟨0, false⟩
  wg := fun _ => 0

/-- The critical sections. -/
inductive Op
  /-- `s_chan_send_impl` -/
  | send (ch : ℕ) (val : Bytes) (tryOnly : Bool)
  /-- `s_chan_recv_impl` -/
  | recv (ch : ℕ) (tryOnly : Bool)
  /-- `suspenders_chan_close` -/
  | close (ch : ℕ)
  /-- `suspenders_mutex_lock_dl` -/
  | lock (m : ℕ)
  /-- `suspenders_mutex_trylock` -/
  | trylock (m : ℕ)
  /-- The lock attempts of `s_mutex_lock_raw` -/
  | lockRaw (m : ℕ)
  /-- `suspenders_mutex_unlock` -/
  | unlock (m : ℕ)
  /-- `suspenders_rwlock_rdlock_dl` -/
  | rdlock (r : ℕ)
  /-- `suspenders_rwlock_tryrdlock` -/
  | tryrdlock (r : ℕ)
  /-- `suspenders_rwlock_wrlock_dl` -/
  | wrlock (r : ℕ)
  /-- `suspenders_rwlock_trywrlock` -/
  | trywrlock (r : ℕ)
  /-- `suspenders_rwlock_unlock` -/
  | rwUnlock (r : ℕ)
  /-- The park of `suspenders_cond_wait_dl` -/
  | condPark (v : ℕ)
  /-- `suspenders_cond_signal` -/
  | signal (v : ℕ)
  /-- `suspenders_cond_broadcast` -/
  | broadcast (v : ℕ)
  /-- `suspenders_waitgroup_add` -/
  | wgAdd (g : ℕ) (delta : ℤ)
  /-- `suspenders_waitgroup_wait_dl` -/
  | wgWait (g : ℕ)
  deriving DecidableEq

/-- The lock an operation takes. -/
def Op.lockId : Op → LockId
  | send ch _ _ | recv ch _ | close ch => .chan ch
  | lock m | trylock m | lockRaw m | unlock m => .mutex m
  | rdlock r | tryrdlock r | wrlock r | trywrlock r | rwUnlock r => .rwlock r
  | condPark v | signal v | broadcast v => .cond v
  | wgAdd g _ | wgWait g => .waitgroup g

/-- The status an operation decides waits with. -/
def Op.grantCode : Op → Code
  | close _ => .closed
  | _ => .ok

/-- How a critical section ends for its caller. -/
inductive Res
  /-- The call returns `code`. -/
  | ret (code : Code)
  /-- The call parks its coroutine on list `l`. -/
  | park (l : ListId) (data : Bytes) (writer : Bool)
  deriving DecidableEq

/-- What a critical section leaves its caller to do. -/
structure Out where
  /-- How it ends. -/
  res : Res
  /-- The value a receive has copied out. -/
  value : Option Bytes
  /-- The waiters granted, in this order. -/
  granted : List NodeRef
  /-- The waiters in the order of their `s_wait_decide_end`. -/
  chain : List NodeRef
  /-- Whether the waiters are woken before the lock is released. -/
  batch : Bool

namespace Out

/-- The call returns `code` and has granted nobody. -/
def ret (code : Code) : Out := ⟨.ret code, none, [], [], false⟩

/-- The call parks. -/
def park (l : ListId) (data : Bytes) (writer : Bool) : Out :=
  ⟨.park l data writer, none, [], [], false⟩

/-- The call returns `OK` after granting the waiters of `o`, which it wakes after the unlock
(`s_wait_finish_wake`). -/
def grantOne (o : Option NodeRef) : Out := ⟨.ret .ok, none, o.toList, o.toList, false⟩

/-- The call returns `OK`; it wakes the waiters under the lock and ends their windows in the order of
`chain` after the unlock (`s_wait_decide_end_chain`). -/
def grantMany (granted chain : List NodeRef) : Out := ⟨.ret .ok, none, granted, chain, true⟩

end Out

/-- Whether the caller may block in a channel operation (`can_block`). -/
def Ctx.canBlock (tryOnly : Bool) : Ctx → Bool
  | co _ => !tryOnly
  | _ => false

lemma Ctx.canBlock_iff {tryOnly : Bool} {a : Ctx} :
    a.canBlock tryOnly = true ↔ ∃ c, a = .co c ∧ tryOnly = false := by
  cases a <;> simp [Ctx.canBlock]

/-- The critical section of `s_chan_send_impl`, with the park at its end. -/
def chanSendImpl (h : Heap) (a : Ctx) (ch : ℕ) (val : Bytes) (tryOnly : Bool) : Heap × Out :=
  let r := chanSend h.waits ch (h.chan ch) val
  let h' := { h with waits := r.2.1, chan := Function.update h.chan ch r.2.2 }
  match r.1 with
  | .closed => (h', .ret .closed)
  | .handed rx => (h', .grantOne (some rx))
  | .buffered => (h', .ret .ok)
  | .full =>
    if a.canBlock tryOnly then (h', .park (.senders ch) val false)
    else (h', .ret (if tryOnly then .full else .perm))

/-- The critical section of `s_chan_recv_impl`, with the park at its end. -/
def chanRecvImpl (h : Heap) (a : Ctx) (ch : ℕ) (tryOnly : Bool) : Heap × Out :=
  let r := chanRecv h.waits ch (h.chan ch)
  let h' := { h with waits := r.2.1, chan := Function.update h.chan ch r.2.2 }
  match r.1 with
  | .buffered v tx => (h', { Out.grantOne tx with value := some v })
  | .taken v tx => (h', { Out.grantOne (some tx) with value := some v })
  | .closed => (h', .ret .closed)
  | .empty =>
    if a.canBlock tryOnly then (h', .park (.receivers ch) [] false)
    else (h', .ret (if tryOnly then .empty else .perm))

/-- `suspenders_chan_close` under the lock. -/
def chanCloseImpl (h : Heap) (ch : ℕ) : Heap × Out :=
  if (h.chan ch).closed then (h, .ret .closed)
  else
    let r := chanClose h.waits ch (h.chan ch)
    -- every granted node is pushed in front of the chain
    ({ h with waits := r.2.1, chan := Function.update h.chan ch r.2.2 },
      .grantMany r.1 r.1.reverse)

/-- `suspenders_mutex_trylock` under the lock. -/
def mutexTrylock (h : Heap) (a : Ctx) (m : ℕ) : Heap × Out :=
  match h.owner m with
  | none => ({ h with owner := Function.update h.owner m (some a) }, .ret .ok)
  | some _ => (h, .ret .busy)

/-- `suspenders_mutex_lock_dl` under the lock. -/
def mutexLock (h : Heap) (a : Ctx) (m : ℕ) : Heap × Out :=
  match h.owner m with
  | none => ({ h with owner := Function.update h.owner m (some a) }, .ret .ok)
  | some b => if b = a then (h, .ret .perm) else (h, .park (.mutex m) [] false)

/-- A lock attempt of `s_mutex_lock_raw` under the lock. -/
def mutexLockRaw (h : Heap) (a : Ctx) (m : ℕ) : Heap × Out :=
  match h.owner m with
  | none => ({ h with owner := Function.update h.owner m (some a) }, .ret .ok)
  | some _ => (h, .park (.mutex m) [] false)

/-- `suspenders_mutex_unlock` under the lock. -/
def mutexUnlock (h : Heap) (a : Ctx) (m : ℕ) : Heap × Out :=
  if h.owner m = some a then
    match h.waits.queue (.mutex m) with
    | [] => ({ h with owner := Function.update h.owner m none }, .ret .ok)
    | n :: rest =>
      ({ h with
          waits := (h.waits.setQueue (.mutex m) rest).grantAll .ok [n]
          owner := Function.update h.owner m (some (.co n.cr)) },
        .grantOne (some n))
  else (h, .ret .perm)

/-- `suspenders_rwlock_tryrdlock` under the lock. -/
def rwlockTryrdlock (h : Heap) (r : ℕ) : Heap × Out :=
  if (h.rw r).writer = false ∧ h.waits.queue (.rwlock r) = [] then
    ({ h with rw := Function.update h.rw r { h.rw r with readers := (h.rw r).readers + 1 } },
      .ret .ok)
  else (h, .ret .busy)

/-- `suspenders_rwlock_rdlock_dl` under the lock. -/
def rwlockRdlock (h : Heap) (r : ℕ) : Heap × Out :=
  if (h.rw r).writer = false ∧ h.waits.queue (.rwlock r) = [] then
    ({ h with rw := Function.update h.rw r { h.rw r with readers := (h.rw r).readers + 1 } },
      .ret .ok)
  else (h, .park (.rwlock r) [] false)

/-- `suspenders_rwlock_trywrlock` under the lock. -/
def rwlockTrywrlock (h : Heap) (r : ℕ) : Heap × Out :=
  if (h.rw r).writer = false ∧ (h.rw r).readers = 0 then
    ({ h with rw := Function.update h.rw r { h.rw r with writer := true } }, .ret .ok)
  else (h, .ret .busy)

/-- `suspenders_rwlock_wrlock_dl` under the lock. -/
def rwlockWrlock (h : Heap) (r : ℕ) : Heap × Out :=
  if (h.rw r).writer = false ∧ (h.rw r).readers = 0 ∧ h.waits.queue (.rwlock r) = [] then
    ({ h with rw := Function.update h.rw r { h.rw r with writer := true } }, .ret .ok)
  else (h, .park (.rwlock r) [] true)

/-- The grants of `suspenders_rwlock_unlock` after the holder has been taken off: one writer, or the
readers up to the first writer. -/
def rwlockGrant (h : Heap) (r : ℕ) : Heap × Out :=
  if (h.rw r).readers = 0 ∧ (h.rw r).writer = false then
    match h.waits.queue (.rwlock r) with
    | [] => (h, .grantMany [] [])
    | n :: rest =>
      if (h.waits.node n).writer then
        ({ h with
            waits := (h.waits.setQueue (.rwlock r) rest).grantAll .ok [n]
            rw := Function.update h.rw r { h.rw r with writer := true } },
          .grantMany [n] [n])
      else
        let readers := (n :: rest).takeWhile fun n => !(h.waits.node n).writer
        let left := (n :: rest).dropWhile fun n => !(h.waits.node n).writer
        ({ h with
            waits := (h.waits.setQueue (.rwlock r) left).grantAll .ok readers
            rw := Function.update h.rw r { h.rw r with readers := readers.length } },
          .grantMany readers readers.reverse)
  else (h, .grantMany [] [])

/-- `suspenders_rwlock_unlock` under the lock. -/
def rwlockUnlock (h : Heap) (r : ℕ) : Heap × Out :=
  if (h.rw r).writer then
    rwlockGrant { h with rw := Function.update h.rw r { h.rw r with writer := false } } r
  else if 0 < (h.rw r).readers then
    rwlockGrant
      { h with rw := Function.update h.rw r { h.rw r with readers := (h.rw r).readers - 1 } } r
  else (h, .ret .perm)

/-- `suspenders_cond_signal` under the lock. -/
def condSignal (h : Heap) (v : ℕ) : Heap × Out :=
  match h.waits.queue (.cond v) with
  | [] => (h, .ret .ok)
  | n :: rest =>
    ({ h with waits := (h.waits.setQueue (.cond v) rest).grantAll .ok [n] }, .grantOne (some n))

/-- `suspenders_cond_broadcast` under the lock. -/
def condBroadcast (h : Heap) (v : ℕ) : Heap × Out :=
  let granted := h.waits.queue (.cond v)
  ({ h with waits := (h.waits.setQueue (.cond v) []).grantAll .ok granted },
    .grantMany granted granted)

/-- `suspenders_waitgroup_add` under the lock. -/
def waitgroupAdd (h : Heap) (g : ℕ) (delta : ℤ) : Heap × Out :=
  if h.wg g + delta < 0 then (h, .ret .inval)
  else
    let h' := { h with wg := Function.update h.wg g (h.wg g + delta) }
    if h.wg g + delta = 0 then
      let granted := h.waits.queue (.waitgroup g)
      ({ h' with waits := (h.waits.setQueue (.waitgroup g) []).grantAll .ok granted },
        .grantMany granted granted)
    else (h', .grantMany [] [])

/-- `suspenders_waitgroup_wait_dl` under the lock. -/
def waitgroupWait (h : Heap) (g : ℕ) : Heap × Out :=
  if h.wg g = 0 then (h, .ret .ok) else (h, .park (.waitgroup g) [] false)

/-- The critical section of operation `op` executed by `a`. -/
def exec (h : Heap) (a : Ctx) : Op → Heap × Out
  | .send ch val tryOnly => chanSendImpl h a ch val tryOnly
  | .recv ch tryOnly => chanRecvImpl h a ch tryOnly
  | .close ch => chanCloseImpl h ch
  | .lock m => mutexLock h a m
  | .trylock m => mutexTrylock h a m
  | .lockRaw m => mutexLockRaw h a m
  | .unlock m => mutexUnlock h a m
  | .rdlock r => rwlockRdlock h r
  | .tryrdlock r => rwlockTryrdlock h r
  | .wrlock r => rwlockWrlock h r
  | .trywrlock r => rwlockTrywrlock h r
  | .rwUnlock r => rwlockUnlock h r
  | .condPark v => (h, .park (.cond v) [] false)
  | .signal v => condSignal h v
  | .broadcast v => condBroadcast h v
  | .wgAdd g delta => waitgroupAdd h g delta
  | .wgWait g => waitgroupWait h g

/-! ## The effect of the operations on the waiters -/

/-- The effect of a critical section that ends as `out` says. -/
structure Effect (st : Code) (lk : LockId) (h h' : Heap) (out : Out) : Prop where
  /-- On the nodes. -/
  granted : h.waits.Granted st h'.waits out.granted
  /-- The granted nodes were parked on the structure. -/
  own : ∀ n ∈ out.granted, ∃ l, n ∈ h.waits.queue l ∧ l.lock = lk
  /-- Every granted node's window is ended once. -/
  chain : out.chain.Perm out.granted
  /-- A call that parks grants nothing and parks on a list of the structure. -/
  park : ∀ l data writer, out.res = .park l data writer → out.granted = [] ∧ l.lock = lk
  /-- A call that wakes its waiters after the unlock has at most one. -/
  single : out.batch = false → out.granted.length ≤ 1
  /-- Channels other than the operation's own keep their state. -/
  chan : ∀ ch, lk ≠ .chan ch → h'.chan ch = h.chan ch

namespace Effect

variable {st code : Code} {lk : LockId} {h h' : Heap}

/-- A call that returns without touching the nodes. -/
lemma ret (hw : h.waits.WF) (hwaits : h'.waits = h.waits) (hchan : h'.chan = h.chan) :
    Effect st lk h h' (.ret code) where
  granted := by rw [hwaits]; exact .refl hw
  own := by simp [Out.ret]
  chain := List.Perm.refl _
  park := by simp [Out.ret]
  single := by simp [Out.ret]
  chan := by simp [hchan]

/-- A call that parks without touching the nodes before. -/
lemma parked (hw : h.waits.WF) {l : ListId} {data : Bytes} {writer : Bool} (hl : l.lock = lk) :
    Effect st lk h h (.park l data writer) where
  granted := .refl hw
  own := by simp [Out.park]
  chain := List.Perm.refl _
  park := by
    intro l' _ _ heq
    simp only [Out.park, Res.park.injEq] at heq
    exact ⟨rfl, heq.1 ▸ hl⟩
  single := by simp [Out.park]
  chan := fun _ _ => rfl

/-- A call that grants the first node of a list without select nodes. -/
lemma one (hw : h.waits.WF) {l : ListId} (hl : ¬ l.IsChan) (hlk : l.lock = lk) {n : NodeRef}
    {rest : List NodeRef} (hq : h.waits.queue l = n :: rest)
    (hwaits : h'.waits = (h.waits.setQueue l rest).grantAll st [n]) (hchan : h'.chan = h.chan) :
    Effect st lk h h' (.grantOne (some n)) where
  granted := by
    rw [hwaits]
    exact Waits.granted_prefix hw hl (show h.waits.queue l = [n] ++ rest from hq) st
  own := by simpa [Out.grantOne] using ⟨l, by simp [hq], hlk⟩
  chain := List.Perm.refl _
  park := by simp [Out.grantOne]
  single := by simp [Out.grantOne]
  chan := by simp [hchan]

/-- A call that grants a prefix of a list without select nodes and wakes it under the lock. -/
lemma many (hw : h.waits.WF) {l : ListId} (hl : ¬ l.IsChan) (hlk : l.lock = lk)
    {xs chain rest : List NodeRef} (hq : h.waits.queue l = xs ++ rest)
    (hwaits : h'.waits = (h.waits.setQueue l rest).grantAll st xs) (hchan : h'.chan = h.chan)
    (hperm : chain.Perm xs) : Effect st lk h h' (.grantMany xs chain) where
  granted := by
    rw [hwaits]
    exact Waits.granted_prefix hw hl hq st
  own := fun n hn => ⟨l, by rw [hq]; exact List.mem_append_left _ hn, hlk⟩
  chain := hperm
  park := by simp [Out.grantMany]
  single := by simp [Out.grantMany]
  chan := by simp [hchan]

/-- A call that wakes nobody under the lock. -/
lemma nobody (hw : h.waits.WF) (hwaits : h'.waits = h.waits) (hchan : h'.chan = h.chan) :
    Effect st lk h h' (.grantMany [] []) where
  granted := by rw [hwaits]; exact .refl hw
  own := by simp [Out.grantMany]
  chain := List.Perm.refl _
  park := by simp [Out.grantMany]
  single := by simp [Out.grantMany]
  chan := by simp [hchan]

/-- A channel operation that has taken and granted one waiter. -/
lemma taken {l : ListId} {n : NodeRef} {out : Out} (htook : h.waits.Took st l n h'.waits)
    (hl : l.lock = lk) (hgranted : out.granted = [n]) (hchain : out.chain = [n])
    (hres : out.res = .ret code) (hchan : ∀ ch, lk ≠ .chan ch → h'.chan ch = h.chan ch) :
    Effect st lk h h' out where
  granted := by rw [hgranted]; exact htook.granted
  own := by
    intro m hm
    rw [hgranted, List.mem_singleton] at hm
    subst hm
    exact ⟨l, htook.mem, hl⟩
  chain := by rw [hgranted, hchain]
  park := by simp [hres]
  single := by simp [hgranted]
  chan := hchan

/-- A channel operation that has found no usable waiter on list `l`. -/
lemma empty {l : ListId} {out : Out} (hempty : h.waits.Emptied l h'.waits)
    (hgranted : out.granted = []) (hchain : out.chain = [])
    (hpark : ∀ l' data writer, out.res = .park l' data writer → l'.lock = lk)
    (hchan : ∀ ch, lk ≠ .chan ch → h'.chan ch = h.chan ch) : Effect st lk h h' out where
  granted := by rw [hgranted]; exact hempty.granted st
  own := by simp [hgranted]
  chain := by rw [hgranted, hchain]
  park := fun l' data writer hres => ⟨hgranted, hpark l' data writer hres⟩
  single := by simp [hgranted]
  chan := hchan

end Effect

/-- Updating one channel leaves the others alone. -/
lemma chan_update_of_ne {f : ℕ → Chan} {ch : ℕ} (x : Chan) (ch' : ℕ)
    (hne : LockId.chan ch ≠ .chan ch') : Function.update f ch x ch' = f ch' :=
  Function.update_of_ne (fun heq => hne (by rw [heq])) _ _

section Exec

variable {h : Heap} (hw : h.waits.WF) (a : Ctx)
include hw

/-- How the critical section of a send ends, and when. -/
lemma exec_send_cases (ch : ℕ) (val : Bytes) (tryOnly : Bool) :
    ((h.chan ch).closed = true ∧ exec h a (.send ch val tryOnly) = (h, .ret .closed)) ∨
    ((h.chan ch).closed = false ∧ ∃ rx w',
      exec h a (.send ch val tryOnly) = ({ h with waits := w' }, .grantOne (some rx)) ∧
      h.waits.Took .ok (.receivers ch) rx w' ∧ (w'.node rx).data = val) ∨
    ((h.chan ch).closed = false ∧ (h.chan ch).count < (h.chan ch).bufSz ∧ ∃ w',
      exec h a (.send ch val tryOnly) = ({ h with
        waits := w', chan := Function.update h.chan ch ((h.chan ch).bufPush val) }, .ret .ok) ∧
      h.waits.Emptied (.receivers ch) w') ∨
    ((h.chan ch).closed = false ∧ ((h.chan ch).bufSz = 0 ∨ (h.chan ch).bufSz ≤ (h.chan ch).count) ∧
      ∃ w', exec h a (.send ch val tryOnly) = ({ h with waits := w' },
        if a.canBlock tryOnly then .park (.senders ch) val false
        else .ret (if tryOnly then .full else .perm)) ∧
      h.waits.Emptied (.receivers ch) w') := by
  simp only [exec, chanSendImpl]
  obtain ⟨hcl, heq⟩ | ⟨hcl, rx, w', heq, htook, hdata⟩ | ⟨hcl, hroom, w', heq, hempty⟩ |
    ⟨hcl, hfull, w', heq, hempty⟩ := chanSend_cases hw ch (h.chan ch) val
  · exact Or.inl ⟨hcl, by simp [heq]⟩
  · exact Or.inr (Or.inl ⟨hcl, rx, w', by simp [heq], htook, hdata⟩)
  · exact Or.inr (Or.inr (Or.inl ⟨hcl, hroom, w', by simp [heq], hempty⟩))
  · refine Or.inr (Or.inr (Or.inr ⟨hcl, hfull, w', ?_, hempty⟩))
    simp only [heq, Function.update_eq_self]
    split <;> rfl

/-- How the critical section of a receive ends, and when. -/
lemma exec_recv_cases (ch : ℕ) (tryOnly : Bool) :
    ((h.chan ch).bufSz ≠ 0 ∧ 0 < (h.chan ch).count ∧ ∃ tx w',
      exec h a (.recv ch tryOnly) = ({ h with
          waits := w'
          chan := Function.update h.chan ch ((h.chan ch).bufPop.bufPush (h.waits.node tx).data) },
        { Out.grantOne (some tx) with value := some (h.chan ch).bufFront }) ∧
      h.waits.Took .ok (.senders ch) tx w') ∨
    ((h.chan ch).bufSz ≠ 0 ∧ 0 < (h.chan ch).count ∧ ∃ w',
      exec h a (.recv ch tryOnly) = ({ h with
          waits := w', chan := Function.update h.chan ch (h.chan ch).bufPop },
        { Out.grantOne none with value := some (h.chan ch).bufFront }) ∧
      h.waits.Emptied (.senders ch) w') ∨
    (((h.chan ch).bufSz = 0 ∨ (h.chan ch).count = 0) ∧ ∃ tx w',
      exec h a (.recv ch tryOnly) = ({ h with waits := w' },
        { Out.grantOne (some tx) with value := some (h.waits.node tx).data }) ∧
      h.waits.Took .ok (.senders ch) tx w') ∨
    (((h.chan ch).bufSz = 0 ∨ (h.chan ch).count = 0) ∧ (h.chan ch).closed = true ∧ ∃ w',
      exec h a (.recv ch tryOnly) = ({ h with waits := w' }, .ret .closed) ∧
      h.waits.Emptied (.senders ch) w') ∨
    (((h.chan ch).bufSz = 0 ∨ (h.chan ch).count = 0) ∧ (h.chan ch).closed = false ∧ ∃ w',
      exec h a (.recv ch tryOnly) = ({ h with waits := w' },
        if a.canBlock tryOnly then .park (.receivers ch) [] false
        else .ret (if tryOnly then .empty else .perm)) ∧
      h.waits.Emptied (.senders ch) w') := by
  simp only [exec, chanRecvImpl]
  obtain ⟨hbuf, hcount, tx, w', heq, htook⟩ | ⟨hbuf, hcount, w', heq, hempty⟩ |
    ⟨hnone, tx, w', heq, htook⟩ | ⟨hnone, hcl, w', heq, hempty⟩ | ⟨hnone, hcl, w', heq, hempty⟩ :=
    chanRecv_cases hw ch (h.chan ch)
  · exact Or.inl ⟨hbuf, hcount, tx, w', by simp [heq], htook⟩
  · exact Or.inr (Or.inl ⟨hbuf, hcount, w', by simp [heq], hempty⟩)
  · exact Or.inr (Or.inr (Or.inl ⟨hnone, tx, w', by simp [heq], htook⟩))
  · exact Or.inr (Or.inr (Or.inr (Or.inl ⟨hnone, hcl, w', by simp [heq], hempty⟩)))
  · refine Or.inr (Or.inr (Or.inr (Or.inr ⟨hnone, hcl, w', ?_, hempty⟩)))
    simp only [heq, Function.update_eq_self]
    split <;> rfl

/-- Sending: the receiver handed the value is granted. -/
lemma exec_send_effect (ch : ℕ) (val : Bytes) (tryOnly : Bool) :
    Effect .ok (.chan ch) h (exec h a (.send ch val tryOnly)).1
      (exec h a (.send ch val tryOnly)).2 := by
  obtain ⟨-, heq⟩ | ⟨-, rx, w', heq, htook, -⟩ | ⟨-, -, w', heq, hempty⟩ |
    ⟨-, -, w', heq, hempty⟩ := exec_send_cases hw a ch val tryOnly
  · rw [heq]
    exact .ret hw rfl rfl
  · rw [heq]
    exact .taken htook rfl rfl rfl rfl fun _ _ => rfl
  · rw [heq]
    exact .empty hempty rfl rfl (by simp [Out.ret]) (chan_update_of_ne _)
  · rw [heq]
    refine .empty hempty ?_ ?_ (fun l _ _ hl => ?_) fun _ _ => rfl
    · split <;> rfl
    · split <;> rfl
    · split at hl
      · simp only [Out.park, Res.park.injEq] at hl
        rw [← hl.1]
        rfl
      · cases hl

/-- Receiving: the sender whose value moved is granted. -/
lemma exec_recv_effect (ch : ℕ) (tryOnly : Bool) :
    Effect .ok (.chan ch) h (exec h a (.recv ch tryOnly)).1 (exec h a (.recv ch tryOnly)).2 := by
  obtain ⟨-, -, tx, w', heq, htook⟩ | ⟨-, -, w', heq, hempty⟩ | ⟨-, tx, w', heq, htook⟩ |
    ⟨-, -, w', heq, hempty⟩ | ⟨-, -, w', heq, hempty⟩ := exec_recv_cases hw a ch tryOnly
  · rw [heq]
    exact .taken htook rfl rfl rfl rfl (chan_update_of_ne _)
  · rw [heq]
    exact .empty hempty rfl rfl (by simp [Out.grantOne]) (chan_update_of_ne _)
  · rw [heq]
    exact .taken htook rfl rfl rfl rfl fun _ _ => rfl
  · rw [heq]
    exact .empty hempty rfl rfl (by simp [Out.ret]) fun _ _ => rfl
  · rw [heq]
    refine .empty hempty ?_ ?_ (fun l _ _ hl => ?_) fun _ _ => rfl
    · split <;> rfl
    · split <;> rfl
    · split at hl
      · simp only [Out.park, Res.park.injEq] at hl
        rw [← hl.1]
        rfl
      · cases hl

/-- Closing: everybody usable is granted. -/
lemma chanCloseImpl_effect (ch : ℕ) :
    Effect .closed (.chan ch) h (chanCloseImpl h ch).1 (chanCloseImpl h ch).2 := by
  unfold chanCloseImpl
  split
  · exact .ret hw rfl rfl
  · exact ⟨(chanClose_spec hw ch (h.chan ch)).1, chanClose_own hw ch (h.chan ch),
      List.reverse_perm _, by simp [Out.grantMany], by simp [Out.grantMany], chan_update_of_ne _⟩

/-- Unlocking a mutex: the first waiter is granted. -/
lemma mutexUnlock_effect (m : ℕ) :
    Effect .ok (.mutex m) h (mutexUnlock h a m).1 (mutexUnlock h a m).2 := by
  unfold mutexUnlock
  split
  · split
    · exact .ret hw rfl rfl
    · rename_i hq
      exact .one hw (by simp [ListId.IsChan]) rfl hq rfl rfl
  · exact .ret hw rfl rfl

/-- Granting the read-write lock to the head of its queue. -/
lemma rwlockGrant_effect (r : ℕ) :
    Effect .ok (.rwlock r) h (rwlockGrant h r).1 (rwlockGrant h r).2 := by
  unfold rwlockGrant
  split
  · split
    · exact .nobody hw rfl rfl
    · rename_i n rest hq
      split
      · exact .many hw (by simp [ListId.IsChan]) rfl
          (show h.waits.queue (.rwlock r) = [n] ++ rest from hq) rfl rfl (.refl _)
      · refine .many hw (l := .rwlock r) (by simp [ListId.IsChan]) rfl ?_ rfl rfl
          (List.reverse_perm _)
        rw [hq]
        exact List.takeWhile_append_dropWhile.symm
  · exact .nobody hw rfl rfl

/-- Every operation has an effect of this kind on the waiters. -/
theorem exec_effect (op : Op) :
    Effect op.grantCode op.lockId h (exec h a op).1 (exec h a op).2 := by
  cases op with
  | send ch val tryOnly => exact exec_send_effect hw a ch val tryOnly
  | recv ch tryOnly => exact exec_recv_effect hw a ch tryOnly
  | close ch => exact chanCloseImpl_effect hw ch
  | lock m =>
    simp only [exec, mutexLock]
    split
    · exact .ret hw rfl rfl
    · split
      · exact .ret hw rfl rfl
      · exact .parked hw rfl
  | trylock m =>
    simp only [exec, mutexTrylock]
    split <;> exact .ret hw rfl rfl
  | lockRaw m =>
    simp only [exec, mutexLockRaw]
    split
    · exact .ret hw rfl rfl
    · exact .parked hw rfl
  | unlock m => exact mutexUnlock_effect hw a m
  | rdlock r =>
    simp only [exec, rwlockRdlock]
    split
    · exact .ret hw rfl rfl
    · exact .parked hw rfl
  | tryrdlock r =>
    simp only [exec, rwlockTryrdlock]
    split <;> exact .ret hw rfl rfl
  | wrlock r =>
    simp only [exec, rwlockWrlock]
    split
    · exact .ret hw rfl rfl
    · exact .parked hw rfl
  | trywrlock r =>
    simp only [exec, rwlockTrywrlock]
    split <;> exact .ret hw rfl rfl
  | rwUnlock r =>
    -- taking the holder off does not touch the nodes, so the effect is that of the grant
    have hgrant : ∀ rw : ℕ → RwLock, Effect .ok (.rwlock r) h (rwlockGrant { h with rw := rw } r).1
        (rwlockGrant { h with rw := rw } r).2 := by
      intro rw
      obtain ⟨hg, ho, hc, hp, hs, hch⟩ := rwlockGrant_effect (h := { h with rw := rw }) hw r
      exact ⟨hg, ho, hc, hp, hs, hch⟩
    simp only [exec, rwlockUnlock]
    split
    · exact hgrant _
    · split
      · exact hgrant _
      · exact .ret hw rfl rfl
  | condPark v => exact .parked hw rfl
  | signal v =>
    simp only [exec, condSignal]
    split
    · exact .ret hw rfl rfl
    · rename_i hq
      exact .one hw (by simp [ListId.IsChan]) rfl hq rfl rfl
  | broadcast v =>
    exact .many hw (l := .cond v) (by simp [ListId.IsChan]) rfl (List.append_nil _).symm rfl rfl
      (.refl _)
  | wgAdd g delta =>
    simp only [exec, waitgroupAdd]
    split
    · exact .ret hw rfl rfl
    · split
      · exact .many hw (l := .waitgroup g) (by simp [ListId.IsChan]) rfl (List.append_nil _).symm rfl
          rfl (.refl _)
      · exact .nobody hw rfl rfl
  | wgWait g =>
    simp only [exec, waitgroupWait]
    split
    · exact .ret hw rfl rfl
    · exact .parked hw rfl

end Exec

end Suspenders.Wait
