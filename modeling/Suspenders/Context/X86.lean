import Suspenders.Lib.Coswitch

/-!
# The context switch on x86-64

The assembler text of the x86-64 context switch (`_suspenders_asm_switch`, `_suspenders_asm_entry`) is
executed on a processor with the sixteen general registers, a program counter and a byte memory;
`makeContext` is `suspenders_make_context`.  `lawful` says that together they are a lawful switcher: a
context that called `suspenders_ctx_switch` comes back from the call with its stack pointer and the six
registers that a callee has to save, and a new context starts its function on its own stack with the
argument, above a return address that is `suspenders_cr_exit`.  `ctxSwitch_returns` and
`ctxSwitch_starts` say this for every run of any number of contexts.
-/

namespace Suspenders.X86

open Lib

/-- The general registers. -/
inductive Reg
  | rax | rbx | rcx | rdx | rsi | rdi | rbp | rsp
  | r8 | r9 | r10 | r11 | r12 | r13 | r14 | r15
  deriving DecidableEq

/-- The processor and its memory. -/
structure Cpu where
  reg : Reg → Word
  pc : Word
  mem : Mem

/-- Write a register. -/
def Cpu.set (k : Cpu) (r : Reg) (v : Word) : Cpu := { k with reg := Function.update k.reg r v }

/-- The instructions of the switch. -/
inductive Instr
  /-- `movq %src, %dst` -/
  | mov (src dst : Reg)
  /-- `movq %src, disp(%base)` -/
  | store (src : Reg) (disp : ℕ) (base : Reg)
  /-- `movq disp(%base), %dst` -/
  | load (disp : ℕ) (base dst : Reg)
  /-- `leaq .Lret(%rip), %dst` -/
  | leaLret (dst : Reg)
  /-- `jmpq *%r` -/
  | jmp (r : Reg)
  /-- `jmpq *(%base)` -/
  | jmpMem (base : Reg)
  /-- `ret` -/
  | ret

/-- Where the linker put the code. -/
structure Text where
  /-- `_suspenders_asm_switch` -/
  asmSwitch : Word
  /-- `.Lret` -/
  lret : Word
  /-- `_suspenders_asm_entry` -/
  asmEntry : Word
  /-- `suspenders_cr_exit` -/
  crExit : Word
  lret_ne : lret ≠ asmSwitch
  entry_ne : asmEntry ≠ asmSwitch
  entry_ne_lret : asmEntry ≠ lret

/-- Execute instructions in order, up to the first jump. -/
def exec (t : Text) : List Instr → Cpu → Cpu
  | [], k => k
  | .mov src dst :: l, k => exec t l (k.set dst (k.reg src))
  | .store src disp base :: l, k =>
    exec t l { k with mem := k.mem.store (k.reg base + BitVec.ofNat 64 disp) (k.reg src) }
  | .load disp base dst :: l, k =>
    exec t l (k.set dst (k.mem.load (k.reg base + BitVec.ofNat 64 disp)))
  | .leaLret dst :: l, k => exec t l (k.set dst t.lret)
  | .jmp r :: _, k => { k with pc := k.reg r }
  | .jmpMem base :: _, k => { k with pc := k.mem.load (k.reg base + BitVec.ofNat 64 0) }
  | .ret :: _, k => { k.set .rsp (k.reg .rsp + 8) with pc := k.mem.load (k.reg .rsp) }

/-- `_suspenders_asm_switch`. -/
def asmSwitch : List Instr :=
  [.leaLret .rax,
   .store .rax 0 .rdi,
   .store .rsp 8 .rdi,
   .store .rbp 16 .rdi,
   .store .rbx 24 .rdi,
   .store .r12 32 .rdi,
   .store .r13 40 .rdi,
   .store .r14 48 .rdi,
   .store .r15 56 .rdi,
   .load 56 .rsi .r15,
   .load 48 .rsi .r14,
   .load 40 .rsi .r13,
   .load 32 .rsi .r12,
   .load 24 .rsi .rbx,
   .load 16 .rsi .rbp,
   .load 8 .rsi .rsp,
   .jmpMem .rsi]

/-- `_suspenders_asm_entry`. -/
def asmEntry : List Instr := [.mov .r13 .rdi, .jmp .r12]

/-- The code at an address, if it is one of the assembler routines. -/
def code (t : Text) (pc : Word) : Option (List Instr) :=
  if pc = t.asmSwitch then some asmSwitch
  else if pc = t.lret then some [.ret]
  else if pc = t.asmEntry then some asmEntry
  else none

/-- Run the routine at the program counter. -/
def step (t : Text) (k : Cpu) : Option Cpu := (code t k.pc).map fun l => exec t l k

/-- Call `_suspenders_asm_switch(old, new)`. -/
def enter (t : Text) (ra old new : Word) (k : Cpu) : Cpu :=
  let k := ((k.set .rdi old).set .rsi new).set .rsp (k.reg .rsp - 8)
  { k with mem := k.mem.store (k.reg .rsp) ra, pc := t.asmSwitch }

/-- `suspenders_ctx_switch`: the old context executes up to its jump, the new one from there. -/
def ctxSwitch (t : Text) (ra old new : Word) (k : Cpu) : Option Cpu :=
  (step t (enter t ra old new k)).bind (step t)

/-- What `suspenders_make_context` is given. -/
structure Start where
  stackBase : Word
  stackSize : Word
  func : Word
  arg : Word

/-- `stack_high`. -/
def Start.stackHigh (a : Start) : Word := a.stackBase + (a.stackSize - 128) - 8

/-- The fields that `suspenders_make_context` writes, in its order. -/
def Start.writes (t : Text) (a : Start) : List (ℕ × Word) :=
  [(0, t.asmEntry), (8, a.stackHigh), (32, a.func), (40, a.arg), (56, 0), (48, 0), (16, 0), (24, 0)]

/-- `suspenders_make_context`. -/
def makeContext (t : Text) (ctx : Word) (a : Start) (k : Cpu) : Cpu :=
  { k with mem := (k.mem.store a.stackHigh t.crExit).stores ctx (a.writes t) }

/-! ### The frames -/

/-- What a context needs to run: the state in which it called the switch, or how it starts. -/
inductive Frame
  | left (ra : Word) (k : Cpu)
  | fresh (a : Start)

/-- The registers that a callee has to preserve, but for the stack pointer. -/
def calleeSaved : List Reg := [.rbx, .rbp, .r12, .r13, .r14, .r15]

/-- `suspenders_ctx_t`. -/
structure Ctx where
  rip : Word
  rsp : Word
  rbp : Word
  rbx : Word
  r12 : Word
  r13 : Word
  r14 : Word
  r15 : Word

/-- The fields of a context with their offsets. -/
def Ctx.fields (x : Ctx) : List (ℕ × Word) :=
  [(0, x.rip), (8, x.rsp), (16, x.rbp), (24, x.rbx), (32, x.r12), (40, x.r13), (48, x.r14),
   (56, x.r15)]

/-- The word at an offset of a context. -/
abbrev field (m : Mem) (c : Word) (i : ℕ) : Word := m.load (c + BitVec.ofNat 64 i)

/-- The context at an address. -/
def readCtx (m : Mem) (c : Word) : Ctx where
  rip := field m c 0
  rsp := field m c 8
  rbp := field m c 16
  rbx := field m c 24
  r12 := field m c 32
  r13 := field m c 40
  r14 := field m c 48
  r15 := field m c 56

/-- The context of a frame. -/
def Frame.ctx (t : Text) : Frame → Ctx
  | .left _ k =>
    { rip := t.lret, rsp := k.reg .rsp - 8, rbp := k.reg .rbp, rbx := k.reg .rbx, r12 := k.reg .r12
      r13 := k.reg .r13, r14 := k.reg .r14, r15 := k.reg .r15 }
  | .fresh a =>
    { rip := t.asmEntry, rsp := a.stackHigh, rbp := 0, rbx := 0, r12 := a.func, r13 := a.arg
      r14 := 0, r15 := 0 }

/-- The word on the stack that belongs to a frame. -/
def Frame.slot : Frame → Word
  | .left _ k => k.reg .rsp - 8
  | .fresh a => a.stackHigh

/-- The return address in that word. -/
def Frame.back (t : Text) : Frame → Word
  | .left ra _ => ra
  | .fresh _ => t.crExit

/-- The memory encodes the frame. -/
def Holds (t : Text) (m : Mem) (c : Word) (f : Frame) : Prop :=
  readCtx m c = f.ctx t ∧ m.load f.slot = f.back t

/-- The bytes of a frame: the context and one word of the stack. -/
def foot (c : Word) (f : Frame) : Set Word := span c 64 ∪ span f.slot 8

/-- The processor goes on with the frame. -/
def Resumes (t : Text) (k' : Cpu) : Frame → Prop
  | .left ra k => k'.pc = ra ∧ k'.reg .rsp = k.reg .rsp ∧ ∀ r ∈ calleeSaved, k'.reg r = k.reg r
  | .fresh a =>
    k'.pc = a.func ∧ k'.reg .rdi = a.arg ∧ k'.reg .rsp = a.stackHigh ∧
      k'.mem.load a.stackHigh = t.crExit

/-- The x86-64 switch. -/
def switcher (t : Text) : Switcher Cpu Frame Start where
  mem := Cpu.mem
  Holds := Holds t
  foot := foot
  Fits c f := Disjoint (span c 64) (span f.slot 8)
  leave := .left
  fresh := .fresh
  switch := ctxSwitch t
  make := makeContext t
  Resumes := Resumes t

variable {t : Text} {m m' : Mem} {c ra old new : Word} {f : Frame} {k : Cpu} {a : Start}

lemma readCtx_congr (h : ∀ x ∈ span c 64, m' x = m x) : readCtx m' c = readCtx m c := by
  have hfield (i : ℕ) (hi : i + 8 ≤ 64) : field m' c i = field m c i :=
    Mem.load_congr fun x hx => h x (span_off_subset hi (by decide) hx)
  simp only [readCtx, hfield 0 (by decide), hfield 8 (by decide), hfield 16 (by decide),
    hfield 24 (by decide), hfield 32 (by decide), hfield 40 (by decide), hfield 48 (by decide),
    hfield 56 (by decide)]

lemma Holds.congr (h : Holds t m c f) (hm : ∀ x ∈ foot c f, m' x = m x) : Holds t m' c f :=
  ⟨(readCtx_congr fun x hx => hm x (.inl hx)).trans h.1,
    (Mem.load_congr fun x hx => hm x (.inr hx)).trans h.2⟩

/-- The offsets of a context are far enough apart. -/
def Spaced (is : List ℕ) : Prop := is.Pairwise Mem.Apart ∧ ∀ i ∈ is, i + 8 ≤ 64

instance (is : List ℕ) : Decidable (Spaced is) := inferInstanceAs (Decidable (_ ∧ _))

lemma spaced_fields (x : Ctx) : Spaced (x.fields.map Prod.fst) :=
  show Spaced [0, 8, 16, 24, 32, 40, 48, 56] by decide

lemma spaced_writes (t : Text) (a : Start) : Spaced ((a.writes t).map Prod.fst) :=
  show Spaced [0, 8, 32, 40, 56, 48, 16, 24] by decide

/-- Eight words that are written in any order are the context. -/
lemma readCtx_stores {l : List (ℕ × Word)} {x : Ctx} (h : Spaced (l.map Prod.fst))
    (hl : x.fields ⊆ l) (m : Mem) : readCtx (m.stores c l) c = x := by
  have hlt (i : ℕ) (hi : i ∈ l.map Prod.fst) : i < 2 ^ 32 :=
    lt_of_lt_of_le (by have := h.2 i hi; omega) (show 64 ≤ 2 ^ 32 by decide)
  have hfield {i : ℕ} {v : Word} (hv : (i, v) ∈ x.fields) : field (m.stores c l) c i = v :=
    Mem.load_stores hlt h.1 (hl hv) m
  cases x
  simp only [readCtx, Ctx.mk.injEq]
  refine ⟨?_, ?_, ?_, ?_, ?_, ?_, ?_, ?_⟩ <;> exact hfield (by simp [Ctx.fields])

/-- They are written inside the context. -/
lemma stores_of_notMem {l : List (ℕ × Word)} {x : Word} (h : Spaced (l.map Prod.fst))
    (hx : x ∉ span c 64) (m : Mem) : m.stores c l x = m x :=
  Mem.stores_of_notMem h.2 (by decide) hx m

/-! ### The switch -/

/-- The context that the first half of the switch saves. -/
def saved (t : Text) (k : Cpu) : Ctx where
  rip := t.lret
  rsp := k.reg .rsp
  rbp := k.reg .rbp
  rbx := k.reg .rbx
  r12 := k.reg .r12
  r13 := k.reg .r13
  r14 := k.reg .r14
  r15 := k.reg .r15

/-- The context that the processor is in. -/
def Cpu.ctx (k : Cpu) : Ctx where
  rip := k.pc
  rsp := k.reg .rsp
  rbp := k.reg .rbp
  rbx := k.reg .rbx
  r12 := k.reg .r12
  r13 := k.reg .r13
  r14 := k.reg .r14
  r15 := k.reg .r15

/-- The first half writes the old context. -/
lemma exec_asmSwitch_mem (k : Cpu) :
    (exec t asmSwitch k).mem = k.mem.stores (k.reg .rdi) (saved t k).fields := rfl

/-- Then it loads the new one. -/
lemma exec_asmSwitch_ctx (k : Cpu) :
    (exec t asmSwitch k).ctx = readCtx (exec t asmSwitch k).mem (k.reg .rsi) := rfl

lemma step_enter (t : Text) (ra old new : Word) (k : Cpu) :
    step t (enter t ra old new k) = some (exec t asmSwitch (enter t ra old new k)) := by
  simp [step, code, enter]

/-- What the first half leaves in memory. -/
lemma mem_first (t : Text) (ra old new : Word) (k : Cpu) :
    (exec t asmSwitch (enter t ra old new k)).mem =
      (k.mem.store (k.reg .rsp - 8) ra).stores old ((Frame.left ra k).ctx t).fields := rfl

/-- The first half writes nothing but the frame of the old context. -/
lemma mem_first_of_notMem {x : Word} (hx : x ∉ foot old (.left ra k)) :
    (exec t asmSwitch (enter t ra old new k)).mem x = k.mem x := by
  rw [mem_first, stores_of_notMem (spaced_fields _) fun h => hx (.inl h)]
  exact Mem.store_of_notMem fun h => hx (.inr h)

/-- The frame of the old context. -/
lemma holds_first (hfit : Disjoint (span old 64) (span (k.reg .rsp - 8) 8)) :
    Holds t (exec t asmSwitch (enter t ra old new k)).mem old (.left ra k) := by
  rw [mem_first]
  refine ⟨readCtx_stores (spaced_fields _) (List.Subset.refl _) _, ?_⟩
  have hslot : Mem.load ((k.mem.store (k.reg .rsp - 8) ra).stores old
      ((Frame.left ra k).ctx t).fields) (k.reg .rsp - 8) =
      Mem.load (k.mem.store (k.reg .rsp - 8) ra) (k.reg .rsp - 8) :=
    Mem.load_congr fun x hx =>
      stores_of_notMem (spaced_fields _) (Set.disjoint_right.1 hfit hx) _
  exact hslot.trans (Mem.load_store_self ..)

/-- A context that was left returns from its call of the switch. -/
lemma step_left {ra' : Word} {k' : Cpu} (hctx : k.ctx = (Frame.left ra' k').ctx t)
    (hra : k.mem.load (k'.reg .rsp - 8) = ra') :
    ∃ k₁, step t k = some k₁ ∧ Resumes t k₁ (.left ra' k') ∧ k₁.mem = k.mem := by
  have hpc : k.pc = t.lret := congrArg Ctx.rip hctx
  have hsp : k.reg .rsp = k'.reg .rsp - 8 := congrArg Ctx.rsp hctx
  refine ⟨exec t [.ret] k, by simp [step, code, hpc, t.lret_ne], ⟨?_, ?_, ?_⟩, rfl⟩
  · exact (congrArg k.mem.load hsp).trans hra
  · change k.reg .rsp + 8 = k'.reg .rsp
    rw [hsp, BitVec.sub_add_cancel]
  · intro r hr
    change Function.update k.reg .rsp _ r = _
    simp only [calleeSaved, List.mem_cons, List.not_mem_nil, or_false] at hr
    rcases hr with rfl | rfl | rfl | rfl | rfl | rfl
    · exact congrArg Ctx.rbx hctx
    · exact congrArg Ctx.rbp hctx
    · exact congrArg Ctx.r12 hctx
    · exact congrArg Ctx.r13 hctx
    · exact congrArg Ctx.r14 hctx
    · exact congrArg Ctx.r15 hctx

/-- A new context calls its function. -/
lemma step_fresh (hctx : k.ctx = (Frame.fresh a).ctx t)
    (hback : k.mem.load a.stackHigh = t.crExit) :
    ∃ k₁, step t k = some k₁ ∧ Resumes t k₁ (.fresh a) ∧ k₁.mem = k.mem := by
  have hpc : k.pc = t.asmEntry := congrArg Ctx.rip hctx
  refine ⟨exec t asmEntry k, by simp [step, code, hpc, t.entry_ne, t.entry_ne_lret],
    ⟨?_, ?_, ?_, hback⟩, rfl⟩
  · exact congrArg Ctx.r12 hctx
  · exact congrArg Ctx.r13 hctx
  · exact congrArg Ctx.rsp hctx

lemma ctxSwitch_spec (hf : Holds t k.mem new f)
    (hfit : Disjoint (span old 64) (span (k.reg .rsp - 8) 8))
    (hdis : Disjoint (foot new f) (foot old (.left ra k))) :
    ∃ k', ctxSwitch t ra old new k = some k' ∧ Resumes t k' f ∧
      Holds t k'.mem old (.left ra k) ∧ ∀ x ∉ foot old (.left ra k), k'.mem x = k.mem x := by
  obtain ⟨k₁, hk₁⟩ : ∃ k₁, k₁ = exec t asmSwitch (enter t ra old new k) := ⟨_, rfl⟩
  have hold : Holds t k₁.mem old (.left ra k) := hk₁ ▸ holds_first hfit
  have hframe : ∀ x ∉ foot old (.left ra k), k₁.mem x = k.mem x := fun x hx =>
    hk₁ ▸ mem_first_of_notMem hx
  -- the first half does not touch the frame of the new context, so the second half starts from it
  obtain ⟨hctx, hback⟩ : Holds t k₁.mem new f :=
    hf.congr fun x hx => hframe x (Set.disjoint_left.1 hdis hx)
  have hnow : k₁.ctx = f.ctx t := by
    rw [← hctx, hk₁]
    exact exec_asmSwitch_ctx _
  have hsecond : ∃ k', step t k₁ = some k' ∧ Resumes t k' f ∧ k'.mem = k₁.mem := by
    cases f with
    | left ra' k' => exact step_left hnow hback
    | fresh a => exact step_fresh hnow hback
  obtain ⟨k', hk', hres, hmem⟩ := hsecond
  refine ⟨k', ?_, hres, hmem ▸ hold, hmem ▸ hframe⟩
  rw [ctxSwitch, step_enter, Option.bind_some, ← hk₁, hk']

lemma makeContext_spec (c : Word) (a : Start) (k : Cpu)
    (hfit : Disjoint (span c 64) (span a.stackHigh 8)) :
    Holds t (makeContext t c a k).mem c (.fresh a) ∧
      ∀ x ∉ foot c (.fresh a), (makeContext t c a k).mem x = k.mem x := by
  refine ⟨⟨readCtx_stores (spaced_writes t a) ?_ _, ?_⟩, fun x hx => ?_⟩
  · simp [Ctx.fields, Frame.ctx, Start.writes]
  · refine (Mem.load_congr fun x hx => ?_).trans (Mem.load_store_self k.mem a.stackHigh t.crExit)
    exact stores_of_notMem (spaced_writes t a) (Set.disjoint_right.1 hfit hx) _
  · refine (stores_of_notMem (spaced_writes t a) (fun h => hx (.inl h)) _).trans ?_
    exact Mem.store_of_notMem fun h => hx (.inr h)

/-- The x86-64 switch obeys the rules. -/
lemma lawful (t : Text) : (switcher t).Lawful where
  congr := Holds.congr
  switch_spec := ctxSwitch_spec
  make_spec := makeContext_spec

/-! ### Runs -/

section Run

variable {ι : Type*} [DecidableEq ι] {L : Switcher.Layout ι} {s₀ s₁ s₂ s₃ : Switcher.State Cpu Frame ι}
  {es es' : List (Switcher.Event Cpu Start ι)} {j : ι} {ra' : Word}

/-- A context that called `suspenders_ctx_switch` comes back from this call, with its stack pointer and
the registers of its caller, at the next switch to it, whatever the other contexts did meanwhile.  The
switch writes only the frame of the context that it leaves. -/
theorem ctxSwitch_returns (h₀ : ∀ i, s₀.saved i = none) (h₁ : Run ((switcher t).Step L) s₀ es s₁)
    (hleave : (switcher t).Step L s₁ (.switch j ra) s₂) (h₂ : Run ((switcher t).Step L) s₂ es' s₃)
    (hspare : ∀ e ∈ es', e.Spares s₁.running)
    (hroom : (switcher t).Room L s₃.running (.left ra' s₃.cpu)) :
    ∃ k, ctxSwitch t ra' (L.ctx s₃.running) (L.ctx s₁.running) s₃.cpu = some k ∧
      k.pc = ra ∧ k.reg .rsp = s₁.cpu.reg .rsp ∧ (∀ r ∈ calleeSaved, k.reg r = s₁.cpu.reg r) ∧
      ∀ x, x ∉ span (L.ctx s₃.running) 64 → x ∉ span (s₃.cpu.reg .rsp - 8) 8 →
        k.mem x = s₃.cpu.mem x := by
  obtain ⟨k, hk, ⟨hpc, hsp, hregs⟩, hframe⟩ :=
    Switcher.returns (lawful t) h₀ h₁ hleave h₂ hspare hroom
  exact ⟨k, hk, hpc, hsp, hregs, fun x hctx hslot => hframe x (not_or_intro hctx hslot)⟩

/-! A main context at `0x1000` makes a second one at `0x20000` and switches to it. -/

/-- Some addresses of the code. -/
def Text.one : Text where
  asmSwitch := 0x20
  lret := 0x60
  asmEntry := 0x10
  crExit := 0x80
  lret_ne := by decide
  entry_ne := by decide
  entry_ne_lret := by decide

/-- A stack for the second context. -/
def Start.one : Start where
  stackBase := 0x21000
  stackSize := 0x1000
  func := 5
  arg := 6

/-- Only the main context. -/
def onlyMain : Switcher.State Cpu Frame Bool where
  cpu := { reg := fun _ => 0x1800, pc := 0, mem := fun _ => 0 }
  running := false
  saved _ := none

lemma room_two {i : Bool} {n : ℕ} (hslot : f.slot = Switcher.Layout.two.ctx i + BitVec.ofNat 64 n)
    (hlow : 64 ≤ n) (hhigh : n + 8 ≤ 0x10000) : (switcher t).Room .two i f := by
  constructor
  · change Disjoint (span (Switcher.Layout.two.ctx i) 64) (span f.slot 8)
    rw [hslot, Set.disjoint_left]
    intro x hx hx'
    rw [mem_span] at hx hx'
    bv_omega
  · change span (Switcher.Layout.two.ctx i) 64 ∪ span f.slot 8 ⊆
      span (Switcher.Layout.two.ctx i) 0x10000
    rw [hslot]
    refine Set.union_subset (fun x hx => ?_) (span_off_subset hhigh (by decide))
    rw [mem_span] at hx ⊢
    omega

/-- The main context has made the second one. -/
def withSecond : Switcher.State Cpu Frame Bool :=
  { onlyMain with
    cpu := makeContext .one 0x20000 .one onlyMain.cpu
    saved := Function.update onlyMain.saved true (some (.fresh .one)) }

lemma make_second :
    (switcher .one).Step .two onlyMain (.make true .one) withSecond :=
  .make (by decide) (room_two (n := 0x1f78) (by decide) (by decide) (by decide))

lemma room_main (ra : Word) :
    (switcher .one).Room .two withSecond.running (.left ra withSecond.cpu) :=
  room_two (n := 0x7f8) (show (0x1800 : Word) - 8 = 0x1000 + 0x7f8#64 by decide) (by decide)
    (by decide)

/-- The main context switches to the second one and back. -/
theorem ctxSwitch_returns_main :
    ∃ s k, (switcher .one).Step .two withSecond (.switch true 7) s ∧
      ctxSwitch .one 8 (Switcher.Layout.two.ctx s.running) (Switcher.Layout.two.ctx false) s.cpu =
        some k ∧
      k.pc = 7 ∧ k.reg .rsp = 0x1800 := by
  have hrun : Run ((switcher .one).Step .two) onlyMain [.make true .one] withSecond :=
    .cons make_second (.nil _)
  have hinv := Switcher.inv_run (lawful .one) (Switcher.inv_init fun _ => rfl) hrun
  obtain ⟨k, hk, ⟨-, -, hsp, -⟩, -⟩ :=
    hinv.switch (lawful .one) (j := true) rfl (room_main 7)
  have hleave := Switcher.Step.switch (L := .two) rfl (room_main 7) hk
  have hroom : (switcher .one).Room .two true (.left 8 k) := by
    refine room_two (n := 0x1f70) ?_ (by decide) (by decide)
    change k.reg .rsp - 8 = _
    rw [hsp]
    decide
  obtain ⟨k', hk', hpc, hsp', -⟩ :=
    ctxSwitch_returns (fun _ => rfl) hrun hleave (.nil _) (by simp) hroom
  exact ⟨_, k', hleave, hk', hpc, hsp'⟩

/-- A context that was made calls its function with its argument, at the top of its stack and with the
alignment that the ABI asks for.  If the function returns, `suspenders_cr_exit` runs; it finds the stack
eight bytes off the alignment that a called function may expect. -/
theorem ctxSwitch_starts (h₀ : ∀ i, s₀.saved i = none) (h₁ : Run ((switcher t).Step L) s₀ es s₁)
    (hmake : (switcher t).Step L s₁ (.make j a) s₂) (h₂ : Run ((switcher t).Step L) s₂ es' s₃)
    (hspare : ∀ e ∈ es', e.Spares j) (hroom : (switcher t).Room L s₃.running (.left ra s₃.cpu))
    (hbase : a.stackBase.toNat % 16 = 0) (hsize : a.stackSize.toNat % 16 = 0) :
    ∃ k, ctxSwitch t ra (L.ctx s₃.running) (L.ctx j) s₃.cpu = some k ∧
      k.pc = a.func ∧ k.reg .rdi = a.arg ∧ k.reg .rsp = a.stackBase + a.stackSize - 136 ∧
      (k.reg .rsp + 8).toNat % 16 = 0 ∧
      ∀ k', k'.reg .rsp = k.reg .rsp → k'.mem.load (k.reg .rsp) = k.mem.load (k.reg .rsp) →
        (exec t [.ret] k').pc = t.crExit ∧ ((exec t [.ret] k').reg .rsp + 8).toNat % 16 = 8 := by
  obtain ⟨k, hk, ⟨hpc, harg, hsp, hback⟩, -⟩ :=
    Switcher.starts (lawful t) h₀ h₁ hmake h₂ hspare hroom
  have hhigh : a.stackHigh = a.stackBase + a.stackSize - 136 := by
    rw [Start.stackHigh]
    bv_omega
  rw [hhigh] at hsp hback
  refine ⟨k, hk, hpc, harg, hsp, ?_, fun k' hsp' hmem => ⟨?_, ?_⟩⟩
  · rw [hsp]
    bv_omega
  · change k'.mem.load (k'.reg .rsp) = _
    rw [hsp', hmem, hsp, hback]
  · change (k'.reg .rsp + 8 + 8).toNat % 16 = 8
    rw [hsp', hsp]
    bv_omega

/-- The second context starts. -/
theorem ctxSwitch_starts_second :
    ∃ k, ctxSwitch .one 7 (Switcher.Layout.two.ctx false) (Switcher.Layout.two.ctx true)
        withSecond.cpu = some k ∧
      k.pc = 5 ∧ k.reg .rdi = 6 := by
  obtain ⟨k, hk, hpc, harg, -⟩ := ctxSwitch_starts (fun _ => rfl) (.nil onlyMain) make_second
    (.nil _) (by simp) (room_main 7) (by decide) (by decide)
  exact ⟨k, hk, hpc, harg⟩

end Run

end Suspenders.X86
