import Suspenders.Lib.Coswitch

/-!
# The context switch on AArch64

The AArch64 counterpart of `Context.X86`.  Here the return address travels in `x30` and is part of the
context, so that the frame of a context is its `suspenders_ctx_t` alone; the switch also saves the low
halves of the vector registers `d8` to `d15`.  `lawful` says that the code is a lawful switcher, and
`ctxSwitch_returns` and `ctxSwitch_starts` what this means along runs.
-/

namespace Suspenders.Aarch64

open Lib

/-- The registers. -/
inductive Reg
  | x (n : Fin 31)
  | sp
  | d (n : Fin 32)
  deriving DecidableEq

/-- The processor and its memory. -/
structure Cpu where
  reg : Reg → Word
  pc : Word
  mem : Mem

/-- Write a register. -/
def Cpu.set (k : Cpu) (r : Reg) (v : Word) : Cpu := { k with reg := Function.update k.reg r v }

/-- The word at an offset of a record. -/
abbrev field (m : Mem) (c : Word) (i : ℕ) : Word := m.load (c + BitVec.ofNat 64 i)

/-- The instructions of the switch. -/
inductive Instr
  /-- `mov dst, src` -/
  | mov (dst src : Reg)
  /-- `stp a, b, [base, #off]` -/
  | stp (a b base : Reg) (off : ℕ)
  /-- `ldp a, b, [base, #off]` -/
  | ldp (a b base : Reg) (off : ℕ)
  /-- `br r` -/
  | br (r : Reg)
  /-- `blr r` -/
  | blr (r : Reg)
  /-- `b suspenders_cr_exit` -/
  | bCrExit

/-- Where the linker put the code. -/
structure Text where
  /-- `_suspenders_asm_switch` -/
  asmSwitch : Word
  /-- `_suspenders_asm_entry` -/
  asmEntry : Word
  /-- The instruction of `_suspenders_asm_entry` behind the `blr`. -/
  entryRet : Word
  /-- `suspenders_cr_exit` -/
  crExit : Word
  entry_ne : asmEntry ≠ asmSwitch
  ret_ne : entryRet ≠ asmSwitch
  ret_ne_entry : entryRet ≠ asmEntry

/-- Execute instructions in order, up to the first branch. -/
def exec (t : Text) : List Instr → Cpu → Cpu
  | [], k => k
  | .mov dst src :: l, k => exec t l (k.set dst (k.reg src))
  | .stp a b base off :: l, k =>
    exec t l { k with mem := k.mem.stores (k.reg base) [(off, k.reg a), (off + 8, k.reg b)] }
  | .ldp a b base off :: l, k =>
    exec t l ((k.set a (field k.mem (k.reg base) off)).set b (field k.mem (k.reg base) (off + 8)))
  | .br r :: _, k => { k with pc := k.reg r }
  | .blr r :: _, k => { k.set (.x 30) t.entryRet with pc := k.reg r }
  | .bCrExit :: _, k => { k with pc := t.crExit }

/-- `_suspenders_asm_switch`. -/
def asmSwitch : List Instr :=
  [.mov (.x 10) .sp,
   .mov (.x 11) (.x 30),
   .stp (.x 19) (.x 20) (.x 0) (0 * 16),
   .stp (.x 21) (.x 22) (.x 0) (1 * 16),
   .stp (.d 8) (.d 9) (.x 0) (7 * 16),
   .stp (.x 23) (.x 24) (.x 0) (2 * 16),
   .stp (.d 10) (.d 11) (.x 0) (8 * 16),
   .stp (.x 25) (.x 26) (.x 0) (3 * 16),
   .stp (.d 12) (.d 13) (.x 0) (9 * 16),
   .stp (.x 27) (.x 28) (.x 0) (4 * 16),
   .stp (.d 14) (.d 15) (.x 0) (10 * 16),
   .stp (.x 29) (.x 30) (.x 0) (5 * 16),
   .stp (.x 10) (.x 11) (.x 0) (6 * 16),
   .ldp (.x 19) (.x 20) (.x 1) (0 * 16),
   .ldp (.x 21) (.x 22) (.x 1) (1 * 16),
   .ldp (.d 8) (.d 9) (.x 1) (7 * 16),
   .ldp (.x 23) (.x 24) (.x 1) (2 * 16),
   .ldp (.d 10) (.d 11) (.x 1) (8 * 16),
   .ldp (.x 25) (.x 26) (.x 1) (3 * 16),
   .ldp (.d 12) (.d 13) (.x 1) (9 * 16),
   .ldp (.x 27) (.x 28) (.x 1) (4 * 16),
   .ldp (.d 14) (.d 15) (.x 1) (10 * 16),
   .ldp (.x 29) (.x 30) (.x 1) (5 * 16),
   .ldp (.x 10) (.x 11) (.x 1) (6 * 16),
   .mov .sp (.x 10),
   .br (.x 11)]

/-- `_suspenders_asm_entry`, up to the call and behind it. -/
def asmEntry : List Instr := [.mov (.x 0) (.x 19), .blr (.x 20)]

/-- The code at an address, if it is one of the assembler routines. -/
def code (t : Text) (pc : Word) : Option (List Instr) :=
  if pc = t.asmSwitch then some asmSwitch
  else if pc = t.asmEntry then some asmEntry
  else if pc = t.entryRet then some [.bCrExit]
  else none

/-- Run the routine at the program counter; elsewhere the compiled code goes on. -/
def step (t : Text) (k : Cpu) : Cpu :=
  match code t k.pc with
  | some l => exec t l k
  | none => k

/-- Call `_suspenders_asm_switch(old, new)`. -/
def enter (t : Text) (ra old new : Word) (k : Cpu) : Cpu :=
  { ((k.set (.x 0) old).set (.x 1) new).set (.x 30) ra with pc := t.asmSwitch }

/-- `suspenders_ctx_switch`: the old context executes up to its branch, the new one from there. -/
def ctxSwitch (t : Text) (ra old new : Word) (k : Cpu) : Cpu := step t (step t (enter t ra old new k))

/-- What `suspenders_make_context` is given. -/
structure Start where
  stackBase : Word
  stackSize : Word
  func : Word
  arg : Word

/-- The fields that `suspenders_make_context` writes, in its order. -/
def Start.writes (t : Text) (a : Start) : List (ℕ × Word) :=
  [(0, a.arg), (8, a.func), (16, 0xdeaddeaddeaddead), (96, a.stackBase + a.stackSize),
   (104, t.asmEntry)] ++
    (List.range 9).map (fun i => (8 * (i + 3), 0)) ++ (List.range 8).map (fun i => (8 * i + 112, 0))

/-- `suspenders_make_context`. -/
def makeContext (t : Text) (ctx : Word) (a : Start) (k : Cpu) : Cpu :=
  { k with mem := k.mem.stores ctx (a.writes t) }

/-! ### The frames -/

/-- What a context needs to run: the state in which it called the switch, or how it starts. -/
inductive Frame
  | left (ra : Word) (k : Cpu)
  | fresh (a : Start)

/-- The registers that a callee has to preserve, with their offsets in `suspenders_ctx_t`. -/
def calleeSaved : List (Reg × ℕ) :=
  [(.x 19, 0), (.x 20, 8), (.x 21, 16), (.x 22, 24), (.x 23, 32), (.x 24, 40), (.x 25, 48),
   (.x 26, 56), (.x 27, 64), (.x 28, 72), (.x 29, 80), (.sp, 96), (.d 8, 112), (.d 9, 120),
   (.d 10, 128), (.d 11, 136), (.d 12, 144), (.d 13, 152), (.d 14, 160), (.d 15, 168)]

/-- The context at an address is that of the frame. -/
def Encodes (t : Text) (m : Mem) (c : Word) : Frame → Prop
  | .left ra k => field m c 104 = ra ∧ ∀ p ∈ calleeSaved, field m c p.2 = k.reg p.1
  | .fresh a =>
    field m c 104 = t.asmEntry ∧ field m c 0 = a.arg ∧ field m c 8 = a.func ∧
      field m c 96 = a.stackBase + a.stackSize

/-- The bytes of a context. -/
def foot (c : Word) (_ : Frame) : Set Word := span c 176

/-- A return address is in compiled code. -/
def Frame.Fits (t : Text) : Frame → Prop
  | .left ra _ => code t ra = none
  | .fresh _ => True

/-- The memory encodes the frame. -/
def Holds (t : Text) (m : Mem) (c : Word) (f : Frame) : Prop := f.Fits t ∧ Encodes t m c f

/-- The processor goes on with the frame. -/
def Resumes (t : Text) (k' : Cpu) : Frame → Prop
  | .left ra k => k'.pc = ra ∧ ∀ p ∈ calleeSaved, k'.reg p.1 = k.reg p.1
  | .fresh a =>
    k'.pc = a.func ∧ k'.reg (.x 0) = a.arg ∧ k'.reg .sp = a.stackBase + a.stackSize ∧
      k'.reg (.x 30) = t.entryRet

/-- The AArch64 switch. -/
def switcher (t : Text) : Switcher Cpu Frame Start where
  mem := Cpu.mem
  Holds := Holds t
  foot := foot
  Fits _ := Frame.Fits t
  leave := .left
  fresh := .fresh
  switch ra old new k := some (ctxSwitch t ra old new k)
  make := makeContext t
  Resumes := Resumes t

variable {t : Text} {m m' : Mem} {c ra old new : Word} {f : Frame} {k : Cpu} {a : Start}

lemma field_congr (h : ∀ x ∈ span c 176, m' x = m x) {i : ℕ} (hi : i + 8 ≤ 176) :
    field m' c i = field m c i :=
  Mem.load_congr fun x hx => h x (span_off_subset hi (by decide) hx)

lemma calleeSaved_le : ∀ p ∈ calleeSaved, p.2 + 8 ≤ 176 := by decide

lemma Encodes.congr (h : Encodes t m c f) (hm : ∀ x ∈ span c 176, m' x = m x) :
    Encodes t m' c f := by
  cases f with
  | left ra k =>
    obtain ⟨hlr, hregs⟩ := h
    exact ⟨(field_congr hm (by decide)).trans hlr, fun p hp =>
      (field_congr hm (calleeSaved_le p hp)).trans (hregs p hp)⟩
  | fresh a =>
    obtain ⟨hlr, harg, hfunc, hsp⟩ := h
    exact ⟨(field_congr hm (by decide)).trans hlr, (field_congr hm (by decide)).trans harg,
      (field_congr hm (by decide)).trans hfunc, (field_congr hm (by decide)).trans hsp⟩

/-! ### The switch -/

/-- The fields that the switch saves, in its order. -/
def saves (ra : Word) (k : Cpu) : List (ℕ × Word) :=
  [(0, k.reg (.x 19)), (8, k.reg (.x 20)), (16, k.reg (.x 21)), (24, k.reg (.x 22)),
   (112, k.reg (.d 8)), (120, k.reg (.d 9)), (32, k.reg (.x 23)), (40, k.reg (.x 24)),
   (128, k.reg (.d 10)), (136, k.reg (.d 11)), (48, k.reg (.x 25)), (56, k.reg (.x 26)),
   (144, k.reg (.d 12)), (152, k.reg (.d 13)), (64, k.reg (.x 27)), (72, k.reg (.x 28)),
   (160, k.reg (.d 14)), (168, k.reg (.d 15)), (80, k.reg (.x 29)), (88, ra),
   (96, k.reg .sp), (104, ra)]

/-- Offsets of a context that are far enough apart. -/
def Spaced (is : List ℕ) : Prop := is.Pairwise Mem.Apart ∧ ∀ i ∈ is, i + 8 ≤ 176

instance (is : List ℕ) : Decidable (Spaced is) := inferInstanceAs (Decidable (_ ∧ _))

lemma spaced_saves (ra : Word) (k : Cpu) : Spaced ((saves ra k).map Prod.fst) :=
  show Spaced [0, 8, 16, 24, 112, 120, 32, 40, 128, 136, 48, 56, 144, 152, 64, 72, 160, 168, 80, 88,
    96, 104] by decide

lemma spaced_writes (t : Text) (a : Start) : Spaced ((a.writes t).map Prod.fst) :=
  show Spaced [0, 8, 16, 96, 104, 24, 32, 40, 48, 56, 64, 72, 80, 88, 112, 120, 128, 136, 144, 152,
    160, 168] by decide

lemma field_stores {l : List (ℕ × Word)} (h : Spaced (l.map Prod.fst)) {i : ℕ} {v : Word}
    (hv : (i, v) ∈ l) (m : Mem) : field (m.stores c l) c i = v :=
  Mem.load_stores (fun j hj => lt_of_lt_of_le (Nat.lt_of_lt_of_le (by omega) (h.2 j hj))
    (show 176 ≤ 2 ^ 32 by decide)) h.1 hv m

lemma stores_of_notMem {l : List (ℕ × Word)} {x : Word} (h : Spaced (l.map Prod.fst))
    (hx : x ∉ span c 176) (m : Mem) : m.stores c l x = m x :=
  Mem.stores_of_notMem h.2 (by decide) hx m

/-- Execution goes on behind the instruction. -/
def Instr.Falls : Instr → Prop
  | .mov .. | .stp .. | .ldp .. => True
  | .br _ | .blr _ | .bCrExit => False

lemma exec_append {l l' : List Instr} (hl : ∀ i ∈ l, i.Falls) (k : Cpu) :
    exec t (l ++ l') k = exec t l' (exec t l k) := by
  induction l generalizing k with
  | nil => rfl
  | cons i l ih =>
    have htail (k : Cpu) : exec t (l ++ l') k = exec t l' (exec t l k) :=
      ih (fun j hj => hl j (List.mem_cons_of_mem _ hj)) k
    cases i with
    | mov | stp | ldp => exact htail _
    | br | blr | bCrExit => exact (hl _ List.mem_cons_self).elim

/-- The instructions that save the old context. -/
def firstHalf : List Instr := asmSwitch.take 13

/-- The instructions that load the new one. -/
def secondHalf : List Instr := asmSwitch.drop 13

lemma exec_asmSwitch (k : Cpu) : exec t asmSwitch k = exec t secondHalf (exec t firstHalf k) :=
  exec_append (l := firstHalf) (by simp [firstHalf, asmSwitch, Instr.Falls]) k

lemma exec_secondHalf_mem (k : Cpu) : (exec t secondHalf k).mem = k.mem := rfl

lemma exec_secondHalf_pc (k : Cpu) : (exec t secondHalf k).pc = field k.mem (k.reg (.x 1)) 104 := rfl

lemma exec_secondHalf_reg (k : Cpu) :
    ∀ p ∈ calleeSaved, (exec t secondHalf k).reg p.1 = field k.mem (k.reg (.x 1)) p.2 := by
  simp only [calleeSaved, List.forall_mem_cons]
  refine ⟨?_, ?_, ?_, ?_, ?_, ?_, ?_, ?_, ?_, ?_, ?_, ?_, ?_, ?_, ?_, ?_, ?_, ?_, ?_, ?_, by simp⟩ <;>
    rfl

lemma exec_firstHalf_mem :
    (exec t firstHalf (enter t ra old new k)).mem = k.mem.stores old (saves ra k) := rfl

lemma exec_firstHalf_x1 : (exec t firstHalf (enter t ra old new k)).reg (.x 1) = new := rfl

/-- The first half writes the old context. -/
lemma exec_asmSwitch_mem :
    (exec t asmSwitch (enter t ra old new k)).mem = k.mem.stores old (saves ra k) := by
  rw [exec_asmSwitch, exec_secondHalf_mem, exec_firstHalf_mem]

/-- Then it loads the new one. -/
lemma exec_asmSwitch_reg : ∀ p ∈ calleeSaved,
    (exec t asmSwitch (enter t ra old new k)).reg p.1 =
      field (exec t asmSwitch (enter t ra old new k)).mem new p.2 := by
  intro p hp
  rw [exec_asmSwitch, exec_secondHalf_mem, exec_secondHalf_reg _ p hp, exec_firstHalf_x1]

/-- It goes on where the new one has its link register. -/
lemma exec_asmSwitch_pc :
    (exec t asmSwitch (enter t ra old new k)).pc =
      field (exec t asmSwitch (enter t ra old new k)).mem new 104 := by
  rw [exec_asmSwitch, exec_secondHalf_mem, exec_secondHalf_pc, exec_firstHalf_x1]

/-- What the switch saves are the preserved registers. -/
lemma calleeSaved_saves : ∀ p ∈ calleeSaved, (p.2, k.reg p.1) ∈ saves ra k := by
  simp [calleeSaved, saves]

lemma step_enter (t : Text) (ra old new : Word) (k : Cpu) :
    step t (enter t ra old new k) = exec t asmSwitch (enter t ra old new k) := by
  simp [step, code, enter]

/-- The frame of the old context. -/
lemma encodes_first : Encodes t (exec t asmSwitch (enter t ra old new k)).mem old (.left ra k) := by
  rw [exec_asmSwitch_mem]
  exact ⟨field_stores (spaced_saves ra k) (by simp [saves]) _, fun p hp =>
    field_stores (spaced_saves ra k) (calleeSaved_saves p hp) _⟩

/-- A context that was left returns from its call of the switch. -/
lemma step_left {ra' : Word} {k' : Cpu} (hpc : k.pc = ra')
    (hregs : ∀ p ∈ calleeSaved, k.reg p.1 = k'.reg p.1) (hra : code t ra' = none) :
    Resumes t (step t k) (.left ra' k') ∧ (step t k).mem = k.mem := by
  rw [step, hpc, hra]
  exact ⟨⟨hpc, hregs⟩, rfl⟩

/-- A new context calls its function. -/
lemma step_fresh (hpc : k.pc = t.asmEntry) (harg : k.reg (.x 19) = a.arg)
    (hfunc : k.reg (.x 20) = a.func) (hsp : k.reg .sp = a.stackBase + a.stackSize) :
    Resumes t (step t k) (.fresh a) ∧ (step t k).mem = k.mem := by
  have hcode : code t t.asmEntry = some asmEntry := by simp [code, t.entry_ne]
  rw [step, hpc, hcode]
  exact ⟨⟨hfunc, harg, hsp, rfl⟩, rfl⟩

lemma ctxSwitch_spec (hf : Holds t k.mem new f) (hra : code t ra = none)
    (hdis : Disjoint (foot new f) (foot old (.left ra k))) :
    Resumes t (ctxSwitch t ra old new k) f ∧
      Holds t (ctxSwitch t ra old new k).mem old (.left ra k) ∧
      ∀ x ∉ foot old (.left ra k), (ctxSwitch t ra old new k).mem x = k.mem x := by
  obtain ⟨k₁, hk₁⟩ : ∃ k₁, k₁ = exec t asmSwitch (enter t ra old new k) := ⟨_, rfl⟩
  have hold : Encodes t k₁.mem old (.left ra k) := hk₁ ▸ encodes_first
  have hframe : ∀ x ∉ foot old (.left ra k), k₁.mem x = k.mem x := fun x hx => by
    rw [hk₁, exec_asmSwitch_mem]
    exact stores_of_notMem (spaced_saves ra k) hx _
  -- the first half does not touch the context of the new one, so it loads what was saved there
  have hkept : Encodes t k₁.mem new f :=
    hf.2.congr fun x hx => hframe x (Set.disjoint_left.1 hdis hx)
  have hpc : k₁.pc = field k₁.mem new 104 := hk₁ ▸ exec_asmSwitch_pc
  have hregs : ∀ p ∈ calleeSaved, k₁.reg p.1 = field k₁.mem new p.2 := hk₁ ▸ exec_asmSwitch_reg
  have hsecond : Resumes t (step t k₁) f ∧ (step t k₁).mem = k₁.mem := by
    cases f with
    | left ra' k' =>
      exact step_left (hpc.trans hkept.1) (fun p hp => (hregs p hp).trans (hkept.2 p hp)) hf.1
    | fresh a =>
      obtain ⟨hlr, harg, hfunc, hsp⟩ := hkept
      exact step_fresh (hpc.trans hlr) ((hregs (.x 19, 0) (by decide)).trans harg)
        ((hregs (.x 20, 8) (by decide)).trans hfunc) ((hregs (.sp, 96) (by decide)).trans hsp)
  rw [ctxSwitch, step_enter, ← hk₁, hsecond.2]
  exact ⟨hsecond.1, ⟨hra, hold⟩, hframe⟩

lemma makeContext_spec (c : Word) (a : Start) (k : Cpu) :
    Holds t (makeContext t c a k).mem c (.fresh a) ∧
      ∀ x ∉ foot c (.fresh a), (makeContext t c a k).mem x = k.mem x := by
  have hfield {i : ℕ} {v : Word} (hv : (i, v) ∈ a.writes t) :
      field (makeContext t c a k).mem c i = v := field_stores (spaced_writes t a) hv _
  refine ⟨⟨trivial, hfield ?_, hfield ?_, hfield ?_, hfield ?_⟩, fun x hx =>
    stores_of_notMem (spaced_writes t a) hx _⟩ <;> simp [Start.writes]

/-- The AArch64 switch obeys the rules. -/
lemma lawful (t : Text) : (switcher t).Lawful where
  congr h hm := ⟨h.1, h.2.congr hm⟩
  switch_spec h hra hdis := ⟨_, rfl, ctxSwitch_spec h hra hdis⟩
  make_spec c a k _ := makeContext_spec c a k

/-! ### Runs -/

section Run

variable {ι : Type*} [DecidableEq ι] {L : Switcher.Layout ι} {s₀ s₁ s₂ s₃ : Switcher.State Cpu Frame ι}
  {es es' : List (Switcher.Event Cpu Start ι)} {j : ι} {ra' : Word}

/-- A context that called `suspenders_ctx_switch` comes back from this call, with the registers of its
caller, at the next switch to it, whatever the other contexts did meanwhile.  The switch writes only the
context that it leaves. -/
theorem ctxSwitch_comes_back (h₀ : ∀ i, s₀.saved i = none)
    (h₁ : Run ((switcher t).Step L) s₀ es s₁) (hleave : (switcher t).Step L s₁ (.switch j ra) s₂)
    (h₂ : Run ((switcher t).Step L) s₂ es' s₃) (hspare : ∀ e ∈ es', e.Spares s₁.running)
    (hroom : (switcher t).Room L s₃.running (.left ra' s₃.cpu)) :
    ∃ k, ctxSwitch t ra' (L.ctx s₃.running) (L.ctx s₁.running) s₃.cpu = k ∧
      k.pc = ra ∧ (∀ p ∈ calleeSaved, k.reg p.1 = s₁.cpu.reg p.1) ∧
      ∀ x, x ∉ span (L.ctx s₃.running) 176 → k.mem x = s₃.cpu.mem x := by
  obtain ⟨k, hk, ⟨hpc, hregs⟩, hframe⟩ :=
    Switcher.returns (lawful t) h₀ h₁ hleave h₂ hspare hroom
  exact ⟨k, Option.some.inj hk, hpc, hregs, hframe⟩

/-! A main context at `0x1000` makes a second one at `0x20000` and switches to it. -/

/-- Some addresses of the code. -/
def Text.one : Text where
  asmSwitch := 1
  asmEntry := 2
  entryRet := 3
  crExit := 4
  entry_ne := by decide
  ret_ne := by decide
  ret_ne_entry := by decide

/-- A stack for the second context. -/
def Start.one : Start where
  stackBase := 0x21000
  stackSize := 0x1000
  func := 5
  arg := 6

/-- Only the main context. -/
def onlyMain : Switcher.State Cpu Frame Bool where
  cpu := { reg := fun _ => 0x1800, pc := 0, mem := fun _ => 0 }
  running := false
  saved _ := none

lemma room_two {i : Bool} (hf : f.Fits t) : (switcher t).Room .two i f := by
  refine ⟨hf, ?_⟩
  change span (Switcher.Layout.two.ctx i) 176 ⊆ span (Switcher.Layout.two.ctx i) 0x10000
  intro x hx
  rw [mem_span] at hx ⊢
  omega

/-- The main context has made the second one. -/
def withSecond : Switcher.State Cpu Frame Bool :=
  { onlyMain with
    cpu := makeContext .one 0x20000 .one onlyMain.cpu
    saved := Function.update onlyMain.saved true (some (.fresh .one)) }

lemma make_second : (switcher .one).Step .two onlyMain (.make true .one) withSecond :=
  .make (by decide) (room_two trivial)

/-- The main context switches to the second one and back. -/
theorem ctxSwitch_comes_back_main :
    ∃ s k, (switcher .one).Step .two withSecond (.switch true 7) s ∧
      ctxSwitch .one 8 (Switcher.Layout.two.ctx s.running) (Switcher.Layout.two.ctx false) s.cpu =
        k ∧
      k.pc = 7 := by
  have hinv := Switcher.inv_step (lawful .one) (Switcher.inv_init fun _ => rfl) make_second
  have hmain (ra : Word) (hra : code .one ra = none) :
      (switcher .one).Room .two withSecond.running (.left ra withSecond.cpu) := room_two hra
  obtain ⟨k, hk, -⟩ := hinv.switch (lawful .one) (j := true) rfl (hmain 7 (by decide))
  have hleave := Switcher.Step.switch (L := .two) rfl (hmain 7 (by decide)) hk
  obtain ⟨k', hk', hpc, -⟩ := ctxSwitch_comes_back (fun _ => rfl) (.cons make_second (.nil _))
    hleave (.nil _) (by simp) (room_two (show code .one 8 = none by decide))
  exact ⟨_, k', hleave, hk', hpc⟩

/-- A context that was made calls its function with its argument, at the top of its stack, which is
aligned.  If the function returns, `suspenders_cr_exit` runs with this stack pointer. -/
theorem ctxSwitch_starts_func (h₀ : ∀ i, s₀.saved i = none)
    (h₁ : Run ((switcher t).Step L) s₀ es s₁) (hmake : (switcher t).Step L s₁ (.make j a) s₂)
    (h₂ : Run ((switcher t).Step L) s₂ es' s₃) (hspare : ∀ e ∈ es', e.Spares j)
    (hroom : (switcher t).Room L s₃.running (.left ra s₃.cpu))
    (hbase : a.stackBase.toNat % 16 = 0) (hsize : a.stackSize.toNat % 16 = 0) :
    ∃ k, ctxSwitch t ra (L.ctx s₃.running) (L.ctx j) s₃.cpu = k ∧
      k.pc = a.func ∧ k.reg (.x 0) = a.arg ∧ k.reg .sp = a.stackBase + a.stackSize ∧
      (k.reg .sp).toNat % 16 = 0 ∧
      ∀ k', k'.pc = k.reg (.x 30) →
        (step t k').pc = t.crExit ∧ (step t k').reg .sp = k'.reg .sp := by
  obtain ⟨k, hk, ⟨hpc, harg, hsp, hlr⟩, -⟩ :=
    Switcher.starts (lawful t) h₀ h₁ hmake h₂ hspare hroom
  refine ⟨k, Option.some.inj hk, hpc, harg, hsp, ?_, fun k' hpc' => ?_⟩
  · rw [hsp]
    bv_omega
  · have hcode : code t t.entryRet = some [.bCrExit] := by
      simp [code, t.ret_ne, t.ret_ne_entry]
    rw [step, hpc', hlr, hcode]
    exact ⟨rfl, rfl⟩

/-- The second context starts. -/
theorem ctxSwitch_starts_func_second :
    ∃ k, ctxSwitch .one 7 (Switcher.Layout.two.ctx false) (Switcher.Layout.two.ctx true)
        withSecond.cpu = k ∧
      k.pc = 5 ∧ k.reg (.x 0) = 6 := by
  obtain ⟨k, hk, hpc, harg, -⟩ := ctxSwitch_starts_func (fun _ => rfl) (.nil onlyMain)
    make_second (.nil _) (by simp) (room_two (show code .one 7 = none by decide)) (by decide)
    (by decide)
  exact ⟨k, hk, hpc, harg⟩

end Run

end Suspenders.Aarch64
