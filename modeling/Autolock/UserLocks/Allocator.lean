import Autolock.Concurrency.Threads
import Autolock.Data.LowestBit
import Autolock.UserLocks.AutolockPage
import Autolock.UserLocks.KernelState
import Mathlib.Algebra.Group.Nat.Defs

namespace Autolock
namespace UserLocks

open Concurrency Data

/-!
# The built-in allocator of cache lines

The page that a thread shares with the kernel has 64 cache lines.  The last
word of the second one is a mask whose set bits stand for the lines that are
free; the first two bits are clear from the beginning.  Only the owner of the
page allocates, any thread frees, and each does so by one atomic addition or
subtraction.

`alloc` adds the lowest bit of the mask instead of subtracting it, and `free`
subtracts.  The line is counted from the end of the first two although the mask
counts these two as well.
-/

/-- `L1_CACHE_LINE_SIZE` -/
def l1CacheLineSize : UInt32 := 64

namespace Allocator

/-- The 64-bit words of the memory, by their addresses. -/
abbrev Memory := UInt64 -> UInt64

/-- `__atomic_fetch_add` -/
def fetchAdd (mem : Memory) (addr v : UInt64) : Memory :=
  Function.update mem addr (mem addr + v)

/-- `__atomic_fetch_sub` -/
def fetchSub (mem : Memory) (addr v : UInt64) : Memory :=
  Function.update mem addr (mem addr - v)

/-- `ctz`, that is `_tzcnt_u64`, which is 64 for 0 -/
def ctz (x : UInt64) : UInt32 := UInt32.ofNat x.toBitVec.ctz.toNat

/-- `I_allocator_get_region_start` -/
def getRegionStart (kernelAutolock : UInt64) : UInt64 :=
  kernelAutolock + (l1CacheLineSize * 2).toUInt64

/-- `I_allocator_get_cur_mask_ptr` -/
def getCurMaskPtr (regionStart : UInt64) : UInt64 := regionStart - 8

/-- `I_allocator_ptr_to_bit` -/
def ptrToBit (ptr : UInt64) : UInt64 :=
  let ptrInt32 := ptr.toUInt32
  let ptrInt32 := ptrInt32 / l1CacheLineSize
  let ptrInt32 := ptrInt32 &&& (4096 / l1CacheLineSize - 1)
  1 <<< ptrInt32.toUInt64

/-- `I_allocator_ptr_get_mask_ptr` -/
def ptrGetMaskPtr (ptr : UInt64) : UInt64 :=
  let ptrInt := ptr
  let ptrInt := ptrInt &&& (-4096)
  ptrInt + ((l1CacheLineSize * 2).toUInt64 - 8)

/-- `autolock_allocator_init`: what it returns, the pointer `I_kernel_autolock`
and the memory.  `fd` and `p` are what the system calls would return. -/
def autolockAllocatorInit (kernelAutolock : UInt64) (fd : Int32) (p : UInt64) (mem : Memory) :
    Int × UInt64 × Memory :=
  let state := autolockInitKernelState kernelAutolock fd p
  if state.1 = nullPointer then (iFailure, state.2, mem)
  else (iSuccess, state.2,
    Function.update mem (getCurMaskPtr (getRegionStart state.2)) (-4))

/-- `autolock_allocator_alloc` has loaded the mask. -/
inductive Pc where
  | idle
  | loaded (curMask : UInt64)
  deriving DecidableEq

inductive Action where
  | alloc
  | run
  | free (ptr : UInt64)

/-- A line that is handed out or taken back, with the bits of the mask that change. -/
inductive Move where
  | allocated (ptr changed : UInt64)
  | freed (ptr changed : UInt64)
  deriving DecidableEq

inductive Event where
  | loadedMask
  | moved (move : Move)
  deriving DecidableEq

/-- The bit that `alloc` isolates. -/
def isolate (curMask : UInt64) : UInt64 := curMask &&& (-curMask)

/-- What `alloc` returns. -/
def allocPtr (base curMask : UInt64) : UInt64 :=
  getRegionStart base + (ctz (isolate curMask) * l1CacheLineSize).toUInt64

/-- The mask in the page at `base`. -/
def maskOf (base : UInt64) (mem : Memory) : UInt64 := mem (getCurMaskPtr (getRegionStart base))

section program

variable {Tid : Type} [DecidableEq Tid]

/-- One atomic step of one thread, for the allocator in the page at `base`. -/
def step (owner : Tid) (base : UInt64) (t : Tid) (action : Action) (mem : Memory) (pc : Pc) :
    Option (Memory × Pc × Event) :=
  match pc, action with
  -- `autolock_allocator_alloc`, only by the owner of the page
  | .idle, .alloc => if t = owner then some (mem, .loaded (maskOf base mem), .loadedMask) else none
  | .loaded curMask, .run =>
      let mem' := fetchAdd mem (getCurMaskPtr (getRegionStart base)) (isolate curMask)
      some (mem', .idle,
        .moved (.allocated (allocPtr base curMask) (maskOf base mem ^^^ maskOf base mem')))
  -- `autolock_allocator_free`
  | .idle, .free ptr =>
      let mem' := fetchSub mem (ptrGetMaskPtr ptr) (ptrToBit ptr)
      some (mem', .idle, .moved (.freed ptr (maskOf base mem ^^^ maskOf base mem')))
  | _, _ => none

def program (owner : Tid) (base : UInt64) : Program Tid Memory Pc Action Event where
  step := step owner base

/-- `autolock_allocator_init` has succeeded with the page at `base`. -/
def init (base : UInt64) (s : Machine Tid Memory Pc) : Prop :=
  (exists kernelAutolock fd p mem,
    autolockAllocatorInit kernelAutolock fd p mem = (iSuccess, base, s.shared)) ∧
  forall t, s.thread t = .idle

abbrev system (owner : Tid) (base : UInt64) := (program owner base).system (init base)

end program

/-! ## What is expected of it -/

def move? : Event -> Option Move
  | .loadedMask => none
  | .moved move => some move

/-- The lines handed out and taken back in a run. -/
def moves {Tid : Type} (trace : List (Tid × Event)) : List Move :=
  trace.filterMap fun label => move? label.2

/-- The pointers that are allocated, each with the bits that its allocation changed. -/
def note (held : List (UInt64 × UInt64)) : Move -> List (UInt64 × UInt64)
  | .allocated ptr changed => (ptr, changed) :: held
  | .freed ptr _ => held.eraseP fun mine => mine.1 = ptr

def held (moves : List Move) : List (UInt64 × UInt64) := moves.foldl note []

/-- The number of the cache line of an address. -/
def line (ptr : UInt64) : Nat := ptr.toNat / 64

/-- A cache line in the page at `base`, behind the first two. -/
def Placed (base ptr : UInt64) : Prop :=
  ptr.toNat % 64 = 0 ∧ base.toNat + 128 ≤ ptr.toNat ∧ ptr.toNat < base.toNat + 4096

/-- One bit of a word. -/
def IsMaskBit (bits : UInt64) : Prop := exists i, i < 64 ∧ bits.toNat = 2 ^ i

/-- What is expected of a move, given the pointers that are allocated before it. -/
def MoveSound (base : UInt64) (held : List (UInt64 × UInt64)) : Move -> Prop
  | .allocated ptr _ => Placed base ptr ∧ forall other, other ∈ held -> line other.1 ≠ line ptr
  | .freed ptr changed =>
      forall mine, mine ∈ held -> mine.1 = ptr -> changed = mine.2 ∧ IsMaskBit changed

def Sound (base : UInt64) (moves : List Move) : Prop :=
  forall before move, before ++ [move] <+: moves -> MoveSound base (held before) move

/-- The clients' part: an allocation begins only while fewer than all lines are
in use, the first two included, and only pointers that are allocated are freed. -/
def disciplined {Tid : Type} :
    TransitionSystem.Guard (Machine Tid Memory Pc) (Tid × Event) :=
  fun trace _ label _ =>
    match label.2 with
    | .loadedMask => (held (moves trace)).length + 2 < 64
    | .moved (.allocated _ _) => True
    | .moved (.freed ptr _) => exists changed, (ptr, changed) ∈ held (moves trace)

/-! ## Addresses, lines and bits -/

section addresses

variable {base ptr : UInt64}

theorem ctz_isolate (curMask : UInt64) :
    (ctz (isolate curMask)).toNat = curMask.toBitVec.ctz.toNat := by
  have isolated : (isolate curMask).toBitVec = curMask.toBitVec &&& -curMask.toBitVec := rfl
  have small : curMask.toBitVec.ctz.toNat ≤ 64 := ctz_toNat_le
  rw [ctz, isolated, UInt32.toNat_ofNat', ctz_and_neg, Nat.mod_eq_of_lt (by omega)]

/-- The line for the bit `i` of the mask is the line `i + 2` of the page. -/
theorem toNat_allocPtr (base curMask : UInt64) :
    (allocPtr base curMask).toNat =
      (base.toNat + 64 * (curMask.toBitVec.ctz.toNat + 2)) % 2 ^ 64 := by
  have bit := ctz_isolate curMask
  have small : curMask.toBitVec.ctz.toNat ≤ 64 := ctz_toNat_le
  have distance : (ctz (isolate curMask) * l1CacheLineSize).toNat =
      curMask.toBitVec.ctz.toNat * 64 % 2 ^ 32 := by
    rw [UInt32.toNat_mul, bit]
    rfl
  have start : (getRegionStart base).toNat = (base.toNat + 128) % 2 ^ 64 := UInt64.toNat_add ..
  rw [allocPtr, UInt64.toNat_add, UInt32.toNat_toUInt64, start, distance]
  omega

/-- The bits above the offset in a page. -/
theorem toNat_pageOf (ptr : UInt64) : (ptr &&& (-4096)).toNat = ptr.toNat / 4096 * 4096 := by
  have page : ptr.toNat / 4096 * 4096 = ptr.toNat >>> 12 <<< 12 := by
    rw [Nat.shiftLeft_eq, Nat.shiftRight_eq_div_pow]
  have mask : (-4096 : UInt64).toNat = (2 ^ 52 - 1) <<< 12 := rfl
  rw [UInt64.toNat_and, page, mask]
  apply Nat.eq_of_testBit_eq
  intro i
  rw [Nat.testBit_and, Nat.testBit_shiftLeft, Nat.testBit_shiftLeft, Nat.testBit_two_pow_sub_one,
    Nat.testBit_shiftRight]
  by_cases high : 64 ≤ i
  · have clear : ptr.toNat.testBit i = false :=
      Nat.testBit_lt_two_pow (Nat.lt_of_lt_of_le ptr.toNat_lt (Nat.pow_le_pow_right Nat.two_pos high))
    by_cases above : 12 ≤ i
    · simp [above, clear]
    · omega
  · by_cases above : 12 ≤ i
    · have inMask : i - 12 < 52 := by omega
      simp [above, inMask]
    · simp [above]

/-- From every pointer into the page `free` finds the mask that `alloc` uses. -/
theorem ptrGetMaskPtr_eq (aligned : base.toNat % 4096 = 0)
    (inPage : base.toNat ≤ ptr.toNat ∧ ptr.toNat < base.toNat + 4096) :
    ptrGetMaskPtr ptr = getCurMaskPtr (getRegionStart base) := by
  have page : (ptr &&& (-4096)).toNat = base.toNat := by
    rw [toNat_pageOf]
    omega
  have offset : (l1CacheLineSize * 2).toUInt64 - 8 = 120 := rfl
  rw [ptrGetMaskPtr, UInt64.toNat_inj.mp page, offset, getCurMaskPtr, getRegionStart,
    UInt64.sub_eq_add_neg, UInt64.add_assoc]
  rfl

/-- `free` takes the line `i` of the page for the bit `i` of the mask. -/
theorem toNat_ptrToBit (aligned : base.toNat % 4096 = 0) {i : Nat} (inPage : i < 64)
    (onLine : ptr.toNat = base.toNat + 64 * i) : (ptrToBit ptr).toNat = 2 ^ i := by
  have index : (ptr.toUInt32 / l1CacheLineSize &&& (4096 / l1CacheLineSize - 1)).toNat = i := by
    have low : (4096 / l1CacheLineSize - 1).toNat = 2 ^ 6 - 1 := rfl
    rw [UInt32.toNat_and, low, Nat.and_two_pow_sub_one_eq_mod, UInt32.toNat_div,
      UInt64.toNat_toUInt32, onLine]
    show (base.toNat + 64 * i) % 2 ^ 32 / 64 % 2 ^ 6 = i
    omega
  have power : 2 ^ i < 2 ^ 64 := Nat.pow_lt_pow_right Nat.one_lt_two inPage
  simp only [ptrToBit, UInt64.toNat_shiftLeft, UInt32.toNat_toUInt64, index]
  rw [Nat.mod_eq_of_lt inPage, Nat.shiftLeft_eq]
  show 1 * 2 ^ i % 2 ^ 64 = 2 ^ i
  rw [Nat.one_mul, Nat.mod_eq_of_lt power]

end addresses

/-! ## The first allocation, and what comes after it -/

/-- Nothing has happened, or one line has been allocated.  With the lowest bit
added to it, the mask of the beginning wraps to 0. -/
inductive Stage (base : UInt64) : List Move -> UInt64 -> Prop
  | untouched : Stage base [] (-4)
  | once : Stage base [.allocated (allocPtr base (-4)) (-4)] 0

section stage

variable {base : UInt64}

theorem Stage.length_le {moves : List Move} {mask : UInt64} (stage : Stage base moves mask) :
    moves.length ≤ 1 := by
  cases stage with
  | untouched => exact Nat.zero_le 1
  | once => exact Nat.le_refl 1

/-- The line that is allocated first is the line 4 of the page. -/
theorem toNat_firstPtr (aligned : base.toNat % 4096 = 0) :
    (allocPtr base (-4)).toNat = base.toNat + 64 * 4 := by
  have lowest : (-4 : UInt64).toBitVec.ctz.toNat = 2 := by
    refine ctz_toNat_eq rfl fun i below => ?_
    have first : i = 0 ∨ i = 1 := by omega
    rcases first with rfl | rfl
    · rfl
    · rfl
  have bounded := base.toNat_lt
  rw [toNat_allocPtr, lowest]
  omega

/-- From an empty mask a line behind the page is allocated. -/
theorem not_placed_allocPtr_zero : ¬Placed base (allocPtr base 0) := by
  have none : (0 : UInt64).toBitVec.ctz.toNat = 64 := ctz_toNat_zero
  have bounded := base.toNat_lt
  rintro ⟨-, lower, upper⟩
  rw [toNat_allocPtr, none] at lower upper
  omega

theorem Stage.sound (aligned : base.toNat % 4096 = 0) {moves : List Move} {mask : UInt64}
    (stage : Stage base moves mask) : Sound base moves := by
  intro before move begins
  cases stage with
  | untouched => exact absurd begins not_begins_nil
  | once =>
      have whole : before = [] ∧ move = .allocated (allocPtr base (-4)) (-4) := by
        have grown : before ++ [move] <+: [] ++ [.allocated (allocPtr base (-4)) (-4)] := begins
        rcases begins_concat grown with same | earlier
        · exact same
        · exact absurd earlier not_begins_nil
      rcases whole with ⟨rfl, rfl⟩
      have first := toNat_firstPtr aligned
      refine ⟨⟨?_, ?_, ?_⟩, fun other member => ?_⟩
      · omega
      · omega
      · omega
      · cases member

theorem Sound.before {moves : List Move} {move : Move} (sound : Sound base (moves ++ [move])) :
    Sound base moves ∧ MoveSound base (held moves) move :=
  ⟨fun before earlier begins =>
      sound before earlier (begins.trans (List.prefix_append moves [move])),
    sound moves move List.prefix_rfl⟩

end stage

/-! ## Every run -/

section runs

variable {Tid : Type} [DecidableEq Tid] {owner : Tid} {base : UInt64}

/-- What holds up to the first allocation and after it: the owner may have loaded the mask. -/
structure Inv (owner : Tid) (base : UInt64) (moves : List Move) (s : Machine Tid Memory Pc) :
    Prop where
  stage : Stage base moves (maskOf base s.shared)
  loaded : forall t, s.thread t = .idle ∨
    t = owner ∧ s.thread t = .loaded (maskOf base s.shared)

omit [DecidableEq Tid] in
theorem moves_concat (trace : List (Tid × Event)) (label : Tid × Event) :
    moves (trace ++ [label]) = moves trace ++ (move? label.2).toList := by
  simp only [moves, List.filterMap_append, List.filterMap_cons, List.filterMap_nil]
  cases move? label.2 <;> rfl

theorem maskOf_fetchAdd (mem : Memory) (v : UInt64) :
    maskOf base (fetchAdd mem (getCurMaskPtr (getRegionStart base)) v) = maskOf base mem + v := by
  simp [maskOf, fetchAdd]

/-- `free` of the line that is allocated first subtracts the bit 4. -/
theorem maskOf_free_first (aligned : base.toNat % 4096 = 0) {mem : Memory}
    (empty : maskOf base mem = 0) :
    maskOf base (fetchSub mem (ptrGetMaskPtr (allocPtr base (-4))) (ptrToBit (allocPtr base (-4)))) =
      -16 := by
  have first := toNat_firstPtr aligned
  have bit : ptrToBit (allocPtr base (-4)) = 16 := by
    apply UInt64.toNat_inj.mp
    rw [toNat_ptrToBit aligned (by decide) first]
    rfl
  have mask : ptrGetMaskPtr (allocPtr base (-4)) = getCurMaskPtr (getRegionStart base) :=
    ptrGetMaskPtr_eq aligned ⟨by omega, by omega⟩
  rw [maskOf] at empty
  rw [maskOf, fetchSub, mask, bit, Function.update_self, empty]
  rfl

/-- Its allocation has changed the bits from 2 on, `free` those from 4 on. -/
theorem not_sound_free_first (base : UInt64) :
    ¬MoveSound base (held [.allocated (allocPtr base (-4)) (-4)])
      (.freed (allocPtr base (-4)) (-16)) := by
  intro sound
  have same := (sound _ List.mem_cons_self rfl).1
  cases congrArg UInt64.toNat same

/-- A step loads the mask, or it is the first move and an allocation, or it is
a later move and wrong. -/
theorem stage_step (aligned : base.toNat % 4096 = 0) {moves : List Move} {t : Tid}
    {action : Action} {mem mem' : Memory} {pc pc' : Pc} {event : Event}
    (stage : Stage base moves (maskOf base mem))
    (loaded : pc = .idle ∨ t = owner ∧ pc = .loaded (maskOf base mem))
    (stepped : step owner base t action mem pc = some (mem', pc', event))
    (allocated : forall ptr changed, event = .moved (.freed ptr changed) ->
      exists changed', (ptr, changed') ∈ held moves) :
    (event = .loadedMask ∧ mem' = mem ∧ t = owner ∧ pc' = .loaded (maskOf base mem)) ∨
      (exists move, event = .moved move ∧ moves = [] ∧ t = owner ∧ pc' = .idle ∧
        Stage base [move] (maskOf base mem')) ∨
      exists move, event = .moved move ∧ moves ≠ [] ∧ ¬MoveSound base (held moves) move := by
  rcases loaded with rfl | ⟨isOwner, rfl⟩
  · cases action with
    | run => cases stepped
    | alloc =>
        simp only [step] at stepped
        split at stepped
        · next isOwner =>
            cases stepped
            exact Or.inl ⟨rfl, rfl, isOwner, rfl⟩
        · cases stepped
    | free ptr =>
        simp only [step] at stepped
        cases stepped
        rcases allocated _ _ rfl with ⟨changed', member⟩
        generalize empty : maskOf base mem = mask at stage
        cases stage with
        | untouched => cases member
        | once =>
            have first : ptr = allocPtr base (-4) :=
              congrArg Prod.fst (List.mem_singleton.mp member)
            subst first
            refine Or.inr (Or.inr ⟨_, rfl, List.cons_ne_nil _ _, ?_⟩)
            rw [maskOf_free_first aligned empty, UInt64.zero_xor]
            exact not_sound_free_first base
  · cases action with
    | alloc => cases stepped
    | free ptr => cases stepped
    | run =>
        simp only [step] at stepped
        cases stepped
        rw [maskOf_fetchAdd]
        generalize maskOf base mem = mask at stage
        cases stage with
        | untouched => exact Or.inr (Or.inl ⟨_, rfl, rfl, isOwner, rfl, .once⟩)
        | once =>
            refine Or.inr (Or.inr ⟨_, rfl, List.cons_ne_nil _ _, fun sound => ?_⟩)
            exact not_placed_allocPtr_zero sound.1

omit [DecidableEq Tid] in
theorem init_inv {s : Machine Tid Memory Pc} (initial : init base s) : Inv owner base [] s := by
  rcases initial with ⟨⟨kernelAutolock, fd, p, mem, made⟩, idle⟩
  refine ⟨?_, fun t => Or.inl (idle t)⟩
  unfold autolockAllocatorInit at made
  dsimp only at made
  split at made
  · cases congrArg Prod.fst made
  · rcases Prod.mk.inj made with ⟨-, rest⟩
    rcases Prod.mk.inj rest with ⟨rfl, memory⟩
    rw [← memory, maskOf, Function.update_self]
    exact .untouched

theorem Inv.step (aligned : base.toNat % 4096 = 0) {trace : List (Tid × Event)}
    {s s' : Machine Tid Memory Pc} {label : Tid × Event} (inv : Inv owner base (moves trace) s)
    (moved : (system owner base).next s label s') (allowed : disciplined trace s label s') :
    Inv owner base (moves (trace ++ [label])) s' ∨
      exists move, label.2 = .moved move ∧ moves trace ≠ [] ∧
        ¬MoveSound base (held (moves trace)) move := by
  rcases label with ⟨t, event⟩
  rcases Program.system_next moved with ⟨action, mem', pc', stepped, rfl⟩
  have isAllocated : forall ptr changed, event = .moved (.freed ptr changed) ->
      exists changed', (ptr, changed') ∈ held (moves trace) := by
    rintro ptr changed rfl
    exact allowed
  have others : forall u, u ≠ t -> t = owner -> s.thread u = .idle := by
    intro u different isOwner
    exact (inv.loaded u).resolve_right fun loads => different (loads.1.trans isOwner.symm)
  rw [moves_concat]
  rcases stage_step aligned inv.stage (inv.loaded t) stepped isAllocated with
    ⟨rfl, rfl, isOwner, rfl⟩ | ⟨move, rfl, none, isOwner, rfl, stage⟩ | wrong
  · simp only [move?, Option.toList_none, List.append_nil]
    refine Or.inl ⟨inv.stage, fun u => ?_⟩
    by_cases same : u = t
    · subst same
      exact Or.inr ⟨isOwner, Function.update_self ..⟩
    · exact Or.inl ((Function.update_of_ne same ..).trans (others u same isOwner))
  · rw [none]
    refine Or.inl ⟨stage, fun u => Or.inl ?_⟩
    by_cases same : u = t
    · subst same
      exact Function.update_self ..
    · exact (Function.update_of_ne same ..).trans (others u same isOwner)
  · exact Or.inr wrong

/-- As long as all moves are as expected, and up to the first move in any case,
there has been no move but the first allocation. -/
theorem run_inv (aligned : base.toNat % 4096 = 0) {trace : List (Tid × Event)}
    {s : Machine Tid Memory Pc} (run : (system owner base).Run disciplined trace s) :
    Sound base (moves trace) ∨ (moves trace).length ≤ 1 -> Inv owner base (moves trace) s := by
  induction run with
  | start initial => exact fun _ => init_inv initial
  | @step trace s label s' _ moved allowed inductionHypothesis =>
      intro fine
      rw [moves_concat] at fine
      have earlier : Inv owner base (moves trace) s := by
        apply inductionHypothesis
        cases made : move? label.2 with
        | none => simpa [made] using fine
        | some move =>
            rw [made] at fine
            rcases fine with sound | short
            · exact Or.inl (Sound.before sound).1
            · refine Or.inr ?_
              rw [List.length_append] at short
              omega
      refine (earlier.step aligned moved allowed).resolve_right ?_
      rintro ⟨move, made, some, wrong⟩
      rw [made] at fine
      rcases fine with sound | short
      · exact wrong (Sound.before sound).2
      · have positive := List.length_pos_iff.mpr some
        rw [List.length_append, move?, Option.toList_some, List.length_singleton] at short
        omega

/-- A run in which the owner allocates only while not all lines are in use, and
in which only allocated lines are freed, is as expected exactly if it has at
most one move: one allocation and nothing else. -/
theorem allocator_sound_iff (aligned : base.toNat % 4096 = 0) {trace : List (Tid × Event)}
    {s : Machine Tid Memory Pc} (run : (system owner base).Run disciplined trace s) :
    Sound base (moves trace) <-> (moves trace).length ≤ 1 := by
  constructor
  · intro sound
    exact (run_inv aligned run (Or.inl sound)).stage.length_le
  · intro short
    exact (run_inv aligned run (Or.inr short)).stage.sound aligned

/-- The page at 4096 after `autolock_allocator_init`. -/
def fresh (Tid : Type) : Machine Tid Memory Pc where
  shared := Function.update (fun _ => 0) 4216 (-4)
  thread := fun _ => .idle

omit [DecidableEq Tid] in
theorem fresh_init : init 4096 (fresh Tid) :=
  ⟨⟨4096, 0, 0, fun _ => 0, rfl⟩, fun _ => rfl⟩

/-- The only thread allocates a line. -/
theorem run_alloc : exists s : Machine Unit Memory Pc,
    (system () 4096).Run disciplined
        [((), .loadedMask), ((), .moved (.allocated (allocPtr 4096 (-4)) (-4)))] s ∧
      s.thread () = .idle ∧ maskOf 4096 s.shared = 0 := by
  have loads : (system () 4096).next (fresh Unit) ((), .loadedMask)
      ⟨(fresh Unit).shared, Function.update (fresh Unit).thread () (.loaded (-4))⟩ :=
    ⟨.alloc, rfl⟩
  have adds : (system () 4096).next
      ⟨(fresh Unit).shared, Function.update (fresh Unit).thread () (.loaded (-4))⟩
      ((), .moved (.allocated (allocPtr 4096 (-4)) (-4)))
      ⟨fetchAdd (fresh Unit).shared 4216 4,
        Function.update (Function.update (fresh Unit).thread () (.loaded (-4))) () .idle⟩ :=
    ⟨.run, rfl⟩
  have few : 0 + 2 < 64 := by decide
  exact ⟨_, ((TransitionSystem.Run.start fresh_init).step loads few).step adds trivial, rfl, rfl⟩

theorem allocator_sound_iff_alloc :
    Sound 4096 [.allocated (allocPtr 4096 (-4)) (-4)] <->
      [Move.allocated (allocPtr 4096 (-4)) (-4)].length ≤ 1 := by
  rcases run_alloc with ⟨s, run, -, -⟩
  exact allocator_sound_iff (by decide) run

/-- The thread frees the line it has allocated: the 62 bits that the allocation
has changed are not restored. -/
theorem not_sound_alloc_free : exists (trace : List (Unit × Event)) (s : Machine Unit Memory Pc),
    (system () 4096).Run disciplined trace s ∧
      moves trace = [.allocated 4352 (-4), .freed 4352 (-16)] ∧ ¬Sound 4096 (moves trace) := by
  have aligned : (4096 : UInt64).toNat % 4096 = 0 := rfl
  rcases run_alloc with ⟨s, run, idle, empty⟩
  have first : allocPtr 4096 (-4) = 4352 := UInt64.toNat_inj.mp (toNat_firstPtr aligned)
  have left := maskOf_free_first aligned empty
  have frees : (system () 4096).next s
      ((), .moved (.freed (allocPtr 4096 (-4)) (-16)))
      ⟨fetchSub s.shared (ptrGetMaskPtr (allocPtr 4096 (-4))) (ptrToBit (allocPtr 4096 (-4))),
        Function.update s.thread () .idle⟩ := by
    refine ⟨.free (allocPtr 4096 (-4)), ?_⟩
    simp only [Program.next, program, step, idle, Option.map_some, left, empty]
    rfl
  refine ⟨_, _, run.step frees ⟨-4, List.mem_singleton.mpr rfl⟩, ?_, ?_⟩
  · rw [first]
    rfl
  · intro sound
    exact not_sound_free_first 4096 (Sound.before sound).2

end runs

end Allocator

end UserLocks
end Autolock
