import Autolock.UserLocks.AutolockPage
import Autolock.UserLocks.KernelState
import Mathlib.Algebra.Group.Nat.Defs
import Mathlib.Data.List.Basic

namespace Autolock
namespace UserLocks

/-!
# Which pages a thread may store into

A thread is set up when it initialises a lock, which may fail, and again when it
has to wait, where the result of the set-up is taken as it is.  Then the thread
stores through the pointer that it has got.  That goes well as long as every
failure of the set-up is noticed by somebody.
-/

/-- An address at which the kernel can map a page. -/
structure PageAddress where
  address : UInt64
  nonnull : address ≠ nullPointer
  small : address.toNat < 2 ^ 64 - 4095
  deriving DecidableEq

/-- `errno` -/
structure ErrorNumber where
  errno : Nat
  positive : 0 < errno
  small : errno ≤ 4095
  deriving DecidableEq

/-- What the system call that maps the page does. -/
inductive MmapResult where
  | mapped (page : PageAddress)
  | failed (error : ErrorNumber)
  deriving DecidableEq

/-- What the kernel leaves in `rax`. -/
def MmapResult.raw : MmapResult -> UInt64
  | .mapped page => page.address
  | .failed error => -UInt64.ofNat error.errno

/-- The results that the two system calls of the set-up would have. -/
structure SetUpCalls where
  fd : Int32
  mmap : MmapResult
  deriving DecidableEq

/-! ## What the waiting paths store -/

/-- A store through the pointer that the set-up has returned. -/
inductive PageStore where
  | watchMem (p : Option UInt64)
  | watchFor (v : UInt32)
  | watchNeq (v : UInt32)
  deriving DecidableEq, Repr

/-- The locks whose waiting paths store into the page. -/
inductive AutolockImpl where
  | lockBase
  | customSpin
  | customBackoff
  | clh
  | clhHypothesis
  | simpleTicket
  | aepfl
  | mcs
  | cptltkt
  deriving DecidableEq, Repr

/-- What a waiting path stores at once, with the watched word and what it waits
for there.  The first three watch the word only in their loops. -/
def AutolockImpl.prologue (watched : UInt64) (expected : UInt32) : AutolockImpl -> List PageStore
  | .lockBase | .customSpin | .customBackoff => [.watchFor expected, .watchNeq 0]
  | .clh | .cptltkt => [.watchFor expected, .watchNeq 0, .watchMem (some watched)]
  | .clhHypothesis | .simpleTicket | .aepfl | .mcs =>
      [.watchMem (some watched), .watchFor expected, .watchNeq 0]

theorem AutolockImpl.prologue_ne_nil (impl : AutolockImpl) (watched : UInt64)
    (expected : UInt32) : impl.prologue watched expected ≠ [] := by
  cases impl <;> exact List.cons_ne_nil _ _

/-- A call of a thread that runs the set-up: the initialisation of a lock, or a
call of `lock` that has to wait and stores `more` before it returns.  The rseq
lock, which stores into no page at all when it waits, counts as the former. -/
inductive SetUpUse where
  | init
  | wait (impl : AutolockImpl) (watched : UInt64) (expected : UInt32) (more : List PageStore)
  deriving DecidableEq, Repr

/-- What is stored through the pointer that the set-up has returned. -/
def SetUpUse.stores : SetUpUse -> List PageStore
  | .init => []
  | .wait impl watched expected more => impl.prologue watched expected ++ more

/-! ## One thread -/

/-- The thread-local pointer, the pages that have been mapped for the thread,
what each set-up has returned with the pointer behind it, and the stores; each
with whether there was a page where it went. -/
structure KernelState where
  kernelAutolock : UInt64
  mapped : List PageAddress
  returned : List (UInt64 × UInt64)
  stored : List (PageStore × Bool)

namespace KernelState

/-- The set-up asks the kernel for a page. -/
def Asks (s : KernelState) (calls : SetUpCalls) : Prop :=
  s.kernelAutolock = nullPointer ∧ ¬calls.fd < 0

instance (s : KernelState) (calls : SetUpCalls) : Decidable (s.Asks calls) :=
  inferInstanceAs (Decidable (_ ∧ _))

def newPages (s : KernelState) (calls : SetUpCalls) : List PageAddress :=
  match calls.mmap with
  | .mapped page => if s.Asks calls then [page] else []
  | .failed _ => []

/-- The pointer is that of a mapped page. -/
def IsPage (s : KernelState) (p : UInt64) : Prop :=
  exists page, page ∈ s.mapped ∧ page.address = p

instance (s : KernelState) (p : UInt64) : Decidable (s.IsPage p) :=
  inferInstanceAs (Decidable (exists page, page ∈ s.mapped ∧ _))

/-- The set-up. -/
def setUp (s : KernelState) (calls : SetUpCalls) : KernelState :=
  let result := autolockInitKernelState s.kernelAutolock calls.fd calls.mmap.raw
  { s with
    kernelAutolock := result.2
    mapped := s.mapped ++ s.newPages calls
    returned := s.returned ++ [result] }

/-- Stores through a pointer. -/
def store (s : KernelState) (p : UInt64) (stores : List PageStore) : KernelState :=
  { s with stored := s.stored ++ stores.map fun store => (store, decide (s.IsPage p)) }

/-- One call of a thread. -/
def apply (s : KernelState) (op : SetUpUse × SetUpCalls) : KernelState :=
  (s.setUp op.2).store
    (autolockInitKernelState s.kernelAutolock op.2.fd op.2.mmap.raw).1 op.1.stores

def run (s : KernelState) (ops : List (SetUpUse × SetUpCalls)) : KernelState :=
  ops.foldl apply s

/-- What a thread may rely on. -/
structure Sound (s : KernelState) : Prop where
  pointer : s.kernelAutolock = nullPointer ∨ s.IsPage s.kernelAutolock
  returned : forall result, result ∈ s.returned ->
    (result.1 = nullPointer <-> result.2 = nullPointer)
  stored : forall store, store ∈ s.stored -> store.2 = true

/-- The set-up finds a pointer or gets a page. -/
def Succeeds (s : KernelState) (calls : SetUpCalls) : Prop :=
  s.Asks calls ∧ (exists page, calls.mmap = .mapped page) ∨ s.kernelAutolock ≠ nullPointer

/-- The set-up notices that it has failed: there is no descriptor, or `mmap` fails with `EPERM`. -/
def Notices (s : KernelState) (calls : SetUpCalls) : Prop :=
  s.kernelAutolock = nullPointer ∧
    (calls.fd < 0 ∨ exists error, calls.mmap = .failed error ∧ error.errno = 1)

/-- Nothing is stored unless the set-up succeeds, and it does not fail unnoticed. -/
def StepSound (s : KernelState) (op : SetUpUse × SetUpCalls) : Prop :=
  s.Succeeds op.2 ∨ s.Notices op.2 ∧ op.1 = .init

/-- Every call is sound in the state in which it is made. -/
def AllSound (s : KernelState) : List (SetUpUse × SetUpCalls) -> Prop
  | [] => True
  | op :: ops => s.StepSound op ∧ (s.apply op).AllSound ops

/-! ## Results of `mmap` -/

theorem toNat_raw_failed (error : ErrorNumber) :
    (MmapResult.failed error).raw.toNat = 2 ^ 64 - error.errno := by
  have positive := error.positive
  have small := error.small
  rw [MmapResult.raw, UInt64.toNat_neg, UInt64.toNat_ofNat_of_lt' (by simp [UInt64.size]; omega)]
  simp only [UInt64.size]
  omega

/-- An error is neither `NULL` nor the address of a page. -/
theorem raw_failed_ne (error : ErrorNumber) (page : PageAddress) :
    (MmapResult.failed error).raw ≠ page.address := by
  intro equal
  have numbers := congrArg UInt64.toNat equal
  rw [toNat_raw_failed] at numbers
  have small := error.small
  have below := page.small
  omega

theorem raw_ne_null (mmap : MmapResult) : mmap.raw ≠ nullPointer := by
  cases mmap with
  | mapped page => exact page.nonnull
  | failed error =>
      intro null
      have zero := congrArg UInt64.toNat null
      rw [toNat_raw_failed] at zero
      have small := error.small
      change _ = 0 at zero
      omega

/-- Of all errors only `EPERM` looks like `MAP_FAILED`. -/
theorem raw_eq_MAP_FAILED (mmap : MmapResult) :
    mmap.raw = MAP_FAILED <-> exists error, mmap = .failed error ∧ error.errno = 1 := by
  have last : MAP_FAILED.toNat = 2 ^ 64 - 1 := rfl
  cases mmap with
  | mapped page =>
      refine iff_of_false (fun equal => ?_) nofun
      have numbers := congrArg UInt64.toNat equal
      have below := page.small
      rw [last, MmapResult.raw] at numbers
      omega
  | failed error =>
      have small := error.small
      rw [← UInt64.toNat_inj, toNat_raw_failed, last]
      constructor
      · intro equal
        exact ⟨error, rfl, by omega⟩
      · rintro ⟨_, same, one⟩
        rcases same
        rw [one]

/-! ## One call -/

variable {s : KernelState} {calls : SetUpCalls}

theorem sound_store {p : UInt64} {stores : List PageStore} :
    (s.store p stores).Sound <-> s.Sound ∧ (stores = [] ∨ s.IsPage p) := by
  have stored : (forall store, store ∈ (s.store p stores).stored -> store.2 = true) <->
      (forall store, store ∈ s.stored -> store.2 = true) ∧ (stores = [] ∨ s.IsPage p) := by
    simp only [store, List.forall_mem_append, List.forall_mem_map, decide_eq_true_eq]
    refine and_congr_right fun _ => ?_
    cases stores with
    | nil => simp
    | cons first rest =>
        simp only [List.forall_mem_cons, reduceCtorEq, false_or]
        exact ⟨And.left, fun page => ⟨page, fun _ _ => page⟩⟩
  constructor
  · intro sound
    have both := stored.mp sound.stored
    exact ⟨⟨sound.pointer, sound.returned, both.1⟩, both.2⟩
  · rintro ⟨sound, page⟩
    exact ⟨sound.pointer, sound.returned, stored.mpr ⟨sound.stored, page⟩⟩

/-- The four outcomes of a set-up. -/
inductive SetUpEffect (s : KernelState) (calls : SetUpCalls) (s' : KernelState) : Prop
  | set (already : s.kernelAutolock ≠ nullPointer) (pointer : s'.kernelAutolock = s.kernelAutolock)
      (mapped : forall page, page ∈ s.mapped -> page ∈ s'.mapped)
  | gets (page : PageAddress) (asks : s.Asks calls) (result : calls.mmap = .mapped page)
      (pointer : s'.kernelAutolock = page.address) (mapped : page ∈ s'.mapped)
  | notices (failed : s.Notices calls) (pointer : s'.kernelAutolock = nullPointer)
  | misses (error : ErrorNumber) (asks : s.Asks calls) (result : calls.mmap = .failed error)
      (other : error.errno ≠ 1) (pointer : s'.kernelAutolock = (MmapResult.failed error).raw)

theorem setUp_effect (s : KernelState) (calls : SetUpCalls) :
    SetUpEffect s calls (s.setUp calls) := by
  by_cases null : s.kernelAutolock = nullPointer
  · by_cases none : calls.fd < 0
    · refine .notices ⟨null, Or.inl none⟩ ?_
      rw [setUp, autolockInitKernelState, if_neg (not_not.mpr null), if_pos none]
      exact null
    · have asks : s.Asks calls := ⟨null, none⟩
      by_cases noticed : calls.mmap.raw = MAP_FAILED
      · refine .notices ⟨null, Or.inr ((raw_eq_MAP_FAILED _).mp noticed)⟩ ?_
        rw [setUp, autolockInitKernelState, if_neg (not_not.mpr null), if_neg none,
          if_pos noticed]
        exact null
      · have pointer : (s.setUp calls).kernelAutolock = calls.mmap.raw := by
          rw [setUp, autolockInitKernelState, if_neg (not_not.mpr null), if_neg none,
            if_neg noticed]
        rw [raw_eq_MAP_FAILED] at noticed
        cases result : calls.mmap with
        | mapped page =>
            rw [result] at pointer
            refine .gets page asks result pointer (List.mem_append_right _ ?_)
            rw [newPages, result]
            dsimp only
            rw [if_pos asks]
            exact List.mem_singleton_self page
        | failed error =>
            rw [result] at pointer
            exact .misses error asks result (fun one => noticed ⟨error, result, one⟩) pointer
  · refine .set null ?_ fun page member => List.mem_append_left _ member
    rw [setUp, autolockInitKernelState, if_pos null]

theorem Succeeds.not_notices (succeeds : s.Succeeds calls) : ¬s.Notices calls := by
  rintro ⟨null, failed⟩
  rcases succeeds with ⟨asks, page, mapped⟩ | set
  · rcases failed with none | ⟨error, failed, _⟩
    · exact asks.2 none
    · rw [mapped] at failed
      exact absurd failed nofun
  · exact set null

/-- A failure other than `EPERM` is not noticed. -/
theorem unnoticed (asks : s.Asks calls) {error : ErrorNumber} (failed : calls.mmap = .failed error)
    (other : error.errno ≠ 1) : ¬s.Succeeds calls ∧ ¬s.Notices calls := by
  constructor
  · rintro (⟨_, page, mapped⟩ | set)
    · rw [failed] at mapped
      exact absurd mapped nofun
    · exact set asks.1
  · rintro ⟨_, none | ⟨error', failed', one⟩⟩
    · exact asks.2 none
    · rw [failed] at failed'
      rcases failed'
      exact other one

theorem not_isPage_null : ¬s.IsPage nullPointer := by
  rintro ⟨page, _, null⟩
  exact page.nonnull null

theorem not_isPage_raw_failed (error : ErrorNumber) : ¬s.IsPage (MmapResult.failed error).raw := by
  rintro ⟨page, _, equal⟩
  exact raw_failed_ne error page equal.symm

/-- The pointer behind a set-up is that of a page exactly if the set-up has succeeded. -/
theorem isPage_setUp (pointer : s.kernelAutolock = nullPointer ∨ s.IsPage s.kernelAutolock) :
    (s.setUp calls).IsPage (s.setUp calls).kernelAutolock <-> s.Succeeds calls := by
  cases setUp_effect s calls with
  | set already same mapped =>
      refine iff_of_true ?_ (Or.inr already)
      rcases pointer.resolve_left already with ⟨page, member, address⟩
      exact ⟨page, mapped page member, address.trans same.symm⟩
  | gets page asks result pointer mapped =>
      exact iff_of_true ⟨page, mapped, pointer.symm⟩ (Or.inl ⟨asks, page, result⟩)
  | notices failed pointer =>
      refine iff_of_false ?_ fun succeeds => succeeds.not_notices failed
      rw [pointer]
      exact not_isPage_null
  | misses error asks result other pointer =>
      refine iff_of_false ?_ (unnoticed asks result other).1
      rw [pointer]
      exact not_isPage_raw_failed error

/-- A set-up leaves `NULL` exactly if it has noticed that it has failed. -/
theorem setUp_eq_null : (s.setUp calls).kernelAutolock = nullPointer <-> s.Notices calls := by
  cases setUp_effect s calls with
  | set already same mapped =>
      rw [same]
      exact iff_of_false already fun notices => already notices.1
  | gets page asks result pointer mapped =>
      rw [pointer]
      exact iff_of_false page.nonnull fun notices =>
        Succeeds.not_notices (Or.inl ⟨asks, page, result⟩) notices
  | notices failed pointer => exact iff_of_true pointer failed
  | misses error asks result other pointer =>
      rw [pointer]
      exact iff_of_false (raw_ne_null _) (unnoticed asks result other).2

/-- A pointer to something that is not a page stays. -/
theorem pointer_of_setUp (after : (s.setUp calls).kernelAutolock = nullPointer ∨
      (s.setUp calls).IsPage (s.setUp calls).kernelAutolock) :
    s.kernelAutolock = nullPointer ∨ s.IsPage s.kernelAutolock := by
  by_cases null : s.kernelAutolock = nullPointer
  · exact Or.inl null
  · have kept : s.newPages calls = [] := by
      unfold newPages
      split
      · exact if_neg fun asks => null asks.1
      · rfl
    rw [setUp, autolockInitKernelState, if_pos null, kept, List.append_nil] at after
    exact after

/-- A set-up goes well exactly if it gets a page, needs none, or notices that it has failed. -/
theorem sound_setUp :
    (s.setUp calls).Sound <-> s.Sound ∧ (s.Succeeds calls ∨ s.Notices calls) := by
  have agree := autolockInitKernelState_returns s.kernelAutolock calls.fd calls.mmap.raw
  constructor
  · intro sound
    have pointer := pointer_of_setUp sound.pointer
    refine ⟨⟨pointer, fun result member => ?_, sound.stored⟩, ?_⟩
    · exact sound.returned result (List.mem_append_left _ member)
    · exact (sound.pointer.imp setUp_eq_null.mp (isPage_setUp pointer).mp).symm
  · rintro ⟨sound, outcome⟩
    refine ⟨?_, fun result member => ?_, sound.stored⟩
    · exact (outcome.imp (isPage_setUp sound.pointer).mpr setUp_eq_null.mpr).symm
    · rcases List.mem_append.mp member with earlier | last
      · exact sound.returned result earlier
      · rw [List.mem_singleton.mp last, agree]

/-- A call goes well exactly if its set-up does and it stores nothing behind a failed one. -/
theorem sound_apply (s : KernelState) (op : SetUpUse × SetUpCalls) :
    (s.apply op).Sound <-> s.Sound ∧ s.StepSound op := by
  have agree := autolockInitKernelState_returns s.kernelAutolock op.2.fd op.2.mmap.raw
  have pointer : (s.setUp op.2).kernelAutolock = (autolockInitKernelState s.kernelAutolock
    op.2.fd op.2.mmap.raw).1 := agree.symm
  have nothing : op.1.stores = [] <-> op.1 = .init := by
    rcases op with ⟨use, calls⟩
    cases use with
    | init => exact iff_of_true rfl rfl
    | wait impl watched expected more =>
        refine iff_of_false (fun none => ?_) nofun
        exact impl.prologue_ne_nil watched expected (List.append_eq_nil_iff.mp none).1
  rw [apply, sound_store, sound_setUp, and_assoc]
  refine and_congr_right fun sound => ?_
  rw [← pointer, isPage_setUp sound.pointer, nothing, StepSound]
  constructor
  · rintro ⟨succeeds | notices, init | succeeds'⟩
    · exact Or.inl succeeds
    · exact Or.inl succeeds
    · exact Or.inr ⟨notices, init⟩
    · exact Or.inl succeeds'
  · rintro (succeeds | ⟨notices, init⟩)
    · exact ⟨Or.inl succeeds, Or.inr succeeds⟩
    · exact ⟨Or.inr notices, Or.inl init⟩

/-- A thread that has not been set up. -/
def newThread : KernelState where
  kernelAutolock := nullPointer
  mapped := []
  returned := []
  stored := []

def ENOMEM : ErrorNumber := ⟨12, by decide, by decide⟩

end KernelState

end UserLocks
end Autolock
