import Autolock.Interpose.ThreadStatsAccount
import Autolock.Interpose.ThreadStatsSafety

namespace Autolock
namespace Interpose

open Concurrency

/-!
# What the printed lines say

The destructor reads the node of a thread field by field, and the thread may go on
counting its calls meanwhile.  So a line can mix several moments: each count in
it is the right one for some moment since the destructor came to the node, and
the line as a whole need not be.  It is the report of the calls of the thread if
that is outside its calls and stays there while its node is read.
-/

namespace Timing

/-! ## What is to be shown -/

section spec

variable {Tid : Type} [DecidableEq Tid]

abbrev TimingRecords (Tid : Type) :=
  List (Option Tid × StepRecord TimingThread TimingAction TimingEvent)

def call? : TimingAction -> Option TimedCall
  | .timed func start timeEnd => some ⟨func, start, timeEnd⟩
  | _ => none

/-- The calls of a thread, in order. -/
def callsOf (t : Tid) (records : TimingRecords Tid) : List TimedCall :=
  records.filterMap fun label => if label.1 = some t then call? label.2.action else none

/-- The last step that a thread has made. -/
def lastStep (t : Tid) (records : TimingRecords Tid) :
    Option (Option Tid × StepRecord TimingThread TimingAction TimingEvent) :=
  (records.filter fun label => label.1 = some t).getLast?

omit [DecidableEq Tid] in
def PushedBy (t : Tid) (n : Nat) (records : TimingRecords Tid) : Prop :=
  exists label, label ∈ records ∧ label.1 = some t ∧ label.2.event = .pushed n

omit [DecidableEq Tid] in
def LinePrinted (records : TimingRecords Tid) : Prop :=
  exists label, label ∈ records ∧ exists n header numCalls timeTotal times,
    label.2.event = .output n (.line header numCalls timeTotal times)

omit [DecidableEq Tid] in
/-- The destructor has come to the node. -/
def Entered (n : Nat) (records : TimingRecords Tid) : Prop :=
  exists label, label ∈ records ∧ label.2.event = .entered n

/-- The thread is outside its calls, and has made no step since the destructor came to the
node. -/
def Undisturbed (t : Tid) (n : Nat) (records : TimingRecords Tid) : Prop :=
  (forall label, lastStep t records = some label ->
      exists warmup stats, label.2.after = .timed .idle warmup stats) ∧
    exists before label during, records = before ++ label :: during ∧
      label.2.event = .entered n ∧ forall other, other ∈ during -> other.1 ≠ some t

/-- So many calls of the thread had been counted at a moment since the destructor came to the
node. -/
def CountedAt (t : Tid) (n : Nat) (records : TimingRecords Tid) (func : TimedFunc)
    (count : UInt32) : Prop :=
  exists moment, moment <+: records ∧ Entered n moment ∧ count = numCalls (callsOf t moment) func

/-- So much time had been added up at a moment since the destructor came to the node, with or
without the call that was just being counted. -/
def AddedAt (t : Tid) (n : Nat) (records : TimingRecords Tid) (func : TimedFunc)
    (time : UInt64) : Prop :=
  exists moment, moment <+: records ∧ Entered n moment ∧
    (time = timeIn (callsOf t moment) func ∨ time = timeIn (callsOf t moment).dropLast func)

/-- What is printed for the node of a thread. -/
structure Tells (t : Tid) (n : Nat) (records : TimingRecords Tid) (text : StatsOutput) : Prop where
  whole : Undisturbed t n records -> exists header, text = report (callsOf t records) header
  few : (callsOf t records).length ≤ 64 -> text = .nothing
  header : forall {header numCalls timeTotal times},
    text = .line header numCalls timeTotal times -> LinePrinted records -> header = false
  numCalls : forall {header numCalls timeTotal times},
    text = .line header numCalls timeTotal times ->
      List.Forall₂ (CountedAt t n records) ThreadStats.funcs numCalls
  times : forall {header numCalls timeTotal times},
    text = .line header numCalls timeTotal times ->
      List.Forall₂ (AddedAt t n records) ThreadStats.funcs times

/-- What the destructor prints for a node tells of the thread that has pushed it. -/
def Reported (records : TimingRecords Tid) : Prop :=
  forall before label n text, before ++ [label] <+: records -> label.2.event = .output n text ->
    exists t, PushedBy t n before ∧ Tells t n before text

end spec

/-! ## What a step does to the nodes -/

/-- A node is overwritten. -/
def withNode (m : StatsList) (n : Nat) (stats : ThreadStats) : StatsList :=
  { m with nodes := Function.update m.nodes n stats }

/-- The steps of the threads and of the destructor, with what they write. -/
inductive Writes (m : StatsList) :
    TimingThread -> TimingAction -> StatsList -> TimingThread -> TimingEvent -> Prop
  | allocates (call : TimedCall) (warmup : UInt32) (warm : warmup ≠ 0) :
      Writes m (.timed .idle warmup none) (.timed call.func call.start call.timeEnd)
        { withNode m m.allocated ThreadStats.zero with allocated := m.allocated + 1 }
        (.timed (.load m.allocated call.start) warmup none) .internal
  | warms (call : TimedCall) (n : Nat) (warmup : UInt32) (warm : warmup ≠ 0) :
      Writes m (.timed .idle warmup (some n)) (.timed call.func call.start call.timeEnd)
        (withNode m n { m.nodes n with timeStart := call.start })
        (.timed .idle (warmup - 1) (some n)) .internal
  | counts (call : TimedCall) (n : Nat) :
      Writes m (.timed .idle 0 (some n)) (.timed call.func call.start call.timeEnd)
        (withNode m n ((m.nodes n).addCall call.func))
        (.timed (.count (.time call.func call.start call.timeEnd)) 0 (some n)) .internal
  | goesOn (n : Nat) (warmup : UInt32) (pc pc' : CountPc) (stats : ThreadStats)
      (stored : (m.nodes n).countStep pc = (stats, some pc')) :
      Writes m (.timed (.count pc) warmup (some n)) .run (withNode m n stats)
        (.timed (.count pc') warmup (some n)) .internal
  | ends (n : Nat) (warmup : UInt32) (pc : CountPc) (stats : ThreadStats)
      (stored : (m.nodes n).countStep pc = (stats, none)) :
      Writes m (.timed (.count pc) warmup (some n)) .run (withNode m n stats)
        (.timed .idle warmup (some n)) .internal
  | crashes (call : TimedCall) :
      Writes m (.timed .idle 0 none) (.timed call.func call.start call.timeEnd) m
        (.timed .crashed 0 none) .internal
  | findsSeal (n : Nat) (start : UInt64) (warmup : UInt32) (stats : Option Nat) :
      Writes m (.timed (.load n start) warmup stats) .run
        { m with hasPrintedHdr := ((m.nodes n).out m.hasPrintedHdr).1 }
        (.timed (.assign none start) warmup stats) (.loaded m.head)
  | links (n : Nat) (start : UInt64) (warmup : UInt32) (stats : Option Nat) :
      Writes m (.timed (.load n start) warmup stats) .run
        (withNode m n { m.nodes n with next := m.head })
        (.timed (.exchange n m.head start) warmup stats) (.loaded m.head)
  | pushes (n : Nat) (expected : StatsPtr) (start : UInt64) (warmup : UInt32) (stats : Option Nat) :
      Writes m (.timed (.exchange n expected start) warmup stats) .run { m with head := .node n }
        (.timed (.assign (some n) start) warmup stats) (.pushed n)
  | retries (n : Nat) (expected : StatsPtr) (start : UInt64) (warmup : UInt32)
      (stats : Option Nat) :
      Writes m (.timed (.exchange n expected start) warmup stats) .run m
        (.timed (.load n start) warmup stats) .internal
  | dereferences (start : UInt64) (warmup : UInt32) (stats : Option Nat) :
      Writes m (.timed (.assign none start) warmup stats) .run m
        (.timed .crashed (warmup - 1) none) .internal
  | starts (n : Nat) (start : UInt64) (warmup : UInt32) (stats : Option Nat) :
      Writes m (.timed (.assign (some n) start) warmup stats) .run
        (withNode m n { m.nodes n with timeStart := start })
        (.timed .idle (warmup - 1) (some n)) .internal
  | seals : Writes m (.destructor .waiting) .exit { m with head := .sealed }
      (.destructor (.walk m.head)) .sealed
  | finishes : Writes m (.destructor (.walk .null)) .run m (.destructor .done) .internal
  | enters (n : Nat) :
      Writes m (.destructor (.walk (.node n))) .run m
        (.destructor (.out n (next m n) (.condition .trylock))) (.entered n)
  | reads (n : Nat) (p : StatsPtr) (pc pc' : OutPc) (printed : Bool)
      (stepped : (m.nodes n).outStep m.hasPrintedHdr pc = (printed, .inl pc')) :
      Writes m (.destructor (.out n p pc)) .run { m with hasPrintedHdr := printed }
        (.destructor (.out n p pc')) .internal
  | prints (n : Nat) (p : StatsPtr) (pc : OutPc) (printed : Bool) (text : StatsOutput)
      (stepped : (m.nodes n).outStep m.hasPrintedHdr pc = (printed, .inr text)) :
      Writes m (.destructor (.out n p pc)) .run { m with hasPrintedHdr := printed }
        (.destructor (.walk p)) (.output n text)

theorem writes_of_timingEnd (call : TimedCall) (m : StatsList) (warmup : UInt32)
    (stats : Option Nat) :
    Writes m (.timed .idle warmup stats) (.timed call.func call.start call.timeEnd)
      (timingEnd call.func call.start call.timeEnd m warmup stats).1
      (timingEnd call.func call.start call.timeEnd m warmup stats).2 .internal := by
  by_cases warm : warmup ≠ 0
  · cases stats <;> simp only [timingEnd, if_pos warm]
    · exact .allocates call warmup warm
    · exact .warms call _ warmup warm
  · have zero : warmup = 0 := not_not.mp warm
    subst zero
    cases stats with
    | none => exact .crashes call
    | some n => exact .counts call n

theorem writes_of_step {Tid : Type} {t : Option Tid} {action : TimingAction} {m m' : StatsList}
    {l l' : TimingThread} {event : TimingEvent}
    (stepped : (program Tid).step t action m l = some (m', l', event)) :
    Writes m l action m' l' event := by
  rcases l with ⟨pc, warmup, stats⟩ | pc
  · rcases pc with _ | ⟨n, start⟩ | ⟨n, expected, start⟩ | ⟨added, start⟩ | counting | _ <;>
      cases action <;> simp only [program, timedStep, reduceCtorEq] at stepped
    case idle.timed func start timeEnd =>
      cases stepped
      exact writes_of_timingEnd ⟨func, start, timeEnd⟩ m warmup stats
    case load.run =>
      split at stepped <;> cases stepped
      · exact .findsSeal n start warmup stats
      · exact .links n start warmup stats
    case exchange.run =>
      split at stepped <;> cases stepped
      · exact .pushes n expected start warmup stats
      · exact .retries n expected start warmup stats
    case assign.run =>
      cases added <;> cases stepped
      · exact .dereferences start warmup stats
      · exact .starts _ start warmup stats
    case count.run =>
      cases stats with
      | none => cases stepped
      | some n =>
          cases stepped
          rcases stored : (m.nodes n).countStep counting with ⟨stats, _ | counting'⟩
          · exact .ends n warmup counting stats stored
          · exact .goesOn n warmup counting counting' stats stored
  · rcases pc with _ | stats | ⟨n, p, pc⟩ | _ <;> cases action <;>
      simp only [program, destructorStep, reduceCtorEq] at stepped
    case waiting.exit =>
      cases stepped
      exact .seals
    case walk.run =>
      cases stats <;> cases stepped
      · exact .finishes
      · exact .enters _
    case out.run =>
      split at stepped <;> cases stepped
      · next read => exact .reads n p pc _ _ read
      · next read => exact .prints n p pc _ _ read

/-! ## Whose node is which -/

/-- The node that a thread has allocated. -/
def Has (n : Nat) : TimingThread -> Prop
  | .timed (.load own _) _ _ | .timed (.exchange own _ _) _ _ | .timed (.assign (some own) _) _ _
  | .timed .idle _ (some own) | .timed (.count _) _ (some own) => own = n
  | _ => False

/-- The node that a thread has pushed. -/
def Keeps (n : Nat) : TimingThread -> Prop
  | .timed (.assign (some own) _) _ _ | .timed .idle _ (some own)
  | .timed (.count _) _ (some own) => own = n
  | _ => False

/-- What the node of a thread says of its calls; the first one is not noted before the node
has been pushed. -/
def Noted (nodes : Nat -> ThreadStats) (calls : List TimedCall) : TimingThread -> Prop
  | .timed .idle warmup none => warmup = warmupCalls ∧ calls = []
  | .timed .idle warmup (some n) => warmup.toNat = 64 - calls.length ∧ Accounts (nodes n) calls
  | .timed (.count pc) warmup (some n) =>
      warmup = 0 ∧ 64 < calls.length ∧ Accounts (finish (nodes n) pc) calls ∧
        forall func start timeEnd, pc = .time func start timeEnd ->
          forall f, (nodes n).time f = timeIn calls.dropLast f
  | .timed (.load n start) warmup stats | .timed (.exchange n _ start) warmup stats
  | .timed (.assign (some n) start) warmup stats =>
      warmup = warmupCalls ∧ stats = none ∧ Accounts (nodes n) [] ∧
        exists call, calls = [call] ∧ call.start = start
  | _ => True

section notes

variable {m m' : StatsList} {l l' : TimingThread} {action : TimingAction} {event : TimingEvent}
  {calls : List TimedCall}

/-- Only the thread that has a node writes to it. -/
theorem nodes_kept (writes : Writes m l action m' l' event) {n : Nat} (allocated : n < m.allocated)
    (others : ¬Has n l) : m'.nodes n = m.nodes n := by
  cases writes with
  | allocates => exact Function.update_of_ne (Nat.ne_of_lt allocated) ..
  | warms | counts | goesOn | ends | links | starts => exact Function.update_of_ne (Ne.symm others) ..
  | _ => rfl

theorem out_printed (stats : ThreadStats) : (stats.out true).1 = true := by
  unfold ThreadStats.out
  dsimp only
  split_ifs <;> rfl

theorem has_of_writes (writes : Writes m l action m' l' event) {n : Nat} (has : Has n l') :
    Has n l ∨ n = m.allocated ∧ m'.allocated = m.allocated + 1 := by
  cases writes with
  | allocates => exact Or.inr ⟨has.symm, rfl⟩
  | warms | counts | goesOn | ends | links | pushes | retries | starts => exact Or.inl has
  | _ => exact has.elim

theorem Keeps.has {n : Nat} (keeps : Keeps n l) : Has n l := by
  unfold Keeps at keeps
  split at keeps
  · exact keeps
  · exact keeps
  · exact keeps
  · exact keeps.elim

theorem keeps_of_writes (writes : Writes m l action m' l' event) {n : Nat} (keeps : Keeps n l) :
    Keeps n l' := by
  cases writes with
  | warms | counts | goesOn | ends | starts => exact keeps
  | _ => exact keeps.elim

theorem allocated_le_of_writes (writes : Writes m l action m' l' event) :
    m.allocated ≤ m'.allocated := by
  cases writes with
  | allocates => exact Nat.le_succ _
  | _ => exact Nat.le_refl _

/-- A thread leaves the header alone unless the list is sealed, and prints no line. -/
theorem quiet_of_writes {pc : TimedPc} {warmup : UInt32} {stats : Option Nat}
    (writes : Writes m (.timed pc warmup stats) action m' l' event) :
    (m.hasPrintedHdr = true -> m'.hasPrintedHdr = true) ∧ (forall n, event ≠ .entered n) ∧
      forall n text, event ≠ .output n text := by
  cases writes with
  | findsSeal n start warmup stats =>
      refine ⟨fun already => ?_, nofun, nofun⟩
      rw [already]
      exact out_printed (m.nodes n)
  | _ => exact ⟨id, nofun, nofun⟩

theorem Noted.congr {nodes nodes' : Nat -> ThreadStats} (noted : Noted nodes calls l)
    (same : forall n, Has n l -> nodes' n = nodes n) : Noted nodes' calls l := by
  rcases l with ⟨pc, warmup, stats⟩ | pc
  · rcases pc with _ | ⟨n, start⟩ | ⟨n, expected, start⟩ | ⟨added, start⟩ | counting | _
    · cases stats with
      | none => exact noted
      | some n => exact ⟨noted.1, same n rfl ▸ noted.2⟩
    · exact ⟨noted.1, noted.2.1, same n rfl ▸ noted.2.2.1, noted.2.2.2⟩
    · exact ⟨noted.1, noted.2.1, same n rfl ▸ noted.2.2.1, noted.2.2.2⟩
    · cases added with
      | none => trivial
      | some n => exact ⟨noted.1, noted.2.1, same n rfl ▸ noted.2.2.1, noted.2.2.2⟩
    · cases stats with
      | none => trivial
      | some n => exact ⟨noted.1, noted.2.1, same n rfl ▸ noted.2.2⟩
    · trivial
  · trivial

/-- One call less of the warm-up is left. -/
theorem left_warm {warmup : UInt32} (warm : warmup ≠ 0) (left : warmup.toNat = 64 - calls.length)
    (call : TimedCall) :
    calls.length < 64 ∧ (warmup - 1).toNat = 64 - (calls ++ [call]).length := by
  have some : 0 < warmup.toNat := by
    rw [Nat.pos_iff_ne_zero]
    exact fun zero => warm (UInt32.toNat_inj.mp zero)
  have less : (1 : UInt32) ≤ warmup := UInt32.le_iff_toNat_le.mpr some
  rw [UInt32.toNat_sub_of_le _ _ less, List.length_append, List.length_singleton]
  refine ⟨by omega, ?_⟩
  change warmup.toNat - 1 = _
  omega

theorem append_run (calls : List TimedCall) : calls ++ (call? .run).toList = calls :=
  List.append_nil calls

/-- The step of a thread is noted in its node. -/
theorem Noted.step (noted : Noted m.nodes calls l) (writes : Writes m l action m' l' event) :
    Noted m'.nodes (calls ++ (call? action).toList) l' := by
  cases writes with
  | allocates call warmup warm =>
      rcases noted with ⟨full, rfl⟩
      refine ⟨full, rfl, ?_, call, rfl, rfl⟩
      change Accounts (Function.update m.nodes m.allocated ThreadStats.zero m.allocated) []
      rw [Function.update_self]
      exact accounts_zero
  | warms call n warmup warm =>
      rcases noted with ⟨left, accounts⟩
      rcases left_warm warm left call with ⟨few, left'⟩
      refine ⟨left', ?_⟩
      simp only [withNode, Function.update_self]
      exact accounts.warm few
  | counts call n =>
      rcases noted with ⟨left, accounts⟩
      have many : 64 ≤ calls.length := Nat.le_of_sub_eq_zero left.symm
      refine ⟨rfl, ?_, ?_, fun func start timeEnd _ f => ?_⟩
      · rw [List.length_append]
        exact Nat.lt_succ_of_le many
      · simp only [withNode, Function.update_self]
        exact accounts.count many
      · change _ = timeIn (calls ++ [call]).dropLast f
        rw [List.dropLast_concat, ← accounts.time f]
        simp only [withNode, Function.update_self]
        rfl
  | goesOn n warmup pc pc' stats stored =>
      rcases noted with ⟨zero, many, accounts, -⟩
      have rest := finish_countStep (m.nodes n) pc
      rw [stored] at rest
      rw [append_run]
      refine ⟨zero, many, ?_, fun func start timeEnd same => ?_⟩
      · simp only [withNode, Function.update_self]
        rwa [← rest] at accounts
      · subst same
        cases pc with
        | time func => cases func <;> cases stored
        | historyIdx | timeHistory => cases stored
  | ends n warmup pc stats stored =>
      rcases noted with ⟨rfl, many, accounts, -⟩
      have rest := finish_countStep (m.nodes n) pc
      rw [stored] at rest
      rw [append_run]
      refine ⟨(Nat.sub_eq_zero_of_le (Nat.le_of_lt many)).symm, ?_⟩
      simp only [withNode, Function.update_self]
      rwa [← rest] at accounts
  | links n start warmup stats =>
      rcases noted with ⟨full, none', accounts, only⟩
      rw [append_run]
      refine ⟨full, none', ?_, only⟩
      simp only [withNode, Function.update_self]
      exact accounts.link m.head
  | pushes | retries =>
      rw [append_run]
      exact noted
  | starts n start warmup stats =>
      rcases noted with ⟨rfl, -, accounts, call, rfl, rfl⟩
      rw [append_run]
      refine ⟨?_, ?_⟩
      · change (warmupCalls - 1).toNat = 63
        decide
      · simp only [withNode, Function.update_self]
        exact accounts.warm (by decide)
  | _ => trivial

/-- Before the first call is noted nothing has been counted. -/
theorem fields_first {stats : ThreadStats} {call : TimedCall}
    (accounts : Accounts stats []) (func : TimedFunc) :
    stats.numCalls func = numCalls [call] func ∧ stats.time func = timeIn [call] func :=
  ⟨accounts.numCalls func, accounts.time func⟩

/-- The counts of a node are always those of the calls, and so are the times, but for a call that
is just being counted. -/
theorem Noted.fields {nodes : Nat -> ThreadStats} (noted : Noted nodes calls l) {n : Nat}
    (has : Has n l) (func : TimedFunc) :
    (nodes n).numCalls func = numCalls calls func ∧
      ((nodes n).time func = timeIn calls func ∨
        (nodes n).time func = timeIn calls.dropLast func) := by
  rcases l with ⟨pc, warmup, stats⟩ | pc
  · rcases pc with _ | ⟨own, start⟩ | ⟨own, expected, start⟩ | ⟨added, start⟩ | counting | _
    · cases stats with
      | none => exact has.elim
      | some own =>
          cases has
          exact ⟨noted.2.numCalls func, Or.inl (noted.2.time func)⟩
    · cases has
      rcases noted with ⟨-, -, accounts, call, rfl, -⟩
      exact (fields_first accounts func).imp_right Or.inl
    · cases has
      rcases noted with ⟨-, -, accounts, call, rfl, -⟩
      exact (fields_first accounts func).imp_right Or.inl
    · cases added with
      | none => exact has.elim
      | some own =>
          cases has
          rcases noted with ⟨-, -, accounts, call, rfl, -⟩
          exact (fields_first accounts func).imp_right Or.inl
    · cases stats with
      | none => exact has.elim
      | some own =>
          cases has
          rcases noted with ⟨-, -, accounts, before⟩
          cases counting with
          | time called start timeEnd =>
              refine ⟨?_, Or.inr (before called start timeEnd rfl func)⟩
              rw [← accounts.numCalls]
              cases called <;> rfl
          | historyIdx | timeHistory =>
              exact ⟨accounts.numCalls func, Or.inl (accounts.time func)⟩
    · exact has.elim
  · exact has.elim

end notes

/-! ## What the records say -/

section records

variable {Tid : Type} [DecidableEq Tid] {records : TimingRecords Tid}

theorem callsOf_concat (t : Tid) (records : TimingRecords Tid)
    (label : Option Tid × StepRecord TimingThread TimingAction TimingEvent) :
    callsOf t (records ++ [label]) =
      callsOf t records ++ (if label.1 = some t then call? label.2.action else none).toList := by
  rw [callsOf, List.filterMap_append, List.filterMap_cons, List.filterMap_nil]
  cases if label.1 = some t then call? label.2.action else none <;> rfl

theorem callsOf_le (t : Tid) (records : TimingRecords Tid)
    (label : Option Tid × StepRecord TimingThread TimingAction TimingEvent) :
    (callsOf t records).length ≤ (callsOf t (records ++ [label])).length := by
  rw [callsOf_concat, List.length_append]
  exact Nat.le_add_right ..

theorem lastStep_concat (t : Tid) (records : TimingRecords Tid)
    (label : Option Tid × StepRecord TimingThread TimingAction TimingEvent) :
    lastStep t (records ++ [label]) =
      if label.1 = some t then some label else lastStep t records := by
  rw [lastStep, lastStep, List.filter_append, List.filter_cons, List.filter_nil]
  by_cases mine : label.1 = some t
  · rw [if_pos mine, if_pos (decide_eq_true mine), List.getLast?_concat]
  · rw [if_neg mine, if_neg (by simpa using mine), List.append_nil]

omit [DecidableEq Tid] in
theorem linePrinted_concat (records : TimingRecords Tid)
    (label : Option Tid × StepRecord TimingThread TimingAction TimingEvent) :
    LinePrinted (records ++ [label]) <-> LinePrinted records ∨
      exists n header numCalls timeTotal times,
        label.2.event = .output n (.line header numCalls timeTotal times) := by
  simp only [LinePrinted, List.mem_append, List.mem_singleton, or_and_right, exists_or,
    exists_eq_left]

omit [DecidableEq Tid] in
theorem linePrinted_before {label : Option Tid × StepRecord TimingThread TimingAction TimingEvent}
    (quiet : forall n text, label.2.event ≠ .output n text)
    (printed : LinePrinted (records ++ [label])) : LinePrinted records := by
  rcases (linePrinted_concat ..).mp printed with before | ⟨n, header, numCalls, total, times, now⟩
  · exact before
  · exact absurd now (quiet n _)

omit [DecidableEq Tid] in
theorem Entered.concat {n : Nat} (entered : Entered n records)
    (label : Option Tid × StepRecord TimingThread TimingAction TimingEvent) :
    Entered n (records ++ [label]) := by
  rcases entered with ⟨before, member, event⟩
  exact ⟨before, List.mem_append_left _ member, event⟩

theorem CountedAt.concat {t : Tid} {n : Nat} {func : TimedFunc} {count : UInt32}
    (counted : CountedAt t n records func count)
    (label : Option Tid × StepRecord TimingThread TimingAction TimingEvent) :
    CountedAt t n (records ++ [label]) func count := by
  rcases counted with ⟨moment, begins, rest⟩
  exact ⟨moment, begins.trans (List.prefix_append ..), rest⟩

theorem AddedAt.concat {t : Tid} {n : Nat} {func : TimedFunc} {time : UInt64}
    (added : AddedAt t n records func time)
    (label : Option Tid × StepRecord TimingThread TimingAction TimingEvent) :
    AddedAt t n (records ++ [label]) func time := by
  rcases added with ⟨moment, begins, rest⟩
  exact ⟨moment, begins.trans (List.prefix_append ..), rest⟩

/-- A thread that has not been disturbed up to a step was not before it either. -/
theorem Undisturbed.before {t : Tid} {n : Nat}
    {label : Option Tid × StepRecord TimingThread TimingAction TimingEvent}
    (undisturbed : Undisturbed t n (records ++ [label])) (later : label.2.event ≠ .entered n) :
    label.1 ≠ some t ∧ Undisturbed t n records := by
  rcases undisturbed with ⟨outside, before, first, during, same, entered, others⟩
  rcases List.eq_nil_or_concat during with rfl | ⟨during, last, rfl⟩
  · rcases List.append_inj' same rfl with ⟨-, only⟩
    cases only
    exact absurd entered later
  · rw [List.concat_eq_append, ← List.cons_append, ← List.append_assoc] at same
    rcases List.append_inj' same rfl with ⟨rfl, only⟩
    cases only
    have notMine : label.1 ≠ some t := others label (by simp)
    rw [lastStep_concat, if_neg notMine] at outside
    exact ⟨notMine, outside, before, first, during, rfl, entered,
      fun other member => others other (by simp [member])⟩

end records

/-! ## Every run -/

section runs

variable {Tid : Type} [DecidableEq Tid] {records : TimingRecords Tid}

/-- What the destructor has printed, and is about to print for a node. -/
structure Printing (records : TimingRecords Tid) (m : StatsList) (n : Nat) (pc : OutPc) : Prop where
  entered : Entered n records
  printed : forall {header timeTotal numCalls times},
    pc = .arguments header timeTotal numCalls times -> m.hasPrintedHdr = true
  header : forall {header timeTotal numCalls times},
    pc = .arguments header timeTotal numCalls times -> LinePrinted records -> header = false

/-- What the destructor has read of the node of a thread. -/
structure Reading (records : TimingRecords Tid) (m : StatsList) (t : Tid) (n : Nat) (pc : OutPc) :
    Prop where
  agrees : Undisturbed t n records -> Agrees (m.nodes n) pc
  past : PastCondition pc -> 64 < (callsOf t records).length
  numCalls : forall {header timeTotal numCalls times},
    pc = .arguments header timeTotal numCalls times ->
      ReadSoFar (CountedAt t n records) ThreadStats.funcs numCalls
  times : forall {header timeTotal numCalls times},
    pc = .arguments header timeTotal numCalls times ->
      ReadSoFar (AddedAt t n records) ThreadStats.funcs times

/-- Every thread has a node of its own, in which its calls are noted. -/
structure Noting (records : TimingRecords Tid) (m : StatsList)
    (thread : Option Tid -> TimingThread) : Prop where
  allocated : forall n u, Has n (thread u) -> n < m.allocated
  owner : forall n, Exclusive (Has n) thread
  noted : forall t, Noted m.nodes (callsOf t records) (thread (some t))
  pushed : forall n label, label ∈ records -> label.2.event = .pushed n ->
    exists t, label.1 = some t ∧ Keeps n (thread (some t))
  last : forall t label, lastStep t records = some label -> thread (some t) = label.2.after
  header : LinePrinted records -> m.hasPrintedHdr = true
  printing : forall {n p pc}, thread none = .destructor (.out n p pc) -> Printing records m n pc
  reading : forall {n p pc} t, thread none = .destructor (.out n p pc) ->
    Has n (thread (some t)) -> Reading records m t n pc

omit [DecidableEq Tid] in
/-- The node that the destructor comes to or reads has been pushed. -/
theorem mem_pushes_of_front {trace : List (Option Tid × TimingEvent)} {m : StatsList}
    {thread : Option Tid -> TimingThread} (inv : Inv trace m thread) {n : Nat} {pc : DestructorPc}
    (there : thread none = .destructor pc) (first : front m.head pc = .node n) :
    n ∈ pushes trace := by
  rcases inv.destructor with ⟨pc', there', walked⟩
  cases there.symm.trans there'
  rcases walked.remaining with ⟨nodes, remaining, linked⟩
  rw [first] at linked
  rcases linked.of_address nofun with ⟨node, rest, rfl, same, -⟩
  cases same
  exact remaining_pushed remaining n List.mem_cons_self

section step

variable {m m' : StatsList} {thread : Option Tid -> TimingThread}
  {label : Option Tid × StepRecord TimingThread TimingAction TimingEvent}
  (noting : Noting records m thread)
  (writes : Writes m (thread label.1) label.2.action m' label.2.after label.2.event)

include noting writes

theorem has_allocated_step (n : Nat) (u : Option Tid)
    (has : Has n (Function.update thread label.1 label.2.after u)) : n < m'.allocated := by
  by_cases itself : u = label.1
  · rw [itself, Function.update_self] at has
    rcases has_of_writes writes has with before | ⟨rfl, more⟩
    · exact (noting.allocated n _ before).trans_le (allocated_le_of_writes writes)
    · rw [more]
      exact Nat.lt_succ_self _
  · rw [Function.update_of_ne itself] at has
    exact (noting.allocated n u has).trans_le (allocated_le_of_writes writes)

theorem has_owner_step (n : Nat) :
    Exclusive (Has n) (Function.update thread label.1 label.2.after) := by
  by_cases new : n = m.allocated
  · refine Exclusive.enter fun u has => ?_
    exact absurd (noting.allocated n u has) (Nat.not_lt.mpr (Nat.le_of_eq new.symm))
  · exact (noting.owner n).keep fun has =>
      (has_of_writes writes has).resolve_right fun allocated => new allocated.1

omit noting in
/-- A node that has been allocated has not changed hands. -/
theorem has_before {n : Nat} {u : Option Tid} (allocated : n < m.allocated)
    (has : Has n (Function.update thread label.1 label.2.after u)) : Has n (thread u) := by
  by_cases itself : u = label.1
  · rw [itself, Function.update_self] at has
    rw [itself]
    exact (has_of_writes writes has).resolve_right fun new => (Nat.ne_of_lt allocated) new.1
  · rwa [Function.update_of_ne itself] at has

/-- The node of a thread that does not make the step stays as it is. -/
theorem nodes_step (t : Tid) (others : label.1 ≠ some t) (n : Nat) (has : Has n (thread (some t))) :
    m'.nodes n = m.nodes n := by
  refine nodes_kept writes (noting.allocated n _ has) fun mine => ?_
  exact others (noting.owner n _ _ mine has)

theorem noted_step (t : Tid) : Noted m'.nodes (callsOf t (records ++ [label]))
    (Function.update thread label.1 label.2.after (some t)) := by
  rw [callsOf_concat]
  by_cases itself : label.1 = some t
  · rw [if_pos itself, ← itself, Function.update_self]
    refine Noted.step ?_ writes
    rw [itself]
    exact noting.noted t
  · rw [if_neg itself, Option.toList_none, List.append_nil, Function.update_of_ne (Ne.symm itself)]
    exact (noting.noted t).congr fun n has => nodes_step noting writes t itself n has

theorem pushed_step (destructor : exists pc, thread none = .destructor pc) (n : Nat)
    (pusher : Option Tid × StepRecord TimingThread TimingAction TimingEvent)
    (member : pusher ∈ records ++ [label]) (pushed : pusher.2.event = .pushed n) :
    exists t, pusher.1 = some t ∧
      Keeps n (Function.update thread label.1 label.2.after (some t)) := by
  rcases List.mem_append.mp member with before | now
  · rcases noting.pushed n pusher before pushed with ⟨t, mine, keeps⟩
    refine ⟨t, mine, ?_⟩
    by_cases itself : some t = label.1
    · rw [itself] at keeps ⊢
      rw [Function.update_self]
      exact keeps_of_writes writes keeps
    · rwa [Function.update_of_ne itself]
  · rw [List.mem_singleton] at now
    subst now
    rcases pusher with ⟨u, before, action, after, event⟩
    cases pushed
    cases u with
    | none =>
        rcases destructor with ⟨pc, there⟩
        rw [there] at writes
        cases writes
    | some t =>
        refine ⟨t, rfl, ?_⟩
        rw [Function.update_self]
        generalize thread (some t) = l at writes
        cases writes
        rfl

omit writes in
theorem last_step (t : Tid)
    (latest : Option Tid × StepRecord TimingThread TimingAction TimingEvent)
    (last : lastStep t (records ++ [label]) = some latest) :
    Function.update thread label.1 label.2.after (some t) = latest.2.after := by
  rw [lastStep_concat] at last
  split at last
  · next mine =>
      cases last
      rw [mine, Function.update_self]
  · next others =>
      rw [Function.update_of_ne (Ne.symm others)]
      exact noting.last t latest last

omit [DecidableEq Tid] noting in
/-- The destructor alone makes the steps of `I_destroy_timing`. -/
theorem destructor_or_quiet (timed : forall t, exists pc warmup stats,
      thread (some t) = .timed pc warmup stats) :
    label.1 = none ∨ (exists u, label.1 = some u) ∧
      (m.hasPrintedHdr = true -> m'.hasPrintedHdr = true) ∧
      (forall n, label.2.event ≠ .entered n) ∧ forall n text, label.2.event ≠ .output n text := by
  cases itself : label.1 with
  | none => exact Or.inl rfl
  | some u =>
      rcases timed u with ⟨pc, warmup, stats, there⟩
      rw [itself, there] at writes
      exact Or.inr ⟨⟨u, rfl⟩, quiet_of_writes writes⟩

theorem header_step (timed : forall t, exists pc warmup stats,
      thread (some t) = .timed pc warmup stats)
    (printed : LinePrinted (records ++ [label])) : m'.hasPrintedHdr = true := by
  rcases destructor_or_quiet writes timed with itself | ⟨-, kept, -, quiet⟩
  · rcases label with ⟨t, before, action, after, event⟩
    cases itself
    dsimp only at writes
    generalize walking : thread none = l at writes
    have already := fun silent => noting.header (linePrinted_before silent printed)
    cases writes with
    | reads n p pc pc' printed stepped =>
        have true' := already nofun
        rw [true'] at stepped
        exact outStep_printed stepped
    | prints n p pc printed' text stepped =>
        rcases (linePrinted_concat ..).mp printed with before | ⟨n, header, numCalls, total, times, now⟩
        · rw [noting.header before] at stepped
          exact outStep_printed stepped
        · cases now
          cases ThreadStats.outAccess stepped
          exact (noting.printing walking).printed rfl
    | findsSeal n start warmup stats =>
        have true' := already nofun
        dsimp only
        rw [true']
        exact out_printed (m.nodes n)
    | _ => exact already nofun
  · exact kept (noting.header (linePrinted_before quiet printed))

theorem printing_step (timed : forall t, exists pc warmup stats,
      thread (some t) = .timed pc warmup stats) {n : Nat} {p : StatsPtr} {pc : OutPc}
    (there : Function.update thread label.1 label.2.after none = .destructor (.out n p pc)) :
    Printing (records ++ [label]) m' n pc := by
  rcases destructor_or_quiet writes timed with itself | ⟨⟨u, other⟩, kept, -, quiet⟩
  · rcases label with ⟨t, before, action, after, event⟩
    cases itself
    rw [Function.update_self] at there
    dsimp only at writes there
    subst there
    generalize walking : thread none = l at writes
    cases writes with
    | enters => exact ⟨⟨_, List.mem_append_right _ List.mem_cons_self, rfl⟩, nofun, nofun⟩
    | reads n p pc pc' printed stepped =>
        have printing := noting.printing walking
        refine ⟨printing.entered.concat _, fun same => ?_, fun same earlier => ?_⟩
        · subst same
          cases ThreadStats.outAccess stepped with
          | exchange => rfl
          | numCalls | time => exact printing.printed rfl
        · have before := linePrinted_before (by exact nofun) earlier
          subst same
          cases ThreadStats.outAccess stepped with
          | exchange => rw [noting.header before, Bool.not_true]
          | numCalls | time => exact printing.header rfl before
  · rw [other, Function.update_of_ne (Option.some_ne_none u).symm] at there
    have printing := noting.printing there
    exact ⟨printing.entered.concat _, fun same => kept (printing.printed same),
      fun same earlier => printing.header same (linePrinted_before quiet earlier)⟩

theorem reading_step (inv : Inv (records.map Program.unrecord) m thread) {n : Nat} {p : StatsPtr}
    {pc : OutPc} (t : Tid)
    (there : Function.update thread label.1 label.2.after none = .destructor (.out n p pc))
    (has : Has n (Function.update thread label.1 label.2.after (some t))) :
    Reading (records ++ [label]) m' t n pc := by
  rcases destructor_or_quiet writes inv.timed with itself | ⟨⟨u, other⟩, -, later, -⟩
  · rw [itself, Function.update_of_ne (Option.some_ne_none t)] at has
    have others : label.1 ≠ some t := fun mine => Option.some_ne_none t (mine.symm.trans itself)
    have sameCalls : callsOf t (records ++ [label]) = callsOf t records := by
      rw [callsOf_concat, if_neg others, Option.toList_none, List.append_nil]
    have sameNode := nodes_step noting writes t others n has
    rcases label with ⟨t, before, action, after, event⟩
    cases itself
    rw [Function.update_self] at there
    dsimp only at writes there
    subst there
    generalize walking : thread none = l at writes
    cases writes with
    | enters => exact ⟨fun _ => trivial, fun past => past.elim, nofun, nofun⟩
    | reads n p pc pc' printed stepped =>
        have reading := noting.reading _ walking has
        have fields := (noting.noted _).fields has
        have entered := (noting.printing walking).entered
        refine ⟨fun undisturbed => ?_, fun past => ?_, fun same => ?_, fun same => ?_⟩
        · exact (reading.agrees (undisturbed.before nofun).2).step stepped
        · rw [sameCalls]
          rcases pastCondition_of_outStep stepped past with before | ⟨func, some⟩
          · exact reading.past before
          · refine Nat.lt_of_not_le fun few => some ?_
            rw [(fields func).1, numCalls_few few]
        · subst same
          cases ThreadStats.outAccess stepped with
          | exchange => exact readSoFar_nil
          | numCalls header timeTotal calls times func more =>
              refine ReadSoFar.concat ?_ more ?_
              · exact List.Forall₂.imp (fun _ _ counted => counted.concat _) (reading.numCalls rfl)
              · exact ⟨records, List.prefix_append .., entered, (fields func).1⟩
          | time =>
              exact List.Forall₂.imp (fun _ _ counted => counted.concat _) (reading.numCalls rfl)
        · subst same
          cases ThreadStats.outAccess stepped with
          | exchange => exact readSoFar_nil
          | numCalls => exact List.Forall₂.imp (fun _ _ added => added.concat _) (reading.times rfl)
          | time header timeTotal calls times func more =>
              refine ReadSoFar.concat ?_ more ?_
              · exact List.Forall₂.imp (fun _ _ added => added.concat _) (reading.times rfl)
              · exact ⟨records, List.prefix_append .., entered, (fields func).2⟩
  · rw [other, Function.update_of_ne (Option.some_ne_none u).symm] at there
    have has' := has_before writes (inv.own.pushed n (mem_pushes_of_front inv there rfl)) has
    have reading := noting.reading t there has'
    refine ⟨fun undisturbed => ?_, fun past => ?_, fun same => ?_, fun same => ?_⟩
    · rcases undisturbed.before (later n) with ⟨others, earlier⟩
      rw [nodes_step noting writes t others n has']
      exact reading.agrees earlier
    · exact (reading.past past).trans_le (callsOf_le t records label)
    · exact List.Forall₂.imp (fun _ _ counted => counted.concat _) (reading.numCalls same)
    · exact List.Forall₂.imp (fun _ _ added => added.concat _) (reading.times same)

theorem Noting.step (inv : Inv (records.map Program.unrecord) m thread) :
    Noting (records ++ [label]) m' (Function.update thread label.1 label.2.after) where
  allocated := has_allocated_step noting writes
  owner := has_owner_step noting writes
  noted := noted_step noting writes
  pushed := pushed_step noting writes (inv.destructor.imp fun _ walked => walked.1)
  last := last_step noting
  header := header_step noting writes inv.timed
  printing := printing_step noting writes inv.timed
  reading := reading_step noting writes inv

end step

theorem noting_init {s : Machine (Option Tid) StatsList TimingThread}
    (initial : init s) : Noting ([] : TimingRecords Tid) s.shared s.thread := by
  rcases s with ⟨m, thread⟩
  rcases initial with ⟨-, -, idle, waiting⟩
  dsimp only at idle waiting
  have nobody : forall n t, ¬Has n (thread t) := by
    intro n t
    cases t with
    | none =>
        rw [waiting]
        exact id
    | some t =>
        rw [idle t]
        exact id
  exact
    { allocated := fun n u has => absurd has (nobody n u)
      owner := fun n u _ has => absurd has (nobody n u)
      noted := fun t => by
        change Noted m.nodes [] (thread (some t))
        rw [idle t]
        exact ⟨rfl, rfl⟩
      pushed := fun n label member => absurd member List.not_mem_nil
      last := fun t label last => absurd last (Option.some_ne_none label).symm
      header := by
        rintro ⟨label, member, -⟩
        cases member
      printing := fun there => absurd (waiting.symm.trans there) nofun
      reading := fun t there => absurd (waiting.symm.trans there) nofun }

theorem pushedBy_of_mem {m : StatsList} {thread : Option Tid -> TimingThread}
    (noting : Noting records m thread) {n : Nat}
    (pushed : n ∈ pushes (records.map Program.unrecord)) :
    exists t, PushedBy t n records ∧ Has n (thread (some t)) := by
  rcases List.mem_filterMap.mp pushed with ⟨_, member, event⟩
  rcases List.mem_map.mp member with ⟨⟨u, record⟩, recorded, rfl⟩
  have is : record.event = .pushed n := by
    cases found : record.event <;> rw [Program.unrecord, found] at event <;> cases event
    rfl
  rcases noting.pushed n (u, record) recorded is with ⟨t, rfl, keeps⟩
  exact ⟨t, ⟨_, recorded, rfl, is⟩, keeps.has⟩

/-- A thread that is outside its calls has its node account for them. -/
theorem accounts_of_undisturbed {m : StatsList} {thread : Option Tid -> TimingThread}
    (noting : Noting records m thread) {t : Tid} {n : Nat} (pushed : PushedBy t n records)
    (has : Has n (thread (some t))) (undisturbed : Undisturbed t n records) :
    Accounts (m.nodes n) (callsOf t records) := by
  rcases pushed with ⟨label, member, mine, -⟩
  have some : label ∈ records.filter fun label => label.1 = some t :=
    List.mem_filter.mpr ⟨member, decide_eq_true mine⟩
  rcases List.getLast?_isSome.mpr (List.ne_nil_of_mem some) |> Option.isSome_iff_exists.mp with
    ⟨latest, last⟩
  rcases undisturbed.1 latest last with ⟨warmup, stats, idle⟩
  have there := (noting.last t latest last).trans idle
  have noted := noting.noted t
  rw [there] at has noted
  cases stats with
  | none => exact has.elim
  | some own =>
      cases has
      exact noted.2

theorem tells_last {m m' : StatsList} {thread : Option Tid -> TimingThread}
    {label : Option Tid × StepRecord TimingThread TimingAction TimingEvent}
    (noting : Noting records m thread) (inv : Inv (records.map Program.unrecord) m thread)
    (writes : Writes m (thread label.1) label.2.action m' label.2.after label.2.event) {n : Nat}
    {text : StatsOutput} (output : label.2.event = .output n text) :
    exists t, PushedBy t n records ∧ Tells t n records text := by
  rcases destructor_or_quiet writes inv.timed with itself | ⟨-, -, -, quiet⟩
  · rcases label with ⟨u, before, action, after, event⟩
    cases itself
    dsimp only at writes output
    subst output
    generalize walking : thread none = l at writes
    cases writes with
    | prints n p pc printed text stepped =>
        rcases pushedBy_of_mem noting (mem_pushes_of_front inv walking rfl) with ⟨t, pusher, has⟩
        have printing := noting.printing walking
        have reading := noting.reading t walking has
        refine ⟨t, pusher, fun undisturbed => ?_, fun few => ?_, fun line => ?_, fun line => ?_,
          fun line => ?_⟩
        · rcases (reading.agrees undisturbed).out stepped with ⟨already, same⟩
          have accounts := accounts_of_undisturbed noting pusher has undisturbed
          exact ⟨!already, same.trans (accounts.out already)⟩
        · refine nothing_of_outStep (fun past => ?_) stepped
          exact absurd (reading.past past) (Nat.not_lt.mpr few)
        · subst line
          cases ThreadStats.outAccess stepped
          exact printing.header rfl
        · subst line
          cases ThreadStats.outAccess stepped with
          | line header timeTotal calls times noCall => exact (reading.numCalls rfl).all noCall
        · subst line
          cases ThreadStats.outAccess stepped with
          | line header timeTotal calls times _ noTime => exact (reading.times rfl).all noTime
  · exact absurd output (quiet n text)

variable {s : Machine (Option Tid) StatsList TimingThread}

theorem noting_of_run
    (run : ((program Tid).recorded.system init).Run TransitionSystem.unguarded records s) :
    Noting records s.shared s.thread ∧ Inv (records.map Program.unrecord) s.shared s.thread ∧
      Reported records := by
  refine run.invariant (fun records s => Noting records s.shared s.thread ∧
    Inv (records.map Program.unrecord) s.shared s.thread ∧ Reported records) ?_ ?_
  · exact fun s initial => ⟨noting_init initial, inv_init initial,
      fun before label n text begins => absurd begins not_begins_nil⟩
  · rintro records s label s' ⟨noting, inv, reported⟩ moved -
    rcases Program.recorded_next moved with ⟨m', stepped, same, rfl⟩
    have writes := writes_of_step stepped
    refine ⟨noting.step writes inv, ?_, ?_⟩
    · rw [List.map_append]
      exact inv.step rfl (moves_of_step stepped)
    · intro before now n text begins printed
      rcases begins_concat begins with ⟨rfl, rfl⟩ | earlier
      · exact tells_last noting inv writes printed
      · exact reported before now n text earlier printed

/-- Whatever the interleaving, each count that the destructor prints for a node is right for a
moment of its reading, and the whole line is if the thread stays outside its calls meanwhile. -/
theorem output_reports
    (run : ((program Tid).recorded.system init).Run TransitionSystem.unguarded records s) :
    Reported records :=
  (noting_of_run run).2.2

end runs

/-- The warm-up, one call of `lock` and one of `unlock`. -/
def warmedUp : List (Option Nat × TimingAction) :=
  [(some 0, .timed .lock 1 2), (some 0, .run), (some 0, .run), (some 0, .run)] ++
    List.replicate 63 (some 0, .timed .lock 3 4) ++
    [(some 0, .timed .lock 10 15), (some 0, .run), (some 0, .timed .unlock 20 27)] ++
    List.replicate 3 (some 0, .run)

/-- The destructor from its first step to its last. -/
def exits : List (Option Nat × TimingAction) :=
  (none, .exit) :: List.replicate 15 (none, .run)

theorem output_reports_warmUpThenExit :
    let records := ((program Nat).recorded.play (warmedUp ++ exits) untimed).2
    .output 0 (.line true [0, 1, 1] 24 [0, 5, 7]) ∈ records.map (fun label => label.2.event) ∧
      Reported records :=
  ⟨by decide +kernel, output_reports
    (Program.run_play init_untimed (warmedUp ++ exits) (by decide +kernel))⟩

/-- Another call of `lock` is being counted when the destructor comes: it is in the count, but its
time is not in the sum. -/
example :
    let records := ((program Nat).recorded.play
      (warmedUp ++ (some 0, .timed .lock 30 39) :: exits) untimed).2
    .output 0 (.line true [0, 2, 1] 24 [0, 5, 7]) ∈ records.map (fun label => label.2.event) ∧
      report (callsOf 0 records) true = .line true [0, 2, 1] 24 [0, 14, 7] := by
  decide +kernel

end Timing

end Interpose
end Autolock
