import Autolock.Util.WildcardMatcher
import Mathlib.Data.List.Nodup

namespace Autolock
namespace Util

/-!
# Which declarations `run_decls` runs

Names are matched against patterns, each of which is compiled when it is needed
first.  A pattern without a wildcard is done with the first declaration that it
matches; the state of a pattern is a byte of flags.

What `regcomp` makes of a text is a predicate on names, if it compiles the text.
Neither a declaration nor its name is `NULL`, and no pattern is.
-/

namespace FuncDecl

def declDoNothing : UInt8 := 0
def declReBuilt : UInt8 := 2
def declRan : UInt8 := 4

/-- `func_decl_t` -/
structure Decl (Data : Type) where
  name : CString
  data : Data

/-- An element of each of the arrays `decls_to_run`, `decl_states` and `re_matchers`. -/
structure Slot where
  declToRun : CString
  state : UInt8
  matcher : Option (CString -> Bool)

/-- What is done, by the indices of patterns and declarations. -/
structure Log where
  compiled : List Nat
  /-- A pattern, a declaration, and whether they match. -/
  tried : List (Nat × Nat × Bool)
  ran : List Nat
  freed : List Nat
  unableToFind : List Nat
  deriving DecidableEq, Repr

def Log.empty : Log :=
  ⟨[], [], [], [], []⟩

section code

variable (regcomp : CString -> Option (CString -> Bool))

/-- The matcher of a pattern, which is built unless it has been; without a matcher
the program dies. -/
def slotMatcher (slot : Slot) : Option (CString -> Bool) :=
  if slot.state &&& declReBuilt = 0 then regcomp (patternText slot.declToRun) else slot.matcher

/-- One round of the loop of `should_run_decl`: the flag `has_hit` is set if the name matches. -/
def tryPattern (log : Log) (i k : Nat) (name : CString) (slot : Slot) :
    Option (Log × Slot × Bool) :=
  if slot.state &&& declRan ≠ 0 ∧ slot.state &&& declDidOne ≠ 0 then some (log, slot, false)
  else do
    let matcher <- slotMatcher regcomp slot
    let compiled := if slot.state &&& declReBuilt = 0 then [i] else []
    let state :=
      if slot.state &&& declReBuilt = 0 then
        slot.state ||| (declReBuilt ||| matchAnyOf slot.declToRun)
      else slot.state
    let hit := matcher name
    return ({ log with
        compiled := log.compiled ++ compiled
        tried := log.tried ++ [(i, k, hit)] },
      { slot with
        state := if hit then state ||| declRan else state
        matcher := some matcher },
      hit)

/-- `should_run_decl`, from a pattern on. -/
def shouldRunDecl (k : Nat) (name : CString) :
    Log -> Nat -> List Slot -> Option (Log × List Slot × Bool)
  | log, _, [] => some (log, [], false)
  | log, i, slot :: slots => do
      let (log, slot, hit) <- tryPattern regcomp log i k name slot
      let (log, slots, more) <- shouldRunDecl k name log (i + 1) slots
      return (log, slot :: slots, hit || more)

variable {Data : Type}

/-- The loop of `run_decls`, from a declaration on. -/
def runLoop : Log -> List Slot -> Nat -> List (Decl Data) -> Option (Log × List Slot)
  | log, slots, _, [] => some (log, slots)
  | log, slots, k, decl :: decls => do
      let (log, slots, hasHit) <- shouldRunDecl regcomp k decl.name log 0 slots
      let ran := if hasHit then [k] else []
      runLoop { log with ran := log.ran ++ ran } slots (k + 1) decls

/-- What is freed at the end, and which patterns have not been found. -/
def release : Log -> Nat -> List Slot -> Option Log
  | log, _, [] => some log
  | log, i, slot :: slots =>
      if slot.state = declDoNothing then
        release { log with unableToFind := log.unableToFind ++ [i] } (i + 1) slots
      else if slot.state &&& declReBuilt = 0 then none
      else
        let unable := if slot.state &&& declRan = 0 then [i] else []
        release { log with
          freed := log.freed ++ [i]
          unableToFind := log.unableToFind ++ unable } (i + 1) slots

def freshSlot (declToRun : CString) : Slot :=
  ⟨declToRun, declDoNothing, none⟩

/-- `run_decls`; without patterns it runs everything. -/
def runDecls (decls : List (Decl Data)) : Option (List CString) -> Option Log
  | none => some { Log.empty with ran := List.range decls.length }
  | some declsToRun => do
      let (log, slots) <- runLoop regcomp Log.empty (declsToRun.map freshSlot) 0 decls
      release log 0 slots

end code

/-! ## The states of the patterns -/

section states

variable (isMatch : CString -> CString -> Bool)

/-- Any predicate may be what the compiled texts stand for. -/
def compileAll (text : CString) : Option (CString -> Bool) :=
  some (isMatch text)

/-- A pattern matches a name. -/
def Hits (pattern name : CString) : Bool :=
  isMatch (patternText pattern) name

/-- A pattern is still tried after the names. -/
def Active (names : List CString) (pattern : CString) : Bool :=
  decide ('*' ∈ pattern) || !names.any (Hits isMatch pattern)

def flags (wildcard ran : Bool) : UInt8 :=
  (declDoNothing ||| (declReBuilt ||| if wildcard then declDidAny else declDidOne)) |||
    if ran then declRan else 0

/-- The state of a pattern when the names have been tried. -/
def slotAfter (names : List CString) (pattern : CString) : Slot :=
  if names = [] then freshSlot pattern
  else
    ⟨pattern, flags (decide ('*' ∈ pattern)) (names.any (Hits isMatch pattern)),
      some (isMatch (patternText pattern))⟩

theorem flags_ran (wildcard ran : Bool) : flags wildcard ran &&& declRan ≠ 0 <-> ran = true := by
  cases wildcard <;> cases ran <;> decide

theorem flags_didOne (wildcard ran : Bool) :
    flags wildcard ran &&& declDidOne ≠ 0 <-> wildcard = false := by
  cases wildcard <;> cases ran <;> decide

theorem flags_reBuilt (wildcard ran : Bool) : flags wildcard ran &&& declReBuilt ≠ 0 := by
  cases wildcard <;> cases ran <;> decide

theorem flags_ne_doNothing (wildcard ran : Bool) : flags wildcard ran ≠ declDoNothing := by
  cases wildcard <;> cases ran <;> decide

theorem flags_hit (wildcard ran hit : Bool) :
    (if hit then flags wildcard ran ||| declRan else flags wildcard ran) =
      flags wildcard (ran || hit) := by
  cases wildcard <;> cases ran <;> cases hit <;> rfl

theorem flags_built (pattern : CString) :
    declDoNothing ||| (declReBuilt ||| matchAnyOf pattern) =
      flags (decide ('*' ∈ pattern)) false := by
  by_cases wildcard : '*' ∈ pattern
  · rw [matchAnyOf, if_pos wildcard, decide_eq_true wildcard]
    rfl
  · rw [matchAnyOf, if_neg wildcard, decide_eq_false wildcard]
    rfl

variable {isMatch}

theorem slotAfter_append (names : List CString) (name pattern : CString) :
    slotAfter isMatch (names ++ [name]) pattern =
      ⟨pattern, flags (decide ('*' ∈ pattern))
          (names.any (Hits isMatch pattern) || Hits isMatch pattern name),
        some (isMatch (patternText pattern))⟩ := by
  rw [slotAfter, if_neg (by simp), List.any_append, List.any_cons, List.any_nil, Bool.or_false]

/-- The first name compiles the pattern. -/
theorem tryPattern_fresh (log : Log) (i : Nat) (name pattern : CString) :
    tryPattern (compileAll isMatch) log i 0 name (freshSlot pattern) =
      some ({ log with
          compiled := log.compiled ++ [i]
          tried := log.tried ++ [(i, 0, Hits isMatch pattern name)] },
        slotAfter isMatch [name] pattern, Hits isMatch pattern name) := by
  have fresh : (freshSlot pattern).state = declDoNothing := rfl
  have unbuilt : declDoNothing &&& declReBuilt = 0 := by decide
  have untried : ¬(declDoNothing &&& declRan ≠ 0 ∧ declDoNothing &&& declDidOne ≠ 0) := by decide
  have matcher : slotMatcher (compileAll isMatch) (freshSlot pattern) =
      some (isMatch (patternText pattern)) := by
    rw [slotMatcher, fresh, if_pos unbuilt]
    rfl
  have after : slotAfter isMatch ([] ++ [name]) pattern = _ := slotAfter_append [] name pattern
  rw [List.nil_append, List.any_nil] at after
  rw [after, tryPattern, fresh, if_neg untried, matcher, ← flags_hit, ← flags_built]
  simp only [unbuilt, if_true, Option.bind_eq_bind, Option.bind_some]
  rfl

/-- After the first one the matcher is there. -/
theorem tryPattern_built (log : Log) (i : Nat) {names : List CString} (name pattern : CString)
    (nonempty : names ≠ []) :
    tryPattern (compileAll isMatch) log i names.length name (slotAfter isMatch names pattern) =
      if Active isMatch names pattern then
        some ({ log with tried := log.tried ++ [(i, names.length, Hits isMatch pattern name)] },
          slotAfter isMatch (names ++ [name]) pattern, Hits isMatch pattern name)
      else some (log, slotAfter isMatch (names ++ [name]) pattern, false) := by
  rw [slotAfter_append, slotAfter, if_neg nonempty, tryPattern, Active]
  simp only [slotMatcher, flags_ran, flags_didOne, flags_reBuilt, flags_hit, if_false,
    List.append_nil, Option.bind_eq_bind, Option.bind_some]
  generalize decide ('*' ∈ pattern) = wildcard
  generalize names.any (Hits isMatch pattern) = ran
  cases wildcard <;> cases ran <;> simp [Hits]

/-- One round of the loop keeps the state what it should be. -/
theorem tryPattern_slotAfter (log : Log) (i : Nat) (names : List CString) (name pattern : CString) :
    tryPattern (compileAll isMatch) log i names.length name (slotAfter isMatch names pattern) =
      if Active isMatch names pattern then
        some ({ log with
            compiled := log.compiled ++ if names = [] then [i] else []
            tried := log.tried ++ [(i, names.length, Hits isMatch pattern name)] },
          slotAfter isMatch (names ++ [name]) pattern, Hits isMatch pattern name)
      else some (log, slotAfter isMatch (names ++ [name]) pattern, false) := by
  by_cases nonempty : names = []
  · subst nonempty
    have active : Active isMatch [] pattern = true := by simp [Active]
    rw [if_pos active]
    exact tryPattern_fresh log i name pattern
  · rw [if_neg nonempty, List.append_nil]
    exact tryPattern_built log i name pattern nonempty

/-- A declaration is tried with every pattern that is still active. -/
theorem shouldRunDecl_slotAfter (log : Log) (i : Nat) (names : List CString) (name : CString)
    (patterns : List CString) :
    shouldRunDecl (compileAll isMatch) names.length name log i
        (patterns.map (slotAfter isMatch names)) =
      some ({ log with
          compiled := log.compiled ++ if names = [] then (patterns.zipIdx i).map Prod.snd else []
          tried := log.tried ++
            ((patterns.zipIdx i).filter fun entry => Active isMatch names entry.1).map fun entry =>
              (entry.2, names.length, Hits isMatch entry.1 name) },
        patterns.map (slotAfter isMatch (names ++ [name])),
        patterns.any fun pattern => Active isMatch names pattern && Hits isMatch pattern name) := by
  induction patterns generalizing log i with
  | nil => simp [shouldRunDecl]
  | cons pattern patterns inductionHypothesis =>
      rw [List.map_cons, shouldRunDecl, tryPattern_slotAfter]
      cases active : Active isMatch names pattern with
      | true =>
          simp only [if_true, Option.bind_eq_bind, Option.bind_some, inductionHypothesis]
          by_cases first : names = []
          · simp [first, first ▸ active]
          · simp [active, first]
      | false =>
          have nonempty : names ≠ [] := by
            rintro rfl
            simp [Active] at active
          simp [inductionHypothesis, List.zipIdx_cons, active, nonempty]

end states

/-! ## The invariant of the loop over the declarations -/

section run

variable (isMatch : CString -> CString -> Bool) (patterns : List CString)

/-- A declaration is matched by a pattern that is still active. -/
def Selected (names : List CString) (k : Nat) : Bool :=
  names[k]?.any fun name =>
    patterns.any fun pattern => Active isMatch (names.take k) pattern && Hits isMatch pattern name

/-- What has been done when the names have been tried. -/
structure LogInv (names : List CString) (log : Log) : Prop where
  compiled : log.compiled = if names = [] then [] else patterns.zipIdx.map Prod.snd
  tried : forall i k b, (i, k, b) ∈ log.tried <->
    exists pattern name, patterns[i]? = some pattern ∧ names[k]? = some name ∧
      Active isMatch (names.take k) pattern = true ∧ Hits isMatch pattern name = b
  ran : log.ran = (List.range names.length).filter (Selected isMatch patterns names)
  freed : log.freed = []
  unableToFind : log.unableToFind = []

variable {isMatch patterns}

theorem logInv_empty : LogInv isMatch patterns [] Log.empty where
  compiled := rfl
  tried := by simp [Log.empty]
  ran := rfl
  freed := rfl
  unableToFind := rfl

/-- A new name does not change what is said about the earlier ones. -/
theorem lookup_append {names : List CString} {k : Nat} (less : k < names.length) (name : CString) :
    (names ++ [name])[k]? = names[k]? ∧ (names ++ [name]).take k = names.take k :=
  ⟨List.getElem?_append_left less, List.take_append_of_le_length (Nat.le_of_lt less)⟩

theorem lookup_last (names : List CString) (name : CString) :
    (names ++ [name])[names.length]? = some name ∧
      (names ++ [name]).take names.length = names :=
  ⟨List.getElem?_concat_length, List.take_left⟩

theorem lookup_lt {names : List CString} {k : Nat} {name : CString} (nth : names[k]? = some name) :
    k < names.length :=
  (List.getElem?_eq_some_iff.mp nth).1

theorem selected_append {names : List CString} {k : Nat} (less : k < names.length)
    (name : CString) :
    Selected isMatch patterns (names ++ [name]) k = Selected isMatch patterns names k := by
  rcases lookup_append less name with ⟨nth, earlier⟩
  rw [Selected, Selected, nth, earlier]

theorem selected_last (names : List CString) (name : CString) :
    Selected isMatch patterns (names ++ [name]) names.length =
      patterns.any fun pattern => Active isMatch names pattern && Hits isMatch pattern name := by
  rcases lookup_last names name with ⟨nth, earlier⟩
  rw [Selected, nth, earlier]
  rfl

theorem logInv_step {names : List CString} {log : Log} (inv : LogInv isMatch patterns names log)
    (name : CString) :
    exists log' hasHit,
      shouldRunDecl (compileAll isMatch) names.length name log 0
        (patterns.map (slotAfter isMatch names)) =
          some (log', patterns.map (slotAfter isMatch (names ++ [name])), hasHit) ∧
      LogInv isMatch patterns (names ++ [name])
        { log' with ran := log'.ran ++ if hasHit then [names.length] else [] } := by
  refine ⟨_, _, shouldRunDecl_slotAfter log 0 names name patterns, ?_, ?_, ?_, inv.freed,
    inv.unableToFind⟩
  · have nonempty : ¬names ++ [name] = [] := by simp
    dsimp only
    rw [inv.compiled, if_neg nonempty]
    by_cases first : names = []
    · rw [if_pos first, if_pos first, List.nil_append]
    · rw [if_neg first, if_neg first, List.append_nil]
  · intro i k b
    dsimp only
    rw [List.mem_append, inv.tried, List.mem_map]
    constructor
    · rintro (⟨pattern, earlier, entry, nth, active, hit⟩ | ⟨⟨pattern, j⟩, member, same⟩)
      · rcases lookup_append (lookup_lt nth) name with ⟨nth', before⟩
        exact ⟨pattern, earlier, entry, nth'.trans nth, before.symm ▸ active, hit⟩
      · cases same
        rw [List.mem_filter, List.mk_mem_zipIdx_iff_getElem?] at member
        rcases lookup_last names name with ⟨nth, before⟩
        exact ⟨pattern, name, member.1, nth, before.symm ▸ member.2, rfl⟩
    · rintro ⟨pattern, other, entry, nth, active, hit⟩
      have bound := lookup_lt nth
      rw [List.length_append, List.length_singleton, Nat.lt_succ_iff] at bound
      rcases Nat.eq_or_lt_of_le bound with rfl | less
      · rcases lookup_last names name with ⟨last, before⟩
        rw [before] at active
        cases last.symm.trans nth
        refine Or.inr ⟨(pattern, i), List.mem_filter.mpr ⟨?_, active⟩, by rw [← hit]⟩
        exact List.mk_mem_zipIdx_iff_getElem?.mpr entry
      · rcases lookup_append less name with ⟨nth', before⟩
        exact Or.inl ⟨pattern, other, entry, nth'.symm.trans nth, before ▸ active, hit⟩
  · have earlier : (List.range names.length).filter (Selected isMatch patterns names) =
        (List.range names.length).filter (Selected isMatch patterns (names ++ [name])) :=
      List.filter_congr fun k member => (selected_append (List.mem_range.mp member) name).symm
    have last : [names.length].filter (Selected isMatch patterns (names ++ [name])) =
        if patterns.any fun pattern => Active isMatch names pattern && Hits isMatch pattern name
        then [names.length] else [] := by
      rw [List.filter_singleton, selected_last, cond_eq_ite]
    dsimp only
    rw [inv.ran, List.length_append, List.length_singleton, List.range_succ, List.filter_append,
      earlier, last]

variable {Data : Type}

theorem runLoop_inv {names : List CString} {log : Log} (inv : LogInv isMatch patterns names log)
    (decls : List (Decl Data)) :
    exists log',
      runLoop (compileAll isMatch) log (patterns.map (slotAfter isMatch names)) names.length decls =
        some (log', patterns.map (slotAfter isMatch (names ++ decls.map Decl.name))) ∧
      LogInv isMatch patterns (names ++ decls.map Decl.name) log' := by
  induction decls generalizing names log with
  | nil =>
      refine ⟨log, ?_, ?_⟩ <;> rw [List.map_nil, List.append_nil]
      · rfl
      · exact inv
  | cons decl decls inductionHypothesis =>
      rcases logInv_step inv decl.name with ⟨log', hasHit, row, inv'⟩
      rcases inductionHypothesis inv' with ⟨log'', rest, inv''⟩
      have whole : names ++ [decl.name] ++ decls.map Decl.name =
          names ++ (decl :: decls).map Decl.name := by simp
      rw [whole] at rest inv''
      refine ⟨log'', ?_, inv''⟩
      rw [runLoop, row]
      simpa using rest

/-- At the end the matchers are freed, and the patterns without a match are reported. -/
theorem release_slotAfter (log : Log) (i : Nat) (names : List CString) :
    release log i (patterns.map (slotAfter isMatch names)) =
      some { log with
        freed := log.freed ++ if names = [] then [] else (patterns.zipIdx i).map Prod.snd
        unableToFind := log.unableToFind ++
          ((patterns.zipIdx i).filter fun entry => !names.any (Hits isMatch entry.1)).map
            Prod.snd } := by
  induction patterns generalizing log i with
  | nil => simp [release]
  | cons pattern patterns inductionHypothesis =>
      rw [List.map_cons, release]
      by_cases first : names = []
      · have fresh : (slotAfter isMatch names pattern).state = declDoNothing := by
          rw [slotAfter, if_pos first]
          rfl
        rw [if_pos fresh, inductionHypothesis]
        simp [first]
      · have state : (slotAfter isMatch names pattern).state =
            flags (decide ('*' ∈ pattern)) (names.any (Hits isMatch pattern)) := by
          rw [slotAfter, if_neg first]
        rw [state, if_neg (flags_ne_doNothing _ _), if_neg (flags_reBuilt _ _), inductionHypothesis]
        cases hits : names.any (Hits isMatch pattern) with
        | true =>
            have ran := (flags_ran (decide ('*' ∈ pattern)) true).mpr rfl
            simp [first, hits, ran]
        | false =>
            have unran : flags (decide ('*' ∈ pattern)) false &&& declRan = 0 :=
              not_not.mp fun ran => Bool.false_ne_true ((flags_ran _ _).mp ran)
            simp [first, hits, unran]

end run

/-! ## What is expected -/

section expected

variable {Data : Type} (isMatch : CString -> CString -> Bool) (decls : List (Decl Data))
  (patterns : List CString)

/-- The declarations that should run do, in their order; every pattern that has
matched nothing is reported, and every matcher is freed once. -/
structure AsSelected (log : Log) : Prop where
  ordered : log.ran.Pairwise (· < ·)
  ran : forall k, k ∈ log.ran <->
    exists decl, decls[k]? = some decl ∧ exists pattern, pattern ∈ patterns ∧
      Hits isMatch pattern decl.name = true ∧
      ('*' ∈ pattern ∨ forall j earlier, j < k -> decls[j]? = some earlier ->
        Hits isMatch pattern earlier.name = false)
  reported : forall i, i ∈ log.unableToFind <->
    i < patterns.length ∧ forall k, (i, k, true) ∉ log.tried
  reportedOnce : log.unableToFind.Nodup
  compiledOnce : log.compiled.Nodup
  freedOnce : log.freed.Nodup
  freed : forall i, i ∈ log.freed <-> i ∈ log.compiled

variable {isMatch decls patterns}

/-- A pattern that matches a name has been tried on the first that it matches. -/
theorem first_hit {names : List CString} {pattern : CString}
    (some : names.any (Hits isMatch pattern) = true) :
    exists k name, names[k]? = .some name ∧ Hits isMatch pattern name = true ∧
      (names.take k).any (Hits isMatch pattern) = false := by
  induction names with
  | nil => cases some
  | cons name names inductionHypothesis =>
      cases hit : Hits isMatch pattern name with
      | true => exact ⟨0, name, rfl, hit, rfl⟩
      | false =>
          rw [List.any_cons, hit, Bool.false_or] at some
          rcases inductionHypothesis some with ⟨k, later, nth, hits, before⟩
          refine ⟨k + 1, later, nth, hits, ?_⟩
          rw [List.take_succ_cons, List.any_cons, hit, before]
          rfl

theorem active_iff {k : Nat} {pattern : CString} :
    Active isMatch ((decls.map Decl.name).take k) pattern = true <->
      '*' ∈ pattern ∨ forall j earlier, j < k -> decls[j]? = some earlier ->
        Hits isMatch pattern earlier.name = false := by
  rw [Active, Bool.or_eq_true, decide_eq_true_iff, Bool.not_eq_true', List.any_eq_false]
  refine or_congr_right ⟨fun none j earlier less nth => ?_, fun none name member => ?_⟩
  · refine Bool.eq_false_iff.mpr (none earlier.name ?_)
    rw [List.mem_iff_getElem?]
    refine ⟨j, ?_⟩
    rw [List.getElem?_take, if_pos less, List.getElem?_map, nth, Option.map_some]
  · rcases List.mem_iff_getElem?.mp member with ⟨j, nth⟩
    rw [List.getElem?_take, List.getElem?_map] at nth
    split at nth
    · rename_i less
      rcases Option.map_eq_some_iff.mp nth with ⟨earlier, entry, rfl⟩
      exact Bool.eq_false_iff.mp (none j earlier less entry)
    · cases nth

theorem selected_iff {k : Nat} :
    Selected isMatch patterns (decls.map Decl.name) k = true <->
      exists decl, decls[k]? = some decl ∧ exists pattern, pattern ∈ patterns ∧
        Hits isMatch pattern decl.name = true ∧
        ('*' ∈ pattern ∨ forall j earlier, j < k -> decls[j]? = some earlier ->
          Hits isMatch pattern earlier.name = false) := by
  rw [Selected, List.getElem?_map]
  cases decls[k]? with
  | none => simp
  | some decl =>
      simp only [Option.map_some, Option.any_some, List.any_eq_true, Bool.and_eq_true, active_iff,
        Option.some.injEq, exists_eq_left']
      exact exists_congr fun pattern => and_congr_right fun _ => and_comm

theorem mem_unmatched {names : List CString} {i : Nat} :
    (i ∈ (patterns.zipIdx.filter fun entry => !names.any (Hits isMatch entry.1)).map Prod.snd) <->
      exists pattern, patterns[i]? = some pattern ∧ names.any (Hits isMatch pattern) = false := by
  simp only [List.mem_map, List.mem_filter, Prod.exists, List.mk_mem_zipIdx_iff_getElem?,
    Bool.not_eq_true']
  constructor
  · rintro ⟨pattern, j, ⟨entry, unmatched⟩, rfl⟩
    exact ⟨pattern, entry, unmatched⟩
  · rintro ⟨pattern, entry, unmatched⟩
    exact ⟨pattern, i, ⟨entry, unmatched⟩, rfl⟩

theorem zipIdx_snd_nodup : (patterns.zipIdx.map Prod.snd).Nodup := by
  rw [List.zipIdx_map_snd]
  exact List.nodup_range'

theorem LogInv.compiled_nodup {names : List CString} {log : Log}
    (inv : LogInv isMatch patterns names log) : log.compiled.Nodup := by
  rw [inv.compiled]
  split
  · exact List.nodup_nil
  · exact zipIdx_snd_nodup

/-- A pattern has matched nothing exactly if no trial of it has hit. -/
theorem LogInv.unmatched_iff {names : List CString} {log : Log}
    (inv : LogInv isMatch patterns names log) {i : Nat} :
    (exists pattern, patterns[i]? = some pattern ∧ names.any (Hits isMatch pattern) = false) <->
      i < patterns.length ∧ forall k, (i, k, true) ∉ log.tried := by
  simp only [inv.tried]
  constructor
  · rintro ⟨pattern, entry, unmatched⟩
    refine ⟨(List.getElem?_eq_some_iff.mp entry).1, ?_⟩
    rintro k ⟨other, name, entry', nth, -, hit⟩
    cases entry.symm.trans entry'
    exact List.any_eq_false.mp unmatched name (List.mem_of_getElem? nth) hit
  · rintro ⟨bound, untried⟩
    refine ⟨_, List.getElem?_eq_getElem bound, Bool.eq_false_iff.mpr fun some => ?_⟩
    rcases first_hit some with ⟨k, name, nth, hit, before⟩
    refine untried k ⟨_, name, List.getElem?_eq_getElem bound, nth, ?_, hit⟩
    rw [Active, before]
    exact Bool.or_true _

/-- What `run_decls` leaves: the log of its loop, with the matchers freed and the
patterns that have matched nothing reported. -/
theorem runDecls_returns (isMatch : CString -> CString -> Bool) (decls : List (Decl Data))
    (patterns : List CString) :
    exists log, LogInv isMatch patterns (decls.map Decl.name) log ∧
      runDecls (compileAll isMatch) decls (some patterns) =
        some { log with
          freed := log.compiled
          unableToFind := (patterns.zipIdx.filter fun entry =>
            !(decls.map Decl.name).any (Hits isMatch entry.1)).map Prod.snd } := by
  have empty : LogInv isMatch patterns [] Log.empty := logInv_empty
  rcases runLoop_inv empty decls with ⟨log, loops, inv⟩
  have released : release log 0 (patterns.map (slotAfter isMatch ([] ++ decls.map Decl.name))) = _ :=
    release_slotAfter log 0 ([] ++ decls.map Decl.name)
  rw [List.nil_append] at loops inv released
  rw [inv.freed, inv.unableToFind, List.nil_append, List.nil_append, ← inv.compiled] at released
  have start : patterns.map freshSlot = patterns.map (slotAfter isMatch []) := rfl
  refine ⟨log, inv, ?_⟩
  rw [← released, runDecls, start]
  rw [List.length_nil] at loops
  rw [loops]
  rfl

/-- Whatever a text matches, `run_decls` runs and reports what it should. -/
theorem runDecls_asSelected (isMatch : CString -> CString -> Bool) (decls : List (Decl Data))
    (patterns : List CString) :
    exists log, runDecls (compileAll isMatch) decls (some patterns) = some log ∧
      AsSelected isMatch decls patterns log := by
  rcases runDecls_returns isMatch decls patterns with ⟨log, inv, runs⟩
  refine ⟨_, runs, ?_, ?_, ?_, ?_, inv.compiled_nodup, inv.compiled_nodup, fun i => Iff.rfl⟩
  · rw [inv.ran]
    exact List.Pairwise.filter _ List.pairwise_lt_range
  · intro k
    rw [inv.ran, List.mem_filter, List.mem_range, selected_iff, List.length_map]
    refine and_iff_right_of_imp ?_
    rintro ⟨decl, nth, -⟩
    exact (List.getElem?_eq_some_iff.mp nth).1
  · intro i
    exact mem_unmatched.trans inv.unmatched_iff
  · exact List.Sublist.nodup (List.filter_sublist.map Prod.snd) zipIdx_snd_nodup

end expected

end FuncDecl

end Util
end Autolock
