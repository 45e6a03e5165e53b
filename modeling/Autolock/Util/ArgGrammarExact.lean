import Autolock.Util.ArgPositional

namespace Autolock
namespace Util

open Data

/-!
# Which command lines are accepted

The marks and the destinations after a parse follow from all that has been given.
A positional descriptor marks the one behind it, so that the first one is never
marked, and no command line of a table with positional descriptors is accepted.
What is left out decides about the others.
-/

/-! ## The store after all that is given -/

section store

variable {Double : Type} {lib : ArgLib Double} {ap : ArgParser}

theorem foldl_take_mem (all : List Given) (store : Store) :
    (all.foldl (Store.take lib) store).mem = convertedAll lib all store.mem := by
  induction all generalizing store with
  | nil => rfl
  | cons g all inductionHypothesis =>
      rw [List.foldl_cons, inductionHypothesis]
      rfl

theorem arg2str_eq (desc : ArgOption) :
    arg2str desc = .ok () ∨ exists stop, stop ≠ .argdie ∧ arg2str desc = .error stop := by
  unfold arg2str
  split
  · split
    · exact Or.inl rfl
    · exact Or.inr ⟨.die, by decide, rfl⟩
  · exact Or.inr ⟨.die, by decide, rfl⟩
  · rw [concatArgs_eq]
    split
    · exact Or.inl rfl
    · exact Or.inr ⟨_, desc.unprinted_ne_argdie, rfl⟩

end store

/-! ## What is left out -/

section leftOut

variable {Double : Type} {lib : ArgLib Double} {ap : ArgParser} {n : Nat} {defs : ArgDefs}
  {store : Store} {words left : List CString} {given : List Given} {ended : List DescId}

theorem mem_marksBehind {m : Nat} {id : DescId} :
    id ∈ marksBehind n defs m <-> exists k, k < m ∧ id = (n, defs.baseDestOffset + k + 1) := by
  simp only [marksBehind, List.mem_map, List.mem_range, eq_comm]

/-- What is marked is named among the options, or behind a descriptor that gets words. -/
theorem allGiven_marked (self : forall g, g ∈ given -> g.marked = g.id) {id : DescId} :
    (exists g, g ∈ allGiven n defs given left ∧ g.marked = id) <->
      id ∈ given.map Given.id ∨
        exists k, k < served defs left ∧ id = (n, defs.baseDestOffset + k + 1) := by
  have options : (exists g, g ∈ given ∧ g.marked = id) <-> id ∈ given.map Given.id := by
    rw [List.mem_map]
    exact exists_congr fun g => and_congr_right fun member => by rw [self g member]
  simp only [allGiven, List.mem_append, or_and_right, exists_or, options, positionalGiven_marked,
    restGiven_marked, or_assoc]
  refine or_congr_right ?_
  constructor
  · rintro (⟨k, less, rfl⟩ | ⟨some, more, rfl⟩)
    · exact ⟨k, by unfold served; omega, rfl⟩
    · have rests := List.length_pos_iff.mpr some
      have words := List.length_pos_iff.mpr more
      rw [List.length_drop] at words
      exact ⟨defs.positionals.length, by unfold served; omega, rfl⟩
  · rintro ⟨k, less, rfl⟩
    unfold served at less
    by_cases last : k < defs.positionals.length
    · exact Or.inl ⟨k, by omega, rfl⟩
    · have same : k = defs.positionals.length := by omega
      subst same
      refine Or.inr ⟨List.length_pos_iff.mp (by omega), List.length_pos_iff.mp ?_, rfl⟩
      rw [List.length_drop]
      omega

theorem mem_leftOut {entry : DescId × ArgOption} :
    entry ∈ leftOut ap n defs store given left <-> entry ∈ ap.entries ∧
      store.required entry.1 ≠ 0 ∧ entry.1 ∉ given.map Given.id ∧
        ¬exists k, k < served defs left ∧ entry.1 = (n, defs.baseDestOffset + k + 1) := by
  simp only [leftOut, List.mem_filter, decide_eq_true_eq, mem_marksBehind]

variable (lib) in
/-- What is left out is what the last check finds. -/
theorem leftOut_eq (self : forall g, g ∈ given -> g.marked = g.id) :
    leftOut ap n defs store given left = ap.entries.filter fun entry =>
      ((allGiven n defs given left).foldl (Store.take lib) (store.normalise ap)).required
        entry.1 = 1 := by
  refine List.filter_congr fun entry member => decide_eq_decide.mpr ?_
  have unmarked : (forall g, g ∈ allGiven n defs given left -> g.marked ≠ entry.1) <->
      ¬exists g, g ∈ allGiven n defs given left ∧ g.marked = entry.1 := by
    simp only [not_exists, not_and, ne_eq]
  rw [foldl_take_required, normalise_required member, unmarked, allGiven_marked self, not_or,
    mem_marksBehind]

/-- The last check of the parse: the message, if there is one, names the first
descriptor that is left out. -/
theorem checkRequired_allGiven (self : forall g, g ∈ given -> g.marked = g.id) :
    let final := (allGiven n defs given left).foldl (Store.take lib) (store.normalise ap)
    (leftOut ap n defs store given left = [] -> checkRequired ap final = .ok final) ∧
      forall entry, (leftOut ap n defs store given left).head? = some entry ->
        (arg2str entry.2 = .ok () -> checkRequired ap final = .error .argdie) ∧
          (arg2str entry.2 ≠ .ok () -> exists stop, stop ≠ .argdie ∧
            checkRequired ap final = .error stop) := by
  intro final
  have finds : ap.entries.find? (fun entry => final.required entry.1 = 1) =
      (leftOut ap n defs store given left).head? := by
    rw [leftOut_eq lib self, List.head?_filter]
  refine ⟨fun none => ?_, fun entry first => ⟨fun prints => ?_, fun long => ?_⟩⟩
  · rw [checkRequired, finds, none]
    rfl
  · rw [checkRequired, finds, first]
    simp only [prints, bind, Except.bind]
  · rcases (arg2str_eq entry.2).resolve_left long with ⟨stop, silent, dies⟩
    refine ⟨stop, silent, ?_⟩
    rw [checkRequired, finds, first]
    simp only [dies, bind, Except.bind]

end leftOut

/-! ## What the parse returns -/

section outcome

variable {Double : Type} {lib : ArgLib Double} {ap : ArgParser} {n : Nat} {defs : ArgDefs}
  {argv words rest : List CString} {store : Store} {given : List Given}

theorem OptionsPrintable.printable (prints : OptionsPrintable lib ap words)
    (reads : OptionWords lib ap words given rest) : forall g, g ∈ given -> g.desc.Printable := by
  induction reads with
  | none => exact fun _ member => absurd member List.not_mem_nil
  | @next w words left given id desc n option found takes later inductionHypothesis =>
      have goesOn : desc.type ≠ .endOptions := by
        intro ends
        simp only [taken, ends] at takes
        cases takes
      have first := (prints [] w words (.none _) option).2 id desc found goesOn
      refine List.forall_mem_cons.mpr ⟨first, inductionHypothesis fun given' w' rest' reads' => ?_⟩
      exact prints _ w' rest' (.next option found takes reads')

theorem OptionsPrintable.not_strays {w : CString} (prints : OptionsPrintable lib ap words)
    (reads : OptionWords lib ap words given (w :: rest)) (option : w.head? = some '-') :
    ¬ap.Strays w := by
  have clear := prints given w rest reads option
  rintro (overruns | ⟨id, desc, found, goesOn, unended⟩)
  · exact clear.1 overruns
  · exact unended.not_printable (clear.2 id desc found goesOn)

theorem OptionsPrintable.not_overrun (prints : OptionsPrintable lib ap words) :
    ¬OptionsOverrun lib ap words := by
  rintro ⟨given, w, rest, reads, option, -, strays⟩
  exact prints.not_strays reads option strays

theorem parseArguments_unique {result result' : Except Stop Store}
    (first : ParseArguments lib ap argv store result)
    (second : ParseArguments lib ap argv store result') : result = result' := by
  unfold ParseArguments at first second
  cases checked : checkArgParser ap <;> simp only [checked] at first second
  · exact first.trans second.symm
  · exact first.unique second

variable (table : MainTable ap n defs store)

include table

theorem MainTable.parses {result : Except Stop Store} :
    ParseArguments lib ap argv store result <->
      Returns (parsePass lib ap argv) (.options 0 (store.normalise ap)) result := by
  simp only [ParseArguments, table.checked]

/-- An option that is not found, or whose names cannot be joined, ends the parse in another way. -/
theorem parseArguments_impeded (impeded : ¬OptionsPrintable lib ap (argv.drop 1)) :
    exists stop, stop ≠ .argdie ∧ ParseArguments lib ap argv store (.error stop) := by
  simp only [OptionsPrintable, not_forall] at impeded
  rcases impeded with ⟨given, w, rest, reads, option, impeded⟩
  simp only [table.parses]
  rcases reads.outcome (i := 0) rfl (store.normalise ap) with
    ⟨-, i, there, continues⟩ | ⟨-, returns⟩ | ⟨-, returns⟩
  · simp only [continues.returns_iff]
    by_cases overruns : ap.Overruns w
    · exact ⟨.outOfBounds, by decide, .done (parsePass_overruns there option overruns _)⟩
    · simp only [not_and, not_forall] at impeded
      rcases impeded overruns with ⟨id, desc, found, goesOn, long⟩
      exact ⟨_, desc.unprinted_ne_argdie,
        .done (parsePass_long there option overruns found goesOn long _)⟩
  · exact ⟨.die, by decide, returns⟩
  · exact ⟨.outOfBounds, by decide, returns⟩

variable (prints : OptionsPrintable lib ap (argv.drop 1))

include prints

/-- Options that cannot be read end with a message. -/
theorem parseArguments_fails (noHelp : ¬HelpGiven lib ap (argv.drop 1))
    (reads : OptionWords lib ap (argv.drop 1) given rest) (fails : OptionsFail lib ap rest) :
    ParseArguments lib ap argv store (.error .argdie) := by
  rw [table.parses]
  rcases reads.outcome (i := 0) rfl (store.normalise ap) with
    ⟨-, i, there, continues⟩ | ⟨⟨g, member, long⟩, -⟩ | ⟨overrun, -⟩
  · rcases id fails with ⟨w, later, rfl, option, -⟩
    have clear : forall w', (w :: later).head? = some w' -> ¬ap.Strays w' := by
      intro w' same
      cases same
      exact prints.not_strays reads option
    rcases fails.returns there clear (given.foldl (Store.take lib) (store.normalise ap)) with
      ⟨stop, -, returns, message⟩
    rw [message ?_] at returns
    · exact continues.returns_iff.mpr returns
    · intro w' later' id desc same found goesOn
      cases same
      have takes := @Supported.taken_ne_none _ lib desc
        (table.supported id desc (List.mem_of_find?_eq_some found))
        (fun help => noHelp ⟨given, w, later, id, desc, reads, option, found, help⟩) goesOn
        later.head?
      rwa [assigned, if_pos ((prints given w later reads option).2 id desc found goesOn)]
  · exact absurd (prints.printable reads g member) long
  · exact absurd overrun prints.not_overrun

variable {ended : List DescId} {left : List CString}
  (part : OptionPart lib ap (argv.drop 1) given ended left)

include part

/-- The names of a descriptor that gets words, or of the first one, cannot be joined. -/
theorem parseArguments_long (long : ¬WordsPrintable defs left) :
    exists stop, stop ≠ .argdie ∧ ParseArguments lib ap argv store (.error stop) := by
  simp only [table.parses]
  rcases part.outcome rfl (store.normalise ap) with
    ⟨-, -, baseArg, there, continues⟩ | ⟨⟨g, member, long⟩, -⟩ | ⟨overrun, -⟩
  · simp only [continues.returns_iff]
    have pass := @parsePass_start _ lib ap argv n defs table.main baseArg
      (given.foldl (Store.take lib) (store.normalise ap))
    by_cases start : defs.start.Printable
    · rw [if_pos start] at pass
      simp only [returns_again_iff pass]
      refine positional_dies lib table there _ ?_
      by_contra neither
      rw [not_or] at neither
      refine long ⟨start, fun desc member => ?_, fun more desc first => ?_⟩
      · by_contra long
        exact neither.1 ⟨desc, member, long⟩
      · by_contra long
        exact neither.2 ⟨more, desc, first, long⟩
    · rw [if_neg start] at pass
      exact ⟨_, defs.start.unprinted_ne_argdie, .done pass⟩
  · rcases part with ⟨rest, reads, -⟩
    exact absurd (prints.printable reads g member) long
  · exact absurd overrun prints.not_overrun

/-- The end of the table and the last check decide what is returned. -/
theorem parseArguments_outcome (fit : WordsPrintable defs left) :
    (EndComplains defs left -> ParseArguments lib ap argv store (.error .argdie)) ∧
    (EndDies defs left -> exists stop, stop ≠ .argdie ∧
      ParseArguments lib ap argv store (.error stop)) ∧
    (¬EndComplains defs left -> ¬EndDies defs left ->
      ParseArguments lib ap argv store (checkRequired ap
        ((allGiven n defs given left).foldl (Store.take lib) (store.normalise ap)))) := by
  simp only [table.parses]
  rcases part.outcome rfl (store.normalise ap) with
    ⟨-, -, baseArg, there, continues⟩ | ⟨⟨g, member, long⟩, -⟩ | ⟨overrun, -⟩
  · have pass := @parsePass_start _ lib ap argv n defs table.main baseArg
      (given.foldl (Store.take lib) (store.normalise ap))
    rw [if_pos fit.1] at pass
    have outcome := @positional_outcome _ lib ap argv n defs baseArg store table left there
      (given.foldl (Store.take lib) (store.normalise ap)) fit.2.1 fit.2.2
    have all : (allGiven n defs [] left).foldl (Store.take lib)
        (given.foldl (Store.take lib) (store.normalise ap)) =
        (allGiven n defs given left).foldl (Store.take lib) (store.normalise ap) := by
      rw [← List.foldl_append, allGiven, allGiven, List.nil_append, List.append_assoc]
    rw [all] at outcome
    simpa only [continues.returns_iff, returns_again_iff pass] using outcome
  · rcases part with ⟨rest, reads, -⟩
    exact absurd (prints.printable reads g member) long
  · exact absurd overrun prints.not_overrun

end outcome

/-! ## The grammar -/

/-- The parse treats a command line as the grammar has it. -/
def Agrees {Double : Type} (lib : ArgLib Double) (ap : ArgParser) (n : Nat) (defs : ArgDefs)
    (argv : List CString) (store : Store) (given : List Given) (ended : List DescId)
    (left : List CString) : Prop :=
  (InGrammar lib ap defs store (argv.drop 1) given ended left ->
    ¬EndComplains defs left ∧ ¬EndDies defs left ∧ leftOut ap n defs store given left = [] ∧
      DestsAgree lib store.mem (allGiven n defs given left)) ∧
  (¬InGrammar lib ap defs store (argv.drop 1) given ended left ->
    EndComplains defs left ∨ leftOut ap n defs store given left ≠ [] ∧ ¬EndDies defs left)

section accepts

variable {Double : Type} {lib : ArgLib Double} {ap : ArgParser} {n : Nat} {defs : ArgDefs}
  {argv : List CString} {store : Store} (table : MainTable ap n defs store)

include table

/-- An option is in front of the positional descriptors of the main table, or in
another one. -/
theorem MainTable.entry_cases {id : DescId} {desc : ArgOption} (entry : (id, desc) ∈ ap.entries) :
    desc.IsOption ∧ (id.1 = n -> id.2 < defs.baseDestOffset) ∨
      ¬desc.IsOption ∧ exists k, id = (n, defs.baseDestOffset + k) ∧
        (defs.positionals ++ defs.rests)[k]? = some desc := by
  rcases mem_entries_iff.mp entry with ⟨node, there, entry⟩
  by_cases main : id.1 = n
  · rcases mainParser_getElem? table.main with ⟨node', there', same⟩
    rw [← main, there] at there'
    cases there'
    subst same
    rcases mainParser_ordered table.checked table.main with ⟨pre, ordered, base⟩
    rw [ordered.all, List.append_assoc] at entry
    by_cases before : id.2 < pre.length
    · rw [List.getElem?_append_left before] at entry
      exact Or.inl ⟨ordered.options desc (List.mem_of_getElem? entry), fun _ => by omega⟩
    · rw [List.getElem?_append_right (Nat.not_lt.mp before)] at entry
      refine Or.inr ⟨?_, id.2 - pre.length, Prod.ext main (by simp only; omega), entry⟩
      rcases List.mem_append.mp (List.mem_of_getElem? entry) with member | member
      · rintro (kind | kind) <;> rw [ordered.positionals desc member] at kind <;> cases kind
      · rintro (kind | kind) <;> rw [ordered.rests desc member] at kind <;> cases kind
  · have notMain : node.main = false :=
      Bool.eq_false_iff.mpr fun isMain => main (table.only id.1 node there isMain)
    rcases checkArgDef_ok table.checked (List.mem_of_getElem? there) with ⟨help, checked⟩
    rw [checkArgDef, notMain] at checked
    exact Or.inl ⟨checkArgDefFrom_options checked node.parser.args_kind desc
      (List.mem_of_getElem? entry), fun same => absurd same main⟩

/-- The positional descriptors and those for the rest are entries. -/
theorem MainTable.mem_entries {k : Nat} {desc : ArgOption}
    (entry : (defs.positionals ++ defs.rests)[k]? = some desc) :
    ((n, defs.baseDestOffset + k), desc) ∈ ap.entries := by
  rcases mainParser_getElem? table.main with ⟨node, there, rfl⟩
  refine mem_entries_iff.mpr ⟨node, there, ?_⟩
  rw [← List.getElem?_drop, ← Nat.add_zero node.parser.baseDestOffset, table.args_drop 0]
  exact entry

variable {given : List Given} {ended : List DescId} {left : List CString}
  (part : OptionPart lib ap (argv.drop 1) given ended left)

include part

omit table in
/-- Only options are named, and nothing else has their indices. -/
theorem not_given (options : forall g, g ∈ given -> g.desc.IsOption) {id : DescId}
    {desc : ArgOption} (entry : (id, desc) ∈ ap.entries) (other : ¬desc.IsOption) :
    id ∉ given.map Given.id := by
  intro named
  rcases List.mem_map.mp named with ⟨g, member, rfl⟩
  rcases part with ⟨rest, reads, -⟩
  rcases mem_entries_iff.mp (reads.given_mem member).1 with ⟨node, there, found⟩
  rcases mem_entries_iff.mp entry with ⟨node', there', found'⟩
  cases there.symm.trans there'
  cases found.symm.trans found'
  exact other (options g member)

/-- The first positional descriptor is left out. -/
theorem leftOut_ne_nil (options : forall g, g ∈ given -> g.desc.IsOption)
    (some : defs.positionals ≠ []) : leftOut ap n defs store given left ≠ [] := by
  rcases List.exists_cons_of_ne_nil some with ⟨desc, later, positionals⟩
  have first : (defs.positionals ++ defs.rests)[0]? = Option.some desc := by
    rw [positionals, List.cons_append, List.getElem?_cons_zero]
  have kind : desc.kind = .kindPositional := by
    have member : desc ∈ defs.positionals := by
      rw [positionals]
      exact List.mem_cons_self
    exact of_decide_eq_true (List.mem_filter.mp member).2
  have entry := table.mem_entries first
  have other : ¬desc.IsOption := by
    rintro (kind' | kind') <;> rw [kind] at kind' <;> cases kind'
  rcases mem_entries_iff.mp entry with ⟨node, there, found⟩
  rcases mainParser_getElem? table.main with ⟨node', there', rfl⟩
  cases there.symm.trans there'
  refine List.ne_nil_of_mem (mem_leftOut.mpr ⟨entry, table.required _ desc found kind,
    not_given part options entry other, ?_⟩)
  rintro ⟨k, -, same⟩
  have index := congrArg Prod.snd same
  dsimp only at index
  omega

/-- Without positional descriptors it is options that are left out, or descriptors for
the rest of the words. -/
theorem leftOut_eq_nil_iff (options : forall g, g ∈ given -> g.desc.IsOption)
    (none : defs.positionals = []) :
    leftOut ap n defs store given left = [] <-> RequiredAmong ap store (given.map Given.id) ∧
      forall k desc, defs.rests[k]? = some desc ->
        store.required (n, defs.baseDestOffset + k) ≠ 0 -> k = 1 ∧ left ≠ [] := by
  rw [List.eq_nil_iff_forall_not_mem]
  simp only [mem_leftOut, Prod.forall, served, none, List.length_nil, Nat.zero_add]
  constructor
  · intro nothing
    constructor
    · rintro ⟨m, j⟩ desc entry option required
      by_contra unnamed
      refine nothing m j desc ⟨entry, required, unnamed, ?_⟩
      rintro ⟨k, -, same⟩
      cases same
      rcases table.entry_cases entry with ⟨-, before⟩ | ⟨other, -⟩
      · have := before rfl
        dsimp only at this
        omega
      · exact other option
    · intro k desc rest required
      have entry := @MainTable.mem_entries ap n defs store table k desc
        (by rw [none, List.nil_append]; exact rest)
      have other : ¬desc.IsOption := by
        have kind := of_decide_eq_true (List.mem_filter.mp (List.mem_of_getElem? rest)).2
        rintro (kind' | kind') <;> rw [kind] at kind' <;> cases kind'
      by_contra unserved
      refine nothing n _ desc ⟨entry, required, not_given part options entry other, ?_⟩
      rintro ⟨k', less, same⟩
      have index := congrArg Prod.snd same
      dsimp only at index
      exact unserved ⟨by omega, List.length_pos_iff.mp (by omega)⟩
  · rintro ⟨named, marked⟩ m j desc ⟨entry, required, unnamed, unserved⟩
    rcases table.entry_cases entry with ⟨option, -⟩ | ⟨-, k, same, rest⟩
    · exact unnamed (named (m, j) desc entry option required)
    · rw [none, List.nil_append] at rest
      rw [same] at required
      rcases marked k desc rest required with ⟨rfl, some⟩
      have inside := (List.getElem?_eq_some_iff.mp rest).1
      have words := List.length_pos_iff.mpr some
      exact unserved ⟨0, by omega, same⟩

omit table in
/-- The mark of an option that is given is its own. -/
theorem given_marked : forall g, g ∈ given -> g.marked = g.id := by
  rcases part with ⟨rest, reads, -⟩
  exact fun g member => (reads.given_mem member).2

section fit

variable (prints : OptionsPrintable lib ap (argv.drop 1)) (fit : WordsPrintable defs left)

include prints fit

/-- The parse returns if no descriptor is left out. -/
theorem parseArguments_returns (silent : ¬EndComplains defs left) (lives : ¬EndDies defs left)
    (nothing : leftOut ap n defs store given left = []) :
    ParseArguments lib ap argv store
      (.ok ((allGiven n defs given left).foldl (Store.take lib) (store.normalise ap))) := by
  have done := (parseArguments_outcome table prints part fit).2.2 silent lives
  rwa [(checkRequired_allGiven (given_marked part)).1 nothing] at done

/-- The first descriptor that is left out is named in the message, if its names can
be joined. -/
theorem parseArguments_leftOut (silent : ¬EndComplains defs left) (lives : ¬EndDies defs left)
    {entry : DescId × ArgOption}
    (first : (leftOut ap n defs store given left).head? = some entry) :
    (arg2str entry.2 = .ok () -> ParseArguments lib ap argv store (.error .argdie)) ∧
      (arg2str entry.2 ≠ .ok () -> exists stop, stop ≠ .argdie ∧
        ParseArguments lib ap argv store (.error stop)) := by
  have done := (parseArguments_outcome table prints part fit).2.2 silent lives
  have check := (@checkRequired_allGiven _ lib ap n defs store left given
    (given_marked part)).2 entry first
  refine ⟨fun joined => ?_, fun long => ?_⟩
  · rwa [check.1 joined] at done
  · rcases check.2 long with ⟨stop, other, dies⟩
    rw [dies] at done
    exact ⟨stop, other, done⟩

/-- A message that cannot be made is not given. -/
theorem parseArguments_noMessage (long : ¬MessagePrintable ap n defs store given left) :
    exists stop, stop ≠ .argdie ∧ ParseArguments lib ap argv store (.error stop) := by
  simp only [MessagePrintable, not_or, not_forall] at long
  rcases long with ⟨silent, entry, first, long⟩
  by_cases ends : EndDies defs left
  · exact (parseArguments_outcome table prints part fit).2.1 ends
  · exact (parseArguments_leftOut table part prints fit silent ends first).2 long

/-- What the parse returns is compared with what the grammar says. -/
theorem acceptsGrammar_of_part (message : MessagePrintable ap n defs store given left) :
    AcceptsGrammar lib ap n defs argv store <->
      Agrees lib ap n defs argv store given ended left := by
  rcases parseArguments_outcome table prints part fit with ⟨complains, dies, -⟩
  have returns := @parseArguments_returns _ lib ap n defs argv store table given ended left part
    prints fit
  have rejects : ¬EndComplains defs left -> ¬EndDies defs left ->
      leftOut ap n defs store given left ≠ [] ->
      ParseArguments lib ap argv store (.error .argdie) := by
    intro silent lives some
    have first := List.head?_eq_some_head some
    exact (parseArguments_leftOut table part prints fit silent lives first).1
      (message.resolve_left silent _ first)
  have dests : DestsAgree lib store.mem (allGiven n defs given left) <->
      forall g, g ∈ allGiven n defs given left ->
        destOf g.desc
            ((allGiven n defs given left).foldl (Store.take lib) (store.normalise ap)).mem =
          destOf g.desc
            (convertedAll lib (ownOf (allGiven n defs given left) g.id) store.mem) := by
    rw [foldl_take_mem]
    exact Iff.rfl
  constructor
  · rintro ⟨accepts, notAccepts⟩
    refine ⟨fun inGrammar => ?_, fun notIn => ?_⟩
    · rcases accepts given ended left inGrammar with ⟨result, done, holds⟩
      have silent : ¬EndComplains defs left :=
        fun some => nomatch parseArguments_unique done (complains some)
      have lives : ¬EndDies defs left := by
        intro some
        rcases dies some with ⟨stop, -, ends⟩
        cases parseArguments_unique done ends
      have nothing : leftOut ap n defs store given left = [] := by
        by_contra some
        exact nomatch parseArguments_unique done (rejects silent lives some)
      cases parseArguments_unique done (returns silent lives nothing)
      exact ⟨silent, lives, nothing, dests.mpr holds⟩
    · have done := notAccepts fun given' ended' left' inGrammar' => by
        obtain ⟨rfl, rfl, rfl⟩ := part.unique inGrammar'.reads
        exact notIn inGrammar'
      by_contra neither
      rw [not_or] at neither
      have lives : ¬EndDies defs left := by
        intro some
        rcases dies some with ⟨stop, other, ends⟩
        exact other (Except.error.inj (parseArguments_unique done ends)).symm
      have nothing : leftOut ap n defs store given left = [] := by
        by_contra some
        exact neither.2 ⟨some, lives⟩
      exact nomatch parseArguments_unique done (returns neither.1 lives nothing)
  · rintro ⟨accepts, notAccepts⟩
    refine ⟨fun given' ended' left' inGrammar => ?_, fun notIn => ?_⟩
    · obtain ⟨rfl, rfl, rfl⟩ := part.unique inGrammar.reads
      rcases accepts inGrammar with ⟨silent, lives, nothing, agree⟩
      exact ⟨_, returns silent lives nothing, dests.mp agree⟩
    · rcases notAccepts (notIn given ended left) with complaint | ⟨some, lives⟩
      · exact complains complaint
      · by_cases complaint : EndComplains defs left
        · exact complains complaint
        · exact rejects complaint lives some

end fit

omit table part in
theorem EndComplains.not_endDies (complains : EndComplains defs left) : ¬EndDies defs left := by
  rintro ⟨-, type, -⟩
  rcases complains.2 with ⟨type', -⟩ | ⟨type', -⟩ <;> rw [type] at type' <;> cases type'

omit table in
theorem inGrammar_iff :
    InGrammar lib ap defs store (argv.drop 1) given ended left <->
      (forall g, g ∈ given -> g.desc.IsOption) ∧
        RequiredAmong ap store (given.map Given.id ++ ended) ∧
        (left.length = defs.positionals.length ∨
          defs.positionals.length < left.length ∧ defs.rests ≠ []) :=
  ⟨fun is => ⟨is.options, is.required, is.positionals⟩, fun is => ⟨part, is.1, is.2.1, is.2.2⟩⟩

omit table part in
theorem RequiredAmong.append (among : RequiredAmong ap store (given.map Given.id)) :
    RequiredAmong ap store (given.map Given.id ++ ended) :=
  fun id desc entry option required => List.mem_append_left _ (among id desc entry option required)

omit table part in
theorem agrees_of_not_inGrammar
    (notIn : ¬InGrammar lib ap defs store (argv.drop 1) given ended left) :
    Agrees lib ap n defs argv store given ended left <->
      EndComplains defs left ∨
        leftOut ap n defs store given left ≠ [] ∧ ¬EndDies defs left :=
  ⟨fun agrees => agrees.2 notIn, fun rejects => ⟨fun is => absurd is notIn, fun _ => rejects⟩⟩

section options

variable (options : forall g, g ∈ given -> g.desc.IsOption)

include options

theorem agrees_positionals (some : defs.positionals ≠ []) :
    Agrees lib ap n defs argv store given ended left <->
      (¬RequiredAmong ap store (given.map Given.id ++ ended) ∨
        left.length < defs.positionals.length ∨
        defs.rests = [] ∧ defs.positionals.length < left.length) ∧ ¬EndDies defs left := by
  have some' := leftOut_ne_nil table part options some
  constructor
  · rintro ⟨accepts, rejects⟩
    have notIn : ¬InGrammar lib ap defs store (argv.drop 1) given ended left :=
      fun is => some' (accepts is).2.2.1
    refine ⟨?_, (rejects notIn).elim EndComplains.not_endDies fun both => both.2⟩
    by_contra none
    simp only [not_or, not_not, not_and, Nat.not_lt] at none
    refine notIn ((inGrammar_iff part).mpr ⟨options, none.1, ?_⟩)
    rcases Nat.lt_or_eq_of_le none.2.1 with more | same
    · exact Or.inr ⟨more, fun rests => absurd more (Nat.not_lt.mpr (none.2.2 rests))⟩
    · exact Or.inl same.symm
  · rintro ⟨misses, lives⟩
    refine ⟨fun is => ?_, fun _ => Or.inr ⟨some', lives⟩⟩
    rcases misses with unnamed | short | ⟨rests, more⟩
    · exact absurd is.required unnamed
    · rcases is.positionals with same | ⟨more, -⟩ <;> omega
    · rcases is.positionals with same | ⟨-, some⟩
      · omega
      · exact absurd rests some

variable (none : defs.positionals = [])

include none

theorem agrees_rests (rests : defs.rests ≠ []) :
    Agrees lib ap n defs argv store given ended left <->
      ¬RequiredAmong ap store (given.map Given.id ++ ended) ∨
        RequiredAmong ap store (given.map Given.id) ∧
          (forall k desc, defs.rests[k]? = some desc ->
            store.required (n, defs.baseDestOffset + k) ≠ 0 -> k = 1 ∧ left ≠ []) ∧
          DestsAgree lib store.mem (allGiven n defs given left) := by
  have nothing := leftOut_eq_nil_iff table part options none
  have silent : ¬EndComplains defs left := fun complains => rests complains.1
  have lives : ¬EndDies defs left := fun dies => rests dies.1
  have count : left.length = defs.positionals.length ∨
      defs.positionals.length < left.length ∧ defs.rests ≠ [] := by
    rw [none, List.length_nil]
    exact (Nat.eq_zero_or_pos _).imp_right fun words => ⟨words, rests⟩
  constructor
  · rintro ⟨accepts, -⟩
    refine or_iff_not_imp_left.mpr fun among => ?_
    rcases accepts ((inGrammar_iff part).mpr ⟨options, not_not.mp among, count⟩) with
      ⟨-, -, empty, agree⟩
    rw [nothing] at empty
    exact ⟨empty.1, empty.2, agree⟩
  · intro cases
    refine ⟨fun is => ?_, fun notIn => Or.inr ⟨fun empty => ?_, lives⟩⟩
    · rcases cases.resolve_left (not_not.mpr is.required) with ⟨among, marked, agree⟩
      exact ⟨silent, lives, nothing.mpr ⟨among, marked⟩, agree⟩
    · exact notIn ((inGrammar_iff part).mpr ⟨options, (nothing.mp empty).1.append, count⟩)

variable (rests : defs.rests = [])

include rests

theorem leftOut_eq_nil_options :
    leftOut ap n defs store given left = [] <-> RequiredAmong ap store (given.map Given.id) := by
  refine (leftOut_eq_nil_iff table part options none).trans (and_iff_left fun k desc rest => ?_)
  rw [rests] at rest
  cases rest

theorem agrees_only (empty : left = []) :
    Agrees lib ap n defs argv store given ended left <->
      ¬RequiredAmong ap store (given.map Given.id ++ ended) ∨
        RequiredAmong ap store (given.map Given.id) ∧ defs.last.type ≠ .character ∧
          DestsAgree lib store.mem (allGiven n defs given left) := by
  have nothing := leftOut_eq_nil_options table part options none rests
  have complains : EndComplains defs left <-> defs.last.type = .character := by
    simp [EndComplains, rests, none, empty]
  have lives : ¬EndDies defs left := by simp [EndDies, none, empty]
  have count : left.length = defs.positionals.length := by rw [none, empty]; rfl
  constructor
  · rintro ⟨accepts, -⟩
    refine or_iff_not_imp_left.mpr fun among => ?_
    rcases accepts ((inGrammar_iff part).mpr ⟨options, not_not.mp among, Or.inl count⟩) with
      ⟨silent, -, unneeded, agree⟩
    exact ⟨nothing.mp unneeded, fun type => silent (complains.mpr type), agree⟩
  · intro cases
    refine ⟨fun is => ?_, fun notIn => Or.inr ⟨fun unneeded => ?_, lives⟩⟩
    · rcases cases.resolve_left (not_not.mpr is.required) with ⟨among, type, agree⟩
      exact ⟨fun some => type (complains.mp some), lives, nothing.mpr among, agree⟩
    · exact notIn ((inGrammar_iff part).mpr
        ⟨options, (nothing.mp unneeded).append, Or.inl count⟩)

theorem agrees_words (words : left ≠ []) :
    Agrees lib ap n defs argv store given ended left <->
      defs.last.type = .character ∨ defs.last.type = .boolean ∨
        defs.last.type ≠ .rest ∧ ¬RequiredAmong ap store (given.map Given.id) := by
  have some := List.length_pos_iff.mpr words
  have complains : EndComplains defs left <->
      defs.last.type = .character ∨ defs.last.type = .boolean := by
    simp [EndComplains, rests, none, some]
  have dies : EndDies defs left <-> defs.last.type = .rest := by
    simp [EndDies, rests, none, some]
  have notIn : ¬InGrammar lib ap defs store (argv.drop 1) given ended left := by
    intro is
    rcases is.positionals with all | ⟨-, some'⟩
    · rw [none, List.length_nil] at all
      omega
    · exact some' rests
  rw [agrees_of_not_inGrammar notIn, complains, dies, ne_eq,
    leftOut_eq_nil_options table part options none rests, or_assoc, and_comm, ne_eq]

end options

/-- The comparison, case by case. -/
theorem agrees_iff :
    Agrees lib ap n defs argv store given ended left <->
      TreatedAsSaid lib ap n defs store given ended left := by
  unfold TreatedAsSaid
  split
  · next other =>
      rcases other with ⟨g, member, other⟩
      exact agrees_of_not_inGrammar fun is => other (is.options g member)
  · next options =>
      simp only [not_exists, not_and, not_not] at options
      split
      · next some => exact agrees_positionals table part options some
      · next none =>
          rw [not_not] at none
          split
          · next some => exact agrees_rests table part options none some
          · next rests =>
              rw [not_not] at rests
              split
              · next empty => exact agrees_only table part options none rests empty
              · next words => exact agrees_words table part options none rests words

omit part in
omit table in
/-- The grammar decides between the return and the message, and nothing else happens. -/
theorem AcceptsGrammar.no_other (accepts : AcceptsGrammar lib ap n defs argv store) {stop : Stop}
    (done : ParseArguments lib ap argv store (.error stop)) : stop = .argdie := by
  by_cases some : exists given ended left,
      InGrammar lib ap defs store (argv.drop 1) given ended left
  · rcases some with ⟨given, ended, left, inGrammar⟩
    rcases accepts.1 given ended left inGrammar with ⟨result, returns, -⟩
    exact nomatch parseArguments_unique done returns
  · have message := accepts.2 fun given ended left inGrammar =>
      some ⟨given, ended, left, inGrammar⟩
    exact Except.error.inj (parseArguments_unique done message)

end accepts

/-! ## A table with one option, and one with one positional descriptor -/

section tables

def verboseOption : ArgOption where
  kind := .kindOption
  type := .increment
  argsBegin := ["-v".toList]
  dest := 0
  destSz := 4
  isUnsigned := false
  four := by decide

def verboseDefs : ArgDefs where
  args := [helpOption, verboseOption]
  last := endOption
  args_kind := by decide
  last_kind := endOption_kind

def verboseParser : ArgParser :=
  ⟨[⟨true, verboseDefs⟩]⟩

theorem verboseParser_table : MainTable verboseParser 0 verboseDefs emptyStore where
  checked := rfl
  main := rfl
  only := by
    rintro (_ | m) node there -
    · rfl
    · cases there
  supported := by
    intro id desc member
    have listed : verboseParser.entries = [((0, 0), helpOption), ((0, 1), verboseOption)] := rfl
    rw [listed] at member
    rcases List.mem_pair.mp member with same | same <;> cases same
    · simp [ArgOption.Supported, helpOption]
    · simp [ArgOption.Supported, verboseOption]
  required := by
    intro j desc entry kind
    have member := List.mem_of_getElem? entry
    rcases List.mem_pair.mp member with rfl | rfl <;> cases kind

theorem named_verbose : verboseParser.named "-v".toList = some ((0, 1), verboseOption) := rfl

/-- The only option that the loop comes to. -/
theorem optionWords_verbose {given : List Given} {w : CString} {rest : List CString}
    (reads : OptionWords noNumbers verboseParser ["-v".toList] given (w :: rest)) :
    w = "-v".toList := by
  cases reads with
  | none => rfl
  | next _ found takes later =>
      cases named_verbose.symm.trans found
      cases takes
      cases later

theorem optionsPrintable_verbose : OptionsPrintable noNumbers verboseParser ["-v".toList] := by
  intro given w rest reads option
  cases optionWords_verbose reads
  constructor
  · rintro ⟨entry, found, other⟩
    cases found
    exact other (by decide)
  · intro id desc found goesOn
    cases named_verbose.symm.trans found
    decide

/-- The positional descriptor is required. -/
def requiredStore : Store where
  required id := if id = (0, 1) then 1 else 0
  mem _ := 0

theorem positionalParser_entries :
    (positionalParser .string).entries =
      [((0, 0), helpOption), ((0, 1), positionalOption .string)] := rfl

theorem positionalParser_table : MainTable (positionalParser .string) 0 (positionalDefs .string)
    requiredStore where
  checked := rfl
  main := rfl
  only := by
    rintro (_ | m) node there -
    · rfl
    · cases there
  supported := by
    intro id desc member
    rw [positionalParser_entries] at member
    rcases List.mem_pair.mp member with same | same <;> cases same
    · simp [ArgOption.Supported, helpOption]
    · simp [ArgOption.Supported, positionalOption]
  required := by
    intro j desc entry kind
    rcases j with _ | _ | j
    · cases entry
      cases kind
    · decide
    · cases entry

end tables

end Util
end Autolock
