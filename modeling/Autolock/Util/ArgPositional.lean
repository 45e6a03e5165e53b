import Autolock.Util.ArgGrammar

namespace Autolock
namespace Util

open Data

/-!
# What follows the options of a command line

In a table that supports its types the loop for the positional arguments gives
every descriptor one word, unless names that do not fit end the program.  It ends
at a positional descriptor without a word, at one for the rest of the words, or at
the end of the table, whose type is compared with the kinds.
-/

/-! ## The positional arguments -/

section positional

variable {Double : Type} {lib : ArgLib Double} {ap : ArgParser} {argv : List CString}
  {n : Nat} {defs : ArgDefs} {baseArg : Nat}

theorem desc_of_drop {j : Nat} {desc : ArgOption} {later : List ArgOption}
    (there : defs.args.drop j = desc :: later) : defs.desc j = .ok desc :=
  desc_of_args (by rw [← List.head?_drop, there, List.head?_cons])

theorem desc_at_end {j : Nat} (atEnd : j = defs.args.length) : defs.desc j = .ok defs.last := by
  rw [ArgDefs.desc, if_pos (by omega), Int.toNat_natCast, List.getD_eq_getElem?_getD,
    List.getElem?_eq_none (Nat.le_of_eq atEnd.symm)]
  rfl

/-- The next word is assigned to the descriptor, and there is an entry behind it. -/
theorem assignArg_next {k : Nat} {desc : ArgOption} {later : List ArgOption} {word : CString}
    {words : List CString} (entry : defs.args.drop (defs.baseDestOffset + k) = desc :: later)
    (next : argv.drop (baseArg + k + 1) = word :: words)
    (takes : assigned lib desc (some word) = some 1) (mem : ByteMemory) :
    assignArg lib desc mem argv (baseArg + k) 0 =
        .ok ((1 : Nat), converted lib desc (word :: words) mem) ∧
      exists after, defs.desc (defs.baseDestOffset + (k + (1 : Nat))) = .ok after := by
  rcases drop_succ_of_drop next with ⟨-, inside⟩
  have assigns := @assignArg_of_assigned _ lib desc argv (baseArg + k) 0 (baseArg + k + 1) (by omega)
    (by omega) mem 1 (by rw [next]; exact takes)
  rw [next] at assigns
  have before : defs.baseDestOffset + k < defs.args.length := by
    by_contra outside
    rw [List.drop_eq_nil_of_le (Nat.not_lt.mp outside)] at entry
    cases entry
  exact ⟨assigns, desc_inside (by omega) (by omega)⟩

theorem toNat_index_succ (k : Nat) :
    ((defs.baseDestOffset : Int) + (k + (1 : Nat))).toNat = defs.baseDestOffset + k + 1 := by
  omega

/-- One word for one descriptor. -/
theorem processPositional_one {k : Nat} {desc : ArgOption} {later : List ArgOption} {word : CString}
    {words : List CString} (entry : defs.args.drop (defs.baseDestOffset + k) = desc :: later)
    (next : argv.drop (baseArg + k + 1) = word :: words)
    (takes : assigned lib desc (some word) = some 1) (store : Store) :
    processPositional lib argv n defs desc baseArg k store =
      .ok (.positional baseArg (k + 1 : Nat) (store.take lib
        ⟨(n, defs.baseDestOffset + k), desc, word :: words, (n, defs.baseDestOffset + k + 1)⟩)) := by
  rcases assignArg_next entry next takes store.mem with ⟨assigns, after, found⟩
  simp only [processPositional, assigns, found, toNat_index_succ, bind, Except.bind]
  rfl

/-- A positional descriptor that takes one word of any kind. -/
structure TakesOne (lib : ArgLib Double) (desc : ArgOption) : Prop where
  kind : desc.kind = .kindPositional
  one : forall word, taken lib desc (some word) = some 1

section loop

variable {pos later : List ArgOption} {left : List CString} {k : Nat}

/-- One word is passed, with one descriptor. -/
theorem parsePass_one (main : ap.mainParser = some (n, defs)) {desc : ArgOption} {word : CString}
    {words : List CString} (entry : defs.args.drop (defs.baseDestOffset + k) = desc :: later)
    (there : argv.drop (baseArg + k + 1) = word :: words) (takes : TakesOne lib desc)
    (store : Store) :
    parsePass lib ap argv (.positional baseArg k store) =
      if desc.Printable then
        .again (.positional baseArg (k + 1 : Nat) (store.take lib
          ⟨(n, defs.baseDestOffset + k), desc, word :: words, (n, defs.baseDestOffset + k + 1)⟩))
      else .done (.error desc.unprinted) := by
  rcases drop_succ_of_drop there with ⟨-, inside⟩
  have found := desc_of_drop entry
  rw [Int.natCast_add] at found
  simp only [parsePass, main, found]
  rw [if_pos ⟨takes.kind, by omega⟩]
  split
  · next printable =>
      rw [processPositional_one entry there (assigned_eq_some.mpr ⟨printable, takes.one word⟩) store]
      rfl
  · next long =>
      rw [processPositional, assignArg_eq, if_neg long]
      rfl

/-- The loop goes on as long as there are positional descriptors and words. -/
theorem positional_continues (main : ap.mainParser = some (n, defs))
    (entries : defs.args.drop (defs.baseDestOffset + k) = pos ++ later)
    (there : argv.drop (baseArg + k + 1) = left)
    (takes : forall desc, desc ∈ pos -> TakesOne lib desc)
    (printable : forall desc, desc ∈ pos.take left.length -> desc.Printable)
    (store : Store) :
    Continues (parsePass lib ap argv) (.positional baseArg k store)
      (.positional baseArg (k + min pos.length left.length : Nat)
        ((positionalGiven n (defs.baseDestOffset + k) pos left).foldl (Store.take lib) store)) := by
  induction pos generalizing left k store with
  | nil =>
      simp only [List.length_nil, Nat.zero_min, Nat.add_zero, positionalGiven, List.foldl_nil]
      exact .refl _
  | cons desc pos inductionHypothesis =>
      cases left with
      | nil =>
          simp only [List.length_nil, Nat.min_zero, Nat.add_zero, positionalGiven, List.foldl_nil]
          exact .refl _
      | cons word words =>
          rw [List.forall_mem_cons] at takes
          rw [List.length_cons, List.take_succ_cons, List.forall_mem_cons] at printable
          rw [List.cons_append] at entries
          have pass := parsePass_one main entries there takes.1 store
          rw [if_pos printable.1] at pass
          have entries' : defs.args.drop (defs.baseDestOffset + (k + 1)) = pos ++ later := by
            rw [← Nat.add_assoc, ← List.drop_drop, entries, List.drop_one, List.tail_cons]
          have rest := inductionHypothesis (k := k + 1) entries' (drop_succ_of_drop there).1 takes.2
            printable.2 (store.take lib
              ⟨(n, defs.baseDestOffset + k), desc, word :: words, (n, defs.baseDestOffset + k + 1)⟩)
          have count : k + min (desc :: pos).length (word :: words).length =
              k + 1 + min pos.length words.length := by
            simp only [List.length_cons]
            omega
          rw [count]
          exact .again pass rest

/-- It ends the program at the first descriptor with names that cannot be joined. -/
theorem positional_long (main : ap.mainParser = some (n, defs))
    (entries : defs.args.drop (defs.baseDestOffset + k) = pos ++ later)
    (there : argv.drop (baseArg + k + 1) = left)
    (takes : forall desc, desc ∈ pos -> TakesOne lib desc)
    (long : exists desc, desc ∈ pos.take left.length ∧ ¬desc.Printable) (store : Store) :
    exists stop, stop ≠ .argdie ∧
      Returns (parsePass lib ap argv) (.positional baseArg k store) (.error stop) := by
  induction pos generalizing left k store with
  | nil =>
      rcases long with ⟨desc, member, -⟩
      simp at member
  | cons desc pos inductionHypothesis =>
      cases left with
      | nil =>
          rcases long with ⟨desc, member, -⟩
          simp at member
      | cons word words =>
          rw [List.forall_mem_cons] at takes
          rw [List.cons_append] at entries
          have pass := parsePass_one main entries there takes.1 store
          by_cases printable : desc.Printable
          · rw [if_pos printable] at pass
            have entries' : defs.args.drop (defs.baseDestOffset + (k + 1)) = pos ++ later := by
              rw [← Nat.add_assoc, ← List.drop_drop, entries, List.drop_one, List.tail_cons]
            rcases long with ⟨desc', member, long⟩
            rw [List.length_cons, List.take_succ_cons] at member
            rcases List.mem_cons.mp member with rfl | member
            · exact absurd printable long
            · rcases inductionHypothesis (k := k + 1) entries' (drop_succ_of_drop there).1 takes.2
                ⟨desc', member, long⟩ (store.take lib
                  ⟨(n, defs.baseDestOffset + k), desc, word :: words, (n, defs.baseDestOffset + k + 1)⟩)
                with ⟨stop, silent, returns⟩
              exact ⟨stop, silent, .again pass returns⟩
          · rw [if_neg printable] at pass
            exact ⟨_, desc.unprinted_ne_argdie, .done pass⟩

end loop

theorem MainTable.supported_mem {store : Store} (table : MainTable ap n defs store)
    {desc : ArgOption} (member : desc ∈ defs.args) : desc.Supported := by
  rcases mainParser_getElem? table.main with ⟨node, there, rfl⟩
  rcases List.getElem?_of_mem member with ⟨j, entry⟩
  exact table.supported (n, j) desc (mem_entries_iff.mpr ⟨node, there, entry⟩)

/-- The table from its first positional descriptor on. -/
theorem MainTable.args_drop {store : Store} (table : MainTable ap n defs store) (m : Nat) :
    defs.args.drop (defs.baseDestOffset + m) = (defs.positionals ++ defs.rests).drop m := by
  rcases mainParser_ordered table.checked table.main with ⟨pre, ordered, base⟩
  rw [base, ordered.all, List.append_assoc, ← List.drop_drop, List.drop_left]

theorem MainTable.takesOne {store : Store} (table : MainTable ap n defs store)
    (lib : ArgLib Double) {desc : ArgOption} (member : desc ∈ defs.positionals) :
    TakesOne lib desc := by
  rcases List.mem_filter.mp member with ⟨inTable, kind⟩
  replace kind := of_decide_eq_true kind
  have supported := table.supported_mem inTable
  exact ⟨kind, Supported.taken_positional supported kind⟩

/-- The loop ends at a descriptor that is not positional, or behind the last word. -/
theorem positional_finish {store : Store} (table : MainTable ap n defs store)
    {left : List CString} (there : argv.drop (baseArg + 1) = left)
    (printable : forall desc, desc ∈ defs.positionals.take left.length -> desc.Printable)
    (before : Store) {desc : ArgOption}
    (entry : defs.desc
      (defs.baseDestOffset + (min defs.positionals.length left.length : Nat)) = .ok desc)
    (short : desc.kind = .kindPositional -> left.length < defs.positionals.length) :
    Returns (parsePass lib ap argv) (.positional baseArg 0 before)
      (finish lib ap argv n defs desc baseArg (min defs.positionals.length left.length : Nat)
        ((positionalGiven n defs.baseDestOffset defs.positionals left).foldl (Store.take lib)
          before)) := by
  have reach := @positional_continues _ lib ap argv n defs baseArg _ _ left 0 table.main
    (table.args_drop 0) there (fun _ => table.takesOne lib) printable before
  rw [Nat.zero_add] at reach
  have length := congrArg List.length there
  rw [List.length_drop] at length
  refine reach.returns_iff.mpr (.done (parsePass_finish table.main entry ?_ _))
  rintro ⟨kind, more⟩
  have := short kind
  omega

/-! ## What follows the positional arguments -/

theorem finish_checks {j : Int} {desc : ArgOption} (noCharacter : desc.type ≠ .character)
    (noBoolean : ¬(desc.type = .boolean ∧ baseArg + j + 1 < argv.length))
    (noRest : ¬(desc.type = .rest ∧ baseArg + j + 1 < argv.length)) (store : Store) :
    finish lib ap argv n defs desc baseArg j store = checkRequired ap store := by
  rw [finish_eq, if_neg noCharacter, if_neg noBoolean, if_neg noRest]

/-- The descriptor for the rest is assigned all words that are left. -/
theorem finish_rest {k : Nat} {desc : ArgOption} {later : List ArgOption} {word : CString}
    {words : List CString} (entry : defs.args.drop (defs.baseDestOffset + k) = desc :: later)
    (next : argv.drop (baseArg + k + 1) = word :: words) (type : desc.type = .rest)
    (kind : desc.kind = .kindRest) (printable : desc.Printable) (store : Store) :
    finish lib ap argv n defs desc baseArg k store =
      checkRequired ap (store.take lib
        ⟨(n, defs.baseDestOffset + k), desc, word :: words, (n, defs.baseDestOffset + k + 1)⟩) := by
  rcases drop_succ_of_drop next with ⟨-, inside⟩
  have takes : taken lib desc (some word) = some 1 := by simp only [taken, type, kind, if_true]
  rcases assignArg_next entry next (assigned_eq_some.mpr ⟨printable, takes⟩)
    store.mem with ⟨assigns, after, found⟩
  rw [finish_eq, if_neg (by rw [type]; decide),
    if_neg (by rw [type]; exact fun both => absurd both.1 (by decide)), if_pos ⟨type, by omega⟩]
  simp only [assigns, found, toNat_index_succ, bind, Except.bind]
  rfl

/-- The names of the descriptor cannot be joined, or it is for something else. -/
theorem finish_dies {k : Nat} {desc : ArgOption} (more : baseArg + k + 1 < argv.length)
    (type : desc.type = .rest) (dies : ¬desc.Printable ∨ desc.kind ≠ .kindRest)
    (store : Store) :
    exists stop, stop ≠ .argdie ∧
      finish lib ap argv n defs desc baseArg k store = .error stop := by
  have access := @argAt_drop argv (baseArg + k + 0) (baseArg + k + 1) (by omega) (by omega)
  rw [List.head?_drop, List.getElem?_eq_getElem more] at access
  rw [finish_eq, if_neg (by rw [type]; decide),
    if_neg (by rw [type]; exact fun both => absurd both.1 (by decide)), if_pos ⟨type, by omega⟩,
    assignArg_eq]
  by_cases printable : desc.Printable
  · have kind := dies.resolve_left (not_not.mpr printable)
    refine ⟨.die, by decide, ?_⟩
    rw [if_pos printable]
    simp only [assignValue, type, access, if_neg kind, bind, Except.bind]
  · refine ⟨_, desc.unprinted_ne_argdie, ?_⟩
    rw [if_neg printable]
    rfl

section outcome

variable {store : Store} (table : MainTable ap n defs store) {left : List CString}
  (there : argv.drop (baseArg + 1) = left) (before : Store)

include table there

variable (lib) in
/-- The names of a descriptor that gets words cannot be joined. -/
theorem positional_dies
    (long : (exists desc, desc ∈ defs.positionals.take left.length ∧ ¬desc.Printable) ∨
      defs.positionals.length < left.length ∧
        exists desc, defs.rests.head? = some desc ∧ ¬desc.Printable) :
    exists stop, stop ≠ .argdie ∧
      Returns (parsePass lib ap argv) (.positional baseArg 0 before) (.error stop) := by
  by_cases pos : exists desc, desc ∈ defs.positionals.take left.length ∧ ¬desc.Printable
  · exact @positional_long _ lib ap argv n defs baseArg _ _ left 0 table.main (table.args_drop 0)
      there (fun _ => table.takesOne lib) pos before
  · rcases long.resolve_left pos with ⟨more, desc, first, long⟩
    simp only [not_exists, not_and, not_not] at pos
    rcases List.head?_eq_some_iff.mp first with ⟨later, rests⟩
    have member : desc ∈ defs.rests := by
      rw [rests]
      exact List.mem_cons_self
    have kind := of_decide_eq_true (List.mem_filter.mp member).2
    have type := table.supported_mem (List.mem_filter.mp member).1
    simp only [ArgOption.Supported, kind] at type
    have entry : defs.args.drop (defs.baseDestOffset + defs.positionals.length) = desc :: later := by
      rw [table.args_drop, List.drop_left, rests]
    have returns := @positional_finish _ lib ap argv n defs baseArg store table left there pos before
      desc (by rw [Nat.min_eq_left (Nat.le_of_lt more)]; exact desc_of_drop entry)
      (fun positional => by rw [kind] at positional; cases positional)
    have length := congrArg List.length there
    rw [List.length_drop] at length
    rw [Nat.min_eq_left (Nat.le_of_lt more)] at returns
    rcases @finish_dies _ lib ap argv n defs baseArg defs.positionals.length desc (by omega) type
      (Or.inl long)
      ((positionalGiven n defs.baseDestOffset defs.positionals left).foldl (Store.take lib) before)
      with ⟨stop, silent, ends⟩
    rw [ends] at returns
    exact ⟨stop, silent, returns⟩

variable (printable : forall desc, desc ∈ defs.positionals.take left.length -> desc.Printable)

include printable

/-- There is no word for a positional descriptor. -/
theorem positional_short (short : left.length < defs.positionals.length) :
    Returns (parsePass lib ap argv) (.positional baseArg 0 before)
      (checkRequired ap ((allGiven n defs [] left).foldl (Store.take lib) before)) := by
  have next : (defs.positionals ++ defs.rests).drop (min defs.positionals.length left.length) =
      defs.positionals[left.length] :: (defs.positionals ++ defs.rests).drop (left.length + 1) := by
    rw [Nat.min_eq_right (Nat.le_of_lt short), List.drop_append_of_le_length (Nat.le_of_lt short),
      List.drop_eq_getElem_cons short, List.drop_append_of_le_length short, List.cons_append]
  have returns := @positional_finish _ lib ap argv n defs baseArg store table left there printable
    before _ (desc_of_drop ((table.args_drop _).trans next)) fun _ => short
  rcases List.mem_filter.mp (List.getElem_mem short) with ⟨inTable, kind⟩
  have types := Supported.type_positional (table.supported_mem inTable) (of_decide_eq_true kind)
  have none : left.drop defs.positionals.length = [] := List.drop_eq_nil_of_le (Nat.le_of_lt short)
  rw [finish_checks types.1 (fun both => types.2.1 both.1) (fun both => types.2.2 both.1)] at returns
  rw [allGiven, none, restGiven_nil, List.nil_append, List.append_nil]
  exact returns

/-- There is a descriptor for the words that are left. -/
theorem positional_rest (enough : defs.positionals.length ≤ left.length) {desc : ArgOption}
    {later : List ArgOption} (rests : defs.rests = desc :: later)
    (printable' : defs.positionals.length < left.length -> desc.Printable) :
    Returns (parsePass lib ap argv) (.positional baseArg 0 before)
      (checkRequired ap ((allGiven n defs [] left).foldl (Store.take lib) before)) := by
  have member : desc ∈ defs.rests := by
    rw [rests]
    exact List.mem_cons_self
  rcases List.mem_filter.mp member with ⟨inTable, kind⟩
  replace kind := of_decide_eq_true kind
  have type := table.supported_mem inTable
  simp only [ArgOption.Supported, kind] at type
  have entry : defs.args.drop (defs.baseDestOffset + defs.positionals.length) = desc :: later := by
    rw [table.args_drop, List.drop_left, rests]
  have returns := @positional_finish _ lib ap argv n defs baseArg store table left there printable
    before desc (by rw [Nat.min_eq_left enough]; exact desc_of_drop entry)
    (fun positional => by rw [kind] at positional; cases positional)
  rw [Nat.min_eq_left enough] at returns
  have next : argv.drop (baseArg + defs.positionals.length + 1) =
      left.drop defs.positionals.length := by
    rw [← there, List.drop_drop]
    congr 1
    omega
  cases words : left.drop defs.positionals.length with
  | nil =>
      have same := List.drop_eq_nil_iff.mp (next.trans words)
      rw [finish_checks (by rw [type]; decide) (by rw [type]; exact fun both => absurd both.1 (by decide))
        (fun both => by have := both.2; omega)] at returns
      rw [allGiven, words, restGiven_nil, List.nil_append, List.append_nil]
      exact returns
  | cons word words' =>
      have more : defs.positionals.length < left.length := by
        by_contra all
        rw [List.drop_eq_nil_of_le (Nat.not_lt.mp all)] at words
        cases words
      rw [finish_rest entry (next.trans words) type kind (printable' more)] at returns
      rw [allGiven, words, rests, List.nil_append, List.foldl_append]
      exact returns

variable (lib) in
/-- The table ends behind its positional descriptors. -/
theorem positional_end (enough : defs.positionals.length ≤ left.length) (rests : defs.rests = []) :
    Returns (parsePass lib ap argv) (.positional baseArg 0 before)
      (finish lib ap argv n defs defs.last baseArg defs.positionals.length
        ((allGiven n defs [] left).foldl (Store.take lib) before)) := by
  rcases mainParser_ordered table.checked table.main with ⟨pre, ordered, base⟩
  have all := congrArg List.length ordered.all
  rw [rests, List.append_nil, List.length_append] at all
  have returns := @positional_finish _ lib ap argv n defs baseArg store table left there printable
    before defs.last (desc_at_end (by omega))
    (fun positional => by rw [defs.last_kind] at positional; cases positional)
  have none : restGiven n (defs.baseDestOffset + defs.positionals.length) []
      (left.drop defs.positionals.length) = [] := rfl
  rw [Nat.min_eq_left enough] at returns
  rw [allGiven, rests, none, List.nil_append, List.append_nil]
  exact returns

/-- What the parse returns after its options. -/
theorem positional_outcome (printable' : defs.positionals.length < left.length ->
      forall desc, defs.rests.head? = some desc -> desc.Printable) :
    (EndComplains defs left ->
      Returns (parsePass lib ap argv) (.positional baseArg 0 before) (.error .argdie)) ∧
    (EndDies defs left -> exists stop, stop ≠ .argdie ∧
      Returns (parsePass lib ap argv) (.positional baseArg 0 before) (.error stop)) ∧
    (¬EndComplains defs left -> ¬EndDies defs left ->
      Returns (parsePass lib ap argv) (.positional baseArg 0 before)
        (checkRequired ap ((allGiven n defs [] left).foldl (Store.take lib) before))) := by
  have length := congrArg List.length there
  rw [List.length_drop] at length
  refine ⟨?_, ?_, fun silent lives => ?_⟩
  · rintro ⟨rests, ⟨type, enough⟩ | ⟨type, more⟩⟩
    · have returns := positional_end lib table there before printable enough rests
      rwa [finish_eq, if_pos type] at returns
    · have returns := positional_end lib table there before printable (Nat.le_of_lt more) rests
      rwa [finish_eq, if_neg (by rw [type]; decide), if_pos ⟨type, by omega⟩] at returns
  · rintro ⟨rests, type, more⟩
    have returns := positional_end lib table there before printable (Nat.le_of_lt more) rests
    rcases @finish_dies _ lib ap argv n defs baseArg defs.positionals.length defs.last (by omega) type
      (Or.inr (by rw [defs.last_kind]; decide))
      ((allGiven n defs [] left).foldl (Store.take lib) before) with ⟨stop, silent, ends⟩
    rw [ends] at returns
    exact ⟨stop, silent, returns⟩
  · by_cases short : left.length < defs.positionals.length
    · exact positional_short table there before printable short
    · have enough := Nat.not_lt.mp short
      cases rests : defs.rests with
      | cons desc later =>
          exact positional_rest table there before printable enough rests fun more =>
            printable' more desc (by rw [rests, List.head?_cons])
      | nil =>
          have returns := positional_end lib table there before printable enough rests
          rwa [finish_checks (fun type => silent ⟨rests, Or.inl ⟨type, enough⟩⟩)
            (fun both => silent ⟨rests, Or.inr ⟨both.1, by omega⟩⟩)
            (fun both => lives ⟨rests, both.1, by omega⟩)] at returns

end outcome

end positional

end Util
end Autolock
