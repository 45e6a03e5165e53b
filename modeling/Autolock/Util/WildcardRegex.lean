import Autolock.Data.BasicRegex
import Autolock.Util.WildcardMatcher
import Mathlib.Data.List.Forall2

namespace Autolock
namespace Util

open Data
open Data.RegexItem Data.RegexLibrary

/-!
# What the regular expression for a pattern matches

The characters of a pattern are copied into the expression as they are.  Those
that are special in the middle of a basic regular expression, `.`, `[` and `\`,
do not stand for themselves there.
-/

namespace FuncDecl

/-- A `*` stands for anything, and every other character for itself, up to its case. -/
inductive GlobMatches : CString -> CString -> Prop
  | nil : GlobMatches [] []
  | wildcard {pattern name : CString} (skipped : CString) (rest : GlobMatches pattern name) :
      GlobMatches ('*' :: pattern) (skipped ++ name)
  | char {c d : Char} {pattern name : CString} (plain : c ≠ '*') (same : sameLetter c d = true)
      (rest : GlobMatches pattern name) : GlobMatches (c :: pattern) (d :: name)

/-- The text fits into the buffer, and matches what the pattern does. -/
def AsIntended (library : RegexLibrary) (pattern : CString) : Prop :=
  exists text, BuildsPattern pattern (text ++ ['\x00'], matchAnyOf pattern) ∧
    (text ++ ['\x00']).length ≤ pattern.length * 2 + 3 ∧
    exists isMatch, library.regcomp text = some isMatch ∧
      forall name, isMatch name = true <-> GlobMatches pattern name

/-- Nothing in the pattern is special in the expression. -/
def Plain (pattern : CString) : Prop :=
  '.' ∉ pattern ∧ '[' ∉ pattern ∧ '\\' ∉ pattern

/-- What follows the anchor in the text for a pattern. -/
def body (pattern : CString) : CString :=
  translate pattern ++ ['$']

/-- The expression has neither groups, intervals, back-references nor escapes without meaning. -/
def Specified (library : RegexLibrary) (pattern : CString) : Prop :=
  library.parse (body pattern) ≠ .unspecified

/-! ## The pattern itself -/

/-- The shortest name that a pattern matches. -/
def literal (pattern : CString) : CString :=
  pattern.filter (· ≠ '*')

theorem globMatches_literal (pattern : CString) : GlobMatches pattern (literal pattern) := by
  induction pattern with
  | nil => exact .nil
  | cons c pattern inductionHypothesis =>
      by_cases wildcard : c = '*'
      · subst wildcard
        exact .wildcard [] inductionHypothesis
      · have kept : literal (c :: pattern) = c :: literal pattern :=
          List.filter_cons_of_pos (decide_eq_true wildcard)
        rw [kept]
        exact .char wildcard (beq_self_eq_true _) inductionHypothesis

theorem literal_length_le {pattern name : CString} (matched : GlobMatches pattern name) :
    (literal pattern).length ≤ name.length := by
  induction matched with
  | nil => exact Nat.le_refl 0
  | wildcard skipped _ inductionHypothesis =>
      rw [List.length_append]
      exact Nat.le_add_left_of_le inductionHypothesis
  | @char c d pattern name plain _ _ inductionHypothesis =>
      have kept : literal (c :: pattern) = c :: literal pattern :=
        List.filter_cons_of_pos (decide_eq_true plain)
      rw [kept]
      exact Nat.succ_le_succ inductionHypothesis

/-- A name that is no longer has the letters of the pattern. -/
theorem forall₂_of_short {pattern name : CString} (matched : GlobMatches pattern name)
    (short : name.length ≤ (literal pattern).length) :
    List.Forall₂ (fun c d => sameLetter c d = true) (literal pattern) name := by
  induction matched with
  | nil => exact .nil
  | @wildcard pattern name skipped rest inductionHypothesis =>
      have least := literal_length_le rest
      have kept : literal ('*' :: pattern) = literal pattern := rfl
      rw [kept, List.length_append] at short
      have empty : skipped = [] := List.length_eq_zero_iff.mp (by omega)
      subst empty
      exact inductionHypothesis (by omega)
  | @char c d pattern name plain same _ inductionHypothesis =>
      have kept : literal (c :: pattern) = c :: literal pattern :=
        List.filter_cons_of_pos (decide_eq_true plain)
      rw [kept] at short ⊢
      exact .cons same (inductionHypothesis (Nat.le_of_succ_le_succ short))

/-- The last letter of a pattern is the last of every name that it matches. -/
theorem globMatches_last {pattern name : CString} {c : Char} (plain : c ≠ '*')
    (matched : GlobMatches (pattern ++ [c]) name) :
    exists init d, name = init ++ [d] ∧ sameLetter c d = true := by
  induction pattern generalizing name with
  | nil =>
      cases matched with
      | wildcard _ _ => exact absurd rfl plain
      | char _ same rest =>
          cases rest
          exact ⟨[], _, rfl, same⟩
  | cons first pattern inductionHypothesis =>
      cases matched with
      | wildcard skipped rest =>
          rcases inductionHypothesis rest with ⟨init, d, rfl, same⟩
          exact ⟨skipped ++ init, d, (List.append_assoc _ _ _).symm, same⟩
      | @char _ other _ _ _ _ rest =>
          rcases inductionHypothesis rest with ⟨init, d, rfl, same⟩
          exact ⟨other :: init, d, rfl, same⟩

/-! ## What the expression consists of -/

/-- The item for a character that is not special, and for a dot. -/
def itemOf (c : Char) : RegexItem :=
  if c = '*' then .many fun _ => true
  else if c = '.' then .one fun _ => true
  else .one (sameLetter c)

theorem body_cons (c : Char) (pattern : CString) :
    body (c :: pattern) = (if c = '*' then ['.', '*'] else [c]) ++ body pattern := by
  rw [body, translate_cons, List.append_assoc]
  rfl

theorem body_ne_nil (pattern : CString) : body pattern ≠ [] :=
  List.append_ne_nil_of_right_ne_nil _ (List.cons_ne_nil _ _)

/-- No item is repeated but for the wildcards. -/
theorem body_head (pattern : CString) : (body pattern).head? ≠ some '*' := by
  cases pattern with
  | nil => decide
  | cons c pattern =>
      rw [body_cons]
      by_cases wildcard : c = '*'
      · rw [if_pos wildcard]
        exact by simp
      · rw [if_neg wildcard]
        simpa using wildcard

theorem literal_cons {c : Char} (pattern : CString) (plain : c ≠ '*') :
    literal (c :: pattern) = c :: literal pattern :=
  List.filter_cons_of_pos (decide_eq_true plain)

theorem literal_append (first rest : CString) :
    literal (first ++ rest) = literal first ++ literal rest :=
  List.filter_append ..

section parse

variable {library : RegexLibrary} {n : Nat}

theorem parseFrom_wildcard (pattern : CString) :
    library.parseFrom (n + 1) (body ('*' :: pattern)) =
      consItem (.many fun _ => true) (library.parseFrom n (body pattern)) := by
  rw [body_cons, if_pos rfl]
  exact parseFrom_many (List.cons_ne_nil _ _) rfl

theorem parseFrom_dot (pattern : CString) :
    library.parseFrom (n + 1) (body ('.' :: pattern)) =
      consItem (.one fun _ => true) (library.parseFrom n (body pattern)) := by
  rw [body_cons, if_neg (by decide)]
  exact parseFrom_one (body_ne_nil pattern) rfl (body_head pattern)

theorem parseFrom_char {c : Char} (pattern : CString) (wildcard : c ≠ '*') (dot : c ≠ '.')
    (bracket : c ≠ '[') (backslash : c ≠ '\\') :
    library.parseFrom (n + 1) (body (c :: pattern)) =
      consItem (.one (sameLetter c)) (library.parseFrom n (body pattern)) := by
  have atom : library.readAtom c (body pattern) = .parsed (sameLetter c, body pattern) := by
    unfold readAtom
    rw [if_neg dot, if_neg bracket, if_neg backslash]
  rw [body_cons, if_neg wildcard]
  exact parseFrom_one (body_ne_nil pattern) atom (body_head pattern)

/-- Without brackets and backslashes every character is an item. -/
theorem parseFrom_eq {pattern : CString} (bracket : '[' ∉ pattern) (backslash : '\\' ∉ pattern)
    (size : pattern.length < n) :
    library.parseFrom n (body pattern) = .parsed ⟨pattern.map itemOf, true⟩ := by
  induction pattern generalizing n with
  | nil =>
      cases n with
      | zero => cases size
      | succ n => rfl
  | cons c pattern inductionHypothesis =>
      rw [List.mem_cons, not_or] at bracket backslash
      cases n with
      | zero => cases size
      | succ n =>
          have rest := inductionHypothesis bracket.2 backslash.2 (Nat.lt_of_succ_lt_succ size)
          by_cases wildcard : c = '*'
          · subst wildcard
            rw [parseFrom_wildcard, rest]
            rfl
          · by_cases dot : c = '.'
            · subst dot
              rw [parseFrom_dot, rest]
              rfl
            · rw [parseFrom_char pattern wildcard dot (Ne.symm bracket.1) (Ne.symm backslash.1),
                rest, List.map_cons, itemOf, if_neg wildcard, if_neg dot]
              rfl

/-- A `]` in the text is one of the pattern. -/
theorem split_body {pattern contents rest : CString} (split : body pattern = contents ++ ']' :: rest) :
    exists first second, pattern = first ++ ']' :: second ∧ rest = body second := by
  induction pattern generalizing contents with
  | nil =>
      cases contents with
      | nil => cases split
      | cons c contents =>
          have short := congrArg List.length split
          simp [body, translate] at short
  | cons c pattern inductionHypothesis =>
      rw [body_cons] at split
      by_cases wildcard : c = '*'
      · rw [if_pos wildcard] at split
        cases contents with
        | nil => cases split
        | cons dot contents =>
            cases contents with
            | nil => cases split
            | cons star contents =>
                have tails := (List.cons.inj (List.cons.inj split).2).2
                rcases inductionHypothesis tails with ⟨first, second, rfl, rest⟩
                exact ⟨c :: first, second, rfl, rest⟩
      · rw [if_neg wildcard] at split
        cases contents with
        | nil =>
            cases split
            exact ⟨[], pattern, rfl, rfl⟩
        | cons other contents =>
            rcases inductionHypothesis (List.cons.inj split).2 with ⟨first, second, rfl, rest⟩
            exact ⟨c :: first, second, rfl, rest⟩

/-- Something special has been read as an operator. -/
def HasOperator (pattern : CString) : Prop :=
  '[' ∈ pattern ∨ '\\' ∈ pattern

/-- What operators cost: the expression is satisfied with fewer characters than
the pattern has, or it is open at its end. -/
def Costs (pattern : CString) (regex : AnchoredRegex) : Prop :=
  ones regex.items ≤ (literal pattern).length ∧
      (HasOperator pattern -> ones regex.items < (literal pattern).length) ∨
    regex.anchored = false ∧ exists init, pattern = init ++ ['\\']

theorem Costs.cons_wildcard {pattern : CString} {regex : AnchoredRegex} (costs : Costs pattern regex)
    (p : Char -> Bool) :
    Costs ('*' :: pattern) { regex with items := .many p :: regex.items } := by
  have kept : literal ('*' :: pattern) = literal pattern := rfl
  rcases costs with ⟨bound, strict⟩ | ⟨unanchored, init, rfl⟩
  · refine Or.inl ⟨bound, fun operator => ?_⟩
    rw [kept]
    refine strict ?_
    simpa [HasOperator] using operator
  · exact Or.inr ⟨unanchored, '*' :: init, rfl⟩

/-- A character that is one item, be it an operator or not, after which nothing is lost. -/
theorem Costs.cons_one {c : Char} {pattern : CString} {regex : AnchoredRegex}
    (costs : Costs pattern regex) (wildcard : c ≠ '*') (bracket : c ≠ '[') (backslash : c ≠ '\\')
    (p : Char -> Bool) : Costs (c :: pattern) { regex with items := .one p :: regex.items } := by
  have kept := literal_cons pattern wildcard
  rcases costs with ⟨bound, strict⟩ | ⟨unanchored, init, rfl⟩
  · refine Or.inl ⟨?_, fun operator => ?_⟩
    · rw [kept]
      exact Nat.succ_le_succ bound
    · rw [kept]
      refine Nat.succ_lt_succ (strict ?_)
      simpa [HasOperator, Ne.symm bracket, Ne.symm backslash] using operator
  · exact Or.inr ⟨unanchored, c :: init, rfl⟩

/-- A few characters that make an item, and at least one of which is lost. -/
theorem Costs.append {first pattern : CString} {regex : AnchoredRegex} {item : RegexItem}
    (costs : Costs pattern regex) (lost : ones [item] < (literal first).length) :
    Costs (first ++ pattern) { regex with items := item :: regex.items } := by
  have total : ones (item :: regex.items) = ones [item] + ones regex.items := by
    cases item <;> simp [ones, Nat.add_comm]
  rcases costs with ⟨bound, -⟩ | ⟨unanchored, init, rfl⟩
  · have less : ones (item :: regex.items) < (literal (first ++ pattern)).length := by
      rw [literal_append, List.length_append, total]
      omega
    exact Or.inl ⟨Nat.le_of_lt less, fun _ => less⟩
  · exact Or.inr ⟨unanchored, first ++ init, (List.append_assoc _ _ _).symm⟩

/-- The rest of the pattern after an item. -/
def CostsFrom (library : RegexLibrary) (n : Nat) : Prop :=
  forall pattern regex, pattern.length < n ->
    library.parseFrom n (body pattern) = .parsed regex -> Costs pattern regex

theorem costs_bracket {pattern : CString} {regex : AnchoredRegex} (rest : CostsFrom library n)
    (size : pattern.length < n)
    (parsed : library.parseFrom (n + 1) (body ('[' :: pattern)) = .parsed regex) :
    Costs ('[' :: pattern) regex := by
  have text : body ('[' :: pattern) = '[' :: body pattern := by
    rw [body_cons, if_neg (by decide)]
    rfl
  rw [text] at parsed
  cases read : library.bracket (body pattern) with
  | none =>
      have failed : library.readAtom '[' (body pattern) = .error := by
        simp [readAtom, read]
      rw [parseFrom, if_neg (by simp), failed] at parsed
      cases parsed
  | some atom =>
      rcases atom with ⟨p, left⟩
      rcases library.bracket_reads _ _ _ read with ⟨contents, -, split⟩
      rcases split_body split with ⟨first, second, rfl, rfl⟩
      have atom : library.readAtom '[' (body (first ++ ']' :: second)) =
          .parsed (p, body second) := by
        simp [readAtom, read]
      rw [parseFrom_one (body_ne_nil _) atom (body_head second)] at parsed
      rcases parsed_of_consItem parsed with ⟨regex', parsed', rfl⟩
      have shorter : second.length < n := by
        rw [List.length_append, List.length_cons] at size
        omega
      have lost : ones [.one p] < (literal ('[' :: first ++ [']'])).length := by
        simp [literal, ones]
      have whole : '[' :: (first ++ ']' :: second) = ('[' :: first ++ [']']) ++ second := by simp
      rw [whole]
      exact (rest second regex' shorter parsed').append lost

theorem costs_backslash {pattern : CString} {regex : AnchoredRegex} (rest : CostsFrom library n)
    (size : pattern.length < n)
    (parsed : library.parseFrom (n + 1) (body ('\\' :: pattern)) = .parsed regex) :
    Costs ('\\' :: pattern) regex := by
  have text : body ('\\' :: pattern) = '\\' :: body pattern := by
    rw [body_cons, if_neg (by decide)]
    rfl
  rw [text] at parsed
  cases pattern with
  | nil =>
      have atom : library.readAtom '\\' (body []) = .parsed (sameLetter '$', []) := rfl
      have ending : library.parseFrom n [] = .parsed ⟨[], false⟩ := by cases n <;> rfl
      rw [parseFrom_one (body_ne_nil _) atom (by simp), ending] at parsed
      cases parsed
      exact Or.inr ⟨rfl, [], rfl⟩
  | cons d pattern =>
      have shorter : pattern.length < n := Nat.lt_of_succ_lt size
      by_cases wildcard : d = '*'
      · subst wildcard
        have atom : library.readAtom '\\' (body ('*' :: pattern)) =
            .parsed (sameLetter '.', '*' :: body pattern) := by
          rw [body_cons, if_pos rfl]
          rfl
        rw [parseFrom_many (body_ne_nil _) atom] at parsed
        rcases parsed_of_consItem parsed with ⟨regex', parsed', rfl⟩
        have lost : ones [.many (sameLetter '.')] < (literal ['\\', '*']).length := by decide
        exact (rest pattern regex' shorter parsed').append lost
      · have next : body (d :: pattern) = d :: body pattern := by
          rw [body_cons, if_neg wildcard]
          rfl
        by_cases special : d ∈ specialChars
        · have atom : library.readAtom '\\' (body (d :: pattern)) =
              .parsed (sameLetter d, body pattern) := by
            rw [next]
            simp [readAtom, special]
          rw [parseFrom_one (body_ne_nil _) atom (body_head pattern)] at parsed
          rcases parsed_of_consItem parsed with ⟨regex', parsed', rfl⟩
          have lost : ones [.one (sameLetter d)] < (literal ['\\', d]).length := by
            simp [literal, ones, wildcard]
          exact (rest pattern regex' shorter parsed').append lost
        · have failed : library.readAtom '\\' (body (d :: pattern)) = .unspecified := by
            rw [next]
            simp [readAtom, special]
          rw [parseFrom, if_neg (by simp), failed] at parsed
          cases parsed

theorem parseFrom_costs (n : Nat) : CostsFrom library n := by
  induction n with
  | zero =>
      intro pattern regex size
      cases size
  | succ n inductionHypothesis =>
      intro pattern regex size parsed
      cases pattern with
      | nil =>
          cases parsed
          exact Or.inl ⟨Nat.le_refl 0, fun operator => absurd operator (by simp [HasOperator])⟩
      | cons c pattern =>
          have shorter : pattern.length < n := Nat.lt_of_succ_lt_succ size
          by_cases bracket : c = '['
          · subst bracket
            exact costs_bracket inductionHypothesis shorter parsed
          by_cases backslash : c = '\\'
          · subst backslash
            exact costs_backslash inductionHypothesis shorter parsed
          by_cases wildcard : c = '*'
          · subst wildcard
            rw [parseFrom_wildcard] at parsed
            rcases parsed_of_consItem parsed with ⟨regex', parsed', rfl⟩
            exact (inductionHypothesis _ _ shorter parsed').cons_wildcard _
          by_cases dot : c = '.'
          · subst dot
            rw [parseFrom_dot] at parsed
            rcases parsed_of_consItem parsed with ⟨regex', parsed', rfl⟩
            exact (inductionHypothesis _ _ shorter parsed').cons_one wildcard bracket backslash _
          · rw [parseFrom_char pattern wildcard dot bracket backslash] at parsed
            rcases parsed_of_consItem parsed with ⟨regex', parsed', rfl⟩
            exact (inductionHypothesis _ _ shorter parsed').cons_one wildcard bracket backslash _

end parse

/-! ## What the expression matches -/

/-- A dot is the only character that a pattern without operators does not mean. -/
theorem matchItems_iff {pattern name : CString} (dot : '.' ∉ pattern) :
    matchItems true (pattern.map itemOf) name = true <-> GlobMatches pattern name := by
  induction pattern generalizing name with
  | nil =>
      cases name with
      | nil => exact iff_of_true rfl .nil
      | cons c name => exact iff_of_false Bool.false_ne_true (by rintro ⟨⟩)
  | cons c pattern inductionHypothesis =>
      rw [List.mem_cons, not_or] at dot
      have rest {name : CString} : matchItems true (pattern.map itemOf) name = true <->
          GlobMatches pattern name :=
        inductionHypothesis dot.2
      by_cases wildcard : c = '*'
      · subst wildcard
        refine matchMany_iff.trans ⟨?_, fun matched => ?_⟩
        · rintro ⟨skipped, left, rfl, -, matched⟩
          exact .wildcard skipped (rest.mp matched)
        · cases matched with
          | wildcard skipped matched =>
              exact ⟨skipped, _, rfl, fun _ _ => rfl, rest.mpr matched⟩
          | char plain _ _ => exact absurd rfl plain
      · rw [List.map_cons, itemOf, if_neg wildcard, if_neg (Ne.symm dot.1), matchItems]
        constructor
        · intro matched
          cases name with
          | nil => cases matched
          | cons d name =>
              rw [matchOne, Bool.and_eq_true] at matched
              exact .char wildcard matched.1 (rest.mp matched.2)
        · intro matched
          cases matched with
          | wildcard _ _ => exact absurd rfl wildcard
          | char _ same matched =>
              rw [matchOne, same, rest.mpr matched]
              rfl

/-- A name in place of whose dots there are other characters is matched all the same. -/
theorem matchItems_map (pattern : CString) {f : Char -> Char}
    (same : forall c, c ≠ '.' -> sameLetter c (f c) = true) :
    matchItems true (pattern.map itemOf) ((literal pattern).map f) = true := by
  induction pattern with
  | nil => rfl
  | cons c pattern inductionHypothesis =>
      by_cases wildcard : c = '*'
      · subst wildcard
        exact matchMany_of_rest inductionHypothesis
      · rw [literal_cons pattern wildcard, List.map_cons, List.map_cons, itemOf, if_neg wildcard]
        by_cases dot : c = '.'
        · rw [if_pos dot, matchItems, matchOne, inductionHypothesis]
          rfl
        · rw [if_neg dot, matchItems, matchOne, same c dot, inductionHypothesis]
          rfl

def withoutDots (c : Char) : Char :=
  if c = '.' then 'a' else c

theorem not_globMatches_withoutDots {pattern : CString} (dot : '.' ∈ pattern) :
    ¬GlobMatches pattern ((literal pattern).map withoutDots) := by
  intro matched
  have letters := forall₂_of_short matched (by rw [List.length_map])
  rw [List.forall₂_map_right_iff, List.forall₂_same] at letters
  have member : '.' ∈ literal pattern := List.mem_filter.mpr ⟨dot, by decide⟩
  exact absurd (letters '.' member) (by decide)

section intended

variable {library : RegexLibrary} {pattern : CString}

theorem length_lt_body (pattern : CString) : pattern.length < (body pattern).length := by
  induction pattern with
  | nil => exact Nat.one_pos
  | cons c pattern inductionHypothesis =>
      rw [body_cons, List.length_append, List.length_cons]
      split <;> simp <;> omega

theorem asIntended_iff_matches :
    AsIntended library pattern <->
      exists isMatch, library.regcomp (patternText pattern) = some isMatch ∧
        forall name, isMatch name = true <-> GlobMatches pattern name := by
  constructor
  · rintro ⟨text, built, -, matches'⟩
    have same : text = patternText pattern :=
      List.append_cancel_right (congrArg Prod.fst (buildsPattern_iff.mp built))
    exact same ▸ matches'
  · intro matches'
    exact ⟨_, buildsPattern_iff.mpr rfl, patternText_length pattern, matches'⟩

/-- What the text for a pattern is compiled to. -/
theorem regcomp_parsed {regex : AnchoredRegex}
    (parsed : library.parse (body pattern) = .parsed regex) :
    library.regcomp (patternText pattern) = some (matchItems regex.anchored regex.items) := by
  have text : patternText pattern = '^' :: body pattern := rfl
  rw [text, regcomp, parsed]

theorem parse_eq (bracket : '[' ∉ pattern) (backslash : '\\' ∉ pattern) :
    library.parse (body pattern) = .parsed ⟨pattern.map itemOf, true⟩ :=
  parseFrom_eq bracket backslash (length_lt_body pattern)

theorem asIntended_of_plain (plain : Plain pattern) : AsIntended library pattern :=
  asIntended_iff_matches.mpr
    ⟨_, regcomp_parsed (parse_eq plain.2.1 plain.2.2), fun _ => matchItems_iff plain.1⟩

/-- An operator lets the expression match too short a name, or too long a one. -/
theorem not_matches_of_operator {regex : AnchoredRegex} (costs : Costs pattern regex)
    (operator : HasOperator pattern) :
    ¬forall name, matchItems regex.anchored regex.items name = true <-> GlobMatches pattern name := by
  intro matches'
  have itself := (matches' _).mpr (globMatches_literal pattern)
  rcases costs with ⟨-, strict⟩ | ⟨unanchored, init, rfl⟩
  · rcases exists_shortest itself with ⟨short, length, matched⟩
    have least := literal_length_le ((matches' short).mp matched)
    have less := strict operator
    omega
  · rw [unanchored] at itself matches'
    have longer := (matches' _).mp (matchItems_append itself ['a'])
    rcases globMatches_last (by decide) longer with ⟨_, d, split, same⟩
    have last : 'a' = d := (List.append_inj' split rfl).2 |> List.head_eq_of_cons_eq
    subst last
    exact absurd same (by decide)

theorem not_asIntended (specified : Specified library pattern) (special : ¬Plain pattern) :
    ¬AsIntended library pattern := by
  rw [asIntended_iff_matches]
  rintro ⟨isMatch, compiled, matches'⟩
  cases parsed : library.parse (body pattern) with
  | unspecified => exact specified parsed
  | error =>
      have text : patternText pattern = '^' :: body pattern := rfl
      rw [text, regcomp, parsed] at compiled
      cases compiled
  | parsed regex =>
      cases (regcomp_parsed parsed).symm.trans compiled
      by_cases operator : HasOperator pattern
      · exact not_matches_of_operator (parseFrom_costs _ _ _ (length_lt_body pattern) parsed)
          operator matches'
      · rw [HasOperator, not_or] at operator
        cases parsed.symm.trans (parse_eq operator.1 operator.2)
        have dot : '.' ∈ pattern := by
          by_contra missing
          exact special ⟨missing, operator.1, operator.2⟩
        refine not_globMatches_withoutDots dot ((matches' _).mp (matchItems_map pattern ?_))
        intro c other
        rw [withoutDots, if_neg other]
        exact beq_self_eq_true _

/-- Without special characters the pattern is translated as intended, and where
POSIX says what the expression means only then. -/
theorem asIntended_iff (library : RegexLibrary) (pattern : CString) :
    (Plain pattern -> AsIntended library pattern) ∧
      (Specified library pattern -> (AsIntended library pattern <-> Plain pattern)) :=
  ⟨asIntended_of_plain, fun specified =>
    ⟨fun intended => not_not.mp fun special => not_asIntended specified special intended,
      asIntended_of_plain⟩⟩

/-- Neither brackets nor what is unspecified compiles. -/
def plainLibrary : RegexLibrary where
  bracket _ := none
  bracket_reads := by
    rintro _ _ _ ⟨⟩
  other _ := none

theorem asIntended_plainLibrary :
    AsIntended plainLibrary ['a', '*', 'b'] ∧ ¬AsIntended plainLibrary ['a', '.', 'b'] := by
  refine ⟨(asIntended_iff _ _).1 ⟨by decide, by decide, by decide⟩, fun intended => ?_⟩
  have specified : Specified plainLibrary ['a', '.', 'b'] := by
    rintro ⟨⟩
  exact absurd (((asIntended_iff _ _).2 specified).mp intended).1 (by decide)

/-- Any library lets `a.b` match `axb`. -/
theorem dot_matches_letter : ¬exists library, AsIntended library ['a', '.', 'b'] := by
  rintro ⟨library, intended⟩
  rcases asIntended_iff_matches.mp intended with ⟨isMatch, compiled, matches'⟩
  have dots : library.regcomp (patternText ['a', '.', 'b']) =
      some (matchItems true (['a', '.', 'b'].map itemOf)) := rfl
  cases dots.symm.trans compiled
  have letter : GlobMatches ['a', '.', 'b'] ['a', 'x', 'b'] := (matches' _).mp (by decide)
  cases letter with
  | char _ _ rest =>
      cases rest with
      | char _ same _ => exact absurd same (by decide)

end intended

end FuncDecl

end Util
end Autolock
