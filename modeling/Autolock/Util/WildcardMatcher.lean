import Autolock.Data.Loop
import Autolock.Util.Strtol
import Mathlib.Data.List.TakeWhile
import Mathlib.Data.UInt

namespace Autolock
namespace Util

open Data

/-!
# The regular expression for a pattern with wildcards

`build_re_wildcard_matcher` writes a basic regular expression for a pattern of
names, in which only `*` is special, and says whether the pattern is done with
the first name that it matches.  The buffer is on the stack, of twice the length
of the pattern and 3.
-/

namespace FuncDecl

def declDidOne : UInt8 := 1
def declDidAny : UInt8 := 0

/-- The bytes that have been written, the rest of the pattern, and `match_any`. -/
structure Builder where
  patternBuf : CString
  declToRun : CString
  matchAny : UInt8
  deriving DecidableEq, Repr

/-- One round: what comes before the next wildcard is copied. -/
def buildPass (s : Builder) : Pass Builder (CString × UInt8) :=
  let copied := s.declToRun.takeWhile (· ≠ '*')
  match s.declToRun.dropWhile (· ≠ '*') with
  | [] => .done (s.patternBuf ++ copied ++ ['$', '\x00'], s.matchAny)
  | _ :: rest => .again ⟨s.patternBuf ++ copied ++ ['.', '*'], rest, declDidAny⟩

/-- The buffer with its terminator, and what is returned. -/
def BuildsPattern (declToRun : CString) (result : CString × UInt8) : Prop :=
  Returns buildPass ⟨['^'], declToRun, declDidOne⟩ result

/-- The text for a pattern: every wildcard is preceded by a dot. -/
def translate (pattern : CString) : CString :=
  pattern.flatMap fun c => if c = '*' then ['.', '*'] else [c]

def patternText (pattern : CString) : CString :=
  '^' :: translate pattern ++ ['$']

def matchAnyOf (pattern : CString) : UInt8 :=
  if '*' ∈ pattern then declDidAny else declDidOne

theorem translate_cons (c : Char) (pattern : CString) :
    translate (c :: pattern) = (if c = '*' then ['.', '*'] else [c]) ++ translate pattern :=
  List.flatMap_cons

theorem translate_append (first rest : CString) :
    translate (first ++ rest) = translate first ++ translate rest :=
  List.flatMap_append

theorem translate_of_not_mem {pattern : CString} (plain : '*' ∉ pattern) :
    translate pattern = pattern := by
  induction pattern with
  | nil => rfl
  | cons c pattern inductionHypothesis =>
      rw [List.mem_cons, not_or] at plain
      rw [translate_cons, if_neg fun same => plain.1 same.symm, inductionHypothesis plain.2]
      rfl

/-- `strchrnul_c(pattern, '*')` is the end of the pattern or a wildcard. -/
theorem dropWhile_wildcard (pattern : CString) :
    pattern.dropWhile (· ≠ '*') = [] ∨ exists rest, pattern.dropWhile (· ≠ '*') = '*' :: rest := by
  induction pattern with
  | nil => exact Or.inl rfl
  | cons c pattern inductionHypothesis =>
      by_cases wildcard : c = '*'
      · subst wildcard
        exact Or.inr ⟨pattern, rfl⟩
      · simpa [List.dropWhile_cons, wildcard] using inductionHypothesis

theorem takeWhile_plain (pattern : CString) : '*' ∉ pattern.takeWhile (· ≠ '*') := by
  intro member
  simpa using List.mem_takeWhile_imp member

/-- The loop, from any state of its buffer on. -/
theorem buildPass_returns (n : Nat) {s : Builder} (size : s.declToRun.length ≤ n) :
    Returns buildPass s (s.patternBuf ++ translate s.declToRun ++ ['$', '\x00'],
      if '*' ∈ s.declToRun then declDidAny else s.matchAny) := by
  induction n generalizing s with
  | zero =>
      have empty : s.declToRun = [] := List.length_eq_zero_iff.mp (Nat.le_zero.mp size)
      refine .done ?_
      rw [buildPass, empty]
      rfl
  | succ n inductionHypothesis =>
      have plain := takeWhile_plain s.declToRun
      have split : s.declToRun.takeWhile (· ≠ '*') ++ s.declToRun.dropWhile (· ≠ '*') =
          s.declToRun := List.takeWhile_append_dropWhile
      rcases dropWhile_wildcard s.declToRun with ends | ⟨rest, next⟩
      · rw [ends, List.append_nil] at split
        rw [split] at plain
        refine .done ?_
        rw [buildPass, ends, split, translate_of_not_mem plain, if_neg plain]
      · rw [next] at split
        have turn : buildPass s = .again
            ⟨s.patternBuf ++ s.declToRun.takeWhile (· ≠ '*') ++ ['.', '*'], rest, declDidAny⟩ := by
          rw [buildPass, next]
        have shorter : rest.length ≤ n := by
          have := congrArg List.length split
          simp only [List.length_append, List.length_cons] at this
          omega
        have member : '*' ∈ s.declToRun := by
          rw [← split]
          exact List.mem_append_right _ List.mem_cons_self
        have text : translate s.declToRun =
            s.declToRun.takeWhile (· ≠ '*') ++ ['.', '*'] ++ translate rest := by
          rw [← split, translate_append, translate_of_not_mem plain, translate_cons, if_pos rfl,
            List.append_assoc, split]
        have returns := Returns.again turn (inductionHypothesis shorter)
        rw [if_pos member, text]
        simpa using returns

theorem buildsPattern_iff {declToRun : CString} {result : CString × UInt8} :
    BuildsPattern declToRun result <->
      result = (patternText declToRun ++ ['\x00'], matchAnyOf declToRun) := by
  have returns : BuildsPattern declToRun (patternText declToRun ++ ['\x00'], matchAnyOf declToRun) := by
    have built := buildPass_returns (s := ⟨['^'], declToRun, declDidOne⟩) _ (Nat.le_refl _)
    rw [BuildsPattern]
    simpa [patternText, matchAnyOf] using built
  constructor
  · exact fun other => other.unique returns
  · rintro rfl
    exact returns

/-- `strlen_c(decl_to_run) * 2 + 3` bytes are enough. -/
theorem patternText_length (pattern : CString) :
    (patternText pattern ++ ['\x00']).length ≤ pattern.length * 2 + 3 := by
  have bounded : (translate pattern).length ≤ pattern.length * 2 := by
    induction pattern with
    | nil => exact Nat.le_refl 0
    | cons c pattern inductionHypothesis =>
        rw [translate_cons, List.length_append, List.length_cons]
        split <;> simp <;> omega
  simp only [patternText, List.length_append, List.length_cons, List.length_nil]
  omega

end FuncDecl

end Util
end Autolock
