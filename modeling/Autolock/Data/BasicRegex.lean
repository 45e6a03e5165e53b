import Mathlib.Data.List.Basic

namespace Autolock
namespace Data

/-!
# Basic regular expressions

What POSIX says about a basic regular expression that begins with an anchor, when
the case of letters is ignored.  An expression is a list of items, each of which
stands for one character or for any number of them.

Bracket expressions are left to the library, and so are the texts with a group,
an interval or a back-reference and those about which nothing is said.
-/

inductive RegexItem where
  | one (p : Char -> Bool)
  | many (p : Char -> Bool)

/-- An expression that begins with `^`, and may end with `$`. -/
structure AnchoredRegex where
  items : List RegexItem
  anchored : Bool

/-! ## Matching -/

namespace RegexItem

/-- Any number of characters, and then the rest. -/
def matchMany (p : Char -> Bool) (rest : List Char -> Bool) : List Char -> Bool
  | [] => rest []
  | c :: text => rest (c :: text) || p c && matchMany p rest text

def matchOne (p : Char -> Bool) (rest : List Char -> Bool) : List Char -> Bool
  | [] => false
  | c :: text => p c && rest text

def matchItems (anchored : Bool) : List RegexItem -> List Char -> Bool
  | [], text => !anchored || text.isEmpty
  | .one p :: items, text => matchOne p (matchItems anchored items) text
  | .many p :: items, text => matchMany p (matchItems anchored items) text

theorem matchMany_of_rest {p : Char -> Bool} {rest : List Char -> Bool} {text : List Char}
    (matched : rest text = true) : matchMany p rest text = true := by
  cases text with
  | nil => exact matched
  | cons c text => rw [matchMany, matched, Bool.true_or]

/-- The characters that are skipped, and the rest. -/
theorem matchMany_iff {p : Char -> Bool} {rest : List Char -> Bool} {text : List Char} :
    matchMany p rest text = true <->
      exists skipped left, text = skipped ++ left ∧ (forall c, c ∈ skipped -> p c = true) ∧
        rest left = true := by
  constructor
  · intro matched
    induction text with
    | nil => exact ⟨[], [], rfl, fun c member => absurd member List.not_mem_nil, matched⟩
    | cons c text inductionHypothesis =>
        rw [matchMany, Bool.or_eq_true, Bool.and_eq_true] at matched
        rcases matched with now | ⟨holds, later⟩
        · exact ⟨[], c :: text, rfl, fun c member => absurd member List.not_mem_nil, now⟩
        · rcases inductionHypothesis later with ⟨skipped, left, rfl, all, matched⟩
          exact ⟨c :: skipped, left, rfl, List.forall_mem_cons.mpr ⟨holds, all⟩, matched⟩
  · rintro ⟨skipped, left, rfl, all, matched⟩
    induction skipped with
    | nil => exact matchMany_of_rest matched
    | cons c skipped inductionHypothesis =>
        rw [List.forall_mem_cons] at all
        rw [List.cons_append, matchMany, all.1, inductionHypothesis all.2, Bool.and_self,
          Bool.or_true]

/-- How many characters there are at least. -/
def ones : List RegexItem -> Nat
  | [] => 0
  | .one _ :: items => ones items + 1
  | .many _ :: items => ones items

/-- What is matched can be shortened to the characters that have to be there. -/
theorem exists_shortest {anchored : Bool} {items : List RegexItem} {text : List Char}
    (matched : matchItems anchored items text = true) :
    exists short, short.length = ones items ∧ matchItems anchored items short = true := by
  induction items generalizing text with
  | nil => exact ⟨[], rfl, Bool.or_true _⟩
  | cons item items inductionHypothesis =>
      cases item with
      | one p =>
          cases text with
          | nil => cases matched
          | cons c text =>
              rw [matchItems, matchOne, Bool.and_eq_true] at matched
              rcases inductionHypothesis matched.2 with ⟨short, length, again⟩
              refine ⟨c :: short, congrArg (· + 1) length, ?_⟩
              rw [matchItems, matchOne, matched.1, again, Bool.and_self]
      | many p =>
          rcases matchMany_iff.mp matched with ⟨skipped, left, -, -, rest⟩
          rcases inductionHypothesis rest with ⟨short, length, again⟩
          exact ⟨short, length, matchMany_of_rest again⟩

/-- Without an anchor at the end anything may follow. -/
theorem matchItems_append {items : List RegexItem} {text : List Char}
    (matched : matchItems false items text = true) (more : List Char) :
    matchItems false items (text ++ more) = true := by
  induction items generalizing text with
  | nil => rfl
  | cons item items inductionHypothesis =>
      cases item with
      | one p =>
          cases text with
          | nil => cases matched
          | cons c text =>
              rw [matchItems, matchOne, Bool.and_eq_true] at matched
              rw [List.cons_append, matchItems, matchOne, matched.1,
                inductionHypothesis matched.2, Bool.and_self]
      | many p =>
          rcases matchMany_iff.mp matched with ⟨skipped, left, rfl, all, rest⟩
          refine matchMany_iff.mpr ⟨skipped, left ++ more, List.append_assoc _ _ _, all, ?_⟩
          exact inductionHypothesis rest

end RegexItem

/-! ## Parsing -/

/-- The same character, or the other case of it. -/
def sameLetter (c d : Char) : Bool :=
  c.toLower == d.toLower

/-- What a library makes of an expression, and of the brackets in it: after `[` it
reads what they stand for, up to a `]` that is not the first character. -/
structure RegexLibrary where
  bracket : List Char -> Option ((Char -> Bool) × List Char)
  bracket_reads : forall text p rest, bracket text = some (p, rest) ->
    exists contents, contents ≠ [] ∧ text = contents ++ ']' :: rest
  other : List Char -> Option (List Char -> Bool)

inductive Parsed (Result : Type) where
  | parsed (result : Result)
  | error
  | unspecified

namespace RegexLibrary

variable (library : RegexLibrary)

def specialChars : List Char :=
  ['.', '[', '\\', '*', '^', '$']

/-- What a character at the beginning of an item stands for, and what follows. -/
def readAtom (c : Char) (text : List Char) : Parsed ((Char -> Bool) × List Char) :=
  if c = '.' then .parsed (fun _ => true, text)
  else if c = '[' then
    match library.bracket text with
    | some atom => .parsed atom
    | none => .error
  else if c = '\\' then
    match text with
    | [] => .error
    | d :: text => if d ∈ specialChars then .parsed (sameLetter d, text) else .unspecified
  else .parsed (sameLetter c, text)

def consItem (item : RegexItem) : Parsed AnchoredRegex -> Parsed AnchoredRegex
  | .parsed regex => .parsed { regex with items := item :: regex.items }
  | .error => .error
  | .unspecified => .unspecified

/-- The items of a text; there are at most as many as it has characters. -/
def parseFrom : Nat -> List Char -> Parsed AnchoredRegex
  | _, [] => .parsed ⟨[], false⟩
  | 0, _ :: _ => .unspecified
  | n + 1, c :: text =>
      if c = '$' ∧ text = [] then .parsed ⟨[], true⟩
      else
        match library.readAtom c text with
        | .parsed (p, rest) =>
            if rest.head? = some '*' then consItem (.many p) (parseFrom n rest.tail)
            else consItem (.one p) (parseFrom n rest)
        | .error => .error
        | .unspecified => .unspecified

theorem parsed_of_consItem {item : RegexItem} {rest : Parsed AnchoredRegex} {regex : AnchoredRegex}
    (parsed : consItem item rest = .parsed regex) :
    exists regex', rest = .parsed regex' ∧ regex = { regex' with items := item :: regex'.items } := by
  cases rest with
  | parsed regex' =>
      cases parsed
      exact ⟨regex', rfl, rfl⟩
  | error => cases parsed
  | unspecified => cases parsed

variable {library} {n : Nat} {c : Char} {text rest : List Char} {p : Char -> Bool}

theorem parseFrom_one (more : text ≠ []) (atom : library.readAtom c text = .parsed (p, rest))
    (alone : rest.head? ≠ some '*') :
    library.parseFrom (n + 1) (c :: text) = consItem (.one p) (library.parseFrom n rest) := by
  rw [parseFrom, if_neg fun ending => more ending.2, atom]
  exact if_neg alone

theorem parseFrom_many (more : text ≠ [])
    (atom : library.readAtom c text = .parsed (p, '*' :: rest)) :
    library.parseFrom (n + 1) (c :: text) = consItem (.many p) (library.parseFrom n rest) := by
  rw [parseFrom, if_neg fun ending => more ending.2, atom]
  exact if_pos rfl

variable (library)

/-- What follows the anchor of a text. -/
def parse (text : List Char) : Parsed AnchoredRegex :=
  library.parseFrom text.length text

/-- `regcomp`, for a text that begins with an anchor, and `regexec`. -/
def regcomp : List Char -> Option (List Char -> Bool)
  | '^' :: text =>
      match library.parse text with
      | .parsed regex => some (RegexItem.matchItems regex.anchored regex.items)
      | .error => none
      | .unspecified => library.other ('^' :: text)
  | text => library.other text

end RegexLibrary

end Data
end Autolock
