import Mathlib.Algebra.Group.Int.Defs
import Mathlib.Algebra.GroupWithZero.Nat
import Mathlib.Data.List.Basic

namespace Autolock
namespace Util

/-!
# `strtol`, `strtoll` and `strtoull`

A string is the list of its characters before the terminating zero.  White
space, a sign and, in base 16, a prefix may come before the digits.  A number
out of range is saturated; `strtoull` negates modulo `2 ^ 64`, but only after it
has found the digits in range.  Without any digit the end is the beginning.

A `long` has 64 bits, so that `strtol` is `strtoll`.
-/

abbrev CString := List Char

namespace Strtol

def isSpace (c : Char) : Bool :=
  c == ' ' || ('\t' ≤ c && c ≤ '\r')

/-- The value of a digit of the base. -/
def digit (base : Nat) (c : Char) : Option Nat :=
  let value :=
    if '0' ≤ c ∧ c ≤ '9' then c.toNat - '0'.toNat
    else if 'a' ≤ c ∧ c ≤ 'z' then c.toNat - 'a'.toNat + 10
    else if 'A' ≤ c ∧ c ≤ 'Z' then c.toNat - 'A'.toNat + 10
    else base
  if value < base then some value else none

/-- The digits at the beginning of a string, and what follows them. -/
def digits (base : Nat) : CString -> List Nat × CString
  | [] => ([], [])
  | c :: rest =>
      match digit base c with
      | none => ([], c :: rest)
      | some d => (d :: (digits base rest).1, (digits base rest).2)

/-- What a sequence of digits stands for. -/
def numeral (base : Nat) (ds : List Nat) : Nat :=
  ds.foldl (fun n d => n * base + d) 0

def sign : CString -> Bool × CString
  | '-' :: rest => (true, rest)
  | '+' :: rest => (false, rest)
  | s => (false, s)

/-- `0x` is a prefix if a digit follows. -/
def skipPrefix (base : Nat) : CString -> CString
  | '0' :: x :: c :: rest =>
      if base = 16 ∧ (x = 'x' ∨ x = 'X') ∧ (digit 16 c).isSome then c :: rest
      else '0' :: x :: c :: rest
  | s => s

/-- The sign, the magnitude and the rest of a string that begins with a number. -/
def subject (base : Nat) (nptr : CString) : Option (Bool × Nat × CString) :=
  let signed := sign (nptr.dropWhile isSpace)
  let found := digits base (skipPrefix base signed.2)
  if found.1 = [] then none else some (signed.1, numeral base found.1, found.2)

end Strtol

open Strtol

/-- The number, and the string at the end pointer. -/
def strtoll (nptr : CString) (base : Nat) : Int × CString :=
  match subject base nptr with
  | none => (0, nptr)
  | some (negative, magnitude, rest) =>
      (if negative then max (-2 ^ 63) (-magnitude) else min (2 ^ 63 - 1) magnitude, rest)

abbrev strtol := strtoll

def strtoull (nptr : CString) (base : Nat) : UInt64 × CString :=
  match subject base nptr with
  | none => (0, nptr)
  | some (negative, magnitude, rest) =>
      if magnitude < 2 ^ 64 then
        (if negative then -UInt64.ofNat magnitude else UInt64.ofNat magnitude, rest)
      else (UInt64.ofNat (2 ^ 64 - 1), rest)

end Util
end Autolock
