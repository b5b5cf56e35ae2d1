import SqlSelect.Text.Number
import SqlSelect.Text.Percent
import SqlSelect.Text.Cut

namespace SqlSelect.Connection.Standard

/-- A number of a dotted address: at most 255, and without a leading zero. -/
def isOctet (s : List Char) : Bool :=
  s.length ≤ 3 && (s.length == 1 || s.head? != some '0') && (Text.natural? s).any (· ≤ 255)

def isDotted (s : List Char) : Bool :=
  let parts := s.splitOn '.'
  parts.length == 4 && parts.all isOctet

/-- A group of a colon address: one to four hex digits. -/
def isGroup (s : List Char) : Bool :=
  !s.isEmpty && s.length ≤ 4 && s.all fun c => (Text.hexDigit? c).isSome

/-- How many groups the parts stand for, if all are groups. The last part may also be a dotted address, which takes
    the place of two groups. -/
def groupCount? : List (List Char) → Option Nat
  | [] => some 0
  | [last] => if isGroup last then some 1 else if isDotted last then some 2 else none
  | part :: rest => if isGroup part then (groupCount? rest).map (· + 1) else none

/-- The parts between colons; an empty text has none. -/
def colonParts (s : List Char) : List (List Char) :=
  if s.isEmpty then [] else s.splitOn ':'

/-- What stands before and after the first double colon. -/
def gap? : List Char → Option (List Char × List Char)
  | ':' :: ':' :: s => some ([], s)
  | c :: s => (gap? s).map fun halves => (c :: halves.1, halves.2)
  | [] => none

/-- Eight groups, or fewer with a double colon for the one or more that are missing. A dotted address can only stand
    at the very end. -/
def isColonAddress (s : List Char) : Bool :=
  match gap? s with
  | none => groupCount? (colonParts s) == some 8
  | some (head, tail) =>
    let heads := colonParts head
    heads.all isGroup && (groupCount? (colonParts tail)).any fun tails => heads.length + tails ≤ 7

def isAddress (s : List Char) : Bool :=
  isDotted s || isColonAddress s

example : isAddress "::ffff:192.0.2.1".toList = true ∧ isAddress "1:2:3:4:5:6:7::".toList = true := by decide
example : isAddress "192.0.2.01".toList = false ∧ isAddress "1::2::3".toList = false := by decide

end SqlSelect.Connection.Standard
