import Mathlib.Data.Nat.Digits.Defs
import Mathlib.Tactic.Common

/-!
# Python byte strings

The two operations on `bytes` that the request limits rely on: ASCII lower-casing and `int(value)`.
The integer reader follows the interpreter's own: surrounding whitespace, one optional sign,
decimal digits with single underscores between them, and the limit on the number of digits that a
conversion accepts. Anything else is the `ValueError` that the callers catch, here `none`.
-/

namespace Python

/-- A `bytes` value. -/
abbrev Bytes := List UInt8

namespace Bytes

/-- `bytes.lower` on one byte. -/
def lowerByte (b : UInt8) : UInt8 := if 65 ≤ b ∧ b ≤ 90 then b + 32 else b

/-- `bytes.lower`. -/
def lower (bs : Bytes) : Bytes := bs.map lowerByte

/-- The whitespace that `int` skips on either side. -/
def isSpace (b : UInt8) : Bool := b = 32 ∨ (9 ≤ b ∧ b ≤ 13)

/-- Drop surrounding whitespace. -/
def strip (bs : Bytes) : Bytes :=
  (((bs.dropWhile isSpace).reverse).dropWhile isSpace).reverse

/-- The value of an ASCII digit. -/
def digit? (b : UInt8) : Option ℕ := if 48 ≤ b ∧ b ≤ 57 then some (b.toNat - 48) else none

/-- Decimal digits, most significant first, with single underscores allowed between them. -/
def digits? : Bytes → Option (List ℕ)
  | [] => none
  | [b] => (digit? b).map fun d ↦ [d]
  | b :: c :: rest =>
    if c = 95 then do
      let d ← digit? b
      let ds ← digits? rest
      return d :: ds
    else do
      let d ← digit? b
      let ds ← digits? (c :: rest)
      return d :: ds

/-- The interpreter's bound on the digits of one conversion. -/
def maxStrDigits : ℕ := 4300

/-- An unsigned decimal literal. -/
def parseNat (bs : Bytes) : Option ℕ := do
  let ds ← digits? bs
  if ds.length ≤ maxStrDigits then some (Nat.ofDigits 10 ds.reverse) else none

/-- `int(value)` for `bytes`; `none` is the `ValueError`. -/
def parseInt (bs : Bytes) : Option ℤ :=
  match strip bs with
  | [] => none
  | b :: rest =>
    if b = 43 then (parseNat rest).map Int.ofNat
    else if b = 45 then (parseNat rest).map fun n ↦ -Int.ofNat n
    else (parseNat (b :: rest)).map Int.ofNat

end Bytes

end Python
