import Mathlib.Data.List.Basic
import Mathlib.Tactic.Common

/-!
# Python strings

Whitespace handling is spelled out; the two case mappings and the compatibility normal form rest on
the tables of the Unicode database and enter as a parameter, `UnicodeData`. No proof below assumes
anything about them. `UnicodeData.ascii` is the database restricted to ASCII, on which it agrees
with the real one.
-/

namespace Python

/-- The Unicode database, as far as `str` methods consult it. -/
structure UnicodeData where
  /-- `str.lower`. -/
  lower : String → String
  /-- `str.casefold`. -/
  casefold : String → String
  /-- `unicodedata.normalize("NFKC", ·)`. -/
  nfkc : String → String
  /-- `unicodedata.decimal`, where it is defined. -/
  decimal : Char → Option ℕ

/-- The database on ASCII text. -/
def UnicodeData.ascii : UnicodeData where
  lower := fun s ↦ String.ofList (s.toList.map Char.toLower)
  casefold := fun s ↦ String.ofList (s.toList.map Char.toLower)
  nfkc := id
  decimal := fun c ↦ if '0' ≤ c ∧ c ≤ '9' then some (c.toNat - '0'.toNat) else none

/-- `str.isspace` on one character. -/
def isSpace (c : Char) : Bool :=
  let n := c.toNat
  (9 ≤ n && n ≤ 13) || (28 ≤ n && n ≤ 32) || n == 0x85 || n == 0xa0 || n == 0x1680
    || (0x2000 ≤ n && n ≤ 0x200a) || n == 0x2028 || n == 0x2029 || n == 0x202f || n == 0x205f
    || n == 0x3000

/-- Drop the characters satisfying `p` from both ends. -/
def stripChars (p : Char → Bool) (cs : List Char) : List Char :=
  ((cs.dropWhile p).reverse.dropWhile p).reverse

/-- `str.strip`. -/
def strip (s : String) : String := String.ofList (stripChars isSpace s.toList)

/-- The words of a character list, given the word being read. -/
def splitWords : List Char → List Char → List String
  | [], word => if word.isEmpty then [] else [String.ofList word]
  | c :: cs, word =>
    if isSpace c then
      if word.isEmpty then splitWords cs [] else String.ofList word :: splitWords cs []
    else splitWords cs (word ++ [c])

/-- `str.split()`. -/
def split (s : String) : List String := splitWords s.toList []

end Python
