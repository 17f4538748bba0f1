import Mathlib.Tactic.Common

/-!
# JSON values as Python sees them

What `json.loads` returns, with objects as association lists whose first entry for a key decides.
Strings are sequences of Unicode scalar values, so a lone surrogate has no counterpart here.

The accessors follow the operations the sources use on such values: `dict.get`, truthiness, and
iteration, which also accepts strings and dictionaries and raises on everything else.
-/

namespace Python

/-- A JSON value. Numbers are kept exactly; nothing in the program depends on their precision. -/
inductive Json
  | null
  | bool (b : Bool)
  | num (q : Rat)
  | str (s : String)
  | arr (items : List Json)
  | obj (fields : List (String × Json))
  deriving Inhabited

namespace Json

/-- `value.get(key)` of a dictionary; `none` for a missing key and for a value that is no
dictionary. -/
def get? (key : String) : Json → Option Json
  | obj fields => fields.lookup key
  | _ => none

/-- The string held, if the value is one. -/
def str? : Json → Option String
  | str s => some s
  | _ => none

theorem str?_eq_some_iff {value : Json} {s : String} : value.str? = some s ↔ value = .str s := by
  cases value with
  | str held => simp [str?]
  | _ => simp [str?]

/-- `isinstance(value, dict)`. -/
def isDict : Json → Bool
  | obj _ => true
  | _ => false

/-- `bool(value)`. -/
def truthy : Json → Bool
  | null => false
  | bool b => b
  | num q => q ≠ 0
  | str s => s ≠ ""
  | arr items => !items.isEmpty
  | obj fields => !fields.isEmpty

/-- What `for item in value` goes through; `none` is the `TypeError`. -/
def iter? : Json → Option (List Json)
  | arr items => some items
  | obj fields => some (fields.map fun field ↦ str field.1)
  | str s => some (s.toList.map fun c ↦ str (String.ofList [c]))
  | null | bool _ | num _ => none

end Json

end Python
