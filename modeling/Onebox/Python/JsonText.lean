import Onebox.Python.Json
import Onebox.Python.Lists

/-!
# The text of a JSON value

`json.dumps(value, sort_keys=True, separators=(",", ":"), ensure_ascii=False)`. Sorting the keys of
every object and writing the result are kept apart: writing is injective, and so two values with the
same text agree up to the order of their keys.

How a number is written is a parameter. All that is used of it is that numbers are written with the
characters of numbers and can be read back.
-/

namespace Python

/-! ## Sorted keys -/

namespace Json

mutual

/-- The value with the keys of all its objects in order. -/
def sortKeys : Json → Json
  | null => null
  | bool b => bool b
  | num q => num q
  | str s => str s
  | arr items => arr (sortItems items)
  | obj fields => obj ((sortFields fields).mergeSort fun field field' ↦ field.1 ≤ field'.1)

def sortItems : List Json → List Json
  | [] => []
  | v :: items => sortKeys v :: sortItems items

def sortFields : List (String × Json) → List (String × Json)
  | [] => []
  | (key, v) :: fields => (key, sortKeys v) :: sortFields fields

end

end Json

/-! ## Writing -/

/-- What `int.__repr__` and `float.__repr__` make of a number. -/
structure NumberText where
  text : Rat → List Char
  ne_nil : ∀ q, text q ≠ []
  chars : ∀ q, ∀ c ∈ text q, c.isDigit = true ∨ c = '-' ∨ c = '+' ∨ c = '.' ∨ c = 'e'
  injective : ∀ q q', text q = text q' → q = q'

/-- `ESCAPE_DCT`, and the characters that need no escape. -/
def escapeChar (c : Char) : List Char :=
  if c = '"' then ['\\', '"']
  else if c = '\\' then ['\\', '\\']
  else if c = '\n' then ['\\', 'n']
  else if c = '\r' then ['\\', 'r']
  else if c = '\t' then ['\\', 't']
  else if c.toNat = 8 then ['\\', 'b']
  else if c.toNat = 12 then ['\\', 'f']
  else if c.toNat < 32 then
    ['\\', 'u', '0', '0', Nat.digitChar (c.toNat / 16), Nat.digitChar (c.toNat % 16)]
  else [c]

/-- The rest of a string after its opening quote. -/
def writeChars (cs : List Char) : List Char := cs.flatMap escapeChar ++ ['"']

/-- `encode_basestring`. -/
def writeString (s : String) : List Char := '"' :: writeChars s.toList

namespace Json

mutual

/-- The text of a value, with the keys in the order they have. -/
def write (number : NumberText) : Json → List Char
  | null => ['n', 'u', 'l', 'l']
  | bool b => if b then ['t', 'r', 'u', 'e'] else ['f', 'a', 'l', 's', 'e']
  | num q => number.text q
  | str s => writeString s
  | arr items => '[' :: writeItems number true items
  | obj fields => '{' :: writeFields number true fields

/-- The rest of an array; a comma precedes every item but the first. -/
def writeItems (number : NumberText) : Bool → List Json → List Char
  | _, [] => [']']
  | first, v :: items =>
    (if first then [] else [',']) ++ (write number v ++ writeItems number false items)

/-- The rest of an object. -/
def writeFields (number : NumberText) : Bool → List (String × Json) → List Char
  | _, [] => ['}']
  | first, (key, v) :: fields =>
    (if first then [] else [',']) ++
      (writeString key ++ ':' :: (write number v ++ writeFields number false fields))

end

end Json

/-! ## Strings can be read back -/

/-- The value of a hexadecimal digit. -/
def hexValue (c : Char) : ℕ := (List.range 16).findIdx fun n ↦ Nat.digitChar n = c

/-- The character that an escape stands for, from after its backslash on. -/
def unescapeRest : List Char → Option (Char × List Char)
  | 'n' :: rest => some ('\n', rest)
  | 'r' :: rest => some ('\r', rest)
  | 't' :: rest => some ('\t', rest)
  | 'b' :: rest => some (Char.ofNat 8, rest)
  | 'f' :: rest => some (Char.ofNat 12, rest)
  | 'u' :: '0' :: '0' :: high :: low :: rest =>
    some (Char.ofNat (16 * hexValue high + hexValue low), rest)
  | c :: rest => some (c, rest)
  | [] => none

/-- The first character of an escaped text. -/
def unescape : List Char → Option (Char × List Char)
  | [] => none
  | c :: rest => if c = '\\' then unescapeRest rest else some (c, rest)

theorem hexValue_digitChar : ∀ n < 16, hexValue (Nat.digitChar n) = n := by decide

theorem eq_ofNat_of_toNat {c : Char} {n : ℕ} (h : c.toNat = n) : c = Char.ofNat n := by
  rw [← h, Char.ofNat_toNat]

theorem unescape_escapeChar (c : Char) (rest : List Char) :
    unescape (escapeChar c ++ rest) = some (c, rest) := by
  rw [escapeChar]
  split
  · rename_i h; subst h; rfl
  split
  · rename_i h; subst h; rfl
  split
  · rename_i h; subst h; rfl
  split
  · rename_i h; subst h; rfl
  split
  · rename_i h; subst h; rfl
  split
  · rename_i h; rw [eq_ofNat_of_toNat h]; rfl
  split
  · rename_i h; rw [eq_ofNat_of_toNat h]; rfl
  split
  · rename_i hcontrol
    have hhigh := hexValue_digitChar (c.toNat / 16) (by omega)
    have hlow := hexValue_digitChar (c.toNat % 16) (by omega)
    have hvalue : 16 * (c.toNat / 16) + c.toNat % 16 = c.toNat := Nat.div_add_mod _ _
    change some (Char.ofNat (16 * hexValue _ + hexValue _), rest) = _
    rw [hhigh, hlow, hvalue, Char.ofNat_toNat]
  · rename_i _ hbackslash _ _ _ _ _ _
    exact if_neg hbackslash

/-- No escape is empty or begins with the closing quote. -/
theorem escapeChar_ne_quote (c : Char) (rest s : List Char) : escapeChar c ++ rest ≠ '"' :: s := by
  intro h
  have hread := unescape_escapeChar c rest
  rw [h] at hread
  have hquote : unescape ('"' :: s) = some ('"', s) := rfl
  obtain ⟨rfl, rfl⟩ := by simpa using hquote.symm.trans hread
  exact absurd h nofun

/-- The escapes of characters form a prefix code. -/
theorem escapeChar_append_inj {c d : Char} {s t : List Char}
    (h : escapeChar c ++ s = escapeChar d ++ t) : c = d ∧ s = t := by
  have hread := unescape_escapeChar c s
  rw [h, unescape_escapeChar] at hread
  obtain ⟨rfl, rfl⟩ := by simpa using hread
  exact ⟨rfl, rfl⟩

theorem writeChars_append_inj {cs ds s t : List Char}
    (h : writeChars cs ++ s = writeChars ds ++ t) : cs = ds ∧ s = t := by
  induction cs generalizing ds with
  | nil =>
    cases ds with
    | nil => exact ⟨rfl, by simpa [writeChars] using h⟩
    | cons d ds =>
      refine absurd h.symm ?_
      simp only [writeChars, List.flatMap_cons, List.append_assoc]
      exact escapeChar_ne_quote d _ _
  | cons c cs ih =>
    cases ds with
    | nil =>
      refine absurd h ?_
      simp only [writeChars, List.flatMap_cons, List.append_assoc]
      exact escapeChar_ne_quote c _ _
    | cons d ds =>
      simp only [writeChars, List.flatMap_cons, List.append_assoc] at h ih
      obtain ⟨rfl, hrest⟩ := escapeChar_append_inj h
      obtain ⟨rfl, rfl⟩ := ih hrest
      exact ⟨rfl, rfl⟩

theorem writeString_append_inj {a b : String} {s t : List Char}
    (h : writeString a ++ s = writeString b ++ t) : a = b ∧ s = t := by
  obtain ⟨hlist, rfl⟩ := writeChars_append_inj (List.cons.inj h).2
  exact ⟨String.toList_inj.mp hlist, rfl⟩

/-! ## Values can be told apart -/

/-- A character of a number. -/
def isNumberChar (c : Char) : Bool := c.isDigit || c == '-' || c == '+' || c == '.' || c == 'e'

/-- What follows a value does not go on with a number. -/
def Delimited (s : List Char) : Prop := ∀ c ∈ s.head?, isNumberChar c = false

namespace NumberText

variable (number : NumberText)

theorem isNumberChar_of_mem {q : Rat} {c : Char} (h : c ∈ number.text q) :
    isNumberChar c = true := by
  rcases number.chars q c h with hdigit | rfl | rfl | rfl | rfl
  · rw [isNumberChar, hdigit]
    rfl
  all_goals rfl

variable {number} in
theorem text_append_inj {q q' : Rat} {s t : List Char} (hs : Delimited s) (ht : Delimited t)
    (h : number.text q ++ s = number.text q' ++ t) : q = q' ∧ s = t := by
  have htake : ∀ p : Rat, ∀ r, Delimited r →
      (number.text p ++ r).takeWhile isNumberChar = number.text p := by
    intro p r hr
    rw [List.takeWhile_append_of_pos fun c ↦ number.isNumberChar_of_mem]
    cases r with
    | nil => exact List.append_nil _
    | cons c r =>
      rw [List.takeWhile_cons_of_neg (by simpa using hr c rfl)]
      exact List.append_nil _
  have htext : number.text q = number.text q' := by rw [← htake q s hs, h, htake q' t ht]
  rw [htext] at h
  exact ⟨number.injective q q' htext, List.append_cancel_left h⟩

end NumberText

namespace Json

/-- The kind of value that a first character announces. -/
def kindOfChar (c : Char) : ℕ :=
  if isNumberChar c then 0
  else if c = 'n' then 1
  else if c = 't' then 2
  else if c = 'f' then 3
  else if c = '"' then 4
  else if c = '[' then 5
  else if c = '{' then 6
  else 7

/-- The kind of a value. -/
def kind : Json → ℕ
  | num _ => 0
  | null => 1
  | bool b => if b then 2 else 3
  | str _ => 4
  | arr _ => 5
  | obj _ => 6

variable {number : NumberText}

variable (number) in
theorem exists_head (v : Json) : ∃ c rest, write number v = c :: rest ∧ kindOfChar c = v.kind := by
  cases v with
  | null => exact ⟨_, _, by rw [write], rfl⟩
  | bool b =>
    cases b with
    | true => exact ⟨_, _, by rw [write, if_pos rfl], rfl⟩
    | false => exact ⟨_, _, by rw [write, if_neg nofun], rfl⟩
  | num q =>
    obtain ⟨c, rest, htext⟩ := List.exists_cons_of_ne_nil (number.ne_nil q)
    refine ⟨c, rest, by rw [write, htext], ?_⟩
    rw [kindOfChar, if_pos (number.isNumberChar_of_mem (htext ▸ List.mem_cons_self))]
    rfl
  | str s => exact ⟨_, _, by rw [write, writeString], rfl⟩
  | arr items => exact ⟨_, _, by rw [write], rfl⟩
  | obj fields => exact ⟨_, _, by rw [write], rfl⟩

/-- Values with the same text are of the same kind. -/
theorem kind_eq_of_write {v w : Json} {s t : List Char}
    (h : write number v ++ s = write number w ++ t) : v.kind = w.kind := by
  obtain ⟨c, rest, hv, hkind⟩ := exists_head number v
  obtain ⟨d, rest', hw, hkind'⟩ := exists_head number w
  rw [hv, hw] at h
  rw [← hkind, ← hkind', (List.cons.inj h).1]

theorem write_ne_bracket (v : Json) (s t : List Char) : write number v ++ s ≠ ']' :: t := by
  intro h
  obtain ⟨c, rest, hv, hkind⟩ := exists_head number v
  rw [hv] at h
  rw [(List.cons.inj h).1] at hkind
  cases v with
  | bool b => cases b <;> cases hkind
  | _ => cases hkind

theorem delimited_writeItems (items : List Json) (s : List Char) :
    Delimited (writeItems number false items ++ s) := by
  cases items with
  | nil =>
    intro c hc
    rw [writeItems] at hc
    obtain rfl := Option.some.inj hc
    rfl
  | cons v items =>
    intro c hc
    rw [writeItems] at hc
    obtain rfl := Option.some.inj hc
    rfl

theorem delimited_writeFields (fields : List (String × Json)) (s : List Char) :
    Delimited (writeFields number false fields ++ s) := by
  cases fields with
  | nil =>
    intro c hc
    rw [writeFields] at hc
    obtain rfl := Option.some.inj hc
    rfl
  | cons field fields =>
    intro c hc
    rw [writeFields] at hc
    obtain rfl := Option.some.inj hc
    rfl

mutual

/-- The texts of values form a prefix code, as long as no number is continued. -/
theorem write_append_inj : ∀ (v w : Json) {s t : List Char}, Delimited s → Delimited t →
    write number v ++ s = write number w ++ t → v = w ∧ s = t
  | null, w, s, t, _, _, h => by
    cases w with
    | null => exact ⟨rfl, List.append_cancel_left h⟩
    -- The first character tells the kind of the value.
    | bool b => cases b <;> cases kind_eq_of_write h
    | _ => cases kind_eq_of_write h
  | bool b, w, s, t, _, _, h => by
    cases w with
    | bool b' =>
      have hb : b = b' := by
        have hkind := kind_eq_of_write h
        revert hkind
        cases b <;> cases b' <;> decide
      subst hb
      exact ⟨rfl, List.append_cancel_left h⟩
    | _ => cases b <;> cases kind_eq_of_write h
  | num q, w, s, t, hs, ht, h => by
    cases w with
    | num q' =>
      rw [write, write] at h
      obtain ⟨rfl, rfl⟩ := NumberText.text_append_inj hs ht h
      exact ⟨rfl, rfl⟩
    | bool b => cases b <;> cases kind_eq_of_write h
    | _ => cases kind_eq_of_write h
  | str a, w, s, t, _, _, h => by
    cases w with
    | str b =>
      rw [write, write] at h
      obtain ⟨rfl, rfl⟩ := writeString_append_inj h
      exact ⟨rfl, rfl⟩
    | bool b => cases b <;> cases kind_eq_of_write h
    | _ => cases kind_eq_of_write h
  | arr items, w, s, t, _, _, h => by
    cases w with
    | arr items' =>
      rw [write, write] at h
      obtain ⟨rfl, rfl⟩ := writeItems_append_inj true items items' (List.cons.inj h).2
      exact ⟨rfl, rfl⟩
    | bool b => cases b <;> cases kind_eq_of_write h
    | _ => cases kind_eq_of_write h
  | obj fields, w, s, t, _, _, h => by
    cases w with
    | obj fields' =>
      rw [write, write] at h
      obtain ⟨rfl, rfl⟩ := writeFields_append_inj true fields fields' (List.cons.inj h).2
      exact ⟨rfl, rfl⟩
    | bool b => cases b <;> cases kind_eq_of_write h
    | _ => cases kind_eq_of_write h

theorem writeItems_append_inj : ∀ (first : Bool) (items items' : List Json) {s t : List Char},
    writeItems number first items ++ s = writeItems number first items' ++ t →
      items = items' ∧ s = t
  | first, [], [], s, t, h => by
    rw [writeItems] at h
    exact ⟨rfl, List.append_cancel_left h⟩
  | first, [], w :: items', s, t, h => by
    rw [writeItems, writeItems, List.append_assoc, List.append_assoc] at h
    cases first with
    | true => exact absurd h.symm (write_ne_bracket w _ _)
    | false => cases h
  | first, v :: items, [], s, t, h => by
    rw [writeItems, writeItems, List.append_assoc, List.append_assoc] at h
    cases first with
    | true => exact absurd h (write_ne_bracket v _ _)
    | false => cases h
  | first, v :: items, w :: items', s, t, h => by
    rw [writeItems, writeItems, List.append_assoc, List.append_assoc, List.append_assoc,
      List.append_assoc] at h
    obtain ⟨rfl, hrest⟩ := write_append_inj v w (delimited_writeItems _ _)
      (delimited_writeItems _ _) (List.append_cancel_left h)
    obtain ⟨rfl, rfl⟩ := writeItems_append_inj false items items' hrest
    exact ⟨rfl, rfl⟩

theorem writeFields_append_inj : ∀ (first : Bool) (fields fields' : List (String × Json))
    {s t : List Char},
    writeFields number first fields ++ s = writeFields number first fields' ++ t →
      fields = fields' ∧ s = t
  | first, [], [], s, t, h => by
    rw [writeFields] at h
    exact ⟨rfl, List.append_cancel_left h⟩
  | first, [], (key, w) :: fields', s, t, h => by
    rw [writeFields, writeFields] at h
    cases first with
    | true => cases h
    | false => cases h
  | first, (key, v) :: fields, [], s, t, h => by
    rw [writeFields, writeFields] at h
    cases first with
    | true => cases h
    | false => cases h
  | first, (key, v) :: fields, (key', w) :: fields', s, t, h => by
    rw [writeFields, writeFields, List.append_assoc, List.append_assoc, List.append_assoc,
      List.append_assoc] at h
    obtain ⟨rfl, hvalue⟩ := writeString_append_inj (List.append_cancel_left h)
    rw [List.cons_append, List.cons_append, List.append_assoc, List.append_assoc] at hvalue
    obtain ⟨rfl, hrest⟩ := write_append_inj v w (delimited_writeFields _ _)
      (delimited_writeFields _ _) (List.cons.inj hvalue).2
    obtain ⟨rfl, rfl⟩ := writeFields_append_inj false fields fields' hrest
    exact ⟨rfl, rfl⟩

end

/-- **Writing is injective.** -/
theorem write_injective {v w : Json} (h : write number v = write number w) : v = w := by
  have hnil : Delimited [] := nofun
  exact (write_append_inj v w hnil hnil (by rw [h])).1

/-! ## The canonical text -/

/-- `json.dumps(value, sort_keys=True, separators=(",", ":"), ensure_ascii=False)`. -/
def dumps (number : NumberText) (v : Json) : String := String.ofList (write number v.sortKeys)

/-- **The canonical text determines the value up to the order of its keys.** -/
theorem dumps_injective {v w : Json} (h : dumps number v = dumps number w) :
    v.sortKeys = w.sortKeys := write_injective (String.ofList_injective h)

/-! ## Up to the order of keys -/

variable {fields fields' : List (String × Json)}

theorem map_fst_sortFields (fields : List (String × Json)) :
    (sortFields fields).map Prod.fst = fields.map Prod.fst := by
  induction fields with
  | nil => rfl
  | cons field fields ih =>
    rw [sortFields, List.map_cons, List.map_cons, ih]

theorem perm_of_sortKeys_obj (h : (obj fields).sortKeys = (obj fields').sortKeys) :
    (sortFields fields).Perm (sortFields fields') := by
  rw [sortKeys, sortKeys] at h
  have hperm := List.mergeSort_perm (sortFields fields) fun field field' ↦ field.1 ≤ field'.1
  rw [obj.inj h] at hperm
  exact hperm.symm.trans (List.mergeSort_perm _ _)

/-- Objects without repeated keys agree up to the order of keys when their entries do. -/
theorem sortKeys_obj_eq_iff (hnodup : (fields.map Prod.fst).Nodup) :
    (obj fields).sortKeys = (obj fields').sortKeys ↔
      (sortFields fields).Perm (sortFields fields') := by
  refine ⟨perm_of_sortKeys_obj, fun hperm ↦ ?_⟩
  rw [sortKeys, sortKeys]
  refine congrArg obj (mergeSort_text_eq ?_ hperm)
  rw [map_fst_sortFields]
  exact hnodup

/-! ## Distinct keys -/

mutual

/-- No object in the value has two entries for one key. -/
def DistinctKeys : Json → Prop
  | arr items => DistinctItems items
  | obj fields => (fields.map Prod.fst).Nodup ∧ DistinctFields fields
  | null | bool _ | num _ | str _ => True

def DistinctItems : List Json → Prop
  | [] => True
  | v :: items => DistinctKeys v ∧ DistinctItems items

def DistinctFields : List (String × Json) → Prop
  | [] => True
  | (_, v) :: fields => DistinctKeys v ∧ DistinctFields fields

end

theorem distinctFields_iff : DistinctFields fields ↔ ∀ field ∈ fields, DistinctKeys field.2 := by
  induction fields with
  | nil => simp [DistinctFields]
  | cons field fields ih => rw [DistinctFields, ih, List.forall_mem_cons]

mutual

/-- Sorting leaves distinct keys distinct. -/
theorem distinctKeys_sortKeys : ∀ v : Json, DistinctKeys v → DistinctKeys v.sortKeys
  | arr items, h => by
    rw [sortKeys, DistinctKeys]
    exact distinctItems_sortItems items h
  | obj fields, ⟨hnodup, hfields⟩ => by
    have hperm := List.mergeSort_perm (sortFields fields) fun field field' ↦ field.1 ≤ field'.1
    rw [sortKeys, DistinctKeys, (hperm.map Prod.fst).nodup_iff, map_fst_sortFields,
      distinctFields_iff]
    refine ⟨hnodup, fun field hmem ↦ ?_⟩
    exact distinctFields_iff.mp (distinctFields_sortFields fields hfields) field
      (hperm.mem_iff.mp hmem)
  | null, _ | bool _, _ | num _, _ | str _, _ => trivial

theorem distinctItems_sortItems : ∀ items : List Json, DistinctItems items →
    DistinctItems (sortItems items)
  | [], _ => trivial
  | v :: items, ⟨hv, hitems⟩ => ⟨distinctKeys_sortKeys v hv, distinctItems_sortItems items hitems⟩

theorem distinctFields_sortFields : ∀ fields : List (String × Json), DistinctFields fields →
    DistinctFields (sortFields fields)
  | [], _ => trivial
  | (_, v) :: fields, ⟨hv, hfields⟩ =>
    ⟨distinctKeys_sortKeys v hv, distinctFields_sortFields fields hfields⟩

end

end Json

/-! ## Decimal numbers -/

namespace NumberText

/-- An integer in decimal. -/
def integerText (z : ℤ) : List Char :=
  (if z < 0 then ['-'] else []) ++ Nat.toDigits 10 z.natAbs

theorem isDigit_of_mem_toDigits {n : ℕ} {c : Char} (h : c ∈ Nat.toDigits 10 n) :
    c.isDigit = true :=
  Nat.isDigit_of_mem_toDigits (by decide) (by decide) h

theorem toDigits_injective {m n : ℕ} (h : Nat.toDigits 10 m = Nat.toDigits 10 n) : m = n := by
  rw [← Nat.ofDigitChars_ten_toDigits (n := m), h, Nat.ofDigitChars_ten_toDigits]

theorem toDigits_ne_cons_minus {n : ℕ} {cs : List Char} : Nat.toDigits 10 n ≠ '-' :: cs := by
  intro h
  have hdigit : '-'.isDigit = true := isDigit_of_mem_toDigits (n := n) (h ▸ List.mem_cons_self)
  cases hdigit

theorem isDigit_or_minus_of_mem_integerText {z : ℤ} {c : Char} (h : c ∈ integerText z) :
    c.isDigit = true ∨ c = '-' := by
  rcases List.mem_append.mp h with hsign | hdigits
  · split at hsign
    · exact Or.inr (List.mem_singleton.mp hsign)
    · cases hsign
  · exact Or.inl (isDigit_of_mem_toDigits hdigits)

theorem integerText_injective {y z : ℤ} (h : integerText y = integerText z) : y = z := by
  rw [integerText, integerText] at h
  split at h
  · split at h
    · have habs := toDigits_injective (List.cons.inj h).2
      omega
    · exact absurd h.symm toDigits_ne_cons_minus
  · split at h
    · exact absurd h toDigits_ne_cons_minus
    · have habs := toDigits_injective h
      omega

/-- Integers in decimal; other numbers have their denominator after an `e`. -/
def decimalText (q : Rat) : List Char :=
  integerText q.num ++ if q.den = 1 then [] else 'e' :: Nat.toDigits 10 q.den

theorem takeWhile_decimalText (q : Rat) :
    (decimalText q).takeWhile (· ≠ 'e') = integerText q.num ∧
      (decimalText q).dropWhile (· ≠ 'e') =
        if q.den = 1 then [] else 'e' :: Nat.toDigits 10 q.den := by
  have hall : ∀ c ∈ integerText q.num, decide (c ≠ 'e') = true := by
    intro c hc
    refine decide_eq_true ?_
    rintro rfl
    rcases isDigit_or_minus_of_mem_integerText hc with hdigit | hminus
    · cases hdigit
    · cases hminus
  rw [decimalText, List.takeWhile_append_of_pos hall, List.dropWhile_append_of_pos hall]
  split
  · simp
  · simp

theorem decimalText_injective {q r : Rat} (h : decimalText q = decimalText r) : q = r := by
  obtain ⟨htake, hdrop⟩ := takeWhile_decimalText q
  obtain ⟨htake', hdrop'⟩ := takeWhile_decimalText r
  rw [h] at htake hdrop
  have hnum : q.num = r.num := integerText_injective (htake.symm.trans htake')
  have hden : q.den = r.den := by
    have hsame := hdrop.symm.trans hdrop'
    split at hsame
    · split at hsame
      · rename_i hq hr
        exact hq.trans hr.symm
      · cases hsame
    · split at hsame
      · cases hsame
      · exact toDigits_injective (List.cons.inj hsame).2
  exact Rat.ext hnum hden

/-- Decimal text. -/
def decimal : NumberText where
  text := decimalText
  ne_nil q h := by
    have hdigits := (List.append_eq_nil_iff.mp (List.append_eq_nil_iff.mp h).1).2
    exact Nat.toDigits_ne_nil hdigits
  chars q c hc := by
    rcases List.mem_append.mp hc with hinteger | hden
    · rcases isDigit_or_minus_of_mem_integerText hinteger with hdigit | hminus
      · exact Or.inl hdigit
      · exact Or.inr (Or.inl hminus)
    · split at hden
      · cases hden
      · rcases List.mem_cons.mp hden with he | hdigits
        · exact Or.inr (Or.inr (Or.inr (Or.inr he)))
        · exact Or.inl (isDigit_of_mem_toDigits hdigits)
  injective _ _ := decimalText_injective

example : decimal.text (-12) = "-12".toList := rfl

end NumberText

end Python
