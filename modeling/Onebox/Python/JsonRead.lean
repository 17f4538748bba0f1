import Mathlib.Data.Rat.Defs
import Onebox.Python.Digits
import Onebox.Python.JsonText
import Onebox.Python.Codecs

/-!
# Reading JSON

`json.loads` of a text and of bytes in UTF-8, and `json.dumps(fields, separators=(",", ":"))` of an
object of strings, with everything but ASCII escaped. What has been written is read back.

`NaN` and the infinities, for which `Json` has no number, are refused, and so is nothing else that
the interpreter reads. A lone surrogate is replaced, as strings are of scalar values here.
-/

namespace Python

/-! ## Strings -/

/-- `BACKSLASH`. -/
def backslashUnit (c : Char) : Option ℕ :=
  if c = '"' ∨ c = '\\' ∨ c = '/' then some c.toNat
  else if c = 'b' then some 8
  else if c = 'f' then some 12
  else if c = 'n' then some 10
  else if c = 'r' then some 13
  else if c = 't' then some 9
  else none

/-- The code points of a string, from after its opening quote on, and what follows it. -/
def scanUnits : List Char → Option (List ℕ × List Char)
  | [] => none
  | c :: rest =>
    if c = '"' then some ([], rest)
    else if c = '\\' then
      match rest with
      | [] => none
      | escape :: rest =>
        if escape = 'u' then
          match rest with
          | a :: b :: c :: d :: rest =>
            match readDigits 16 [a, b, c, d] with
            | none => none
            | some unit => (scanUnits rest).map fun found ↦ (unit :: found.1, found.2)
          | _ => none
        else
          match backslashUnit escape with
          | none => none
          | some unit => (scanUnits rest).map fun found ↦ (unit :: found.1, found.2)
    else if c.toNat < 32 then none
    else (scanUnits rest).map fun found ↦ (c.toNat :: found.1, found.2)

/-- `chr(unit)`, where that is a scalar value. -/
def charOfUnit (unit : ℕ) : Char :=
  if unit.isValidChar then Char.ofNat unit else replacementCharacter

/-- The characters of the code points: two surrogates that belong together are one. -/
def joinSurrogates : List ℕ → List Char
  | [] => []
  | [unit] => [charOfUnit unit]
  | unit :: unit' :: units =>
    if 0xD800 ≤ unit ∧ unit ≤ 0xDBFF ∧ 0xDC00 ≤ unit' ∧ unit' ≤ 0xDFFF then
      Char.ofNat (0x10000 + ((unit - 0xD800) * 1024 + (unit' - 0xDC00))) :: joinSurrogates units
    else charOfUnit unit :: joinSurrogates (unit' :: units)

/-- `scanstring`. -/
def scanString (cs : List Char) : Option (String × List Char) :=
  (scanUnits cs).map fun found ↦ (String.ofList (joinSurrogates found.1), found.2)

/-! ## Numbers -/

/-- `\d+`. -/
def scanDigits (cs : List Char) : Option (List Char × List Char) :=
  if (cs.takeWhile Char.isDigit).isEmpty then none
  else some (cs.takeWhile Char.isDigit, cs.dropWhile Char.isDigit)

/-- `0|[1-9]\d*`. -/
def scanInteger (cs : List Char) : Option (List Char × List Char) :=
  match cs with
  | '0' :: rest => some (['0'], rest)
  | cs => scanDigits cs

/-- `(\.\d+)?`. -/
def scanFraction (cs : List Char) : List Char × List Char :=
  match cs with
  | '.' :: rest => (scanDigits rest).getD ([], cs)
  | cs => ([], cs)

/-- `([eE][-+]?\d+)?`. -/
def scanExponent (cs : List Char) : Option ℤ × List Char :=
  match cs with
  | e :: rest =>
    if e = 'e' ∨ e = 'E' then
      let sign : ℤ := if rest.head? = some '-' then -1 else 1
      let unsigned := if rest.head? = some '-' ∨ rest.head? = some '+' then rest.tail else rest
      match scanDigits unsigned with
      | none => (none, cs)
      | some (digits, rest) => (some (sign * (readDigits 10 digits).getD 0), rest)
    else (none, cs)
  | [] => (none, cs)

/-- `NUMBER_RE`, and the number found; an integer of too many digits is the `ValueError`. -/
def scanNumber (cs : List Char) : Option (Rat × List Char) := do
  let sign : Rat := if cs.head? = some '-' then -1 else 1
  let (integer, rest) ← scanInteger (if cs.head? = some '-' then cs.tail else cs)
  let (fraction, rest) := scanFraction rest
  let (exponent, rest) := scanExponent rest
  if fraction.isEmpty ∧ exponent = none ∧ 4300 < integer.length then none
  let mantissa := (readDigits 10 (integer ++ fraction)).getD 0
  return (sign * mantissa * (10 : Rat) ^ (exponent.getD 0 - fraction.length), rest)

/-! ## Values -/

/-- `WHITESPACE`. -/
def skipJsonSpace (cs : List Char) : List Char :=
  cs.dropWhile fun c ↦ c = ' ' || c = '\t' || c = '\n' || c = '\r'

/-- `fields[key] = value`. -/
def insertField (key : String) (value : Json) : List (String × Json) → List (String × Json)
  | [] => [(key, value)]
  | field :: fields =>
    if field.1 = key then (key, value) :: fields else field :: insertField key value fields

/-- `dict(pairs)`. -/
def dictOfPairs (pairs : List (String × Json)) : List (String × Json) :=
  pairs.foldl (fun fields pair ↦ insertField pair.1 pair.2 fields) []

mutual

/-- `scan_once`; `none` is the `JSONDecodeError`. -/
def scanOnce : ℕ → List Char → Option (Json × List Char)
  | 0, _ => none
  | _ + 1, [] => none
  | fuel + 1, c :: rest =>
    if c = '"' then (scanString rest).map fun found ↦ (.str found.1, found.2)
    else if c = '{' then
      match skipJsonSpace rest with
      | [] => none
      | d :: rest =>
        if d = '}' then some (.obj [], rest)
        else if d = '"' then
          (scanMembers fuel rest).map fun found ↦ (.obj (dictOfPairs found.1), found.2)
        else none
    else if c = '[' then
      match skipJsonSpace rest with
      | [] => none
      | d :: rest =>
        if d = ']' then some (.arr [], rest)
        else (scanItems fuel (d :: rest)).map fun found ↦ (.arr found.1, found.2)
    else if "null".toList.isPrefixOf (c :: rest) then some (.null, rest.drop 3)
    else if "true".toList.isPrefixOf (c :: rest) then some (.bool true, rest.drop 3)
    else if "false".toList.isPrefixOf (c :: rest) then some (.bool false, rest.drop 4)
    else (scanNumber (c :: rest)).map fun found ↦ (.num found.1, found.2)

/-- The pairs of an object, from after the opening quote of a key on. -/
def scanMembers : ℕ → List Char → Option (List (String × Json) × List Char)
  | 0, _ => none
  | fuel + 1, cs =>
    match scanString cs with
    | none => none
    | some (key, rest) =>
      match skipJsonSpace rest with
      | [] => none
      | colon :: rest =>
        if colon ≠ ':' then none
        else
          match scanOnce fuel (skipJsonSpace rest) with
          | none => none
          | some (value, rest) =>
            match skipJsonSpace rest with
            | [] => none
            | d :: rest =>
              if d = '}' then some ([(key, value)], rest)
              else if d = ',' then
                match skipJsonSpace rest with
                | [] => none
                | quote :: rest =>
                  if quote ≠ '"' then none
                  else (scanMembers fuel rest).map fun found ↦ ((key, value) :: found.1, found.2)
              else none

/-- The items of an array that has some. -/
def scanItems : ℕ → List Char → Option (List Json × List Char)
  | 0, _ => none
  | fuel + 1, cs =>
    match scanOnce fuel cs with
    | none => none
    | some (value, rest) =>
      match skipJsonSpace rest with
      | [] => none
      | d :: rest =>
        if d = ']' then some ([value], rest)
        else if d = ',' then
          (scanItems fuel (skipJsonSpace rest)).map fun found ↦ (value :: found.1, found.2)
        else none

end

/-- `json.loads(text)`; `none` is its `ValueError`. Each call reads a character, and so the length
bounds the depth of the calls. -/
def loads (cs : List Char) : Option Json :=
  if cs.head? = some (Char.ofNat 0xFEFF) then none
  else
    match scanOnce (cs.length + 1) (skipJsonSpace cs) with
    | none => none
    | some (value, rest) => if (skipJsonSpace rest).isEmpty then some value else none

/-- `text.encode("utf-8")`. -/
def encodeUtf8 (cs : List Char) : Bytes := (String.ofList cs).toUTF8.data.toList

/-- `json.loads(data)` of bytes in UTF-8, which may begin with a mark. -/
def loadsBytes (data : Bytes) : Option Json :=
  match String.fromUTF8? ⟨data.toArray⟩ with
  | none => none
  | some text =>
    loads (if text.toList.head? = some (Char.ofNat 0xFEFF) then text.toList.tail else text.toList)

/-! ## Writing -/

/-- `"\\u{0:04x}".format(unit)`. -/
def unicodeEscape (unit : ℕ) : List Char := '\\' :: 'u' :: padDigits 16 4 unit

/-- The code points that a character is written with. -/
def escapeUnits (c : Char) : List ℕ :=
  if c.toNat < 0x10000 then [c.toNat]
  else [0xD800 + (c.toNat - 0x10000) / 1024, 0xDC00 + (c.toNat - 0x10000) % 1024]

/-- What `encode_basestring_ascii` makes of a character. -/
def escapeAscii (c : Char) : List Char :=
  if c = '"' then ['\\', '"']
  else if c = '\\' then ['\\', '\\']
  else if c = '\n' then ['\\', 'n']
  else if c = '\r' then ['\\', 'r']
  else if c = '\t' then ['\\', 't']
  else if c.toNat = 8 then ['\\', 'b']
  else if c.toNat = 12 then ['\\', 'f']
  else if 32 ≤ c.toNat ∧ c.toNat ≤ 126 then [c]
  else (escapeUnits c).flatMap unicodeEscape

/-- `encode_basestring_ascii`, from after the opening quote on. -/
def writeAscii (cs : List Char) : List Char := cs.flatMap escapeAscii ++ ['"']

/-- The members of an object of strings, from after the opening quote of the first key on. -/
def writeMembers : List (String × String) → List Char
  | [] => []
  | [(key, value)] => writeAscii key.toList ++ ':' :: '"' :: (writeAscii value.toList ++ ['}'])
  | (key, value) :: fields =>
    writeAscii key.toList ++
      ':' :: '"' :: (writeAscii value.toList ++ ',' :: '"' :: writeMembers fields)

/-- `json.dumps(fields, separators=(",", ":"))` of a dictionary of strings. -/
def dumpsStrings (fields : List (String × String)) : List Char :=
  match fields with
  | [] => ['{', '}']
  | fields => '{' :: '"' :: writeMembers fields

/-- The members with `space` after each colon and each comma. -/
def writeMembersSpaced (space : List Char) : List (String × String) → List Char
  | [] => []
  | [(key, value)] =>
    writeAscii key.toList ++ ':' :: (space ++ '"' :: (writeAscii value.toList ++ ['}']))
  | (key, value) :: fields =>
    writeAscii key.toList ++ ':' :: (space ++ '"' :: (writeAscii value.toList ++
      ',' :: (space ++ '"' :: writeMembersSpaced space fields)))

/-- `json.dumps(fields)` of a dictionary of strings. -/
def dumpsStringsSpaced (fields : List (String × String)) : List Char :=
  match fields with
  | [] => ['{', '}']
  | fields => '{' :: '"' :: writeMembersSpaced [' '] fields

theorem writeMembersSpaced_nil (fields : List (String × String)) :
    writeMembersSpaced [] fields = writeMembers fields := by
  induction fields with
  | nil => rfl
  | cons field fields ih =>
    rcases fields with _ | ⟨field', fields⟩
    · rfl
    · rw [writeMembersSpaced.eq_def, writeMembers.eq_def]
      simp only [List.nil_append, ih]

/-! ## Reading what was written -/

section

variable {c : Char} {rest : List Char}

theorem charOfUnit_toNat (c : Char) : charOfUnit c.toNat = c := by
  have hvalid : c.toNat.isValidChar := c.valid
  rw [charOfUnit, if_pos hvalid, Char.ofNat_toNat]

/-- A character below the surrogates' pairs stands for itself, whatever follows. -/
theorem joinSurrogates_cons (c : Char) (units : List ℕ) :
    joinSurrogates (c.toNat :: units) = c :: joinSurrogates units := by
  have hnot : ¬(0xD800 ≤ c.toNat ∧ c.toNat ≤ 0xDBFF) := by
    have hvalid : c.toNat.isValidChar := c.valid
    rw [Nat.isValidChar] at hvalid
    omega
  cases units with
  | nil => exact congrArg (fun d ↦ [d]) (charOfUnit_toNat c)
  | cons unit units =>
    rw [joinSurrogates, if_neg fun h ↦ hnot ⟨h.1, h.2.1⟩, charOfUnit_toNat]

theorem joinSurrogates_escapeUnits (c : Char) (units : List ℕ) :
    joinSurrogates (escapeUnits c ++ units) = c :: joinSurrogates units := by
  rw [escapeUnits]
  by_cases hplain : c.toNat < 0x10000
  · rw [if_pos hplain]
    exact joinSurrogates_cons c units
  · have hvalid : c.toNat.isValidChar := c.valid
    rw [Nat.isValidChar] at hvalid
    have hvalue : 0x10000 + ((0xD800 + (c.toNat - 0x10000) / 1024 - 0xD800) * 1024 +
        (0xDC00 + (c.toNat - 0x10000) % 1024 - 0xDC00)) = c.toNat := by omega
    rw [if_neg hplain]
    change joinSurrogates (_ :: _ :: units) = _
    rw [joinSurrogates, if_pos (by omega), hvalue, Char.ofNat_toNat]

theorem joinSurrogates_flatMap (cs : List Char) :
    joinSurrogates (cs.flatMap escapeUnits) = cs := by
  induction cs with
  | nil => rfl
  | cons c cs ih => rw [List.flatMap_cons, joinSurrogates_escapeUnits, ih]

theorem scanUnits_unicodeEscape {unit : ℕ} (h : unit < 16 ^ 4) (rest : List Char) :
    scanUnits (unicodeEscape unit ++ rest) =
      (scanUnits rest).map fun found ↦ (unit :: found.1, found.2) := by
  have hread := readDigits_padDigits (by decide) (by decide) h
  have hlength : (padDigits 16 4 unit).length = 4 := length_padDigits
  rw [unicodeEscape]
  obtain ⟨a, b, c, d, hdigits⟩ : ∃ a b c d, padDigits 16 4 unit = [a, b, c, d] := ⟨_, _, _, _, rfl⟩
  rw [hdigits] at hread ⊢
  change scanUnits ('\\' :: 'u' :: a :: b :: c :: d :: rest) = _
  rw [scanUnits, if_neg (by decide), if_pos rfl, if_pos rfl, hread]

theorem escapeUnits_lt (c : Char) : ∀ unit ∈ escapeUnits c, unit < 16 ^ 4 := by
  have hvalid : c.toNat.isValidChar := c.valid
  rw [Nat.isValidChar] at hvalid
  intro unit hunit
  rw [escapeUnits] at hunit
  split at hunit
  · rw [List.mem_singleton] at hunit
    omega
  · rw [List.mem_pair] at hunit
    omega

theorem scanUnits_unicodeEscapes {units : List ℕ} (h : ∀ unit ∈ units, unit < 16 ^ 4)
    (rest : List Char) :
    scanUnits (units.flatMap unicodeEscape ++ rest) =
      (scanUnits rest).map fun found ↦ (units ++ found.1, found.2) := by
  induction units with
  | nil =>
    change scanUnits rest = (scanUnits rest).map id
    rw [Option.map_id]
    rfl
  | cons unit units ih =>
    rw [List.forall_mem_cons] at h
    rw [List.flatMap_cons, List.append_assoc, scanUnits_unicodeEscape h.1, ih h.2, Option.map_map]
    rfl

/-- An escape of one letter. -/
theorem scanUnits_backslash {letter : Char} (hletter : letter ≠ 'u')
    (h : backslashUnit letter = some c.toNat) (hplain : c.toNat < 0x10000) (rest : List Char) :
    scanUnits (['\\', letter] ++ rest) =
      (scanUnits rest).map fun found ↦ (escapeUnits c ++ found.1, found.2) := by
  change scanUnits ('\\' :: letter :: rest) = _
  rw [scanUnits.eq_def]
  dsimp only
  rw [if_neg (by decide), if_pos rfl, if_neg hletter, h, escapeUnits, if_pos hplain]
  rfl

theorem scanUnits_escapeAscii (c : Char) (rest : List Char) :
    scanUnits (escapeAscii c ++ rest) =
      (scanUnits rest).map fun found ↦ (escapeUnits c ++ found.1, found.2) := by
  rw [escapeAscii]
  split
  · rename_i h
    exact scanUnits_backslash (by decide) (by rw [h]; rfl) (by rw [h]; decide) rest
  split
  · rename_i h
    exact scanUnits_backslash (by decide) (by rw [h]; rfl) (by rw [h]; decide) rest
  split
  · rename_i h
    exact scanUnits_backslash (by decide) (by rw [h]; rfl) (by rw [h]; decide) rest
  split
  · rename_i h
    exact scanUnits_backslash (by decide) (by rw [h]; rfl) (by rw [h]; decide) rest
  split
  · rename_i h
    exact scanUnits_backslash (by decide) (by rw [h]; rfl) (by rw [h]; decide) rest
  split
  · rename_i h
    exact scanUnits_backslash (by decide) (by rw [h]; rfl) (by rw [h]; decide) rest
  split
  · rename_i h
    exact scanUnits_backslash (by decide) (by rw [h]; rfl) (by rw [h]; decide) rest
  split
  · rename_i hquote hbackslash _ _ _ _ _ hprintable
    have hplain : c.toNat < 0x10000 := by omega
    change scanUnits (c :: rest) = _
    rw [scanUnits.eq_def]
    dsimp only
    rw [if_neg hquote, if_neg hbackslash, if_neg (by omega), escapeUnits, if_pos hplain]
    rfl
  · exact scanUnits_unicodeEscapes (escapeUnits_lt c) rest

theorem scanUnits_writeAscii (cs : List Char) (rest : List Char) :
    scanUnits (writeAscii cs ++ rest) = some (cs.flatMap escapeUnits, rest) := by
  rw [writeAscii]
  induction cs with
  | nil =>
    change scanUnits ('"' :: rest) = _
    rw [scanUnits.eq_def]
    exact if_pos rfl
  | cons c cs ih =>
    rw [List.flatMap_cons, List.append_assoc, List.append_assoc, scanUnits_escapeAscii,
      ← List.append_assoc, ih]
    rfl

/-- **A string is read back.** -/
theorem scanString_writeAscii (s : String) (rest : List Char) :
    scanString (writeAscii s.toList ++ rest) = some (s, rest) := by
  rw [scanString, scanUnits_writeAscii, Option.map_some, joinSurrogates_flatMap,
    String.ofList_toList]

theorem skipJsonSpace_cons (h : (c = ' ' || c = '\t' || c = '\n' || c = '\r') = false)
    (rest : List Char) : skipJsonSpace (c :: rest) = c :: rest :=
  List.dropWhile_cons_of_neg (by rw [h]; exact Bool.false_ne_true)

theorem scanOnce_string (fuel : ℕ) (s : String) (rest : List Char) :
    scanOnce (fuel + 1) ('"' :: (writeAscii s.toList ++ rest)) = some (.str s, rest) := by
  rw [scanOnce, if_pos rfl, scanString_writeAscii]
  rfl

/-- The pair that a field is read as. -/
def stringField (field : String × String) : String × Json := (field.1, .str field.2)

/-- White space before a string is skipped. -/
def Skipped (space : List Char) : Prop :=
  ∀ rest, skipJsonSpace (space ++ '"' :: rest) = '"' :: rest

theorem skipped_nil : Skipped [] := fun _ ↦ rfl

theorem skipped_blank : Skipped [' '] := fun _ ↦ rfl

theorem scanMembers_writeMembersSpaced {space : List Char} (hspace : Skipped space)
    {fields : List (String × String)} (hne : fields ≠ []) {fuel : ℕ}
    (hfuel : fields.length < fuel) (rest : List Char) :
    scanMembers fuel (writeMembersSpaced space fields ++ rest) =
      some (fields.map stringField, rest) := by
  induction fields generalizing fuel with
  | nil => exact absurd rfl hne
  | cons field fields ih =>
    obtain ⟨key, value⟩ := field
    obtain ⟨fuel, rfl⟩ : ∃ k, fuel = k + 2 := ⟨fuel - 2, by simp at hfuel; omega⟩
    rcases fields with _ | ⟨field, fields⟩
    · have htext : writeMembersSpaced space [(key, value)] ++ rest =
          writeAscii key.toList ++
            ':' :: (space ++ '"' :: (writeAscii value.toList ++ '}' :: rest)) := by
        simp [writeMembersSpaced]
      rw [htext, scanMembers, scanString_writeAscii]
      dsimp only
      rw [skipJsonSpace_cons (by decide)]
      dsimp only
      rw [if_neg (by decide), hspace, scanOnce_string]
      dsimp only
      rw [skipJsonSpace_cons (by decide)]
      exact if_pos rfl
    · have htext : writeMembersSpaced space ((key, value) :: field :: fields) ++ rest =
          writeAscii key.toList ++ ':' :: (space ++ '"' :: (writeAscii value.toList ++
            ',' :: (space ++ '"' :: (writeMembersSpaced space (field :: fields) ++ rest)))) := by
        simp [writeMembersSpaced]
      have hrest := @ih (List.cons_ne_nil field fields) (fuel + 1) (by simp at hfuel ⊢; omega)
      rw [htext, scanMembers, scanString_writeAscii]
      dsimp only
      rw [skipJsonSpace_cons (by decide)]
      dsimp only
      rw [if_neg (by decide), hspace, scanOnce_string]
      dsimp only
      rw [skipJsonSpace_cons (by decide)]
      dsimp only
      rw [if_neg (by decide), if_pos rfl, hspace]
      dsimp only
      rw [if_neg (by decide), hrest]
      rfl

theorem length_le_length_writeMembersSpaced (space : List Char)
    (fields : List (String × String)) :
    fields.length ≤ (writeMembersSpaced space fields).length := by
  induction fields with
  | nil => exact Nat.zero_le _
  | cons field fields ih =>
    rcases fields with _ | ⟨field', fields⟩
    · simp only [writeMembersSpaced, List.length_append, List.length_cons, List.length_nil]
      omega
    · rw [writeMembersSpaced.eq_def]
      simp only [List.length_append, List.length_cons] at ih ⊢
      omega

/-- A key that is new goes to the end. -/
theorem insertField_of_not_mem {key : String} {value : Json} {fields : List (String × Json)}
    (h : key ∉ fields.map Prod.fst) : insertField key value fields = fields ++ [(key, value)] := by
  induction fields with
  | nil => rfl
  | cons field fields ih =>
    rw [List.map_cons, List.mem_cons, not_or] at h
    rw [insertField, if_neg fun heq ↦ h.1 heq.symm, ih h.2, List.cons_append]

/-- The keys stay, and the new one is among them. -/
theorem map_fst_insertField (key : String) (value : Json) (fields : List (String × Json)) :
    (insertField key value fields).map Prod.fst =
      if key ∈ fields.map Prod.fst then fields.map Prod.fst else fields.map Prod.fst ++ [key] := by
  by_cases hmem : key ∈ fields.map Prod.fst
  · rw [if_pos hmem]
    induction fields with
    | nil => cases hmem
    | cons field fields ih =>
      rw [insertField]
      by_cases heq : field.1 = key
      · rw [if_pos heq, List.map_cons, List.map_cons, heq]
      · rw [List.map_cons, List.mem_cons, or_iff_right (Ne.symm heq)] at hmem
        rw [if_neg heq, List.map_cons, List.map_cons, ih hmem]
  · rw [if_neg hmem, insertField_of_not_mem hmem, List.map_append]
    rfl

theorem mem_insertField {key : String} {value : Json} {fields : List (String × Json)}
    {field : String × Json} (h : field ∈ insertField key value fields) :
    field = (key, value) ∨ field ∈ fields := by
  induction fields with
  | nil => exact Or.inl (List.mem_singleton.mp h)
  | cons head fields ih =>
    rw [insertField] at h
    split at h
    · rcases List.mem_cons.mp h with rfl | hmem
      · exact Or.inl rfl
      · exact Or.inr (List.mem_cons_of_mem head hmem)
    · rcases List.mem_cons.mp h with rfl | hmem
      · exact Or.inr List.mem_cons_self
      · exact (ih hmem).imp_right (List.mem_cons_of_mem head)

/-- Assigning to a key changes what is found under it. -/
theorem lookup_insertField (key : String) (value : Json) (fields : List (String × Json))
    (name : String) :
    (insertField key value fields).lookup name =
      if name = key then some value else fields.lookup name := by
  induction fields with
  | nil =>
    by_cases hname : name = key
    · rw [if_pos hname, hname]
      exact List.lookup_cons_self
    · rw [if_neg hname, insertField, List.lookup_cons, beq_false_of_ne hname]
  | cons field fields ih =>
    rw [insertField]
    by_cases hfield : field.1 = key
    · rw [if_pos hfield, List.lookup_cons, List.lookup_cons, hfield]
      by_cases hname : name = key
      · rw [if_pos hname, hname, beq_self_eq_true]
      · rw [if_neg hname, beq_false_of_ne hname]
    · rw [if_neg hfield, List.lookup_cons, List.lookup_cons, ih]
      by_cases hname : name = key
      · have hne : name ≠ field.1 := hname ▸ Ne.symm hfield
        rw [if_pos hname, if_pos hname, beq_false_of_ne hne]
      · rw [if_neg hname, if_neg hname]

/-- Assigning to a key of a dictionary gives a dictionary. -/
theorem distinctKeys_insertField {key : String} {value : Json} {fields : List (String × Json)}
    (hvalue : value.DistinctKeys) (hfields : (Json.obj fields).DistinctKeys) :
    (Json.obj (insertField key value fields)).DistinctKeys := by
  rw [Json.DistinctKeys, Json.distinctFields_iff] at hfields ⊢
  constructor
  · rw [map_fst_insertField]
    split
    · exact hfields.1
    · rename_i hnew
      refine List.nodup_append.mpr ⟨hfields.1, List.nodup_singleton key, ?_⟩
      intro name hname name' hname' heq
      rw [List.mem_singleton.mp hname'] at heq
      exact hnew (heq ▸ hname)
  · intro field hmem
    rcases mem_insertField hmem with rfl | hmem
    · exact hvalue
    · exact hfields.2 field hmem

/-- Pairs with different keys are a dictionary as they are. -/
theorem dictOfPairs_of_nodup {pairs : List (String × Json)} (h : (pairs.map Prod.fst).Nodup) :
    dictOfPairs pairs = pairs := by
  have hfold : ∀ fields : List (String × Json), ((fields ++ pairs).map Prod.fst).Nodup →
      pairs.foldl (fun fields pair ↦ insertField pair.1 pair.2 fields) fields =
        fields ++ pairs := by
    clear h
    induction pairs with
    | nil =>
      intro fields _
      rw [List.append_nil]
      rfl
    | cons pair pairs ih =>
      intro fields hnodup
      have hnew : pair.1 ∉ fields.map Prod.fst := by
        rw [List.map_append, List.map_cons] at hnodup
        intro hmem
        exact (List.nodup_append.mp hnodup).2.2 _ hmem _ List.mem_cons_self rfl
      rw [List.foldl_cons, insertField_of_not_mem hnew, ih _ (by simpa using hnodup),
        List.append_assoc, List.singleton_append]
  exact hfold [] h

theorem loads_members {space : List Char} (hspace : Skipped space)
    {fields : List (String × String)} (hne : fields ≠ []) (h : (fields.map Prod.fst).Nodup) :
    loads ('{' :: '"' :: writeMembersSpaced space fields) =
      some (.obj (fields.map stringField)) := by
  have hkeys : ((fields.map stringField).map Prod.fst).Nodup := by
    rwa [List.map_map]
  have hfuel := length_le_length_writeMembersSpaced space fields
  have hread : scanMembers ('{' :: '"' :: writeMembersSpaced space fields).length
      (writeMembersSpaced space fields ++ []) = some (fields.map stringField, []) :=
    scanMembers_writeMembersSpaced hspace hne (by simp at hfuel ⊢; omega) []
  rw [List.append_nil] at hread
  have hmark : some '{' ≠ some (Char.ofNat 0xFEFF) := by decide
  rw [loads, List.head?_cons, if_neg hmark, skipJsonSpace_cons (by decide), scanOnce,
    if_neg (by decide), if_pos rfl, skipJsonSpace_cons (by decide)]
  dsimp only
  rw [if_neg (by decide), if_pos rfl, hread, Option.map_some, dictOfPairs_of_nodup hkeys]
  rfl

/-- **A dictionary of strings is read back.** -/
theorem loads_dumpsStrings {fields : List (String × String)} (h : (fields.map Prod.fst).Nodup) :
    loads (dumpsStrings fields) = some (.obj (fields.map stringField)) := by
  rcases fields with _ | ⟨field, fields⟩
  · rfl
  · have hread := loads_members skipped_nil (List.cons_ne_nil field fields) h
    rwa [writeMembersSpaced_nil] at hread

/-- A dictionary of strings is read back from its text with spaces. -/
theorem loads_dumpsStringsSpaced {fields : List (String × String)}
    (h : (fields.map Prod.fst).Nodup) :
    loads (dumpsStringsSpaced fields) = some (.obj (fields.map stringField)) := by
  rcases fields with _ | ⟨field, fields⟩
  · rfl
  · exact loads_members skipped_blank (List.cons_ne_nil field fields) h

theorem fromUTF8_encodeUtf8 (cs : List Char) :
    String.fromUTF8? ⟨(encodeUtf8 cs).toArray⟩ = some (String.ofList cs) := by
  have hbytes : (⟨(encodeUtf8 cs).toArray⟩ : ByteArray) = (String.ofList cs).toByteArray := by
    rw [encodeUtf8, Array.toArray_toList, String.toUTF8_eq_toByteArray]
  rw [hbytes, String.fromUTF8?, dif_pos (String.ofList cs).isValidUTF8]
  rfl

/-- **A dictionary of strings is read back from its bytes.** -/
theorem loadsBytes_dumpsStrings {fields : List (String × String)}
    (h : (fields.map Prod.fst).Nodup) :
    loadsBytes (encodeUtf8 (dumpsStrings fields)) = some (.obj (fields.map stringField)) := by
  have hmark : (dumpsStrings fields).head? ≠ some (Char.ofNat 0xFEFF) := by
    cases fields with
    | nil => decide
    | cons field fields =>
      change some '{' ≠ _
      decide
  rw [loadsBytes, fromUTF8_encodeUtf8]
  dsimp only
  rw [String.toList_ofList, if_neg hmark, loads_dumpsStrings h]

end

end Python
