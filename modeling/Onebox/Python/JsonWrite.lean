import Onebox.Python.JsonRead

/-!
# Writing JSON

`json.dumps` of any value, with or without `ensure_ascii` and with or without a blank after commas
and colons. No control character is written, and what is written is read back.
-/

namespace Python

/-! ## Styles -/

/-- What `json.dumps` writes for a character of a string, and the code points read from that. -/
structure Escaping where
  escape : Char → List Char
  units : Char → List ℕ
  scanUnits_escape : ∀ c rest, scanUnits (escape c ++ rest) =
    (scanUnits rest).map fun found ↦ (units c ++ found.1, found.2)
  joinSurrogates_units : ∀ c more, joinSurrogates (units c ++ more) = c :: joinSurrogates more
  /-- No control character is written. -/
  printable : ∀ c, ∀ d ∈ escape c, 32 ≤ d.toNat

/-- The arguments of `json.dumps`. -/
structure JsonStyle where
  escaping : Escaping
  number : NumberText
  spaced : Bool

/-- What stands after a comma or a colon. -/
def JsonStyle.space (style : JsonStyle) : List Char := if style.spaced then [' '] else []

section

variable {c d : Char} {rest : List Char}

/-- A visible character of ASCII, or a blank. -/
def Visible (c : Char) : Prop := 32 ≤ c.toNat ∧ c.toNat ≤ 126

instance : DecidablePred Visible := fun _ ↦ inferInstanceAs (Decidable (_ ∧ _))

theorem visible_digitChar : ∀ n < 16, Visible (Nat.digitChar n) := by decide

theorem visible_unicodeEscape {unit : ℕ} (h : d ∈ unicodeEscape unit) : Visible d := by
  rw [unicodeEscape, List.mem_cons, List.mem_cons] at h
  rcases h with rfl | rfl | hdigit
  · decide
  · decide
  · obtain ⟨n, hn, rfl⟩ := exists_of_mem_padDigits (by decide) hdigit
    exact visible_digitChar n hn

theorem visible_letter {letter : Char} (hletter : Visible letter)
    (h : d ∈ ['\\', letter]) : Visible d := by
  rcases List.mem_pair.mp h with rfl | rfl
  · decide
  · exact hletter

theorem visible_escapeAscii (c : Char) : ∀ d ∈ escapeAscii c, Visible d := by
  intro d hd
  rw [escapeAscii] at hd
  split at hd
  · exact visible_letter (by decide) hd
  split at hd
  · exact visible_letter (by decide) hd
  split at hd
  · exact visible_letter (by decide) hd
  split at hd
  · exact visible_letter (by decide) hd
  split at hd
  · exact visible_letter (by decide) hd
  split at hd
  · exact visible_letter (by decide) hd
  split at hd
  · exact visible_letter (by decide) hd
  split at hd
  · rename_i hvisible
    rw [List.mem_singleton.mp hd]
    exact hvisible
  · obtain ⟨unit, -, hunit⟩ := List.mem_flatMap.mp hd
    exact visible_unicodeEscape hunit

/-- `ensure_ascii=True`. -/
def Escaping.ascii : Escaping where
  escape := escapeAscii
  units := escapeUnits
  scanUnits_escape := scanUnits_escapeAscii
  joinSurrogates_units := joinSurrogates_escapeUnits
  printable c d hd := (visible_escapeAscii c d hd).1

/-- Below a blank, `encode_basestring` escapes as `encode_basestring_ascii` does. -/
theorem escapeChar_control : ∀ n < 32,
    ['\\', 'u', '0', '0', Nat.digitChar (n / 16), Nat.digitChar (n % 16)] = unicodeEscape n := by
  decide

theorem scanUnits_letter {letter : Char} (hletter : letter ≠ 'u')
    (h : backslashUnit letter = some c.toNat) (rest : List Char) :
    scanUnits (['\\', letter] ++ rest) =
      (scanUnits rest).map fun found ↦ ([c.toNat] ++ found.1, found.2) := by
  change scanUnits ('\\' :: letter :: rest) = _
  rw [scanUnits.eq_def]
  dsimp only
  rw [if_neg (by decide), if_pos rfl, if_neg hletter, h]
  rfl

theorem scanUnits_escapeChar (c : Char) (rest : List Char) :
    scanUnits (escapeChar c ++ rest) =
      (scanUnits rest).map fun found ↦ ([c.toNat] ++ found.1, found.2) := by
  rw [escapeChar]
  split
  · rename_i h
    exact scanUnits_letter (by decide) (by rw [h]; rfl) rest
  split
  · rename_i h
    exact scanUnits_letter (by decide) (by rw [h]; rfl) rest
  split
  · rename_i h
    exact scanUnits_letter (by decide) (by rw [h]; rfl) rest
  split
  · rename_i h
    exact scanUnits_letter (by decide) (by rw [h]; rfl) rest
  split
  · rename_i h
    exact scanUnits_letter (by decide) (by rw [h]; rfl) rest
  split
  · rename_i h
    exact scanUnits_letter (by decide) (by rw [h]; rfl) rest
  split
  · rename_i h
    exact scanUnits_letter (by decide) (by rw [h]; rfl) rest
  split
  · rename_i h
    rw [escapeChar_control c.toNat h]
    exact scanUnits_unicodeEscape (by omega) rest
  · rename_i hquote hbackslash _ _ _ _ _ hcontrol
    change scanUnits (c :: rest) = _
    rw [scanUnits.eq_def]
    dsimp only
    rw [if_neg hquote, if_neg hbackslash, if_neg hcontrol]
    rfl

theorem printable_escapeChar (c : Char) : ∀ d ∈ escapeChar c, 32 ≤ d.toNat := by
  intro d hd
  rw [escapeChar] at hd
  split at hd
  · exact (visible_letter (by decide) hd).1
  split at hd
  · exact (visible_letter (by decide) hd).1
  split at hd
  · exact (visible_letter (by decide) hd).1
  split at hd
  · exact (visible_letter (by decide) hd).1
  split at hd
  · exact (visible_letter (by decide) hd).1
  split at hd
  · exact (visible_letter (by decide) hd).1
  split at hd
  · exact (visible_letter (by decide) hd).1
  split at hd
  · rename_i h
    rw [escapeChar_control c.toNat h] at hd
    exact (visible_unicodeEscape hd).1
  · rw [List.mem_singleton.mp hd]
    omega

/-- `ensure_ascii=False`. -/
def Escaping.unicode : Escaping where
  escape := escapeChar
  units c := [c.toNat]
  scanUnits_escape := scanUnits_escapeChar
  joinSurrogates_units := joinSurrogates_cons
  printable := printable_escapeChar

end

/-! ## Writing -/

/-- A string, from after its opening quote on. -/
def Escaping.writeRest (escaping : Escaping) (s : String) : List Char :=
  s.toList.flatMap escaping.escape ++ ['"']

namespace Json

variable (style : JsonStyle)

mutual

/-- `json.dumps(value)`. -/
def dump : Json → List Char
  | null => ['n', 'u', 'l', 'l']
  | bool b => if b then ['t', 'r', 'u', 'e'] else ['f', 'a', 'l', 's', 'e']
  | num q => style.number.text q
  | str s => '"' :: style.escaping.writeRest s
  | arr items => '[' :: dumpItems true items
  | obj fields => '{' :: dumpFields true fields

/-- The rest of an array. -/
def dumpItems : Bool → List Json → List Char
  | _, [] => [']']
  | first, v :: items =>
    (if first then [] else ',' :: style.space) ++ (dump v ++ dumpItems false items)

/-- The rest of an object. -/
def dumpFields : Bool → List (String × Json) → List Char
  | _, [] => ['}']
  | first, (key, v) :: fields =>
    (if first then [] else ',' :: style.space) ++ '"' :: (style.escaping.writeRest key ++
      ':' :: (style.space ++ (dump v ++ dumpFields false fields)))

end

/-! ## Control characters -/

theorem printable_writeRest (escaping : Escaping) (s : String) :
    ∀ c ∈ escaping.writeRest s, 32 ≤ c.toNat := by
  intro c hc
  rw [Escaping.writeRest, List.mem_append, List.mem_flatMap, List.mem_singleton] at hc
  rcases hc with ⟨d, -, hd⟩ | rfl
  · exact escaping.printable d c hd
  · decide

theorem printable_space : ∀ c ∈ style.space, 32 ≤ c.toNat := by
  intro c hc
  rw [JsonStyle.space] at hc
  split at hc
  · rw [List.mem_singleton] at hc
    rw [hc]
    decide
  · cases hc

theorem printable_text (q : Rat) : ∀ c ∈ style.number.text q, 32 ≤ c.toNat := by
  intro c hc
  rcases style.number.chars q c hc with hdigit | rfl | rfl | rfl | rfl
  · rw [Char.isDigit, Bool.and_eq_true, decide_eq_true_iff] at hdigit
    have hlow : '0'.toNat ≤ c.toNat := hdigit.1
    exact le_trans (by decide) hlow
  all_goals decide

theorem printable_of_all {l : List Char} (h : (l.all fun c ↦ 32 ≤ c.toNat) = true) :
    ∀ c ∈ l, 32 ≤ c.toNat := fun c hc ↦ of_decide_eq_true (List.all_eq_true.mp h c hc)

theorem printable_separator (first : Bool) :
    ∀ c ∈ (if first then [] else ',' :: style.space), 32 ≤ c.toNat := by
  intro c hc
  cases first with
  | true => cases hc
  | false =>
    rcases List.mem_cons.mp hc with rfl | hc
    · decide
    · exact printable_space style c hc

mutual

/-- **The text of a value is on one line.** -/
theorem printable_dump : ∀ v : Json, ∀ c ∈ dump style v, 32 ≤ c.toNat
  | null => by rw [dump]; exact printable_of_all rfl
  | bool b => by
    rw [dump]
    cases b
    · exact printable_of_all rfl
    · exact printable_of_all rfl
  | num q => by
    rw [dump]
    exact printable_text style q
  | str s => by
    rw [dump, List.forall_mem_cons]
    exact ⟨by decide, printable_writeRest _ s⟩
  | arr items => by
    rw [dump, List.forall_mem_cons]
    exact ⟨by decide, printable_dumpItems true items⟩
  | obj fields => by
    rw [dump, List.forall_mem_cons]
    exact ⟨by decide, printable_dumpFields true fields⟩

theorem printable_dumpItems : ∀ (first : Bool) (items : List Json),
    ∀ c ∈ dumpItems style first items, 32 ≤ c.toNat
  | _, [] => by rw [dumpItems]; exact printable_of_all rfl
  | first, v :: items => by
    rw [dumpItems, List.forall_mem_append, List.forall_mem_append]
    exact ⟨printable_separator style first, printable_dump v, printable_dumpItems false items⟩

theorem printable_dumpFields : ∀ (first : Bool) (fields : List (String × Json)),
    ∀ c ∈ dumpFields style first fields, 32 ≤ c.toNat
  | _, [] => by rw [dumpFields]; exact printable_of_all rfl
  | first, (key, v) :: fields => by
    rw [dumpFields, List.forall_mem_append, List.forall_mem_cons, List.forall_mem_append,
      List.forall_mem_cons, List.forall_mem_append, List.forall_mem_append]
    exact ⟨printable_separator style first, by decide, printable_writeRest _ key, by decide,
      printable_space style, printable_dump v, printable_dumpFields false fields⟩

end

theorem visible_writeAscii (cs : List Char) : ∀ c ∈ writeAscii cs, Visible c := by
  intro c hc
  rw [writeAscii, List.mem_append, List.mem_flatMap, List.mem_singleton] at hc
  rcases hc with ⟨d, -, hd⟩ | rfl
  · exact visible_escapeAscii d c hd
  · decide

theorem visible_of_all {l : List Char} (h : (l.all fun c ↦ Visible c) = true) :
    ∀ c ∈ l, Visible c := fun c hc ↦ of_decide_eq_true (List.all_eq_true.mp h c hc)

theorem visible_writeMembersSpaced (fields : List (String × String)) :
    ∀ c ∈ writeMembersSpaced [' '] fields, Visible c := by
  induction fields with
  | nil => exact List.forall_mem_nil _
  | cons field fields ih =>
    obtain ⟨key, value⟩ := field
    rcases fields with _ | ⟨field, fields⟩
    · rw [writeMembersSpaced.eq_def]
      simp only [List.forall_mem_append, List.forall_mem_cons]
      exact ⟨visible_writeAscii _, by decide, ⟨by decide, List.forall_mem_nil _⟩, by decide,
        visible_writeAscii _, by decide, List.forall_mem_nil _⟩
    · rw [writeMembersSpaced.eq_def]
      simp only [List.forall_mem_append, List.forall_mem_cons]
      exact ⟨visible_writeAscii _, by decide, ⟨by decide, List.forall_mem_nil _⟩, by decide,
        visible_writeAscii _, by decide, ⟨by decide, List.forall_mem_nil _⟩, by decide, ih⟩

/-- What is written of strings is visible. -/
theorem visible_dumpsStringsSpaced (fields : List (String × String)) :
    ∀ c ∈ dumpsStringsSpaced fields, Visible c := by
  rcases fields with _ | ⟨field, fields⟩
  · exact visible_of_all rfl
  · rw [dumpsStringsSpaced.eq_def, List.forall_mem_cons, List.forall_mem_cons]
    exact ⟨by decide, by decide, visible_writeMembersSpaced _⟩

/-! ## Reading what was written -/

/-- What follows a value in an array, in an object and at the end of a text. -/
def AfterValue (rest : List Char) : Prop := ∀ c ∈ rest.head?, c = ',' ∨ c = ']' ∨ c = '}'

mutual

/-- The keys of every object are different, and every number is read back. -/
def Readable : Json → Prop
  | num q => ∀ rest, AfterValue rest → scanNumber (style.number.text q ++ rest) = some (q, rest)
  | arr items => ReadableItems items
  | obj fields => (fields.map Prod.fst).Nodup ∧ ReadableFields fields
  | null | bool _ | str _ => True

def ReadableItems : List Json → Prop
  | [] => True
  | v :: items => Readable v ∧ ReadableItems items

def ReadableFields : List (String × Json) → Prop
  | [] => True
  | (_, v) :: fields => Readable v ∧ ReadableFields fields

end

variable {style}

theorem scanString_writeRest (escaping : Escaping) (s : String) (rest : List Char) :
    scanString (escaping.writeRest s ++ rest) = some (s, rest) := by
  have hunits : ∀ cs : List Char, scanUnits (cs.flatMap escaping.escape ++ '"' :: rest) =
      some (cs.flatMap escaping.units, rest) := by
    intro cs
    induction cs with
    | nil =>
      change scanUnits ('"' :: rest) = _
      rw [scanUnits.eq_def]
      exact if_pos rfl
    | cons c cs ih =>
      rw [List.flatMap_cons, List.append_assoc, escaping.scanUnits_escape, ih]
      rfl
  have hjoin : ∀ cs : List Char, joinSurrogates (cs.flatMap escaping.units) = cs := by
    intro cs
    induction cs with
    | nil => rfl
    | cons c cs ih => rw [List.flatMap_cons, escaping.joinSurrogates_units, ih]
  rw [Escaping.writeRest, List.append_assoc, List.singleton_append, scanString, hunits,
    Option.map_some, hjoin, String.ofList_toList]

/-- A blank is skipped. -/
theorem skipJsonSpace_space (style : JsonStyle) (rest : List Char) :
    skipJsonSpace (style.space ++ rest) = skipJsonSpace rest := by
  rw [JsonStyle.space]
  split
  · rfl
  · rfl

theorem skipJsonSpace_of_kind {c : Char} (h : kindOfChar c < 7) (rest : List Char) :
    skipJsonSpace (c :: rest) = c :: rest := by
  refine skipJsonSpace_cons (Bool.eq_false_iff.mpr fun hblank ↦ ?_) rest
  simp only [Bool.or_eq_true, decide_eq_true_eq] at hblank
  rcases hblank with ((rfl | rfl) | rfl) | rfl
  all_goals exact absurd h (by decide)

theorem kind_lt (v : Json) : v.kind < 7 := by
  cases v with
  | bool b =>
    rw [kind]
    cases b
    · decide
    · decide
  | _ =>
    rw [kind]
    decide

theorem exists_head_dump (style : JsonStyle) (v : Json) :
    ∃ c rest, dump style v = c :: rest ∧ kindOfChar c = v.kind := by
  cases v with
  | null => exact ⟨_, _, by rw [dump], rfl⟩
  | bool b =>
    cases b with
    | true => exact ⟨_, _, by rw [dump, if_pos rfl], rfl⟩
    | false => exact ⟨_, _, by rw [dump, if_neg Bool.false_ne_true], rfl⟩
  | num q =>
    obtain ⟨c, rest, htext⟩ := List.exists_cons_of_ne_nil (style.number.ne_nil q)
    refine ⟨c, rest, by rw [dump, htext], ?_⟩
    rw [kindOfChar, if_pos (style.number.isNumberChar_of_mem (htext ▸ List.mem_cons_self))]
    rfl
  | str s => exact ⟨_, _, by rw [dump], rfl⟩
  | arr items => exact ⟨_, _, by rw [dump], rfl⟩
  | obj fields => exact ⟨_, _, by rw [dump], rfl⟩

/-- No blank stands before a value. -/
theorem skipJsonSpace_dump (style : JsonStyle) (v : Json) (rest : List Char) :
    skipJsonSpace (dump style v ++ rest) = dump style v ++ rest := by
  obtain ⟨c, tail, htext, hkind⟩ := exists_head_dump style v
  rw [htext, List.cons_append]
  exact skipJsonSpace_of_kind (hkind ▸ kind_lt v) (tail ++ rest)

theorem afterValue_dumpItems (style : JsonStyle) (items : List Json) (rest : List Char) :
    AfterValue (dumpItems style false items ++ rest) := by
  intro c hc
  cases items with
  | nil =>
    rw [dumpItems] at hc
    obtain rfl := Option.some.inj hc
    exact Or.inr (Or.inl rfl)
  | cons v items =>
    rw [dumpItems] at hc
    obtain rfl := Option.some.inj hc
    exact Or.inl rfl

theorem afterValue_dumpFields (style : JsonStyle) (fields : List (String × Json))
    (rest : List Char) : AfterValue (dumpFields style false fields ++ rest) := by
  intro c hc
  cases fields with
  | nil =>
    rw [dumpFields] at hc
    obtain rfl := Option.some.inj hc
    exact Or.inr (Or.inr rfl)
  | cons field fields =>
    rw [dumpFields] at hc
    obtain rfl := Option.some.inj hc
    exact Or.inl rfl

/-- A number is what begins like one. -/
theorem scanOnce_number {c : Char} (h : isNumberChar c = true) (fuel : ℕ) (rest : List Char) :
    scanOnce (fuel + 1) (c :: rest) =
      (scanNumber (c :: rest)).map fun found ↦ (.num found.1, found.2) := by
  have hne : ∀ d, isNumberChar d = false → c ≠ d := by
    rintro d hd rfl
    rw [h] at hd
    cases hd
  have hprefix : ∀ d word, isNumberChar d = false → (d :: word).isPrefixOf (c :: rest) = false := by
    intro d word hd
    rw [List.isPrefixOf_cons_cons, beq_false_of_ne (Ne.symm (hne d hd)), Bool.false_and]
  have hnull : "null".toList.isPrefixOf (c :: rest) = false := hprefix 'n' ['u', 'l', 'l'] rfl
  have htrue : "true".toList.isPrefixOf (c :: rest) = false := hprefix 't' ['r', 'u', 'e'] rfl
  have hfalse : "false".toList.isPrefixOf (c :: rest) = false :=
    hprefix 'f' ['a', 'l', 's', 'e'] rfl
  rw [scanOnce, if_neg (hne '"' rfl), if_neg (hne '{' rfl), if_neg (hne '[' rfl),
    if_neg (Bool.eq_false_iff.mp hnull), if_neg (Bool.eq_false_iff.mp htrue),
    if_neg (Bool.eq_false_iff.mp hfalse)]

theorem length_dump_pos (style : JsonStyle) (v : Json) : 0 < (dump style v).length := by
  obtain ⟨c, rest, htext, -⟩ := exists_head_dump style v
  rw [htext]
  exact Nat.succ_pos _

theorem kindOfChar_head_ne {v : Json} {c : Char} (h : kindOfChar c = v.kind) : c ≠ ']' := by
  rintro rfl
  have hlt := kind_lt v
  rw [← h] at hlt
  exact absurd hlt (by decide)

mutual

/-- A value is read back, whatever follows it. -/
theorem scanOnce_dump : ∀ (v : Json) {fuel : ℕ} {rest : List Char}, Readable style v →
    AfterValue rest → (dump style v).length ≤ fuel →
    scanOnce fuel (dump style v ++ rest) = some (v, rest)
  | v, 0, _, _, _, hfuel => absurd hfuel (Nat.not_le_of_lt (length_dump_pos style v))
  | null, fuel + 1, rest, _, _, _ => by
    rw [dump]
    rfl
  | bool true, fuel + 1, rest, _, _, _ => by
    rw [dump]
    rfl
  | bool false, fuel + 1, rest, _, _, _ => by
    rw [dump]
    rfl
  | num q, fuel + 1, rest, hread, hafter, _ => by
    obtain ⟨c, tail, htext⟩ := List.exists_cons_of_ne_nil (style.number.ne_nil q)
    rw [Readable] at hread
    have hnumber := hread rest hafter
    have hc : isNumberChar c = true :=
      style.number.isNumberChar_of_mem (htext ▸ List.mem_cons_self)
    rw [dump]
    rw [htext, List.cons_append] at hnumber ⊢
    rw [scanOnce_number hc, hnumber]
    rfl
  | str s, fuel + 1, rest, _, _, _ => by
    rw [dump, List.cons_append, scanOnce, if_pos rfl, scanString_writeRest]
    rfl
  | arr [], fuel + 1, rest, _, _, _ => by
    rw [dump, dumpItems]
    rfl
  | arr (v :: items), fuel + 1, rest, hread, _, hfuel => by
    rw [Readable] at hread
    rw [dump, List.length_cons] at hfuel
    -- The bracket uses up one unit of the fuel; the items get what is left.
    have hitems := @scanItems_dump v items _ rest hread (Nat.le_of_succ_le_succ hfuel)
    obtain ⟨c, tail, htext, hkind⟩ := exists_head_dump style v
    have hhead : dumpItems style true (v :: items) ++ rest =
        c :: (tail ++ dumpItems style false items ++ rest) := by
      rw [dumpItems, htext]
      simp
    rw [hhead] at hitems
    rw [dump, List.cons_append, scanOnce, if_neg (by decide), if_neg (by decide), if_pos rfl,
      hhead, skipJsonSpace_of_kind (hkind ▸ kind_lt v)]
    dsimp only
    rw [if_neg (kindOfChar_head_ne hkind), hitems]
    rfl
  | obj [], fuel + 1, rest, _, _, _ => by
    rw [dump, dumpFields]
    rfl
  | obj ((key, v) :: fields), fuel + 1, rest, hread, _, hfuel => by
    rw [Readable] at hread
    rw [dump, List.length_cons] at hfuel
    have hmembers := @scanMembers_dump key v fields _ rest hread.2
      (Nat.le_of_succ_le_succ hfuel)
    have hhead : dumpFields style true ((key, v) :: fields) ++ rest =
        '"' :: (style.escaping.writeRest key ++
          ':' :: (style.space ++ (dump style v ++ (dumpFields style false fields ++ rest)))) := by
      rw [dumpFields]
      simp
    rw [dump, List.cons_append, scanOnce, if_neg (by decide), if_pos rfl, hhead,
      skipJsonSpace_cons (by decide)]
    dsimp only
    rw [if_neg (by decide), if_pos rfl, hmembers, Option.map_some, dictOfPairs_of_nodup hread.1]

theorem scanItems_dump : ∀ (v : Json) (items : List Json) {fuel : ℕ} {rest : List Char},
    ReadableItems style (v :: items) → (dumpItems style true (v :: items)).length ≤ fuel →
    scanItems fuel (dumpItems style true (v :: items) ++ rest) = some (v :: items, rest)
  | v, items, 0, _, _, hfuel => by
    have hpos := length_dump_pos style v
    rw [dumpItems, List.length_append, List.length_append] at hfuel
    omega
  | v, items, fuel + 1, rest, hread, hfuel => by
    have hpos := length_dump_pos style v
    rw [ReadableItems] at hread
    rw [dumpItems, List.length_append, List.length_append] at hfuel
    have hvalue := @scanOnce_dump v fuel _ hread.1 (afterValue_dumpItems style items rest)
      (by cases items <;> simp [dumpItems] at hfuel <;> omega)
    rw [dumpItems, if_pos rfl, List.nil_append, List.append_assoc, scanItems, hvalue]
    cases items with
    | nil =>
      rw [dumpItems]
      rfl
    | cons v' items =>
      have hrest := @scanItems_dump v' items fuel rest hread.2
        (by simp [dumpItems] at hfuel ⊢; omega)
      have htext : dumpItems style false (v' :: items) ++ rest =
          ',' :: (style.space ++ (dumpItems style true (v' :: items) ++ rest)) := by
        simp [dumpItems]
      have hskip : skipJsonSpace (dumpItems style true (v' :: items) ++ rest) =
          dumpItems style true (v' :: items) ++ rest := by
        rw [dumpItems, if_pos rfl, List.nil_append, List.append_assoc, skipJsonSpace_dump]
      dsimp only
      rw [htext, skipJsonSpace_cons (by decide)]
      dsimp only
      rw [if_neg (by decide), if_pos rfl, skipJsonSpace_space, hskip, hrest]
      rfl

theorem scanMembers_dump : ∀ (key : String) (v : Json) (fields : List (String × Json))
    {fuel : ℕ} {rest : List Char}, ReadableFields style ((key, v) :: fields) →
    (dumpFields style true ((key, v) :: fields)).length ≤ fuel →
    scanMembers fuel (style.escaping.writeRest key ++
      ':' :: (style.space ++ (dump style v ++ (dumpFields style false fields ++ rest)))) =
        some ((key, v) :: fields, rest)
  | key, v, fields, 0, _, _, hfuel => by
    rw [dumpFields, List.length_append, List.length_cons] at hfuel
    omega
  | key, v, fields, fuel + 1, rest, hread, hfuel => by
    have hpos := length_dump_pos style v
    rw [ReadableFields] at hread
    have hvalue := @scanOnce_dump v fuel _ hread.1 (afterValue_dumpFields style fields rest)
      (by simp [dumpFields] at hfuel; omega)
    rw [scanMembers, scanString_writeRest]
    dsimp only
    rw [skipJsonSpace_cons (by decide)]
    dsimp only
    rw [if_neg (by decide), skipJsonSpace_space, skipJsonSpace_dump, hvalue]
    cases fields with
    | nil =>
      rw [dumpFields]
      rfl
    | cons field fields =>
      obtain ⟨key', v'⟩ := field
      have hrest := @scanMembers_dump key' v' fields fuel rest hread.2
        (by simp [dumpFields] at hfuel ⊢; omega)
      have htext : dumpFields style false ((key', v') :: fields) ++ rest =
          ',' :: (style.space ++ '"' :: (style.escaping.writeRest key' ++ ':' :: (style.space ++
            (dump style v' ++ (dumpFields style false fields ++ rest))))) := by
        simp [dumpFields]
      dsimp only
      rw [htext, skipJsonSpace_cons (by decide)]
      dsimp only
      rw [if_neg (by decide), if_pos rfl, skipJsonSpace_space, skipJsonSpace_cons (by decide)]
      dsimp only
      rw [if_neg (by decide), hrest]
      rfl

end

theorem head_dump_ne_mark (style : JsonStyle) (v : Json) :
    (dump style v).head? ≠ some (Char.ofNat 0xFEFF) := by
  obtain ⟨c, rest, htext, hkind⟩ := exists_head_dump style v
  intro hmark
  rw [htext] at hmark
  obtain rfl := Option.some.inj hmark
  have hlt := kind_lt v
  rw [← hkind] at hlt
  exact absurd hlt (by decide)

/-- **What has been written is read back.** -/
theorem loads_dump {v : Json} (h : Readable style v) : loads (dump style v) = some v := by
  have hskip := skipJsonSpace_dump style v []
  have hread := @scanOnce_dump style v _ [] h (fun c hc ↦ by cases hc)
    (Nat.le_succ (dump style v).length)
  rw [List.append_nil] at hskip hread
  rw [loads, if_neg (head_dump_ne_mark style v), hskip, hread]
  rfl

/-- **What has been written is read back from its bytes.** -/
theorem loadsBytes_dump {v : Json} (h : Readable style v) :
    loadsBytes (encodeUtf8 (dump style v)) = some v := by
  rw [loadsBytes, fromUTF8_encodeUtf8]
  dsimp only
  rw [String.toList_ofList, if_neg (head_dump_ne_mark style v), loads_dump h]

end Json

end Python
