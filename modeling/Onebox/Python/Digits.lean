import Mathlib.Data.Nat.Digits.Defs
import Onebox.Python.NormalText

/-!
# Numbers with a fixed number of digits

What `"%04d"`, `"%06d"` and `"%032x"` make of a number that fits, and how `int(text, base)` reads
it back.
-/

namespace Python

/-! ## Writing -/

/-- The number in the given base with leading zeros, in lower case. -/
def padDigits (base : ℕ) : ℕ → ℕ → List Char
  | 0, _ => []
  | width + 1, n => padDigits base width (n / base) ++ [Nat.digitChar (n % base)]

/-! ## Reading -/

/-- The value of an ASCII digit. -/
def digitValue (base : ℕ) (c : Char) : Option ℕ :=
  let value :=
    if '0' ≤ c ∧ c ≤ '9' then some (c.toNat - 48)
    else if 'a' ≤ c ∧ c ≤ 'z' then some (c.toNat - 87)
    else if 'A' ≤ c ∧ c ≤ 'Z' then some (c.toNat - 55)
    else none
  value.filter (· < base)

/-- The digits after those that make up `n`. -/
def readDigitsFrom (base : ℕ) : ℕ → List Char → Option ℕ
  | n, [] => some n
  | n, c :: rest =>
    match digitValue base c with
    | none => none
    | some digit => readDigitsFrom base (n * base + digit) rest

/-- Digits alone, at least one. -/
def readDigits (base : ℕ) (cs : List Char) : Option ℕ :=
  if cs.isEmpty then none else readDigitsFrom base 0 cs

/-- The digits of a literal, with single underscores allowed between them. -/
def dropUnderscores : List Char → Option (List Char)
  | [] => none
  | [c] => if c = '_' then none else some [c]
  | c :: d :: rest =>
    if c = '_' then none
    else if d = '_' then (dropUnderscores rest).map (c :: ·)
    else (dropUnderscores (d :: rest)).map (c :: ·)

/-- The literal after its sign, which may begin with `0x` when the base is 16. -/
def dropBasePrefix (base : ℕ) (cs : List Char) : List Char :=
  match cs with
  | '0' :: x :: rest =>
    if base = 16 ∧ (x = 'x' ∨ x = 'X') then
      match rest with
      | '_' :: rest => rest
      | rest => rest
    else cs
  | cs => cs

/-- `int(text, base)` of ASCII text; `none` is the `ValueError`. -/
def parseInt (base : ℕ) (cs : List Char) : Option ℤ :=
  match stripChars isSpace cs with
  | '-' :: rest => ((dropUnderscores (dropBasePrefix base rest)).bind (readDigits base)).map
      fun n ↦ -(n : ℤ)
  | '+' :: rest => ((dropUnderscores (dropBasePrefix base rest)).bind (readDigits base)).map
      fun n ↦ (n : ℤ)
  | rest => ((dropUnderscores (dropBasePrefix base rest)).bind (readDigits base)).map
      fun n ↦ (n : ℤ)

/-! ## Reading what was written -/

section

variable {base width n : ℕ} {c : Char}

@[simp] theorem length_padDigits : (padDigits base width n).length = width := by
  induction width generalizing n with
  | zero => rfl
  | succ width ih => rw [padDigits, List.length_append, ih, List.length_singleton]

theorem digitValue_digitChar (hbase : base ≤ 16) {d : ℕ} (hd : d < base) :
    digitValue base (Nat.digitChar d) = some d := by
  have hall : ∀ d < 16, ∀ base ≤ 16, d < base →
      digitValue base (Nat.digitChar d) = some d := by decide
  exact hall d (by omega) base hbase hd

theorem readDigitsFrom_append {m k : ℕ} {cs ds : List Char}
    (h : readDigitsFrom base n cs = some m) (h' : readDigitsFrom base m ds = some k) :
    readDigitsFrom base n (cs ++ ds) = some k := by
  induction cs generalizing n with
  | nil =>
    obtain rfl := Option.some.inj h
    exact h'
  | cons c cs ih =>
    rw [readDigitsFrom] at h
    rw [List.cons_append, readDigitsFrom]
    split at h
    · cases h
    · exact ih h

theorem readDigitsFrom_padDigits (hbase : base ≤ 16) (hpos : 0 < base) (m : ℕ) :
    readDigitsFrom base m (padDigits base width n) =
      some (m * base ^ width + n % base ^ width) := by
  induction width generalizing n with
  | zero => simp [padDigits, readDigitsFrom, Nat.mod_one]
  | succ width ih =>
    have hlast : readDigitsFrom base (m * base ^ width + n / base % base ^ width)
        [Nat.digitChar (n % base)] =
          some ((m * base ^ width + n / base % base ^ width) * base + n % base) := by
      rw [readDigitsFrom, digitValue_digitChar hbase (Nat.mod_lt n hpos)]
      rfl
    rw [padDigits, readDigitsFrom_append ih hlast, pow_succ, mul_comm (base ^ width) base,
      Nat.mod_mul]
    refine congrArg some ?_
    ring

/-- **A number that fits is read back.** -/
theorem readDigits_padDigits (hbase : base ≤ 16) (hwidth : 0 < width) (hn : n < base ^ width) :
    readDigits base (padDigits base width n) = some n := by
  have hpos : 0 < base := by
    rcases Nat.eq_zero_or_pos base with rfl | hpos
    · rw [Nat.zero_pow hwidth] at hn
      exact absurd hn (Nat.not_lt_zero n)
    · exact hpos
  have hne : (padDigits base width n).isEmpty = false := by
    rw [List.isEmpty_eq_false_iff, ← List.length_pos_iff, length_padDigits]
    exact hwidth
  rw [readDigits, hne, readDigitsFrom_padDigits hbase hpos, Nat.mod_eq_of_lt hn]
  simp

/-- A number written without leading zeros is read back. -/
theorem readDigits_toDigits (hbase : base ≤ 16) (hone : 1 < base) (n : ℕ) :
    readDigits base (Nat.toDigits base n) = some n := by
  have hread : ∀ n, readDigitsFrom base 0 (Nat.toDigits base n) = some n := by
    intro n
    induction n using Nat.strongRecOn with
    | ind n ih =>
      have hlast : ∀ m d, d < base →
          readDigitsFrom base m [Nat.digitChar d] = some (m * base + d) := by
        intro m d hd
        rw [readDigitsFrom, digitValue_digitChar hbase hd]
        rfl
      by_cases hn : n < base
      · rw [Nat.toDigits_of_lt_base hn, hlast 0 n hn, Nat.zero_mul, Nat.zero_add]
      · have hdiv : n / base < n := Nat.div_lt_self (by omega) hone
        have hmod : n % base < base := Nat.mod_lt n (by omega)
        rw [Nat.toDigits_of_base_le hone (Nat.le_of_not_lt hn),
          readDigitsFrom_append (ih (n / base) hdiv) (hlast _ _ hmod), Nat.div_add_mod']
  rw [readDigits, List.isEmpty_eq_false_iff.mpr Nat.toDigits_ne_nil, hread]
  rfl

/-- Every character is a digit. -/
theorem exists_of_mem_padDigits (hpos : 0 < base) (h : c ∈ padDigits base width n) :
    ∃ d < base, c = Nat.digitChar d := by
  induction width generalizing n with
  | zero => exact absurd h List.not_mem_nil
  | succ width ih =>
    rcases List.mem_append.mp h with hinit | hlast
    · exact ih hinit
    · exact ⟨n % base, Nat.mod_lt n hpos, List.mem_singleton.mp hlast⟩

theorem dropUnderscores_of_forall {cs : List Char} (hne : cs ≠ []) (h : ∀ c ∈ cs, c ≠ '_') :
    dropUnderscores cs = some cs := by
  induction cs with
  | nil => exact absurd rfl hne
  | cons c cs ih =>
    rw [List.forall_mem_cons] at h
    cases cs with
    | nil => rw [dropUnderscores, if_neg h.1]
    | cons d rest =>
      rw [dropUnderscores, if_neg h.1, if_neg (h.2 d List.mem_cons_self),
        ih (List.cons_ne_nil d rest) h.2]
      rfl

theorem dropBasePrefix_of_forall {cs : List Char} (h : ∀ c ∈ cs, c ≠ 'x' ∧ c ≠ 'X') :
    dropBasePrefix base cs = cs := by
  unfold dropBasePrefix
  split
  · rename_i x rest
    have hx := h x (List.mem_cons_of_mem _ List.mem_cons_self)
    rw [if_neg]
    rintro ⟨-, rfl | rfl⟩
    · exact hx.1 rfl
    · exact hx.2 rfl
  · rfl

/-- A literal of digits alone. -/
theorem parseInt_padDigits (hbase : base ≤ 16) (hwidth : 0 < width) (hn : n < base ^ width) :
    parseInt base (padDigits base width n) = some n := by
  have hpos : 0 < base := by
    rcases Nat.eq_zero_or_pos base with rfl | hpos
    · rw [Nat.zero_pow hwidth] at hn
      exact absurd hn (Nat.not_lt_zero n)
    · exact hpos
  have hplain : ∀ d < 16, isSpace (Nat.digitChar d) = false ∧ Nat.digitChar d ≠ '-' ∧
      Nat.digitChar d ≠ '+' ∧ Nat.digitChar d ≠ '_' ∧ Nat.digitChar d ≠ 'x' ∧
      Nat.digitChar d ≠ 'X' := by decide
  have hchars : ∀ c ∈ padDigits base width n, isSpace c = false ∧ c ≠ '-' ∧ c ≠ '+' ∧ c ≠ '_' ∧
      c ≠ 'x' ∧ c ≠ 'X' := by
    intro c hc
    obtain ⟨d, hd, rfl⟩ := exists_of_mem_padDigits hpos hc
    exact hplain d (by omega)
  have hne : padDigits base width n ≠ [] := by
    rw [← List.length_pos_iff, length_padDigits]
    exact hwidth
  have hread : (dropUnderscores (dropBasePrefix base (padDigits base width n))).bind
      (readDigits base) = some n := by
    rw [dropBasePrefix_of_forall fun c hc ↦ (hchars c hc).2.2.2.2,
      dropUnderscores_of_forall hne fun c hc ↦ (hchars c hc).2.2.2.1]
    exact readDigits_padDigits hbase hwidth hn
  rw [parseInt, stripChars_of_forall fun c hc ↦ (hchars c hc).1]
  split
  · rename_i rest hrest
    exact absurd rfl (hchars '-' (hrest ▸ List.mem_cons_self)).2.1
  · rename_i rest hrest
    exact absurd rfl (hchars '+' (hrest ▸ List.mem_cons_self)).2.2.1
  · rw [hread]
    rfl

end

end Python
