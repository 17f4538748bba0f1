import Mathlib.Data.List.DropRight
import Onebox.Python.Codecs

/-!
# Base64 text

`base64.urlsafe_b64encode`, with and without its padding, and `base64.urlsafe_b64decode`, which
skips what is no digit. Strict decoding accepts strict base64 and nothing else. What is written is
read back, strictly and otherwise.
-/

namespace Python

/-! ## Writing -/

/-- The digit of a number below 64. -/
def base64UrlChar (n : ℕ) : Char :=
  if n < 26 then Char.ofNat (n + 65)
  else if n < 52 then Char.ofNat (n + 71)
  else if n < 62 then Char.ofNat (n - 4)
  else if n = 62 then '-'
  else '_'

/-- `base64.urlsafe_b64encode`. -/
def urlsafeB64encode : Bytes → List Char
  | [] => []
  | [a] => [base64UrlChar (a.toNat / 4), base64UrlChar (a.toNat % 4 * 16), '=', '=']
  | [a, b] =>
    [base64UrlChar (a.toNat / 4), base64UrlChar (a.toNat % 4 * 16 + b.toNat / 16),
      base64UrlChar (b.toNat % 16 * 4), '=']
  | a :: b :: c :: rest =>
    base64UrlChar (a.toNat / 4) :: base64UrlChar (a.toNat % 4 * 16 + b.toNat / 16) ::
      base64UrlChar (b.toNat % 16 * 4 + c.toNat / 64) :: base64UrlChar (c.toNat % 64) ::
        urlsafeB64encode rest

/-- `text.rstrip("=")`. -/
def stripPadding (cs : List Char) : List Char := cs.rdropWhile (· = '=')

/-- `text + "=" * (-len(text) % 4)`. -/
def addPadding (cs : List Char) : List Char := cs ++ List.replicate ((4 - cs.length % 4) % 4) '='

/-! ## Reading -/

/-- The loop of `binascii.a2b_base64(s)`, which skips what is no digit. -/
def a2bBase64Lenient : Base64Group → List Char → Option Bytes
  | group, [] => if group.quadPos = 0 then some [] else none
  | group, c :: rest =>
    if c = '=' then
      if 2 ≤ group.quadPos then
        if 4 ≤ group.quadPos + (group.pads + 1) then some []
        else a2bBase64Lenient { group with pads := group.pads + 1 } rest
      else a2bBase64Lenient group rest
    else
      match base64Digit c with
      | none => a2bBase64Lenient group rest
      | some digit =>
        match group.quadPos with
        | 0 => a2bBase64Lenient { quadPos := 1, leftChar := digit } rest
        | 1 => (a2bBase64Lenient { quadPos := 2, leftChar := digit % 16 } rest).map
            (UInt8.ofNat (group.leftChar * 4 + digit / 16) :: ·)
        | 2 => (a2bBase64Lenient { quadPos := 3, leftChar := digit % 4 } rest).map
            (UInt8.ofNat (group.leftChar * 16 + digit / 4) :: ·)
        | _ => (a2bBase64Lenient { quadPos := 0 } rest).map
            (UInt8.ofNat (group.leftChar * 64 + digit) :: ·)

/-- `base64.urlsafe_b64decode`; `none` is its `ValueError`. -/
def urlsafeB64decode (data : List Char) : Option Bytes := a2bBase64Lenient {} data

/-! ## Strict base64 -/

/-- Strict base64: whole groups, and one that padding completes. Padding that no group needs is let
pass after whole groups. -/
inductive Base64Text : List Char → Bytes → Prop
  | excess (k : ℕ) : Base64Text (List.replicate k '=') []
  | one {c₁ c₂ : Char} {d₁ d₂ : ℕ} (h₁ : base64Digit c₁ = some d₁) (h₂ : base64Digit c₂ = some d₂) :
      Base64Text [c₁, c₂, '=', '='] [UInt8.ofNat (d₁ * 4 + d₂ / 16)]
  | two {c₁ c₂ c₃ : Char} {d₁ d₂ d₃ : ℕ} (h₁ : base64Digit c₁ = some d₁)
      (h₂ : base64Digit c₂ = some d₂) (h₃ : base64Digit c₃ = some d₃) :
      Base64Text [c₁, c₂, c₃, '=']
        [UInt8.ofNat (d₁ * 4 + d₂ / 16), UInt8.ofNat (d₂ % 16 * 16 + d₃ / 4)]
  | group {c₁ c₂ c₃ c₄ : Char} {d₁ d₂ d₃ d₄ : ℕ} {rest : List Char} {bytes : Bytes}
      (h₁ : base64Digit c₁ = some d₁) (h₂ : base64Digit c₂ = some d₂)
      (h₃ : base64Digit c₃ = some d₃) (h₄ : base64Digit c₄ = some d₄)
      (hrest : Base64Text rest bytes) :
      Base64Text (c₁ :: c₂ :: c₃ :: c₄ :: rest)
        (UInt8.ofNat (d₁ * 4 + d₂ / 16) :: UInt8.ofNat (d₂ % 16 * 16 + d₃ / 4) ::
          UInt8.ofNat (d₃ % 4 * 64 + d₄) :: bytes)

section

variable {bytes : Bytes} {c : Char} {cs rest : List Char} {n leftChar pads : ℕ}

theorem ne_padding_of_digit (h : base64Digit c = some n) : c ≠ '=' := by
  rintro rfl
  cases h

/-- The loop at a padding character. -/
theorem a2bBase64_padding (group : Base64Group) (rest : List Char) :
    a2bBase64 group ('=' :: rest) =
      if 2 ≤ group.quadPos then
        if 4 ≤ group.quadPos + (group.pads + 1) then
          if rest.isEmpty then some [] else none
        else a2bBase64 { group with pads := group.pads + 1, paddingStarted := true } rest
      else a2bBase64 { group with paddingStarted := true } rest := rfl

/-- The loop at any other character. -/
theorem a2bBase64_of_ne (group : Base64Group) (hc : c ≠ '=') (rest : List Char) :
    a2bBase64 group (c :: rest) =
      match base64Digit c with
      | none => none
      | some digit =>
        if group.paddingStarted then none
        else
          match group.quadPos with
          | 0 => a2bBase64 { quadPos := 1, leftChar := digit } rest
          | 1 => (a2bBase64 { quadPos := 2, leftChar := digit % 16 } rest).map
              (UInt8.ofNat (group.leftChar * 4 + digit / 16) :: ·)
          | 2 => (a2bBase64 { quadPos := 3, leftChar := digit % 4 } rest).map
              (UInt8.ofNat (group.leftChar * 16 + digit / 4) :: ·)
          | _ => (a2bBase64 { quadPos := 0 } rest).map
              (UInt8.ofNat (group.leftChar * 64 + digit) :: ·) :=
  if_neg hc

theorem a2bBase64_digit (group : Base64Group) (hdigit : base64Digit c = some n)
    (rest : List Char) :
    a2bBase64 group (c :: rest) =
      if group.paddingStarted then none
      else
        match group.quadPos with
        | 0 => a2bBase64 { quadPos := 1, leftChar := n } rest
        | 1 => (a2bBase64 { quadPos := 2, leftChar := n % 16 } rest).map
            (UInt8.ofNat (group.leftChar * 4 + n / 16) :: ·)
        | 2 => (a2bBase64 { quadPos := 3, leftChar := n % 4 } rest).map
            (UInt8.ofNat (group.leftChar * 16 + n / 4) :: ·)
        | _ => (a2bBase64 { quadPos := 0 } rest).map
            (UInt8.ofNat (group.leftChar * 64 + n) :: ·) := by
  rw [a2bBase64_of_ne group (ne_padding_of_digit hdigit), hdigit]

/-- What is neither a digit nor padding is refused. -/
theorem a2bBase64_of_not_digit (group : Base64Group) (hc : c ≠ '=')
    (hdigit : base64Digit c = none) : a2bBase64 group (c :: rest) = none := by
  rw [a2bBase64_of_ne group hc, hdigit]

theorem a2bBase64_first (hdigit : base64Digit c = some n) :
    a2bBase64 {} (c :: rest) = a2bBase64 { quadPos := 1, leftChar := n } rest :=
  a2bBase64_digit {} hdigit rest

theorem a2bBase64_second (hdigit : base64Digit c = some n) :
    a2bBase64 { quadPos := 1, leftChar := leftChar } (c :: rest) =
      (a2bBase64 { quadPos := 2, leftChar := n % 16 } rest).map
        (UInt8.ofNat (leftChar * 4 + n / 16) :: ·) :=
  a2bBase64_digit { quadPos := 1, leftChar := leftChar } hdigit rest

theorem a2bBase64_third (hdigit : base64Digit c = some n) :
    a2bBase64 { quadPos := 2, leftChar := leftChar } (c :: rest) =
      (a2bBase64 { quadPos := 3, leftChar := n % 4 } rest).map
        (UInt8.ofNat (leftChar * 16 + n / 4) :: ·) :=
  a2bBase64_digit { quadPos := 2, leftChar := leftChar } hdigit rest

theorem a2bBase64_fourth (hdigit : base64Digit c = some n) :
    a2bBase64 { quadPos := 3, leftChar := leftChar } (c :: rest) =
      (a2bBase64 {} rest).map (UInt8.ofNat (leftChar * 64 + n) :: ·) :=
  a2bBase64_digit { quadPos := 3, leftChar := leftChar } hdigit rest

/-- After padding that completes no group, only padding is read. -/
theorem a2bBase64_started {quadPos : ℕ} (hquad : quadPos < 2) (cs : List Char) :
    a2bBase64 ⟨quadPos, leftChar, pads, true⟩ cs =
      if quadPos = 0 ∧ cs.all (· = '=') = true then some [] else none := by
  induction cs with
  | nil =>
    change (if quadPos = 0 then some [] else none) = _
    simp only [List.all_nil, and_true]
  | cons c rest ih =>
    by_cases hc : c = '='
    · subst hc
      have hless : ¬2 ≤ quadPos := by omega
      rw [a2bBase64_padding, if_neg hless, ih]
      simp only [List.all_cons, decide_true, Bool.true_and]
    · rw [if_neg fun h ↦ hc (of_decide_eq_true (List.all_eq_true.mp h.2 c List.mem_cons_self))]
      rcases hdigit : base64Digit c with _ | n
      · exact a2bBase64_of_not_digit _ hc hdigit
      · exact a2bBase64_digit _ hdigit rest

/-- One padding character of two has been read. -/
theorem a2bBase64_padded (cs : List Char) :
    a2bBase64 ⟨2, leftChar, 1, true⟩ cs = if cs = ['='] then some [] else none := by
  rcases cs with _ | ⟨c, rest⟩
  · rfl
  · by_cases hc : c = '='
    · subst hc
      rw [a2bBase64_padding]
      change (if rest.isEmpty = true then some [] else none) = _
      simp only [List.isEmpty_iff, List.cons.injEq, true_and]
    · rw [if_neg fun h ↦ hc (List.cons.inj h).1]
      rcases hdigit : base64Digit c with _ | n
      · exact a2bBase64_of_not_digit _ hc hdigit
      · exact a2bBase64_digit _ hdigit rest

theorem of_a2bBase64_second (h : a2bBase64 { quadPos := 1, leftChar := leftChar } cs = some bytes) :
    ∃ c rest n tail, cs = c :: rest ∧ base64Digit c = some n ∧
      bytes = UInt8.ofNat (leftChar * 4 + n / 16) :: tail ∧
      a2bBase64 { quadPos := 2, leftChar := n % 16 } rest = some tail := by
  rcases cs with _ | ⟨c, rest⟩
  · cases h
  · by_cases hc : c = '='
    · subst hc
      have hless : 1 < 2 := by decide
      cases h.symm.trans (a2bBase64_started hless rest)
    · rcases hdigit : base64Digit c with _ | n
      · cases (a2bBase64_of_not_digit _ hc hdigit).symm.trans h
      · rw [a2bBase64_second hdigit] at h
        obtain ⟨tail, htail, rfl⟩ := Option.map_eq_some_iff.mp h
        exact ⟨c, rest, n, tail, rfl, hdigit, rfl, htail⟩

theorem of_a2bBase64_third (h : a2bBase64 { quadPos := 2, leftChar := leftChar } cs = some bytes) :
    cs = ['=', '='] ∧ bytes = [] ∨ ∃ c rest n tail, cs = c :: rest ∧ base64Digit c = some n ∧
      bytes = UInt8.ofNat (leftChar * 16 + n / 4) :: tail ∧
      a2bBase64 { quadPos := 3, leftChar := n % 4 } rest = some tail := by
  rcases cs with _ | ⟨c, rest⟩
  · cases h
  · by_cases hc : c = '='
    · subst hc
      have hpadded := h.symm.trans (a2bBase64_padded rest)
      split at hpadded
      · rename_i hrest
        exact .inl ⟨by rw [hrest], Option.some.inj hpadded⟩
      · cases hpadded
    · rcases hdigit : base64Digit c with _ | n
      · cases (a2bBase64_of_not_digit _ hc hdigit).symm.trans h
      · rw [a2bBase64_third hdigit] at h
        obtain ⟨tail, htail, rfl⟩ := Option.map_eq_some_iff.mp h
        exact .inr ⟨c, rest, n, tail, rfl, hdigit, rfl, htail⟩

theorem of_a2bBase64_fourth (h : a2bBase64 { quadPos := 3, leftChar := leftChar } cs = some bytes) :
    cs = ['='] ∧ bytes = [] ∨ ∃ c rest n tail, cs = c :: rest ∧ base64Digit c = some n ∧
      bytes = UInt8.ofNat (leftChar * 64 + n) :: tail ∧ a2bBase64 {} rest = some tail := by
  rcases cs with _ | ⟨c, rest⟩
  · cases h
  · by_cases hc : c = '='
    · subst hc
      rw [a2bBase64_padding] at h
      change (if rest.isEmpty = true then some [] else none) = some bytes at h
      split at h
      · rename_i hrest
        exact .inl ⟨by rw [List.isEmpty_iff.mp hrest], (Option.some.inj h).symm⟩
      · cases h
    · rcases hdigit : base64Digit c with _ | n
      · cases (a2bBase64_of_not_digit _ hc hdigit).symm.trans h
      · rw [a2bBase64_fourth hdigit] at h
        obtain ⟨tail, htail, rfl⟩ := Option.map_eq_some_iff.mp h
        exact .inr ⟨c, rest, n, tail, rfl, hdigit, rfl, htail⟩

/-- Strict decoding accepts strict base64, and nothing else. -/
theorem a2bBase64_eq_some_iff : a2bBase64 {} cs = some bytes ↔ Base64Text cs bytes := by
  constructor
  · intro h
    induction hlength : cs.length using Nat.strongRecOn generalizing cs bytes with
    | ind length ih =>
      -- The text is at its end, at a padding character, or at a group of up to four digits.
      rcases cs with _ | ⟨c₁, cs⟩
      · obtain rfl := Option.some.inj h
        exact .excess 0
      by_cases hc₁ : c₁ = '='
      · subst hc₁
        have hless : 0 < 2 := by decide
        have hstarted := h.symm.trans (a2bBase64_started hless cs)
        split at hstarted
        · rename_i hall
          obtain rfl := Option.some.inj hstarted
          have hpads : ∀ c ∈ cs, c = '=' := fun c hc ↦
            of_decide_eq_true (List.all_eq_true.mp hall.2 c hc)
          rw [List.eq_replicate_of_mem hpads]
          exact .excess (cs.length + 1)
        · cases hstarted
      rcases h₁ : base64Digit c₁ with _ | d₁
      · cases (a2bBase64_of_not_digit _ hc₁ h₁).symm.trans h
      rw [a2bBase64_first h₁] at h
      obtain ⟨c₂, cs, d₂, bytes, rfl, h₂, rfl, hthird⟩ := of_a2bBase64_second h
      rcases of_a2bBase64_third hthird with ⟨rfl, rfl⟩ |
        ⟨c₃, cs, d₃, bytes, rfl, h₃, rfl, hfourth⟩
      · exact .one h₁ h₂
      rcases of_a2bBase64_fourth hfourth with ⟨rfl, rfl⟩ |
        ⟨c₄, rest, d₄, bytes, rfl, h₄, rfl, hrest⟩
      · exact .two h₁ h₂ h₃
      · simp only [List.length_cons] at hlength
        exact .group h₁ h₂ h₃ h₄ (ih rest.length (by omega) hrest rfl)
  · intro h
    induction h with
    | excess k =>
      rcases k with _ | k
      · rfl
      · have hless : 0 < 2 := by decide
        rw [List.replicate_succ]
        refine (a2bBase64_started hless _).trans (if_pos ⟨rfl, List.all_eq_true.mpr ?_⟩)
        exact fun c hc ↦ decide_eq_true (List.eq_of_mem_replicate hc)
    | one h₁ h₂ =>
      rw [a2bBase64_first h₁, a2bBase64_second h₂]
      rfl
    | two h₁ h₂ h₃ =>
      rw [a2bBase64_first h₁, a2bBase64_second h₂, a2bBase64_third h₃]
      rfl
    | group h₁ h₂ h₃ h₄ hrest ih =>
      rw [a2bBase64_first h₁, a2bBase64_second h₂, a2bBase64_third h₃, a2bBase64_fourth h₄, ih]
      rfl

theorem b64decode_eq_some_iff :
    b64decode cs = some bytes ↔ cs.head? ≠ some '=' ∧ Base64Text cs bytes := by
  rw [b64decode, ← a2bBase64_eq_some_iff]
  by_cases hhead : cs.head? = some '='
  · rw [if_pos hhead]
    exact ⟨nofun, fun h ↦ absurd hhead h.1⟩
  · rw [if_neg hhead, and_iff_right hhead]

end

/-! ## Reading what was written -/

section

variable {bytes : Bytes} {n : ℕ}

theorem base64Digit_base64UrlChar (hn : n < 64) : base64Digit (base64UrlChar n) = some n := by
  have hall : ∀ n < 64, base64Digit (base64UrlChar n) = some n := by
    decide
  exact hall n hn

theorem base64UrlChar_ne_padding (hn : n < 64) : base64UrlChar n ≠ '=' :=
  ne_padding_of_digit (base64Digit_base64UrlChar hn)

theorem eq_ofNat_toNat {a : UInt8} (hn : n = a.toNat) : UInt8.ofNat n = a := by
  rw [hn, UInt8.ofNat_toNat]

/-- **What is written is strict base64.** -/
theorem base64Text_urlsafeB64encode (bytes : Bytes) :
    Base64Text (urlsafeB64encode bytes) bytes := by
  induction bytes using urlsafeB64encode.induct with
  | case1 => exact .excess 0
  | case2 a =>
    have ha := a.toNat_lt
    have hfirst : UInt8.ofNat (a.toNat / 4 * 4 + a.toNat % 4 * 16 / 16) = a :=
      eq_ofNat_toNat (by omega)
    have htext := Base64Text.one (base64Digit_base64UrlChar (n := a.toNat / 4) (by omega))
      (base64Digit_base64UrlChar (n := a.toNat % 4 * 16) (by omega))
    rw [hfirst] at htext
    exact htext
  | case3 a b =>
    have ha := a.toNat_lt
    have hb := b.toNat_lt
    have hfirst : UInt8.ofNat (a.toNat / 4 * 4 + (a.toNat % 4 * 16 + b.toNat / 16) / 16) = a :=
      eq_ofNat_toNat (by omega)
    have hsecond : UInt8.ofNat ((a.toNat % 4 * 16 + b.toNat / 16) % 16 * 16 +
        b.toNat % 16 * 4 / 4) = b := eq_ofNat_toNat (by omega)
    have htext := Base64Text.two (base64Digit_base64UrlChar (n := a.toNat / 4) (by omega))
      (base64Digit_base64UrlChar (n := a.toNat % 4 * 16 + b.toNat / 16) (by omega))
      (base64Digit_base64UrlChar (n := b.toNat % 16 * 4) (by omega))
    rw [hfirst, hsecond] at htext
    exact htext
  | case4 a b c rest ih =>
    have ha := a.toNat_lt
    have hb := b.toNat_lt
    have hc := c.toNat_lt
    have hfirst : UInt8.ofNat (a.toNat / 4 * 4 + (a.toNat % 4 * 16 + b.toNat / 16) / 16) = a :=
      eq_ofNat_toNat (by omega)
    have hsecond : UInt8.ofNat ((a.toNat % 4 * 16 + b.toNat / 16) % 16 * 16 +
        (b.toNat % 16 * 4 + c.toNat / 64) / 4) = b := eq_ofNat_toNat (by omega)
    have hthird : UInt8.ofNat ((b.toNat % 16 * 4 + c.toNat / 64) % 4 * 64 + c.toNat % 64) = c :=
      eq_ofNat_toNat (by omega)
    have htext := Base64Text.group (base64Digit_base64UrlChar (n := a.toNat / 4) (by omega))
      (base64Digit_base64UrlChar (n := a.toNat % 4 * 16 + b.toNat / 16) (by omega))
      (base64Digit_base64UrlChar (n := b.toNat % 16 * 4 + c.toNat / 64) (by omega))
      (base64Digit_base64UrlChar (n := c.toNat % 64) (by omega)) ih
    rw [hfirst, hsecond, hthird] at htext
    exact htext

theorem a2bBase64_urlsafeB64encode (bytes : Bytes) :
    a2bBase64 {} (urlsafeB64encode bytes) = some bytes :=
  a2bBase64_eq_some_iff.mpr (base64Text_urlsafeB64encode bytes)

theorem length_urlsafeB64encode (bytes : Bytes) :
    (urlsafeB64encode bytes).length = (bytes.length + 2) / 3 * 4 := by
  induction bytes using urlsafeB64encode.induct with
  | case1 => rfl
  | case2 a | case3 a b => simp only [urlsafeB64encode, List.length_cons, List.length_nil]
  | case4 a b c rest ih =>
    simp only [urlsafeB64encode, List.length_cons]
    omega

theorem head_urlsafeB64encode_ne (bytes : Bytes) :
    (urlsafeB64encode bytes).head? ≠ some '=' := by
  have hhead : ∀ a : UInt8, base64UrlChar (a.toNat / 4) ≠ '=' := by
    intro a
    have ha := a.toNat_lt
    exact base64UrlChar_ne_padding (by omega)
  cases bytes using urlsafeB64encode.fun_cases with
  | case1 => nofun
  | case2 a | case3 a b | case4 a b c rest => exact fun h ↦ hhead a (Option.some.inj h)

/-- **Strict decoding reads what was written.** -/
theorem b64decode_urlsafeB64encode (bytes : Bytes) :
    b64decode (urlsafeB64encode bytes) = some bytes := by
  rw [b64decode, if_neg (head_urlsafeB64encode_ne bytes), a2bBase64_urlsafeB64encode]

/-- What is read strictly is read. Whether the padding has started only matters to strict
decoding. -/
theorem a2bBase64Lenient_of_strict {quadPos leftChar pads : ℕ} {started started' : Bool}
    {cs : List Char} (h : a2bBase64 ⟨quadPos, leftChar, pads, started⟩ cs = some bytes) :
    a2bBase64Lenient ⟨quadPos, leftChar, pads, started'⟩ cs = some bytes := by
  induction cs generalizing quadPos leftChar pads started started' bytes with
  | nil => exact h
  | cons c rest ih =>
    rw [a2bBase64] at h
    rw [a2bBase64Lenient]
    by_cases hc : c = '='
    · rw [if_pos hc] at h ⊢
      dsimp only at h ⊢
      by_cases hquad : 2 ≤ quadPos
      · rw [if_pos hquad] at h ⊢
        by_cases hpads : 4 ≤ quadPos + (pads + 1)
        · rw [if_pos hpads] at h ⊢
          split at h
          · exact h
          · cases h
        · rw [if_neg hpads] at h ⊢
          exact ih h
      · rw [if_neg hquad] at h ⊢
        exact ih h
    · rw [if_neg hc] at h ⊢
      cases hdigit : base64Digit c with
      | none =>
        rw [hdigit] at h
        cases h
      | some digit =>
        rw [hdigit] at h
        dsimp only at h ⊢
        split at h
        · cases h
        · rcases quadPos with _ | _ | _ | _
          · exact ih h
          all_goals
            obtain ⟨tail, htail, rfl⟩ := Option.map_eq_some_iff.mp h
            rw [ih htail]
            rfl

/-- **Lenient decoding reads what was written.** -/
theorem urlsafeB64decode_urlsafeB64encode (bytes : Bytes) :
    urlsafeB64decode (urlsafeB64encode bytes) = some bytes :=
  a2bBase64Lenient_of_strict (a2bBase64_urlsafeB64encode bytes)

/-! ### Padding -/

/-- The text is digits and then padding. -/
theorem exists_padding (bytes : Bytes) :
    ∃ digits k, urlsafeB64encode bytes = digits ++ List.replicate k '=' ∧
      (∀ c ∈ digits, c ≠ '=') ∧ k < 4 := by
  have hdigit : ∀ n < 64, base64UrlChar n ≠ '=' := fun n hn ↦ base64UrlChar_ne_padding hn
  induction bytes using urlsafeB64encode.induct with
  | case1 => exact ⟨[], 0, rfl, nofun, by decide⟩
  | case2 a =>
    have ha := a.toNat_lt
    refine ⟨[base64UrlChar (a.toNat / 4), base64UrlChar (a.toNat % 4 * 16)], 2, rfl, ?_,
      by decide⟩
    simp only [List.forall_mem_cons]
    exact ⟨hdigit _ (by omega), hdigit _ (by omega), nofun⟩
  | case3 a b =>
    have ha := a.toNat_lt
    have hb := b.toNat_lt
    refine ⟨[base64UrlChar (a.toNat / 4), base64UrlChar (a.toNat % 4 * 16 + b.toNat / 16),
      base64UrlChar (b.toNat % 16 * 4)], 1, rfl, ?_, by decide⟩
    simp only [List.forall_mem_cons]
    exact ⟨hdigit _ (by omega), hdigit _ (by omega), hdigit _ (by omega), nofun⟩
  | case4 a b c rest ih =>
    have ha := a.toNat_lt
    have hb := b.toNat_lt
    have hc := c.toNat_lt
    obtain ⟨digits, k, hrest, hdigits, hk⟩ := ih
    refine ⟨base64UrlChar (a.toNat / 4) :: base64UrlChar (a.toNat % 4 * 16 + b.toNat / 16) ::
      base64UrlChar (b.toNat % 16 * 4 + c.toNat / 64) :: base64UrlChar (c.toNat % 64) :: digits,
      k, ?_, ?_, hk⟩
    · rw [urlsafeB64encode, hrest]
      rfl
    · simp only [List.forall_mem_cons]
      exact ⟨hdigit _ (by omega), hdigit _ (by omega), hdigit _ (by omega), hdigit _ (by omega),
        hdigits⟩

theorem stripPadding_append {digits : List Char} {k : ℕ} (h : ∀ c ∈ digits, c ≠ '=') :
    stripPadding (digits ++ List.replicate k '=') = digits := by
  have hpads : ∀ c ∈ List.replicate k '=', decide (c = '=') = true := fun c hc ↦
    decide_eq_true (List.eq_of_mem_replicate hc)
  have hfront : digits.reverse.dropWhile (fun c ↦ decide (c = '=')) = digits.reverse := by
    cases hreverse : digits.reverse with
    | nil => rfl
    | cons c rest =>
      have hmem : c ∈ digits := List.mem_reverse.mp (hreverse ▸ List.mem_cons_self)
      rw [List.dropWhile_cons_of_neg]
      simpa using h c hmem
  rw [stripPadding, List.rdropWhile, List.reverse_append, List.reverse_replicate,
    List.dropWhile_append_of_pos hpads, hfront, List.reverse_reverse]

/-- Padding that is missing is put back. -/
theorem addPadding_of_append {text : List Char} {k : ℕ} (hk : k < 4)
    (h : urlsafeB64encode bytes = text ++ List.replicate k '=') :
    addPadding text = urlsafeB64encode bytes := by
  have hlength := length_urlsafeB64encode bytes
  rw [h, List.length_append, List.length_replicate] at hlength
  have hcount : (4 - text.length % 4) % 4 = k := by omega
  rw [addPadding, hcount, h]

/-- What is left of the text without its padding. -/
theorem exists_urlsafeB64encode_eq (bytes : Bytes) :
    ∃ k < 4, urlsafeB64encode bytes =
      stripPadding (urlsafeB64encode bytes) ++ List.replicate k '=' := by
  obtain ⟨digits, k, hencode, hdigits, hk⟩ := exists_padding bytes
  refine ⟨k, hk, ?_⟩
  rw [hencode, stripPadding_append hdigits]

/-- **Padding that has been stripped is put back.** -/
theorem addPadding_stripPadding (bytes : Bytes) :
    addPadding (stripPadding (urlsafeB64encode bytes)) = urlsafeB64encode bytes := by
  obtain ⟨k, hk, hencode⟩ := exists_urlsafeB64encode_eq bytes
  exact addPadding_of_append hk hencode

end

/-! ## The other alphabet -/

/-- `+` and `/` in place of `-` and `_`. -/
def standardChar (c : Char) : Char := if c = '-' then '+' else if c = '_' then '/' else c

/-- `base64.b64encode`. -/
def b64encode (bytes : Bytes) : List Char := (urlsafeB64encode bytes).map standardChar

/-- `base64.b64decode(data, validate=True)`; `none` is the `binascii.Error`. -/
def b64decodeStandard (data : List Char) : Option Bytes :=
  if data.any fun c ↦ c = '-' || c = '_' then none else b64decode data

section

variable {c : Char} {cs : List Char} {bytes : Bytes}

theorem base64Digit_standardChar (c : Char) : base64Digit (standardChar c) = base64Digit c := by
  rw [standardChar]
  split
  · rename_i h
    rw [h]
    rfl
  · split
    · rename_i h
      rw [h]
      rfl
    · rfl

theorem standardChar_padding : standardChar '=' = '=' := rfl

theorem standardChar_ne (c : Char) : standardChar c ≠ '-' ∧ standardChar c ≠ '_' := by
  rw [standardChar]
  split
  · decide
  · split
    · decide
    · exact ⟨‹_›, ‹_›⟩

theorem Base64Text.standard (h : Base64Text cs bytes) :
    Base64Text (cs.map standardChar) bytes := by
  induction h with
  | excess k =>
    rw [List.map_replicate, standardChar_padding]
    exact .excess k
  | one h₁ h₂ =>
    exact .one ((base64Digit_standardChar _).trans h₁) ((base64Digit_standardChar _).trans h₂)
  | two h₁ h₂ h₃ =>
    exact .two ((base64Digit_standardChar _).trans h₁) ((base64Digit_standardChar _).trans h₂)
      ((base64Digit_standardChar _).trans h₃)
  | group h₁ h₂ h₃ h₄ hrest ih =>
    exact .group ((base64Digit_standardChar _).trans h₁) ((base64Digit_standardChar _).trans h₂)
      ((base64Digit_standardChar _).trans h₃) ((base64Digit_standardChar _).trans h₄) ih

theorem toNat_lt_of_base64Digit {n : ℕ} (h : base64Digit c = some n) : c.toNat < 128 := by
  have hbound : ∀ d : Char, d.toNat < 128 → c ≤ d → c.toNat < 128 :=
    fun d hd hle ↦ Nat.lt_of_le_of_lt hle hd
  rw [base64Digit] at h
  split at h
  · rename_i hc
    exact hbound 'Z' (by decide) hc.2
  · split at h
    · rename_i hc
      exact hbound 'z' (by decide) hc.2
    · split at h
      · rename_i hc
        exact hbound '9' (by decide) hc.2
      · split at h
        · rename_i hc
          rcases hc with rfl | rfl
          · decide
          · decide
        · split at h
          · rename_i hc
            rcases hc with rfl | rfl
            · decide
            · decide
          · cases h

/-- Strict base64 is ASCII. -/
theorem Base64Text.ascii (h : Base64Text cs bytes) : ∀ c ∈ cs, c.toNat < 128 := by
  induction h with
  | excess k =>
    intro c hc
    rw [List.eq_of_mem_replicate hc]
    decide
  | one h₁ h₂ =>
    simp only [List.forall_mem_cons]
    exact ⟨toNat_lt_of_base64Digit h₁, toNat_lt_of_base64Digit h₂, by decide, by decide,
      List.forall_mem_nil _⟩
  | two h₁ h₂ h₃ =>
    simp only [List.forall_mem_cons]
    exact ⟨toNat_lt_of_base64Digit h₁, toNat_lt_of_base64Digit h₂, toNat_lt_of_base64Digit h₃,
      by decide, List.forall_mem_nil _⟩
  | group h₁ h₂ h₃ h₄ hrest ih =>
    simp only [List.forall_mem_cons]
    exact ⟨toNat_lt_of_base64Digit h₁, toNat_lt_of_base64Digit h₂, toNat_lt_of_base64Digit h₃,
      toNat_lt_of_base64Digit h₄, ih⟩

theorem ascii_b64encode (bytes : Bytes) : ∀ c ∈ b64encode bytes, c.toNat < 128 :=
  (base64Text_urlsafeB64encode bytes).standard.ascii

/-- **Strict decoding reads what was written in the other alphabet.** -/
theorem b64decodeStandard_b64encode (bytes : Bytes) :
    b64decodeStandard (b64encode bytes) = some bytes := by
  have hchars : ((b64encode bytes).any fun c ↦ c = '-' || c = '_') = false := by
    rw [List.any_eq_false]
    intro c hc
    obtain ⟨d, -, rfl⟩ := List.mem_map.mp hc
    obtain ⟨hminus, hunderscore⟩ := standardChar_ne d
    rw [decide_eq_false hminus, decide_eq_false hunderscore]
    exact Bool.false_ne_true
  have hhead : (b64encode bytes).head? ≠ some '=' := by
    rw [b64encode, List.head?_map]
    intro h
    obtain ⟨d, hd, hstandard⟩ := Option.map_eq_some_iff.mp h
    refine head_urlsafeB64encode_ne bytes ?_
    rw [standardChar] at hstandard
    split at hstandard
    · cases hstandard
    · split at hstandard
      · cases hstandard
      · rw [hd, hstandard]
  rw [b64decodeStandard, hchars, if_neg Bool.false_ne_true, b64decode_eq_some_iff]
  exact ⟨hhead, (base64Text_urlsafeB64encode bytes).standard⟩

end

end Python
