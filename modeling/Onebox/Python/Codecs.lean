import Onebox.Python.Bytes

/-!
# Decoding

`base64.b64decode` as strict base64 with `-` and `_` among its digits, and
`bytes.decode("utf-8", errors="replace")`. Both follow the interpreter's loops: a reader that goes
through its input once and keeps what it has of the group at hand.
-/

namespace Python

/-! ## Base64 -/

/-- The value of a base64 digit. `altchars` are translated to `+` and `/`, which stay digits. -/
def base64Digit (c : Char) : Option ℕ :=
  if 'A' ≤ c ∧ c ≤ 'Z' then some (c.toNat - 65)
  else if 'a' ≤ c ∧ c ≤ 'z' then some (c.toNat - 71)
  else if '0' ≤ c ∧ c ≤ '9' then some (c.toNat + 4)
  else if c = '+' ∨ c = '-' then some 62
  else if c = '/' ∨ c = '_' then some 63
  else none

/-- The group being read: how many digits of it, the bits not yet given out, and the padding. -/
structure Base64Group where
  quadPos : ℕ := 0
  leftChar : ℕ := 0
  pads : ℕ := 0
  paddingStarted : Bool := false

/-- The loop of `binascii.a2b_base64(s, strict_mode=True)`; `none` is the `binascii.Error`. -/
def a2bBase64 : Base64Group → List Char → Option Bytes
  | group, [] => if group.quadPos = 0 then some [] else none
  | group, c :: rest =>
    if c = '=' then
      if 2 ≤ group.quadPos then
        if 4 ≤ group.quadPos + (group.pads + 1) then
          -- The group is complete; excess data after it is an error.
          if rest.isEmpty then some [] else none
        else a2bBase64 { group with pads := group.pads + 1, paddingStarted := true } rest
      else a2bBase64 { group with paddingStarted := true } rest
    else
      match base64Digit c with
      | none => none
      | some digit =>
        if group.paddingStarted then none
        else
          match group.quadPos with
          | 0 => a2bBase64 { quadPos := 1, leftChar := digit } rest
          | 1 => (a2bBase64 { quadPos := 2, leftChar := digit % 16 } rest).map
              (UInt8.ofNat (group.leftChar * 4 + digit / 16) :: ·)
          | 2 => (a2bBase64 { quadPos := 3, leftChar := digit % 4 } rest).map
              (UInt8.ofNat (group.leftChar * 16 + digit / 4) :: ·)
          | _ => (a2bBase64 { quadPos := 0 } rest).map
              (UInt8.ofNat (group.leftChar * 64 + digit) :: ·)

/-- `base64.b64decode(data, altchars=b"-_", validate=True)`; `none` is its `ValueError`. -/
def b64decode (data : List Char) : Option Bytes :=
  if data.head? = some '=' then none else a2bBase64 {} data

/-! ## UTF-8 -/

/-- U+FFFD, which stands for what is ill-formed. -/
def replacementCharacter : Char := Char.ofNat 0xFFFD

/-- A character begun: its bits so far, how many bytes are to come, and the bounds of the next. -/
structure Utf8Begun where
  bits : ℕ
  remaining : ℕ
  low : ℕ
  high : ℕ

/-- What a byte begins. -/
inductive Utf8Start
  | char (c : Char)
  | begun (b : Utf8Begun)
  | invalid

/-- The first byte of a character. The bounds on the second byte exclude overlong forms, surrogates
and what lies past U+10FFFF. -/
def utf8Start (n : ℕ) : Utf8Start :=
  if n < 0x80 then .char (Char.ofNat n)
  else if n < 0xC2 then .invalid
  else if n < 0xE0 then .begun ⟨n - 0xC0, 1, 0x80, 0xBF⟩
  else if n < 0xF0 then
    .begun ⟨n - 0xE0, 2, if n = 0xE0 then 0xA0 else 0x80, if n = 0xED then 0x9F else 0xBF⟩
  else if n < 0xF5 then
    .begun ⟨n - 0xF0, 3, if n = 0xF0 then 0x90 else 0x80, if n = 0xF4 then 0x8F else 0xBF⟩
  else .invalid

/-- The characters of a byte string, given the character begun. A character that breaks off is
replaced once, and the byte that breaks it begins anew. -/
def utf8Chars : Option Utf8Begun → Bytes → List Char
  | none, [] => []
  | some _, [] => [replacementCharacter]
  | none, byte :: rest =>
    match utf8Start byte.toNat with
    | .char c => c :: utf8Chars none rest
    | .begun b => utf8Chars (some b) rest
    | .invalid => replacementCharacter :: utf8Chars none rest
  | some b, byte :: rest =>
    if b.low ≤ byte.toNat ∧ byte.toNat ≤ b.high then
      if b.remaining ≤ 1 then
        Char.ofNat (b.bits * 64 + (byte.toNat - 0x80)) :: utf8Chars none rest
      else
        utf8Chars (some ⟨b.bits * 64 + (byte.toNat - 0x80), b.remaining - 1, 0x80, 0xBF⟩) rest
    else
      match utf8Start byte.toNat with
      | .char c => replacementCharacter :: c :: utf8Chars none rest
      | .begun b => replacementCharacter :: utf8Chars (some b) rest
      | .invalid => replacementCharacter :: replacementCharacter :: utf8Chars none rest

/-- `bytes.decode("utf-8", errors="replace")`. -/
def decodeUtf8 (bytes : Bytes) : String := String.ofList (utf8Chars none bytes)

/-- A byte gives a character at most; one more comes of what has been begun. -/
theorem length_utf8Chars_le (begun : Option Utf8Begun) (bytes : Bytes) :
    (utf8Chars begun bytes).length ≤ bytes.length + begun.toList.length := by
  fun_induction utf8Chars begun bytes with
  | case1 | case2 => exact Nat.le_refl _
  | case3 | case4 | case5 | case6 | case7 | case8 | case9 | case10 =>
    simp only [List.length_cons, Option.toList_none, Option.toList_some, List.length_nil] at *
    omega

theorem length_decodeUtf8_le (bytes : Bytes) : (decodeUtf8 bytes).length ≤ bytes.length := by
  rw [decodeUtf8, String.length_ofList]
  exact length_utf8Chars_le none bytes

end Python
