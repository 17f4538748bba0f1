import Onebox.Python.JsonWrite

/-!
# JSON in bytes

`json.loads(data)` of bytes in any of the encodings that it detects: UTF-8 with or without a mark,
UTF-16 and UTF-32 in either order. Surrogates are let pass and, where they do not form a pair,
replaced, as strings are of scalar values here.
-/

namespace Python

/-- The order of the bytes of a code unit. -/
inductive ByteOrder
  | little
  | big
  deriving DecidableEq

/-- What `json.detect_encoding` answers; a mark gives the order of the bytes after it. -/
inductive JsonEncoding
  | utf8
  | utf8Marked
  | utf16 (order : ByteOrder) (marked : Bool)
  | utf32 (order : ByteOrder) (marked : Bool)
  deriving DecidableEq

/-- `json.detect_encoding`. -/
def detectEncoding (data : Bytes) : JsonEncoding :=
  if [0x00, 0x00, 0xFE, 0xFF].isPrefixOf data then .utf32 .big true
  else if [0xFF, 0xFE, 0x00, 0x00].isPrefixOf data then .utf32 .little true
  else if [0xFE, 0xFF].isPrefixOf data then .utf16 .big true
  else if [0xFF, 0xFE].isPrefixOf data then .utf16 .little true
  else if [0xEF, 0xBB, 0xBF].isPrefixOf data then .utf8Marked
  else
    match data with
    | a :: b :: c :: d :: _ =>
      if a = 0 then if b ≠ 0 then .utf16 .big false else .utf32 .big false
      else if b = 0 then if c ≠ 0 ∨ d ≠ 0 then .utf16 .little false else .utf32 .little false
      else .utf8
    | [a, b] =>
      if a = 0 then .utf16 .big false else if b = 0 then .utf16 .little false else .utf8
    | _ => .utf8

/-- The number that the bytes of a code unit make up. -/
def unitOfBytes (order : ByteOrder) (unit : Bytes) : ℕ :=
  match order with
  | .little => unit.foldr (fun b n ↦ b.toNat + 256 * n) 0
  | .big => unit.foldl (fun n b ↦ 256 * n + b.toNat) 0

/-- The code units of UTF-16; `none` is the `UnicodeDecodeError` of truncated data. -/
def units16 (order : ByteOrder) : Bytes → Option (List ℕ)
  | [] => some []
  | a :: b :: rest => (units16 order rest).map (unitOfBytes order [a, b] :: ·)
  | [_] => none

/-- The code points of UTF-32; `none` is the `UnicodeDecodeError`. -/
def units32 (order : ByteOrder) : Bytes → Option (List ℕ)
  | [] => some []
  | a :: b :: c :: d :: rest =>
    if 0x10FFFF < unitOfBytes order [a, b, c, d] then none
    else (units32 order rest).map (unitOfBytes order [a, b, c, d] :: ·)
  | _ => none

/-- Surrogates that have been encoded on their own are replaced. -/
def passSurrogates : Bytes → Bytes
  | 0xED :: b :: c :: rest =>
    if 0xA0 ≤ b ∧ b ≤ 0xBF ∧ 0x80 ≤ c ∧ c ≤ 0xBF then 0xEF :: 0xBF :: 0xBD :: passSurrogates rest
    else 0xED :: passSurrogates (b :: c :: rest)
  | b :: rest => b :: passSurrogates rest
  | [] => []

/-- `data.decode("utf-8", "surrogatepass")`. -/
def decodeUtf8Pass (data : Bytes) : Option (List Char) :=
  ((String.fromUTF8? ⟨data.toArray⟩).or
    (String.fromUTF8? ⟨(passSurrogates data).toArray⟩)).map String.toList

/-- `data.decode(detect_encoding(data), "surrogatepass")`. -/
def decodeJson (data : Bytes) : Option (List Char) :=
  match detectEncoding data with
  | .utf8 => decodeUtf8Pass data
  | .utf8Marked => decodeUtf8Pass (data.drop 3)
  | .utf16 order marked =>
    (units16 order (if marked then data.drop 2 else data)).map joinSurrogates
  | .utf32 order marked =>
    (units32 order (if marked then data.drop 4 else data)).map fun units ↦ units.map charOfUnit

/-- `json.loads(data)` of bytes; `none` is its `ValueError`. -/
def loadsData (data : Bytes) : Option Json := (decodeJson data).bind loads

/-! ## Reading what was written -/

section

variable {style : JsonStyle} {cs : List Char}

theorem decodeUtf8Pass_encodeUtf8 (cs : List Char) :
    decodeUtf8Pass (encodeUtf8 cs) = some cs := by
  rw [decodeUtf8Pass, fromUTF8_encodeUtf8, Option.some_or, Option.map_some, String.toList_ofList]

theorem encodeUtf8_cons (c : Char) (cs : List Char) :
    encodeUtf8 (c :: cs) = String.utf8EncodeChar c ++ encodeUtf8 cs := by
  rw [encodeUtf8, encodeUtf8, String.toUTF8_eq_toByteArray, String.toUTF8_eq_toByteArray,
    String.toByteArray_ofList, String.toByteArray_ofList, List.utf8Encode_cons,
    List.utf8Encode_singleton, ByteArray.data_append, Array.toList_append,
    List.toList_data_toByteArray]

/-! ### ASCII -/

/-- The character of a byte of ASCII. -/
def asciiChar (b : UInt8) : Char := Char.ofNat b.toNat

theorem utf8Chars_ascii {bytes : Bytes} (h : ∀ b ∈ bytes, b.toNat < 128) :
    utf8Chars none bytes = bytes.map asciiChar := by
  induction bytes with
  | nil => rfl
  | cons b bytes ih =>
    obtain ⟨hb, hbytes⟩ := List.forall_mem_cons.mp h
    have hstart : utf8Start b.toNat = .char (asciiChar b) := by
      rw [utf8Start, if_pos hb]
      rfl
    rw [utf8Chars.eq_def]
    simp only [hstart, ih hbytes, List.map_cons]

theorem encodeUtf8_ascii {cs : List Char} (h : ∀ c ∈ cs, c.toNat < 128) :
    (∀ b ∈ encodeUtf8 cs, b.toNat < 128) ∧ (encodeUtf8 cs).map asciiChar = cs := by
  induction cs with
  | nil => exact ⟨nofun, rfl⟩
  | cons c cs ih =>
    obtain ⟨hc, hcs⟩ := List.forall_mem_cons.mp h
    have hbyte : (UInt8.ofNat c.toNat).toNat = c.toNat :=
      UInt8.toNat_ofNat_of_lt' (hc.trans (by decide))
    have hsize : c.utf8Size = 1 :=
      Char.utf8Size_eq_one_iff.mpr (UInt32.le_iff_toNat_le.mpr (Nat.le_of_lt_succ hc))
    have hencode : encodeUtf8 (c :: cs) = UInt8.ofNat c.toNat :: encodeUtf8 cs := by
      rw [encodeUtf8_cons, String.utf8EncodeChar_eq_singleton hsize]
      rfl
    rw [hencode, List.map_cons, (ih hcs).2, List.forall_mem_cons, hbyte, asciiChar, hbyte,
      Char.ofNat_toNat]
    exact ⟨⟨hc, (ih hcs).1⟩, rfl⟩

/-- **Bytes of ASCII can be decoded piece by piece.** -/
theorem flatten_map_decodeUtf8 {pieces : List Bytes} (h : ∀ b ∈ pieces.flatten, b.toNat < 128) :
    (pieces.map fun piece ↦ (decodeUtf8 piece).toList).flatten = pieces.flatten.map asciiChar := by
  induction pieces with
  | nil => rfl
  | cons piece pieces ih =>
    rw [List.flatten_cons, List.forall_mem_append] at h
    rw [List.map_cons, List.flatten_cons, ih h.2, List.flatten_cons, List.map_append, decodeUtf8,
      String.toList_ofList, utf8Chars_ascii h.1]

/-- The text of an object is taken for UTF-8. -/
theorem detectEncoding_of_brace {b : UInt8} (hb : b ≠ 0) (rest : Bytes) :
    detectEncoding (0x7B :: b :: rest) = .utf8 := by
  have hmark : ∀ m mark, m ≠ 0x7B → (m :: mark).isPrefixOf (0x7B :: b :: rest) = false := by
    intro m mark hm
    rw [List.isPrefixOf_cons_cons, beq_false_of_ne hm, Bool.false_and]
  unfold detectEncoding
  rw [hmark 0 _ (by decide), hmark 0xFF [0xFE, 0, 0] (by decide), hmark 0xFE _ (by decide),
    hmark 0xFF [0xFE] (by decide), hmark 0xEF _ (by decide)]
  rcases rest with _ | ⟨c, _ | ⟨d, rest⟩⟩
  · exact if_neg hb
  · rfl
  · exact if_neg hb

/-- **An object that has been written is read back from its bytes.** -/
theorem loadsData_dump {fields : List (String × Json)} (h : (Json.obj fields).Readable style) :
    loadsData (encodeUtf8 (Json.dump style (.obj fields))) = some (.obj fields) := by
  obtain ⟨b, rest, hb, hbytes⟩ : ∃ b rest, b ≠ 0 ∧
      encodeUtf8 (Json.dump style (.obj fields)) = 0x7B :: b :: rest := by
    rw [Json.dump]
    rcases fields with _ | ⟨⟨key, v⟩, fields⟩
    · exact ⟨0x7D, [], by decide, by rw [Json.dumpFields]; rfl⟩
    · rw [Json.dumpFields, if_pos rfl, List.nil_append, encodeUtf8_cons, encodeUtf8_cons]
      exact ⟨0x22, _, by decide, rfl⟩
  rw [loadsData, decodeJson, hbytes, detectEncoding_of_brace hb, ← hbytes,
    decodeUtf8Pass_encodeUtf8]
  exact Json.loads_dump h

end

end Python
