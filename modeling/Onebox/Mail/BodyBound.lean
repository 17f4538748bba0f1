import Onebox.Mail.Mime
import Onebox.Python.Base64

/-!
# The bound on the data of a body

`decode_base64url_text` looks at the length of a text before it decodes it, and at the number of
bytes afterwards. Neither refuses bytes within the bound: what has been encoded is decoded, with its
padding or without, and what is decoded are the bytes of a strict base64 text.
-/

namespace Onebox.Mail

open Python

variable {bytes : Bytes} {text : List Char} {maxBytes : ℕ}

/-- `decode_base64url_text`, on the characters of a text. -/
theorem decodeBase64urlText_ofList (text : List Char) (maxBytes : ℕ) :
    decodeBase64urlText (some (.str (String.ofList text))) maxBytes =
      if text = [] then none
      else if (maxBytes + 2) / 3 * 4 + 4 < text.length then none
      else
        match b64decode (addPadding text) with
        | none => none
        | some decoded =>
          if maxBytes < decoded.length then none else some (decodeUtf8 decoded) := by
  simp only [decodeBase64urlText, String.ofList_eq_empty_iff, String.length_ofList,
    String.toList_ofList]
  rfl

/-- The text of some bytes is not padding alone. -/
theorem ne_nil_of_append {k : ℕ} (hbytes : bytes ≠ [])
    (h : urlsafeB64encode bytes = text ++ List.replicate k '=') : text ≠ [] := by
  rintro rfl
  rw [List.nil_append] at h
  have hlength := length_urlsafeB64encode bytes
  have hpositive := List.length_pos_iff.mpr hbytes
  rcases k with _ | k
  · rw [h, List.length_replicate] at hlength
    omega
  · refine head_urlsafeB64encode_ne bytes ?_
    rw [h, List.replicate_succ, List.head?_cons]

/-- Bytes are decoded from their text, whatever is missing of its padding, unless there are too
many. -/
theorem decodeBase64urlText_of_append {k : ℕ} (hk : k < 4) (hbytes : bytes ≠ [])
    (h : urlsafeB64encode bytes = text ++ List.replicate k '=')
    (hbound : bytes.length ≤ maxBytes) :
    decodeBase64urlText (some (.str (String.ofList text))) maxBytes = some (decodeUtf8 bytes) := by
  have hlength := length_urlsafeB64encode bytes
  rw [h, List.length_append] at hlength
  -- each three bytes of the bound are four characters of the text
  have hfits : ¬(maxBytes + 2) / 3 * 4 + 4 < text.length := by omega
  rw [decodeBase64urlText_ofList, if_neg (ne_nil_of_append hbytes h), if_neg hfits,
    addPadding_of_append hk h, b64decode_urlsafeB64encode]
  exact if_neg (Nat.not_lt.mpr hbound)

theorem of_decodeBase64urlText_eq_some {value : String}
    (h : decodeBase64urlText (some (.str (String.ofList text))) maxBytes = some value) :
    ∃ decoded, b64decode (addPadding text) = some decoded ∧ decoded.length ≤ maxBytes ∧
      value = decodeUtf8 decoded := by
  rw [decodeBase64urlText_ofList] at h
  split at h
  · cases h
  split at h
  · cases h
  split at h
  · cases h
  rename_i decoded hdecoded
  split at h
  · cases h
  rename_i hbound
  exact ⟨decoded, hdecoded, Nat.not_lt.mp hbound, (Option.some.inj h).symm⟩

/-- What `decode_base64url_text` does within a bound. -/
structure DecodesExactly (maxBytes : ℕ) : Prop where
  padded (bytes : Bytes) : bytes ≠ [] → bytes.length ≤ maxBytes →
    decodeBase64urlText (some (.str (String.ofList (urlsafeB64encode bytes)))) maxBytes =
      some (decodeUtf8 bytes)
  unpadded (bytes : Bytes) : bytes ≠ [] → bytes.length ≤ maxBytes →
    decodeBase64urlText (some (.str (String.ofList (stripPadding (urlsafeB64encode bytes)))))
      maxBytes = some (decodeUtf8 bytes)
  decoded (data : Option Json) (value : String) : decodeBase64urlText data maxBytes = some value →
    ∃ text decoded, data = some (.str text) ∧
      b64decode (addPadding text.toList) = some decoded ∧
      Base64Text (addPadding text.toList) decoded ∧ decoded.length ≤ maxBytes ∧
      value = decodeUtf8 decoded

theorem decodesExactly (maxBytes : ℕ) : DecodesExactly maxBytes where
  padded bytes hbytes hbound := by
    have hk : 0 < 4 := by decide
    exact decodeBase64urlText_of_append hk hbytes (List.append_nil _).symm hbound
  unpadded bytes hbytes hbound := by
    obtain ⟨k, hk, hencode⟩ := exists_urlsafeB64encode_eq bytes
    exact decodeBase64urlText_of_append hk hbytes hencode hbound
  decoded data value h := by
    rcases data with _ | _ | _ | _ | text | _ | _
    case some.str =>
      rw [← String.ofList_toList (s := text)] at h
      obtain ⟨decoded, hdecoded, hbound, hvalue⟩ := of_decodeBase64urlText_eq_some h
      exact ⟨text, decoded, rfl, hdecoded, (b64decode_eq_some_iff.mp hdecoded).2, hbound, hvalue⟩
    all_goals cases h

end Onebox.Mail
