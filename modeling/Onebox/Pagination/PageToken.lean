import Onebox.Python.Base64
import Onebox.Python.DateTime
import Onebox.Python.JsonRead
import Onebox.Python.Uuid

/-!
# Page tokens

`server/pagination.py`: the text of a position in a listing, and the position read back from it.
-/

namespace Onebox.Pagination

open Python

/-- `encode_page_token`. -/
def encodePageToken (createdAt : AwareDateTime) (rowId : Uuid) : String :=
  let raw := dumpsStrings [("c", String.ofList createdAt.isoformat), ("i", rowId.toText)]
  String.ofList (stripPadding (urlsafeB64encode (encodeUtf8 raw)))

/-- The string that a field of the decoded token holds. -/
def tokenField (data : Json) (key : String) : Option String := (data.get? key).bind Json.str?

/-- `decode_page_token`; `none` is `InvalidPageToken`. -/
def decodePageToken (token : String) : Option (AwareDateTime × Uuid) :=
  let padded := addPadding token.toList
  -- `padded.encode("ascii")` raises a `ValueError`, as do the calls after it.
  if padded.any fun c ↦ 128 ≤ c.toNat then none
  else do
    let data ← (urlsafeB64decode padded).bind loadsBytes
    let c ← tokenField data "c"
    let i ← tokenField data "i"
    let (shown, tzinfo) ← fromisoformat c.toList
    let rowId ← Uuid.ofText i.toList
    let offset ← tzinfo
    return (⟨shown, offset⟩, rowId)

/-! ## The token of a position -/

theorem toNat_lt_of_mem_urlsafeB64encode {bytes : Bytes} {c : Char}
    (h : c ∈ urlsafeB64encode bytes) : c.toNat < 128 := by
  have hdigit : ∀ n < 64, (base64UrlChar n).toNat < 128 := by decide
  induction bytes using urlsafeB64encode.induct with
  | case1 => exact absurd h List.not_mem_nil
  | case2 a =>
    have ha := a.toNat_lt
    simp only [urlsafeB64encode, List.mem_cons, List.not_mem_nil, or_false] at h
    rcases h with rfl | rfl | rfl | rfl
    · exact hdigit _ (by omega)
    · exact hdigit _ (by omega)
    · decide
    · decide
  | case3 a b =>
    have ha := a.toNat_lt
    have hb := b.toNat_lt
    simp only [urlsafeB64encode, List.mem_cons, List.not_mem_nil, or_false] at h
    rcases h with rfl | rfl | rfl | rfl
    · exact hdigit _ (by omega)
    · exact hdigit _ (by omega)
    · exact hdigit _ (by omega)
    · decide
  | case4 a b c rest ih =>
    have ha := a.toNat_lt
    have hb := b.toNat_lt
    have hc := c.toNat_lt
    simp only [urlsafeB64encode, List.mem_cons] at h
    rcases h with rfl | rfl | rfl | rfl | h
    · exact hdigit _ (by omega)
    · exact hdigit _ (by omega)
    · exact hdigit _ (by omega)
    · exact hdigit _ (by omega)
    · exact ih h

/-- **A position is read back from its token.** -/
theorem decodePageToken_encode (createdAt : AwareDateTime) (rowId : Uuid) :
    decodePageToken (encodePageToken createdAt rowId) = some (createdAt, rowId) := by
  have hnodup : ([("c", String.ofList createdAt.isoformat), ("i", rowId.toText)].map
      Prod.fst).Nodup := by
    simp only [List.map_cons, List.map_nil]
    decide
  have hascii : (urlsafeB64encode (encodeUtf8 (dumpsStrings
      [("c", String.ofList createdAt.isoformat), ("i", rowId.toText)]))).any
        (fun c ↦ decide (128 ≤ c.toNat)) = false := by
    rw [List.any_eq_false]
    intro c hc
    have := toNat_lt_of_mem_urlsafeB64encode hc
    simpa using this
  have hdata : tokenField (.obj ([("c", String.ofList createdAt.isoformat),
      ("i", rowId.toText)].map stringField)) "c" = some (String.ofList createdAt.isoformat) := rfl
  have hid : tokenField (.obj ([("c", String.ofList createdAt.isoformat),
      ("i", rowId.toText)].map stringField)) "i" = some rowId.toText := rfl
  rw [decodePageToken, encodePageToken, String.toList_ofList, addPadding_stripPadding]
  dsimp only
  rw [hascii, if_neg Bool.false_ne_true, urlsafeB64decode_urlsafeB64encode, Option.bind_some,
    loadsBytes_dumpsStrings hnodup]
  dsimp only [Option.bind_eq_bind, Option.bind_some]
  rw [hdata, hid, Option.bind_some, Option.bind_some, String.toList_ofList,
    fromisoformat_isoformat, Option.bind_some, Uuid.toText, String.toList_ofList, Uuid.ofText_text]
  rfl

end Onebox.Pagination
