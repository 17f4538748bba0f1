import Onebox.Forest.Preorder
import Onebox.Mail.Inbound

/-!
# The walks over the parts of a mail

Both walks visit the first parts of the payload in preorder, cut below a depth. `_walk_parts` yields
the dictionaries among them. `get_email_body` returns the text of the first part that has one, or
raises at a malformed part before it.
-/

namespace Onebox.Mail

open Python Forest

variable {unicode : UnicodeData} {part payload : Json} {text : String}

/-- The children of a part. -/
def mimeParts (part : Json) : List Json :=
  match part.get? "parts" with
  | some (.arr children) => children
  | _ => []

/-- The parts that both walks visit at most. -/
def boundedPreorder (payload : Json) : List Json :=
  (preorder mimeParts maxMimePartDepth payload).take maxMimeParts

theorem mimeParts_of_not_isDict (h : ¬part.isDict = true) : mimeParts part = [] := by
  rcases part with _ | _ | _ | _ | _ | fields
  case obj => exact absurd rfl h
  all_goals rfl

theorem mimeParts_of_childParts {depth : ℕ} {children : List Json}
    (h : childParts part depth = some children) :
    mimeParts part = children ∧ depth < maxMimePartDepth := by
  rcases hparts : part.get? "parts" with _ | value
  · rw [childParts, hparts] at h
    cases h
  · rw [childParts, hparts] at h
    rcases value with _ | _ | _ | _ | parts | _
    case arr =>
      rw [mimeParts, hparts]
      by_cases hdepth : depth < maxMimePartDepth
      · exact ⟨Option.some.inj ((if_pos hdepth).symm.trans h), hdepth⟩
      · cases (if_neg hdepth).symm.trans h
    all_goals cases h

theorem of_childParts_eq_none {depth : ℕ} (h : childParts part depth = none) :
    ¬depth < maxMimePartDepth ∨ mimeParts part = [] := by
  rcases hparts : part.get? "parts" with _ | value
  · exact .inr (by rw [mimeParts, hparts])
  · rcases value with _ | _ | _ | _ | parts | _
    case arr =>
      rw [childParts, hparts] at h
      refine .inl fun hdepth ↦ ?_
      cases (if_pos hdepth).symm.trans h
    all_goals exact .inr (by rw [mimeParts, hparts])

/-! ## `_walk_parts` -/

theorem take_sub_cons {visited : ℕ} (h : ¬maxMimeParts < visited + 1) (rest : List Json) :
    (part :: rest).take (maxMimeParts - visited) =
      part :: rest.take (maxMimeParts - (visited + 1)) := by
  have hlevels : maxMimeParts - visited = maxMimeParts - (visited + 1) + 1 := by omega
  rw [hlevels, List.take_succ_cons]

/-- The loop yields the dictionaries among what its stack has still to visit. -/
theorem walkLoop_eq (visited : ℕ) (stack : List (List Json × ℕ)) :
    walkLoop visited stack =
      ((stackOrder mimeParts maxMimePartDepth stack).take (maxMimeParts - visited)).filter
        Json.isDict := by
  fun_induction walkLoop visited stack with
  | case1 => rw [stackOrder_nil, List.take_nil, List.filter_nil]
  | case2 visited depth stack ih => rw [stackOrder_done, ih]
  | case3 visited part siblings depth stack hlimit =>
    have hnone : maxMimeParts - visited = 0 := by omega
    rw [hnone, List.take_zero, List.filter_nil]
  | case4 visited part siblings depth stack hlimit hdict ihdescend ihnext =>
    split
    · rename_i children hchildren
      obtain ⟨rfl, hdepth⟩ := mimeParts_of_childParts hchildren
      rw [stackOrder_descend hdepth, take_sub_cons hlimit, List.filter_cons_of_pos hdict, ihdescend]
    · rename_i hchildren
      have horder : stackOrder mimeParts maxMimePartDepth ((part :: siblings, depth) :: stack) =
          part :: stackOrder mimeParts maxMimePartDepth ((siblings, depth) :: stack) := by
        rcases of_childParts_eq_none hchildren with hdepth | hleaf
        · exact stackOrder_cut hdepth
        · exact stackOrder_leaf hleaf
      rw [horder, take_sub_cons hlimit, List.filter_cons_of_pos hdict, ihnext]
  | case5 visited part siblings depth stack hlimit hdict ih =>
    rw [stackOrder_leaf (mimeParts_of_not_isDict hdict), take_sub_cons hlimit,
      List.filter_cons_of_neg hdict, ih]

/-- A payload that is no dictionary is its only part. -/
theorem boundedPreorder_of_not_isDict (h : ¬payload.isDict = true) :
    boundedPreorder payload = [payload] := by
  have hlevels : maxMimePartDepth = 31 + 1 := rfl
  rw [boundedPreorder, hlevels, preorder, mimeParts_of_not_isDict h, List.flatMap_nil]
  rfl

theorem walkParts_eq (payload : Json) :
    walkParts payload = (boundedPreorder payload).filter Json.isDict := by
  rw [walkParts]
  by_cases hdict : payload.isDict = true
  · rw [if_pos hdict, walkLoop_eq, stackOrder_root, boundedPreorder, Nat.sub_zero]
  · rw [if_neg hdict, boundedPreorder_of_not_isDict hdict, List.filter_cons_of_neg hdict,
      List.filter_nil]

/-! ## Malformed parts -/

/-- Which values count as missing. -/
def isNull : Json → Bool
  | .null => true
  | .bool _ | .num _ | .str _ | .arr _ | .obj _ => false

/-- A dictionary without children. -/
def LeafPart (missing : Json → Bool) (part : Json) : Prop :=
  part.isDict = true ∧
    ∀ value, part.get? "parts" = some value → missing value = true ∨ value = .arr []

def TextPart (missing : Json → Bool) (unicode : UnicodeData) (part : Json) : Prop :=
  LeafPart missing part ∧
    ∃ mimeType, part.get? "mimeType" = some (.str mimeType) ∧ isTextType unicode mimeType = true

/-- The data of a body: no string, or one that cannot be decoded. -/
def BadData (missing : Json → Bool) (data : Json) : Prop :=
  missing data = false ∧ ∀ encoded, data = .str encoded →
    encoded ≠ "" ∧ decodeBase64urlText (some (.str encoded)) maxBodyBytes = none

/-- The body of a text leaf: no dictionary, or one with bad data. -/
def BadBody (missing : Json → Bool) (body : Json) : Prop :=
  missing body = false ∧
    (body.isDict = true → ∃ data, body.get? "data" = some data ∧ BadData missing data)

/-- The malformed parts. What counts as missing makes no part malformed. -/
inductive Malformed (missing : Json → Bool) (unicode : UnicodeData) (part : Json) : Prop
  | notDict (h : part.isDict = false)
  | notList {value : Json} (hparts : part.get? "parts" = some value)
      (hpresent : missing value = false) (h : ∀ children, value ≠ .arr children)
  | noType (hleaf : LeafPart missing part)
      (h : ∀ mimeType, part.get? "mimeType" ≠ some (.str mimeType))
  | body (htext : TextPart missing unicode part) {body : Json}
      (hbody : part.get? "body" = some body) (h : BadBody missing body)

/-- A text leaf with a text. -/
def HoldsText (unicode : UnicodeData) (part : Json) (text : String) : Prop :=
  TextPart isNull unicode part ∧ ∃ body encoded, part.get? "body" = some body ∧
    body.get? "data" = some (.str encoded) ∧
    decodeBase64urlText (some (.str encoded)) maxBodyBytes = some text ∧ text ≠ ""

section

variable {data body : Option Json}

theorem readData_string (encoded : String) :
    readData (some (.str encoded)) =
      match decodeBase64urlText (some (.str encoded)) maxBodyBytes with
      | none => if encoded = "" then .ok .nothing else .error ⟨"invalid or oversized body data"⟩
      | some extracted => .ok (if extracted = "" then .nothing else .text extracted) := by
  by_cases hempty : encoded = ""
  · subst hempty
    rfl
  · rcases hdecode : decodeBase64urlText (some (.str encoded)) maxBodyBytes with _ | extracted
    · simp only [readData, if_neg hempty, hdecode]
    · simp only [readData, if_neg hempty, hdecode]

theorem readData_error_iff :
    (∃ e, readData data = .error e) ↔ ∃ value, data = some value ∧ BadData isNull value := by
  rcases data with _ | _ | _ | _ | encoded | _ | _
  case some.str =>
    rw [readData_string]
    constructor
    · rintro ⟨e, he⟩
      refine ⟨.str encoded, rfl, rfl, fun encoded' heq ↦ ?_⟩
      obtain rfl := Json.str.inj heq
      split at he
      · rename_i hdecode
        split at he
        · cases he
        · rename_i hne
          exact ⟨hne, hdecode⟩
      · cases he
    · rintro ⟨value, hvalue, -, hbad⟩
      obtain ⟨hne, hdecode⟩ := hbad encoded (Option.some.inj hvalue).symm
      rw [hdecode]
      exact ⟨_, if_neg hne⟩
  case none => exact ⟨nofun, nofun⟩
  case some.null =>
    refine ⟨nofun, ?_⟩
    rintro ⟨value, hvalue, hpresent, -⟩
    obtain rfl := Option.some.inj hvalue
    cases hpresent
  all_goals exact ⟨fun _ ↦ ⟨_, rfl, rfl, nofun⟩, fun _ ↦ ⟨_, rfl⟩⟩

theorem readData_text_iff :
    readData data = .ok (.text text) ↔ ∃ encoded, data = some (.str encoded) ∧
      decodeBase64urlText (some (.str encoded)) maxBodyBytes = some text ∧ text ≠ "" := by
  rcases data with _ | _ | _ | _ | encoded | _ | _
  case some.str =>
    rw [readData_string]
    constructor
    · intro h
      refine ⟨encoded, rfl, ?_⟩
      split at h
      · split at h
        · cases h
        · cases h
      · rename_i extracted hdecode
        split at h
        · cases h
        · rename_i hne
          cases h
          exact ⟨hdecode, hne⟩
    · rintro ⟨encoded', heq, hdecode, hne⟩
      cases heq
      rw [hdecode]
      exact congrArg Except.ok (if_neg hne)
  all_goals exact ⟨nofun, nofun⟩

theorem readData_ne_children (data : Option Json) (children : List Json) :
    readData data ≠ .ok (.children children) := by
  rcases data with _ | _ | _ | _ | encoded | _ | _
  case some.str =>
    rw [readData_string]
    split
    · split <;> exact nofun
    · split <;> exact nofun
  all_goals exact nofun

theorem readBody_error_iff :
    (∃ e, readBody body = .error e) ↔ ∃ value, body = some value ∧ BadBody isNull value := by
  rcases body with _ | _ | _ | _ | _ | _ | fields
  case some.obj =>
    rw [readBody, readData_error_iff]
    constructor
    · exact fun h ↦ ⟨.obj fields, rfl, rfl, fun _ ↦ h⟩
    · rintro ⟨value, hvalue, -, hbad⟩
      obtain rfl := Option.some.inj hvalue
      exact hbad rfl
  case none => exact ⟨nofun, nofun⟩
  case some.null =>
    refine ⟨nofun, ?_⟩
    rintro ⟨value, hvalue, hpresent, -⟩
    obtain rfl := Option.some.inj hvalue
    cases hpresent
  all_goals exact ⟨fun _ ↦ ⟨_, rfl, rfl, nofun⟩, fun _ ↦ ⟨_, rfl⟩⟩

theorem readBody_text_iff :
    readBody body = .ok (.text text) ↔ ∃ value encoded, body = some value ∧
      value.get? "data" = some (.str encoded) ∧
      decodeBase64urlText (some (.str encoded)) maxBodyBytes = some text ∧ text ≠ "" := by
  rcases body with _ | _ | _ | _ | _ | _ | fields
  case some.obj =>
    rw [readBody, readData_text_iff]
    constructor
    · rintro ⟨encoded, hdata, hdecode⟩
      exact ⟨.obj fields, encoded, rfl, hdata, hdecode⟩
    · rintro ⟨value, encoded, hvalue, hdata, hdecode⟩
      obtain rfl := Option.some.inj hvalue
      exact ⟨encoded, hdata, hdecode⟩
  case none => exact ⟨nofun, nofun⟩
  all_goals
    refine ⟨nofun, ?_⟩
    rintro ⟨value, encoded, hvalue, hdata, -⟩
    obtain rfl := Option.some.inj hvalue
    cases hdata

theorem readBody_ne_children (body : Option Json) (children : List Json) :
    readBody body ≠ .ok (.children children) := by
  rcases body with _ | _ | _ | _ | _ | _ | fields
  case some.obj => exact readData_ne_children _ children
  all_goals exact nofun

/-- A leaf is read by its type and its body. -/
theorem readLeaf_cases (unicode : UnicodeData) (part : Json) :
    (∃ mimeType, part.get? "mimeType" = some (.str mimeType) ∧ isTextType unicode mimeType = true ∧
      readLeaf unicode part = readBody (part.get? "body")) ∨
    (∃ mimeType, part.get? "mimeType" = some (.str mimeType) ∧
      isTextType unicode mimeType = false ∧ readLeaf unicode part = .ok .nothing) ∨
    (∀ mimeType, part.get? "mimeType" ≠ some (.str mimeType)) ∧
      ∃ e, readLeaf unicode part = .error e := by
  rw [readLeaf]
  split
  · rename_i mimeType htype
    rcases htext : isTextType unicode mimeType with _ | _
    · exact .inr (.inl ⟨mimeType, htype, htext, if_neg Bool.false_ne_true⟩)
    · exact .inl ⟨mimeType, htype, htext, if_pos rfl⟩
  · rename_i htype
    exact .inr (.inr ⟨htype, _, rfl⟩)

/-- A part is read as a leaf, is descended into, or is malformed before its type is looked at. -/
theorem readPart_cases (unicode : UnicodeData) (part : Json) :
    (LeafPart isNull part ∧ mimeParts part = [] ∧ readPart unicode part = readLeaf unicode part) ∨
    (part.isDict = true ∧ (∃ children, part.get? "parts" = some (.arr children) ∧ children ≠ [] ∧
      readPart unicode part = .ok (.children children))) ∨
    (part.isDict = false ∨ ∃ value, part.get? "parts" = some value ∧ isNull value = false ∧
      ∀ children, value ≠ .arr children) ∧ ∃ e, readPart unicode part = .error e := by
  rcases hdict : part.isDict with _ | _
  · refine .inr (.inr ⟨.inl rfl, ⟨"invalid MIME part"⟩, ?_⟩)
    rw [readPart, hdict]
    rfl
  · rcases hparts : part.get? "parts" with _ | value
    · refine .inl ⟨⟨hdict, fun value h ↦ nomatch hparts.symm.trans h⟩, ?_, ?_⟩
      · rw [mimeParts, hparts]
      · rw [readPart, hdict, hparts]
        rfl
    · rcases value with _ | b | q | s | children | fields
      case null =>
        refine .inl ⟨⟨hdict, fun value h ↦ .inl ?_⟩, ?_, ?_⟩
        · obtain rfl := Option.some.inj (hparts.symm.trans h)
          rfl
        · rw [mimeParts, hparts]
        · rw [readPart, hdict, hparts]
          rfl
      case arr =>
        rcases children with _ | ⟨first, rest⟩
        · refine .inl ⟨⟨hdict, fun value h ↦ .inr ?_⟩, ?_, ?_⟩
          · exact (Option.some.inj (hparts.symm.trans h)).symm
          · rw [mimeParts, hparts]
          · rw [readPart, hdict, hparts]
            rfl
        · refine .inr (.inl ⟨rfl, first :: rest, rfl, List.cons_ne_nil first rest, ?_⟩)
          rw [readPart, hdict, hparts]
          rfl
      all_goals
        refine .inr (.inr ⟨.inr ⟨_, rfl, rfl, nofun⟩, ⟨"invalid MIME parts"⟩, ?_⟩)
        rw [readPart, hdict, hparts]
        rfl

end

/-! ## `get_email_body` -/

/-- What the loop makes of a part, apart from its children. -/
def inspectPart (unicode : UnicodeData) (part : Json) : Except ValueError (Option String) :=
  match readPart unicode part with
  | .error e => .error e
  | .ok (.text extracted) => .ok (some extracted)
  | .ok .nothing | .ok (.children _) => .ok none

theorem readLeaf_ne_children (unicode : UnicodeData) (part : Json) (children : List Json) :
    readLeaf unicode part ≠ .ok (.children children) := by
  rcases readLeaf_cases unicode part with ⟨_, _, _, hread⟩ | ⟨_, _, _, hread⟩ | ⟨_, e, hread⟩
  · rw [hread]
    exact readBody_ne_children _ children
  · rw [hread]
    exact nofun
  · rw [hread]
    exact nofun

theorem mimeParts_of_nothing (h : readPart unicode part = .ok .nothing) : mimeParts part = [] := by
  rcases readPart_cases unicode part with ⟨_, hparts, _⟩ | ⟨_, _, _, _, hread⟩ | ⟨_, e, hread⟩
  · exact hparts
  · cases hread.symm.trans h
  · cases hread.symm.trans h

theorem mimeParts_of_children {children : List Json}
    (h : readPart unicode part = .ok (.children children)) : mimeParts part = children := by
  rcases readPart_cases unicode part with ⟨_, _, hread⟩ | ⟨_, parts, hparts, _, hread⟩ |
    ⟨_, e, hread⟩
  · exact absurd (hread.symm.trans h) (readLeaf_ne_children unicode part children)
  · cases hread.symm.trans h
    rw [mimeParts, hparts]
  · cases hread.symm.trans h

theorem inspectPart_of_nothing (h : readPart unicode part = .ok .nothing) :
    inspectPart unicode part = .ok none := by
  rw [inspectPart, h]

theorem inspectPart_of_children {children : List Json}
    (h : readPart unicode part = .ok (.children children)) :
    inspectPart unicode part = .ok none := by
  rw [inspectPart, h]

theorem inspectPart_error_iff :
    (∃ e, inspectPart unicode part = .error e) ↔ ∃ e, readPart unicode part = .error e := by
  rw [inspectPart]
  split
  · rename_i e hread
    rw [hread]
    exact ⟨fun _ ↦ ⟨e, rfl⟩, fun _ ↦ ⟨e, rfl⟩⟩
  · rename_i hread
    rw [hread]
    exact ⟨(by rintro ⟨_, ⟨⟩⟩), (by rintro ⟨_, ⟨⟩⟩)⟩
  · rename_i hread
    rw [hread]
    exact ⟨(by rintro ⟨_, ⟨⟩⟩), (by rintro ⟨_, ⟨⟩⟩)⟩
  · rename_i hread
    rw [hread]
    exact ⟨(by rintro ⟨_, ⟨⟩⟩), (by rintro ⟨_, ⟨⟩⟩)⟩

theorem inspectPart_text_iff :
    inspectPart unicode part = .ok (some text) ↔ readPart unicode part = .ok (.text text) := by
  rw [inspectPart]
  split
  · rename_i hread
    rw [hread]
    exact ⟨(by rintro ⟨⟩), (by rintro ⟨⟩)⟩
  · rename_i hread
    rw [hread, Except.ok.injEq, Except.ok.injEq, Option.some.injEq, PartFound.text.injEq]
  · rename_i hread
    rw [hread]
    exact ⟨(by rintro ⟨⟩), (by rintro ⟨⟩)⟩
  · rename_i hread
    rw [hread]
    exact ⟨(by rintro ⟨⟩), (by rintro ⟨⟩)⟩

theorem LeafPart.not_notList (h : LeafPart isNull part) {value : Json}
    (hparts : part.get? "parts" = some value) (hpresent : isNull value = false)
    (hlist : ∀ children, value ≠ .arr children) : False := by
  rcases h.2 value hparts with hnull | hnil
  · exact Bool.false_ne_true (hpresent.symm.trans hnull)
  · exact hlist [] hnil

/-- The loop raises at the malformed parts. -/
theorem malformed_iff :
    (∃ e, inspectPart unicode part = .error e) ↔ Malformed isNull unicode part := by
  rw [inspectPart_error_iff]
  rcases readPart_cases unicode part with ⟨hleaf, -, hread⟩ |
    ⟨hdict, children, hparts, hne, hread⟩ | ⟨hbad, e, hread⟩
  · rw [hread]
    -- A leaf is read as a text, is passed over for its type, or has none.
    rcases readLeaf_cases unicode part with ⟨mimeType, htype, htext, hleafRead⟩ |
      ⟨mimeType, htype, htext, hleafRead⟩ | ⟨htype, e, hleafRead⟩
    · rw [hleafRead, readBody_error_iff]
      constructor
      · rintro ⟨body, hbody, hbad⟩
        exact .body ⟨hleaf, mimeType, htype, htext⟩ hbody hbad
      · rintro (hdict | ⟨hparts, hpresent, hlist⟩ | ⟨-, hnone⟩ | ⟨-, hbody, hbad⟩)
        · exact absurd (hleaf.1.symm.trans hdict) Bool.noConfusion
        · exact (hleaf.not_notList hparts hpresent hlist).elim
        · exact absurd htype (hnone mimeType)
        · exact ⟨_, hbody, hbad⟩
    · rw [hleafRead]
      refine ⟨nofun, ?_⟩
      rintro (hdict | ⟨hparts, hpresent, hlist⟩ | ⟨-, hnone⟩ |
        ⟨⟨-, other, hother, hothertext⟩, -, -⟩)
      · exact absurd (hleaf.1.symm.trans hdict) Bool.noConfusion
      · exact (hleaf.not_notList hparts hpresent hlist).elim
      · exact absurd htype (hnone mimeType)
      · cases htype.symm.trans hother
        exact absurd (htext.symm.trans hothertext) Bool.false_ne_true
    · rw [hleafRead]
      exact ⟨fun _ ↦ .noType hleaf htype, fun _ ↦ ⟨e, rfl⟩⟩
  · rw [hread]
    -- A container is read for its children only: it cannot be malformed in any of these ways.
    have hnotleaf : ¬LeafPart isNull part := by
      intro hleaf
      rcases hleaf.2 _ hparts with hnull | hnil
      · cases hnull
      · exact hne (Json.arr.inj hnil)
    refine ⟨nofun, ?_⟩
    rintro (hnot | ⟨hvalue, -, hlist⟩ | ⟨hleaf, -⟩ | ⟨⟨hleaf, -⟩, -, -⟩)
    · exact absurd (hdict.symm.trans hnot) Bool.noConfusion
    · exact absurd (Option.some.inj (hvalue.symm.trans hparts)) (hlist children)
    · exact absurd hleaf hnotleaf
    · exact absurd hleaf hnotleaf
  · rw [hread]
    refine ⟨fun _ ↦ ?_, fun _ ↦ ⟨e, rfl⟩⟩
    rcases hbad with hdict | ⟨value, hparts, hpresent, hlist⟩
    · exact .notDict hdict
    · exact .notList hparts hpresent hlist

/-- The loop returns the text of a text leaf. -/
theorem holdsText_iff :
    inspectPart unicode part = .ok (some text) ↔ HoldsText unicode part text := by
  rw [inspectPart_text_iff]
  rcases readPart_cases unicode part with ⟨hleaf, -, hread⟩ |
    ⟨hdict, children, hparts, hne, hread⟩ | ⟨hbad, e, hread⟩
  · rw [hread]
    rcases readLeaf_cases unicode part with ⟨mimeType, htype, htext, hleafRead⟩ |
      ⟨mimeType, htype, htext, hleafRead⟩ | ⟨htype, e, hleafRead⟩
    · rw [hleafRead, readBody_text_iff]
      exact ⟨fun h ↦ ⟨⟨hleaf, mimeType, htype, htext⟩, h⟩, fun h ↦ h.2⟩
    · rw [hleafRead]
      refine ⟨nofun, ?_⟩
      rintro ⟨⟨-, other, hother, hothertext⟩, -⟩
      cases htype.symm.trans hother
      exact absurd (htext.symm.trans hothertext) Bool.false_ne_true
    · rw [hleafRead]
      refine ⟨nofun, ?_⟩
      rintro ⟨⟨-, mimeType, hmimeType, -⟩, -⟩
      exact absurd hmimeType (htype mimeType)
  · rw [hread]
    refine ⟨nofun, ?_⟩
    rintro ⟨⟨⟨-, hleaf⟩, -⟩, -⟩
    rcases hleaf _ hparts with hnull | hnil
    · cases hnull
    · exact absurd (Json.arr.inj hnil) hne
  · rw [hread]
    refine ⟨nofun, ?_⟩
    rintro ⟨⟨hleaf, -⟩, -⟩
    rcases hbad with hdict | ⟨value, hparts, hpresent, hlist⟩
    · exact absurd (hleaf.1.symm.trans hdict) Bool.noConfusion
    · exact (hleaf.not_notList hparts hpresent hlist).elim

/-- The loop takes the first verdict on what its stack has still to visit. -/
theorem bodyLoop_eq (unicode : UnicodeData) (visited : ℕ) (stack : List (List Json × ℕ)) :
    bodyLoop unicode visited stack =
      (firstVerdict (inspectPart unicode)
        ((stackOrder mimeParts maxMimePartDepth stack).take (maxMimeParts - visited))).map
          (·.getD "") := by
  fun_induction bodyLoop unicode visited stack with
  | case1 => rw [stackOrder_nil, List.take_nil]; rfl
  | case2 visited depth stack ih => rw [stackOrder_done, ih]
  | case3 visited part siblings depth stack hlimit =>
    have hnone : maxMimeParts - visited = 0 := by
      have hsame : maxInboundMimeParts = maxMimeParts := rfl
      omega
    rw [hnone, List.take_zero]
    rfl
  | case4 visited part siblings depth stack hlimit e hread =>
    obtain ⟨rest, hrest⟩ := stackOrder_cons mimeParts maxMimePartDepth part siblings depth stack
    rw [hrest, take_sub_cons hlimit, firstVerdict, inspectPart, hread]
    rfl
  | case5 visited part siblings depth stack hlimit extracted hread =>
    obtain ⟨rest, hrest⟩ := stackOrder_cons mimeParts maxMimePartDepth part siblings depth stack
    rw [hrest, take_sub_cons hlimit, firstVerdict, inspectPart, hread]
    rfl
  | case6 visited part siblings depth stack hlimit hread ih =>
    rw [stackOrder_leaf (mimeParts_of_nothing hread), take_sub_cons hlimit,
      firstVerdict_cons_of_none (inspectPart_of_nothing hread), ih]
  | case7 visited part siblings depth stack hlimit children hread hdepth ih =>
    obtain rfl := mimeParts_of_children hread
    have hless : depth < maxMimePartDepth := hdepth
    rw [stackOrder_descend hless, take_sub_cons hlimit,
      firstVerdict_cons_of_none (inspectPart_of_children hread), ih]
  | case8 visited part siblings depth stack hlimit children hread hdepth ih =>
    have hnotless : ¬depth < maxMimePartDepth := hdepth
    rw [stackOrder_cut hnotless, take_sub_cons hlimit,
      firstVerdict_cons_of_none (inspectPart_of_children hread), ih]

theorem getEmailBody_eq (unicode : UnicodeData) (payload : Json) :
    getEmailBody unicode payload =
      (firstVerdict (inspectPart unicode) (boundedPreorder payload)).map (·.getD "") := by
  rw [getEmailBody]
  by_cases hdict : payload.isDict = true
  · rw [if_pos hdict, bodyLoop_eq, stackOrder_root, boundedPreorder, Nat.sub_zero]
  · rw [if_neg hdict, boundedPreorder_of_not_isDict hdict, firstVerdict, inspectPart, readPart,
      if_neg hdict]
    rfl

/-- A part that does not stop the walk of `get_email_body`. -/
def Passed (unicode : UnicodeData) (part : Json) : Prop :=
  ¬Malformed isNull unicode part ∧ ∀ text, ¬HoldsText unicode part text

theorem passed_iff : inspectPart unicode part = .ok none ↔ Passed unicode part := by
  rw [Passed, ← malformed_iff]
  simp only [← holdsText_iff]
  rcases inspectPart unicode part with e | _ | text
  · exact ⟨nofun, fun h ↦ absurd ⟨e, rfl⟩ h.1⟩
  · exact ⟨fun _ ↦ ⟨nofun, nofun⟩, fun _ ↦ rfl⟩
  · exact ⟨nofun, fun h ↦ absurd rfl (h.2 text)⟩

/-- A malformed part is visited, and no part before it has a text. -/
def MeetsMalformed (missing : Json → Bool) (unicode : UnicodeData) (payload : Json) : Prop :=
  ∃ before part after, boundedPreorder payload = before ++ part :: after ∧
    (∀ earlier ∈ before, ∀ text, ¬HoldsText unicode earlier text) ∧
    Malformed missing unicode part

/-- What both walks do on a payload. -/
structure BoundedWalks (unicode : UnicodeData) (payload : Json) : Prop where
  yields : walkParts payload = (boundedPreorder payload).filter Json.isDict
  returns (text : String) : text ≠ "" → (getEmailBody unicode payload = .ok text ↔
    ∃ before part after, boundedPreorder payload = before ++ part :: after ∧
      (∀ earlier ∈ before, Passed unicode earlier) ∧ HoldsText unicode part text)
  returnsEmpty : getEmailBody unicode payload = .ok "" ↔
    ∀ part ∈ boundedPreorder payload, Passed unicode part
  raises : (∃ e, getEmailBody unicode payload = .error e) ↔ MeetsMalformed isNull unicode payload

theorem HoldsText.ne_empty (h : HoldsText unicode part text) : text ≠ "" := by
  obtain ⟨_, _, _, _, _, _, hne⟩ := h
  exact hne

/-- Of the parts before the first malformed one, none stops the walk. -/
theorem meetsMalformed_iff :
    MeetsMalformed isNull unicode payload ↔ ∃ before part after,
      boundedPreorder payload = before ++ part :: after ∧
      (∀ earlier ∈ before, Passed unicode earlier) ∧ Malformed isNull unicode part := by
  constructor
  · rintro ⟨before, part, after, horder, hbefore, hbad⟩
    rw [horder]
    clear horder
    induction before with
    | nil => exact ⟨[], part, after, rfl, nofun, hbad⟩
    | cons first before ih =>
      obtain ⟨hfirst, hrest⟩ := List.forall_mem_cons.mp hbefore
      by_cases hmalformed : Malformed isNull unicode first
      · exact ⟨[], first, before ++ part :: after, rfl, nofun, hmalformed⟩
      · obtain ⟨before', part', after', heq, hbefore', hbad'⟩ := ih hrest
        refine ⟨first :: before', part', after', ?_, ?_, hbad'⟩
        · rw [List.cons_append, heq, List.cons_append]
        · exact List.forall_mem_cons.mpr ⟨⟨hmalformed, hfirst⟩, hbefore'⟩
  · rintro ⟨before, part, after, horder, hbefore, hbad⟩
    exact ⟨before, part, after, horder, fun earlier h ↦ (hbefore earlier h).2, hbad⟩

theorem getEmailBody_text_iff (hne : text ≠ "") :
    getEmailBody unicode payload = .ok text ↔
      firstVerdict (inspectPart unicode) (boundedPreorder payload) = .ok (some text) := by
  rw [getEmailBody_eq]
  rcases firstVerdict (inspectPart unicode) (boundedPreorder payload) with e | _ | found
  · exact ⟨nofun, nofun⟩
  · exact ⟨fun h ↦ absurd (Except.ok.inj h).symm hne, nofun⟩
  · constructor
    · intro h
      obtain rfl : found = text := Except.ok.inj h
      rfl
    · intro h
      obtain rfl : found = text := Option.some.inj (Except.ok.inj h)
      rfl

theorem getEmailBody_error_iff {e : ValueError} :
    getEmailBody unicode payload = .error e ↔
      firstVerdict (inspectPart unicode) (boundedPreorder payload) = .error e := by
  rw [getEmailBody_eq]
  rcases firstVerdict (inspectPart unicode) (boundedPreorder payload) with e' | found
  · exact ⟨fun h ↦ congrArg Except.error (Except.error.inj h),
      fun h ↦ congrArg Except.error (Except.error.inj h)⟩
  · exact ⟨nofun, nofun⟩

/-- No part has an empty text, so that an empty body comes from no part. -/
theorem getEmailBody_empty_iff :
    getEmailBody unicode payload = .ok "" ↔
      firstVerdict (inspectPart unicode) (boundedPreorder payload) = .ok none := by
  rw [getEmailBody_eq]
  rcases hverdict : firstVerdict (inspectPart unicode) (boundedPreorder payload) with e | _ | found
  · exact ⟨nofun, nofun⟩
  · exact ⟨fun _ ↦ rfl, fun _ ↦ rfl⟩
  · obtain ⟨_, part, _, _, _, hfound⟩ := firstVerdict_eq_some_iff.mp hverdict
    have hne := (holdsText_iff.mp hfound).ne_empty
    exact ⟨fun h ↦ absurd (Except.ok.inj h) hne, nofun⟩

theorem boundedWalks (unicode : UnicodeData) (payload : Json) : BoundedWalks unicode payload where
  yields := walkParts_eq payload
  returns text hne := by
    rw [getEmailBody_text_iff hne, firstVerdict_eq_some_iff]
    simp only [passed_iff, holdsText_iff]
  returnsEmpty := by
    rw [getEmailBody_empty_iff, firstVerdict_eq_none_iff]
    simp only [passed_iff]
  raises := by
    rw [meetsMalformed_iff]
    simp only [getEmailBody_error_iff, ← passed_iff, ← malformed_iff]
    constructor
    · rintro ⟨e, he⟩
      obtain ⟨before, part, after, horder, hbefore, hpart⟩ := firstVerdict_eq_error_iff.mp he
      exact ⟨before, part, after, horder, hbefore, e, hpart⟩
    · rintro ⟨before, part, after, horder, hbefore, e, hpart⟩
      exact ⟨e, firstVerdict_eq_error_iff.mpr ⟨before, part, after, horder, hbefore, hpart⟩⟩

/-- A body that is null is no dictionary, and the walk passes over it. -/
theorem not_raises_nullBody :
    ¬((∃ e, getEmailBody .ascii (.obj [("mimeType", .str "text/plain"), ("body", .null)]) =
        .error e) ↔
      MeetsMalformed (fun _ ↦ false) .ascii
        (.obj [("mimeType", .str "text/plain"), ("body", .null)])) := by
  intro hiff
  have hbad : Malformed (fun _ ↦ false) .ascii
      (.obj [("mimeType", .str "text/plain"), ("body", .null)]) := by
    refine .body ⟨⟨rfl, nofun⟩, "text/plain", rfl, ?_⟩ rfl ⟨rfl, nofun⟩
    decide
  obtain ⟨e, he⟩ := hiff.mpr ⟨[], _, [], rfl, nofun, hbad⟩
  rw [getEmailBody_error_iff] at he
  cases he

end Onebox.Mail
