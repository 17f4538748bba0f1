import Onebox.PendingActions.Payloads

/-!
# Canonical payloads

A canonical payload is canonicalized once more at every later step, and must come out unchanged. All
its text does, since it has been stripped by Python, which counts more characters as space than
pydantic does, and since its length was checked after that. E-mail addresses are the exception:
their length is checked before they are folded, and folding may lengthen them.
-/

namespace Onebox.PendingActions

open Python

/-! ## Text -/

/-- A validator whose results are stripped, no longer than what they come from, and left alone. -/
structure Settles (validator : String → Option String) : Prop where
  settled : ∀ {s v}, validator s = some v → validator v = some v
  stripped : ∀ {s v}, validator s = some v → strip v = v
  length_le : ∀ {s v}, validator s = some v → v.length ≤ s.length

section

variable {env : PayloadEnv} {maximum : ℕ} {s v : String} {validator : String → Option String}

theorem cleanText_eq_some (h : cleanText maximum s = some v) :
    v = strip s ∧ v ≠ "" ∧ v.length ≤ maximum ∧ nul ∉ v.toList := by
  rw [cleanText] at h
  split at h
  · cases h
  · rename_i hblank
    split at h
    · cases h
    · rename_i hinvalid
      obtain rfl := Option.some.inj h
      obtain ⟨hlength, hnul⟩ := not_or.mp hinvalid
      exact ⟨rfl, hblank, Nat.not_lt.mp hlength, hnul⟩

theorem cleanText_of_stripped (hstrip : strip v = v) (hblank : v ≠ "") (hnul : nul ∉ v.toList) :
    cleanText maximum v = if v.length ≤ maximum then some v else none := by
  rw [cleanText, hstrip, if_neg hblank]
  by_cases hlength : v.length ≤ maximum
  · rw [if_pos hlength, if_neg]
    rintro (hlt | hmem)
    · exact Nat.not_lt.mpr hlength hlt
    · exact hnul hmem
  · rw [if_neg hlength, if_pos (Or.inl (Nat.not_le.mp hlength))]

theorem settles_cleanText (maximum : ℕ) : Settles (cleanText maximum) where
  settled {s v} h := by
    obtain ⟨rfl, hblank, hlength, hnul⟩ := cleanText_eq_some h
    rw [cleanText_of_stripped (strip_strip s) hblank hnul, if_pos hlength]
  stripped {s v} h := by
    obtain ⟨rfl, -⟩ := cleanText_eq_some h
    exact strip_strip s
  length_le {s v} h := by
    obtain ⟨rfl, -⟩ := cleanText_eq_some h
    exact length_strip_le s

/-- A further check of the result. -/
theorem Settles.filter (h : Settles validator) (p : String → Bool) :
    Settles fun s ↦ (validator s).filter p where
  settled {s v} hv := by
    obtain ⟨hvalid, hp⟩ := Option.filter_eq_some_iff.mp hv
    exact Option.filter_eq_some_iff.mpr ⟨h.settled hvalid, hp⟩
  stripped hv := h.stripped (Option.filter_eq_some_iff.mp hv).1
  length_le hv := h.length_le (Option.filter_eq_some_iff.mp hv).1

theorem settles_optionalText : Settles optionalText where
  settled {s v} h := by
    rw [optionalText] at h
    split at h
    · cases h
    · rename_i hnul
      obtain rfl := Option.some.inj h
      rw [optionalText, strip_strip, if_neg]
      intro hmem
      refine hnul ?_
      rw [strip, String.toList_ofList] at hmem
      exact mem_of_mem_stripChars hmem
  stripped {s v} h := by
    rw [optionalText] at h
    split at h
    · cases h
    · obtain rfl := Option.some.inj h
      exact strip_strip s
  length_le {s v} h := by
    rw [optionalText] at h
    split at h
    · cases h
    · obtain rfl := Option.some.inj h
      exact length_strip_le s

/-! ## Addresses -/

/-- What the checks of `_canonical_email` find in an address. -/
structure PlainAddress (cs : List Char) : Prop where
  parts : ∃ as ds, cs = as ++ '@' :: ds ∧ '@' ∉ as ∧ '@' ∉ ds ∧ as ≠ [] ∧ ds ≠ [] ∧
    ds.head? ≠ some '.' ∧ ds.getLast? ≠ some '.'
  no_space : ∀ c ∈ cs, isSpace c = false
  no_nul : nul ∉ cs

theorem canonicalEmail_eq_some {a : String} (h : canonicalEmail env s = some a) :
    ∃ v, v = strip s ∧ env.parseaddr v = v ∧ PlainAddress v.toList ∧
      a = env.folding.casefold v := by
  rw [canonicalEmail] at h
  split at h
  · cases h
  · rename_i v hclean
    obtain ⟨hv, -, -, hnul⟩ := cleanText_eq_some hclean
    dsimp only at h
    split at h
    · cases h
    · rename_i hplain
      push Not at hplain
      obtain ⟨haddress, hcount, hspace⟩ := hplain
      rw [haddress] at hcount hspace h
      split at h
      · cases h
      · rename_i hparts
        push Not at hparts
        obtain ⟨as, ds, hsplit, has, hds⟩ := exists_of_count_eq_one hcount
        rw [hsplit, rsplitOnce_append hds] at hparts
        obtain ⟨hlocal, hdomain, hhead, hlast⟩ := hparts
        refine ⟨v, hv, haddress, ⟨⟨as, ds, hsplit, has, hds, hlocal, hdomain, hhead, hlast⟩, ?_,
          hnul⟩, (Option.some.inj h).symm⟩
        intro c hc
        by_contra hcs
        exact hspace (List.any_eq_true.mpr ⟨c, hc, by simpa using hcs⟩)

/-- Folding keeps an address plain. -/
theorem PlainAddress.flatMap (folding : CaseFolding) {cs : List Char} (h : PlainAddress cs) :
    PlainAddress (cs.flatMap folding.fold) where
  parts := by
    obtain ⟨as, ds, rfl, has, hds, hlocal, hdomain, hhead, hlast⟩ := h.parts
    have hne : ∀ bs : List Char, bs ≠ [] → bs.flatMap folding.fold ≠ [] := by
      intro bs hbs hnil
      obtain ⟨b, rest, rfl⟩ := List.exists_cons_of_ne_nil hbs
      rw [List.flatMap_cons, List.append_eq_nil_iff] at hnil
      exact folding.ne_nil b hnil.1
    refine ⟨as.flatMap folding.fold, ds.flatMap folding.fold, ?_, ?_, ?_, hne as hlocal,
      hne ds hdomain, fun hdot ↦ hhead ?_, fun hdot ↦ hlast ?_⟩
    · rw [List.flatMap_append, List.flatMap_cons, folding.fold_delimiter '@' rfl]
      rfl
    · rw [CaseFolding.mem_flatMap_iff rfl]
      exact has
    · rw [CaseFolding.mem_flatMap_iff rfl]
      exact hds
    · exact CaseFolding.head_flatMap rfl hdot
    · exact CaseFolding.getLast_flatMap rfl hdot
  no_space c hc := by
    by_contra hspace
    have hdelimiter : isDelimiter c = true := by
      rw [isDelimiter, Bool.eq_true_of_not_eq_false hspace]
      rfl
    exact hspace (h.no_space c ((CaseFolding.mem_flatMap_iff hdelimiter).mp hc))
  no_nul hnul := h.no_nul ((CaseFolding.mem_flatMap_iff rfl).mp hnul)

/-- A plain address that the parser leaves alone is refused for its length only. -/
theorem canonicalEmail_of_plain {a : String} (haddress : env.parseaddr a = a)
    (hplain : PlainAddress a.toList) :
    canonicalEmail env a =
      if a.length ≤ 320 then some (env.folding.casefold a) else none := by
  obtain ⟨as, ds, hsplit, has, hds, hlocal, hdomain, hhead, hlast⟩ := hplain.parts
  have hblank : a ≠ "" := by
    rintro rfl
    simp at hsplit
  have hcount : a.toList.count '@' = 1 := by
    rw [hsplit, List.count_append, List.count_cons_self, List.count_eq_zero.mpr has,
      List.count_eq_zero.mpr hds]
  have hspace : ¬a.toList.any isSpace = true := by
    rw [List.any_eq_true]
    rintro ⟨c, hc, hcs⟩
    rw [hplain.no_space c hc] at hcs
    cases hcs
  rw [canonicalEmail, cleanText_of_stripped (strip_of_forall hplain.no_space) hblank hplain.no_nul]
  by_cases hlength : a.length ≤ 320
  · rw [if_pos hlength, if_pos hlength]
    dsimp only
    rw [haddress, if_neg, hsplit, rsplitOnce_append hds, if_neg]
    · rintro (hnil | hnil | hdot | hdot)
      · exact hlocal hnil
      · exact hdomain hnil
      · exact hhead hdot
      · exact hlast hdot
    · rintro (hne | hne | hany)
      · exact hne rfl
      · exact hne hcount
      · exact hspace hany
  · rw [if_neg hlength, if_neg hlength]

/-- **A canonical address is left alone exactly when folding has kept it within the limit.** -/
theorem canonicalEmail_canonicalEmail_iff {a : String} (h : canonicalEmail env s = some a) :
    canonicalEmail env a = some a ↔ a.length ≤ 320 := by
  obtain ⟨v, -, haddress, hplain, rfl⟩ := canonicalEmail_eq_some h
  have hfolded : PlainAddress (env.folding.casefold v).toList := by
    rw [CaseFolding.toList_casefold]
    exact hplain.flatMap env.folding
  rw [canonicalEmail_of_plain (env.parseaddr_casefold v haddress) hfolded,
    CaseFolding.casefold_casefold]
  constructor
  · intro hsome
    by_contra hlength
    rw [if_neg hlength] at hsome
    cases hsome
  · exact fun hlength ↦ if_pos hlength

/-- A canonical address has no space to strip. -/
theorem trim_canonicalEmail {a : String} (h : canonicalEmail env s = some a) : trim a = a := by
  obtain ⟨v, -, -, hplain, rfl⟩ := canonicalEmail_eq_some h
  refine trim_of_forall ?_
  rw [CaseFolding.toList_casefold]
  exact (hplain.flatMap env.folding).no_space

theorem length_strip_of_canonicalEmail {a : String} (h : canonicalEmail env s = some a) :
    (strip s).length ≤ 320 := by
  rw [canonicalEmail] at h
  split at h
  · cases h
  · rename_i v hclean
    obtain ⟨rfl, -, hlength, -⟩ := cleanText_eq_some hclean
    exact hlength

theorem strip_canonicalEmail {a : String} (h : canonicalEmail env s = some a) : strip a = a := by
  obtain ⟨v, -, -, hplain, rfl⟩ := canonicalEmail_eq_some h
  refine strip_of_forall ?_
  rw [CaseFolding.toList_casefold]
  exact (hplain.flatMap env.folding).no_space

theorem eq_casefold_of_canonicalEmail {a : String} (h : canonicalEmail env s = some a) :
    a = env.folding.casefold (strip s) := by
  obtain ⟨v, rfl, -, -, ha⟩ := canonicalEmail_eq_some h
  exact ha

end

/-! ## Fields -/

section

variable {env : PayloadEnv} {name : String} {maxLength : Option ℕ} {default : Option Json}
  {validator : String → Option String} {v w : Json}

theorem textField_eq_some (h : (textField name maxLength default validator).validate v = some w) :
    ∃ s s', v = .str s ∧ maxLength.all ((trim s).length ≤ ·) = true ∧
      validator (trim s) = some s' ∧ w = .str s' := by
  cases v with
  | str s =>
    simp only [textField] at h
    split at h
    · rename_i hlength
      obtain ⟨s', hvalid, rfl⟩ := Option.map_eq_some_iff.mp h
      exact ⟨s, s', rfl, hlength, hvalid, rfl⟩
    · cases h
  | _ => cases h

/-- A text field accepts what it has dumped. -/
theorem textField_settled (hsettles : Settles validator)
    (h : (textField name maxLength default validator).validate v = some w) :
    (textField name maxLength default validator).validate w = some w := by
  obtain ⟨s, s', rfl, hlength, hvalid, rfl⟩ := textField_eq_some h
  have htrim : trim s' = s' := by
    rw [← hsettles.stripped hvalid]
    exact trim_strip s'
  simp only [textField]
  rw [htrim, if_pos, hsettles.settled hvalid]
  · rfl
  · cases maxLength with
    | none => rfl
    | some maximum =>
      have hle : (trim s).length ≤ maximum := by simpa using hlength
      simpa using Nat.le_trans (hsettles.length_le hvalid) hle

/-- An address field accepts what it has dumped when that is within the limit. -/
theorem emailField_settled_iff
    (h : (textField name none default (canonicalEmail env)).validate v = some w) :
    (textField name none default (canonicalEmail env)).validate w = some w ↔
      ∀ s, v.str? = some s → (env.folding.casefold (strip (trim s))).length ≤ 320 := by
  obtain ⟨s, a, rfl, -, hvalid, rfl⟩ := textField_eq_some h
  have hagain : (textField name none default (canonicalEmail env)).validate (.str a) =
      (canonicalEmail env a).map .str := by
    simp only [textField]
    rw [trim_canonicalEmail hvalid]
    rfl
  have hlimit : (∀ s', (Json.str s).str? = some s' →
      (env.folding.casefold (strip (trim s'))).length ≤ 320) ↔ a.length ≤ 320 := by
    rw [eq_casefold_of_canonicalEmail hvalid]
    constructor
    · exact fun hall ↦ hall s rfl
    · intro hlength s' hs'
      obtain rfl := Option.some.inj hs'
      exact hlength
  rw [hagain, hlimit, ← canonicalEmail_canonicalEmail_iff hvalid]
  constructor
  · intro hmap
    obtain ⟨a', ha', heq⟩ := Option.map_eq_some_iff.mp hmap
    rw [ha', Json.str.inj heq]
  · intro hsome
    rw [hsome]
    rfl

theorem schemaVersion_settled (h : (schemaVersion env).validate v = some w) :
    (schemaVersion env).validate w = some w := by
  simp only [schemaVersion] at h ⊢
  split at h
  · obtain rfl := Option.some.inj h
    exact if_pos env.isSchemaVersion_one
  · cases h

theorem actionTypeField_settled {text : String} (h : (actionTypeField text).validate v = some w) :
    (actionTypeField text).validate w = some w := by
  simp only [actionTypeField] at h ⊢
  split at h
  · obtain rfl := Option.some.inj h
    exact if_pos rfl
  · cases h

theorem datetimeField_settled (h : (datetimeField env name).validate v = some w) :
    (datetimeField env name).validate w = some w := by
  obtain ⟨d, hread, rfl⟩ := Option.map_eq_some_iff.mp h
  exact Option.map_eq_some_iff.mpr ⟨d, env.readDatetime_dump v d hread, rfl⟩

/-! ### The attendees -/

/-- The canonical addresses of a list, each once and in order. -/
theorem validateAttendees_eq_some {values emails : List String}
    (h : validateAttendees env values = some emails) :
    ∃ canonical, List.Forall₂ (fun value email ↦ canonicalEmail env value = some email) values
        canonical ∧ emails.Perm canonical ∧ emails.Nodup ∧ emails.Pairwise (· ≤ ·) ∧
      emails.length = values.length := by
  rw [validateAttendees] at h
  split at h
  · cases h
  · rename_i canonical hmap
    dsimp only at h
    split at h
    · cases h
    · rename_i hlength
      obtain rfl := Option.some.inj h
      have hpairs := mapM_eq_some_iff.mp hmap
      have hsame := not_not.mp hlength
      have hnodup : canonical.Nodup := by
        rw [List.length_mergeSort, hpairs.length_eq] at hsame
        rw [← List.dedup_eq_self]
        exact (List.dedup_sublist canonical).eq_of_length hsame
      rw [hnodup.dedup] at hsame ⊢
      refine ⟨canonical, hpairs, List.mergeSort_perm _ _, ?_, pairwise_mergeSort_text id _, hsame⟩
      exact (List.mergeSort_perm _ _).nodup_iff.mpr hnodup

/-- Canonical addresses, each once and in order, are left alone when they are within the limit. -/
theorem validateAttendees_self_iff {emails : List String} (hnodup : emails.Nodup)
    (hsorted : emails.Pairwise (· ≤ ·))
    (hcanonical : ∀ a ∈ emails, ∃ s, canonicalEmail env s = some a) :
    validateAttendees env emails = some emails ↔ ∀ a ∈ emails, a.length ≤ 320 := by
  constructor
  · intro h a ha
    obtain ⟨canonical, hpairs, -⟩ := validateAttendees_eq_some h
    obtain ⟨s, hs⟩ := hcanonical a ha
    obtain ⟨b, -, hb⟩ := exists_right_of_forall₂ hpairs ha
    rw [← strip_canonicalEmail hs]
    exact length_strip_of_canonicalEmail hb
  · intro h
    have hself : emails.mapM (canonicalEmail env) = some emails := by
      refine mapM_self_iff.mpr fun a ha ↦ ?_
      obtain ⟨s, hs⟩ := hcanonical a ha
      exact (canonicalEmail_canonicalEmail_iff hs).mpr (h a ha)
    have hsort : emails.dedup.mergeSort (fun a b ↦ decide (a ≤ b)) = emails := by
      rw [hnodup.dedup]
      exact mergeSort_text_self (by rwa [List.map_id']) hsorted
    rw [validateAttendees, hself]
    dsimp only
    rw [hsort, if_neg (not_not.mpr rfl)]

theorem attendeeEmails_eq_some (h : (attendeeEmails env).validate v = some w) :
    ∃ items values emails, v = .arr items ∧ items.length ≤ 100 ∧
      List.Forall₂ (fun item value ↦ item.str?.map trim = some value) items values ∧
      validateAttendees env values = some emails ∧ w = .arr (emails.map .str) := by
  cases v with
  | arr items =>
    simp only [attendeeEmails] at h
    split at h
    · rename_i hlength
      split at h
      · cases h
      · rename_i values hvalues
        obtain ⟨emails, hemails, rfl⟩ := Option.map_eq_some_iff.mp h
        exact ⟨items, values, emails, rfl, hlength, mapM_eq_some_iff.mp hvalues, hemails, rfl⟩
    · cases h
  | _ => cases h

/-- The list of attendees accepts what it has dumped when every address is within the limit. -/
theorem attendeeEmails_settled_iff (h : (attendeeEmails env).validate v = some w) :
    (attendeeEmails env).validate w = some w ↔
      ∀ items, v = .arr items → ∀ s ∈ items.filterMap Json.str?,
        (env.folding.casefold (strip (trim s))).length ≤ 320 := by
  obtain ⟨items, values, emails, rfl, hitems, hvalues, hemails, rfl⟩ := attendeeEmails_eq_some h
  obtain ⟨canonical, hpairs, hperm, hnodup, hsorted, hlength⟩ := validateAttendees_eq_some hemails
  have hcanonical : ∀ a ∈ emails, ∃ s, canonicalEmail env s = some a := by
    intro a ha
    obtain ⟨s, -, hs⟩ := exists_left_of_forall₂ hpairs (hperm.mem_iff.mp ha)
    exact ⟨s, hs⟩
  have hagain : (attendeeEmails env).validate (.arr (emails.map .str)) =
      (validateAttendees env emails).map fun emails ↦ .arr (emails.map .str) := by
    have htrim : (emails.map Json.str).mapM (fun item ↦ item.str?.map trim) = some emails := by
      rw [List.mapM_map, mapM_self_iff]
      intro a ha
      obtain ⟨s, hs⟩ := hcanonical a ha
      exact congrArg some (trim_canonicalEmail hs)
    have hcount : (emails.map Json.str).length ≤ 100 := by
      rw [List.length_map, hlength, ← hvalues.length_eq]
      exact hitems
    simp only [attendeeEmails]
    rw [if_pos hcount, htrim]
  have hself : (attendeeEmails env).validate (.arr (emails.map .str)) =
      some (.arr (emails.map .str)) ↔ ∀ a ∈ emails, a.length ≤ 320 := by
    rw [hagain, ← validateAttendees_self_iff hnodup hsorted hcanonical]
    constructor
    · intro hmap
      obtain ⟨emails', hemails', heq⟩ := Option.map_eq_some_iff.mp hmap
      have hinjective : Function.Injective Json.str := fun _ _ ↦ Json.str.inj
      rw [hemails', hinjective.list_map (Json.arr.inj heq)]
    · intro hsome
      rw [hsome]
      rfl
  rw [hself]
  constructor
  · intro hall items' hitems' s hs
    obtain rfl := Json.arr.inj hitems'
    obtain ⟨item, hitem, hstr⟩ := List.mem_filterMap.mp hs
    obtain ⟨value, hvalue, htrim⟩ := exists_right_of_forall₂ hvalues hitem
    obtain ⟨email, hemail, hcanonicalEmail⟩ := exists_right_of_forall₂ hpairs hvalue
    rw [hstr] at htrim
    obtain rfl := Option.some.inj htrim
    rw [← eq_casefold_of_canonicalEmail hcanonicalEmail]
    exact hall email (hperm.mem_iff.mpr hemail)
  · intro hall a ha
    obtain ⟨value, hvalue, hcanonicalEmail⟩ := exists_left_of_forall₂ hpairs (hperm.mem_iff.mp ha)
    obtain ⟨item, hitem, htrim⟩ := exists_left_of_forall₂ hvalues hvalue
    obtain ⟨s, hstr, rfl⟩ := Option.map_eq_some_iff.mp htrim
    rw [eq_casefold_of_canonicalEmail hcanonicalEmail]
    exact hall items rfl s (List.mem_filterMap.mpr ⟨item, hitem, hstr⟩)

end

/-! ## Models -/

/-- The e-mail addresses given in a payload. -/
def emailTexts (t : ActionType) (payload : Json) : List String :=
  match dictOf payload with
  | none => []
  | some candidate =>
    match t with
    | .sendEmail | .sendReply =>
      ["sender_email", "recipient_email"].filterMap fun key ↦
        (candidate.lookup key).bind Json.str?
    | .createEvent =>
      match candidate.lookup "attendee_emails" with
      | some (.arr items) => items.filterMap Json.str?
      | _ => []
    | .createTask | .other _ => []

/-- No address of the payload is longer than the limit on addresses once it is stripped and
folded. -/
def EmailsFit (env : PayloadEnv) (t : ActionType) (payload : Json) : Prop :=
  ∀ s ∈ emailTexts t payload, (env.folding.casefold (strip (trim s))).length ≤ 320

section

variable {env : PayloadEnv} {t : ActionType} {payload canonical : Json} {model : Schema}
  {given dumped candidate : List (String × Json)} {name : String}

/-- A required field that could be read was given. -/
theorem read_eq_some_of_required {field : ModelField} {v : Json} (hdefault : field.default = none)
    (h : field.read given = some v) :
    ∃ u, given.lookup field.name = some u ∧ field.validate u = some v := by
  rw [ModelField.read] at h
  split at h
  · rename_i u hu
    exact ⟨u, hu, h⟩
  · rw [hdefault] at h
    cases h

/-- Every default is accepted by its own field. -/
theorem optionalText_default {maximum : ℕ} :
    ∀ d, (textField name (some maximum) (some (.str "")) optionalText).default = some d →
      (textField name (some maximum) (some (.str "")) optionalText).validate d = some d := by
  intro d hd
  obtain rfl := Option.some.inj hd
  have hempty : optionalText (trim "") = some "" := rfl
  have hlength : (some maximum).all ((trim "").length ≤ ·) = true :=
    decide_eq_true (Nat.zero_le maximum)
  simp only [textField]
  rw [if_pos hlength, hempty]
  rfl

/-- An address field of a model. -/
theorem email_settled_iff (hkey : name ≠ "action_type")
    (hread : ∃ v,
      (textField name none none (canonicalEmail env)).read (modelArguments t candidate) = some v) :
    (textField name none none (canonicalEmail env)).Settled (modelArguments t candidate) ↔
      ∀ s, (candidate.lookup name).bind Json.str? = some s →
        (env.folding.casefold (strip (trim s))).length ≤ 320 := by
  obtain ⟨v, hv⟩ := hread
  obtain ⟨u, hu, hvalidate⟩ := read_eq_some_of_required rfl hv
  have hlookup : candidate.lookup name = some u := (lookup_modelArguments hkey).symm.trans hu
  rw [hlookup, ModelField.Settled, hv]
  constructor
  · intro hall
    exact (emailField_settled_iff hvalidate).mp (hall v rfl)
  · intro hall w hw
    obtain rfl := Option.some.inj hw
    exact (emailField_settled_iff hvalidate).mpr hall

theorem attendees_settled_iff
    (hread : ∃ v, (attendeeEmails env).read (modelArguments t candidate) = some v) :
    (attendeeEmails env).Settled (modelArguments t candidate) ↔
      ∀ items, candidate.lookup "attendee_emails" = some (.arr items) →
        ∀ s ∈ items.filterMap Json.str?, (env.folding.casefold (strip (trim s))).length ≤ 320 := by
  obtain ⟨v, hv⟩ := hread
  have hne : "attendee_emails" ≠ "action_type" := by decide
  have hkey : (modelArguments t candidate).lookup (attendeeEmails env).name =
      candidate.lookup "attendee_emails" := lookup_modelArguments hne
  simp only [ModelField.Settled, ModelField.read, hkey] at hv ⊢
  cases hlookup : candidate.lookup "attendee_emails" with
  | none =>
    refine ⟨fun _ ↦ (by rintro _ ⟨⟩), fun _ w hw ↦ ?_⟩
    obtain rfl := Option.some.inj hw
    simp [attendeeEmails, validateAttendees]
  | some u =>
    rw [hlookup] at hv
    constructor
    · intro hall items hitems
      obtain rfl := Option.some.inj hitems
      exact (attendeeEmails_settled_iff hv).mp (hall v hv) items rfl
    · intro hall w hw
      refine (attendeeEmails_settled_iff hw).mpr fun items hitems ↦ ?_
      exact hall items (congrArg some hitems)

/-! ### The fields that settle -/

theorem settled_schemaVersion : (schemaVersion env).Settled given := by
  refine ModelField.settled_of_fixed schemaVersion_settled fun d hd ↦ ?_
  obtain rfl := Option.some.inj hd
  exact if_pos env.isSchemaVersion_one

theorem settled_actionTypeField {text : String} : (actionTypeField text).Settled given :=
  ModelField.settled_of_fixed actionTypeField_settled nofun

theorem settled_datetimeField : (datetimeField env name).Settled given :=
  ModelField.settled_of_fixed datetimeField_settled nofun

theorem settled_textField {maxLength : Option ℕ} {validator : String → Option String}
    (h : Settles validator) : (textField name maxLength none validator).Settled given :=
  ModelField.settled_of_fixed (textField_settled h) nofun

theorem settled_optionalText {maximum : ℕ} :
    (textField name (some maximum) (some (.str "")) optionalText).Settled given :=
  ModelField.settled_of_fixed (textField_settled settles_optionalText) optionalText_default

/-- The addresses of a message fit when both of its address fields settle. -/
theorem emailsFit_iff_of_message (ht : t = .sendEmail ∨ t = .sendReply)
    (hdict : dictOf payload = some candidate)
    (hsender : ∃ v, (textField "sender_email" none none (canonicalEmail env)).read
      (modelArguments t candidate) = some v)
    (hrecipient : ∃ v, (textField "recipient_email" none none (canonicalEmail env)).read
      (modelArguments t candidate) = some v) :
    EmailsFit env t payload ↔
      (textField "sender_email" none none (canonicalEmail env)).Settled
          (modelArguments t candidate) ∧
        (textField "recipient_email" none none (canonicalEmail env)).Settled
          (modelArguments t candidate) := by
  have htexts : emailTexts t payload = ["sender_email", "recipient_email"].filterMap fun key ↦
      (candidate.lookup key).bind Json.str? := by
    rw [emailTexts, hdict]
    rcases ht with rfl | rfl
    · rfl
    · rfl
  rw [email_settled_iff (by decide) hsender, email_settled_iff (by decide) hrecipient, EmailsFit,
    htexts]
  simp only [List.mem_filterMap, List.mem_cons, List.not_mem_nil, or_false]
  constructor
  · intro hall
    exact ⟨fun s hs ↦ hall s ⟨_, Or.inl rfl, hs⟩, fun s hs ↦ hall s ⟨_, Or.inr rfl, hs⟩⟩
  · rintro ⟨hsender, hrecipient⟩ s ⟨key, rfl | rfl, hs⟩
    · exact hsender s hs
    · exact hrecipient s hs

theorem emailsFit_iff_of_event (hdict : dictOf payload = some candidate)
    (hread : ∃ v, (attendeeEmails env).read (modelArguments .createEvent candidate) = some v) :
    EmailsFit env .createEvent payload ↔
      (attendeeEmails env).Settled (modelArguments .createEvent candidate) := by
  rw [attendees_settled_iff hread, EmailsFit, emailTexts, hdict]
  dsimp only
  constructor
  · intro hall items hitems
    rw [hitems] at hall
    exact hall
  · intro hall s hs
    split at hs
    · rename_i items hitems
      exact hall items hitems s hs
    · cases hs

/-- **The fields of a model settle exactly when its addresses fit.** -/
theorem settled_iff_emailsFit (hmodel : payloadModel env t = some model)
    (hdict : dictOf payload = some candidate)
    (hdump : model.dump (modelArguments t candidate) = some dumped) :
    (∀ field ∈ model, field.Settled (modelArguments t candidate)) ↔ EmailsFit env t payload := by
  have hread : ∀ field ∈ model, ∃ v, field.read (modelArguments t candidate) = some v := by
    intro field hmem
    obtain ⟨v, hv, -⟩ := Schema.mem_dump hdump hmem
    exact ⟨v, hv⟩
  cases t with
  | sendEmail =>
    obtain rfl := Option.some.inj hmodel
    rw [emailsFit_iff_of_message (Or.inl rfl) hdict (hread _ (by simp [sendEmailPayload]))
      (hread _ (by simp [sendEmailPayload]))]
    simp only [sendEmailPayload, List.forall_mem_cons, List.not_mem_nil, false_imp_iff,
      implies_true, and_true]
    constructor
    -- Of its fields only the addresses may fail to settle.
    · rintro ⟨-, -, hsender, hrecipient, -, -⟩
      exact ⟨hsender, hrecipient⟩
    · rintro ⟨hsender, hrecipient⟩
      exact ⟨settled_schemaVersion, settled_actionTypeField, hsender, hrecipient,
        settled_textField (settles_cleanText _), settled_textField (settles_cleanText _)⟩
  | sendReply =>
    obtain rfl := Option.some.inj hmodel
    rw [emailsFit_iff_of_message (Or.inr rfl) hdict (hread _ (by simp [sendReplyPayload]))
      (hread _ (by simp [sendReplyPayload]))]
    simp only [sendReplyPayload, List.forall_mem_cons, List.not_mem_nil, false_imp_iff,
      implies_true, and_true]
    constructor
    · rintro ⟨-, -, hsender, hrecipient, -⟩
      exact ⟨hsender, hrecipient⟩
    · rintro ⟨hsender, hrecipient⟩
      exact ⟨settled_schemaVersion, settled_actionTypeField, hsender, hrecipient,
        settled_textField ((settles_cleanText _).filter _),
        settled_textField ((settles_cleanText _).filter _),
        settled_textField ((settles_cleanText _).filter _), settled_optionalText,
        settled_textField (settles_cleanText _), settled_textField (settles_cleanText _)⟩
  | createEvent =>
    obtain rfl := Option.some.inj hmodel
    rw [emailsFit_iff_of_event hdict (hread _ (by simp [createEventPayload]))]
    simp only [createEventPayload, List.forall_mem_cons, List.not_mem_nil, false_imp_iff,
      implies_true, and_true]
    constructor
    · rintro ⟨-, -, -, -, -, -, -, -, hattendees⟩
      exact hattendees
    · intro hattendees
      exact ⟨settled_schemaVersion, settled_actionTypeField,
        settled_textField (settles_cleanText _), settled_datetimeField, settled_datetimeField,
        settled_textField ((settles_cleanText _).filter _), settled_optionalText,
        settled_optionalText, hattendees⟩
  -- A task has no address: both sides hold.
  | createTask =>
    obtain rfl := Option.some.inj hmodel
    have hfit : EmailsFit env .createTask payload := by
      intro s hs
      rw [emailTexts, hdict] at hs
      cases hs
    simp only [createTaskPayload, List.forall_mem_cons, List.not_mem_nil, false_imp_iff,
      implies_true, and_true]
    refine ⟨fun _ ↦ hfit, fun _ ↦ ?_⟩
    exact ⟨settled_schemaVersion, settled_actionTypeField, settled_textField (settles_cleanText _),
      settled_textField (settles_cleanText _)⟩
  | other name => cases hmodel

end

end Onebox.PendingActions
