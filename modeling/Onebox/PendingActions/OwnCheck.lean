import Onebox.PendingActions.Canonical

/-!
# An action against its own payload

A staged action is checked against its own payload three times: by the claim that follows the
approval, by the execution, and by a reconciliation. An action that nobody has touched passes these
checks exactly when no e-mail address has become too long by folding. When one has, the staging has
accepted the action, and the claim of the approved action sends it to an operator.
-/

namespace Onebox.PendingActions

open Python

/-- A payload that `create_pending_action` accepts. -/
structure StagedPayload (env : PayloadEnv) where
  actionType : ActionType
  payload : Json
  canonical : Json
  accepted : canonicalizeActionPayload env actionType payload = some canonical

namespace StagedPayload

variable {env : PayloadEnv}

/-- The hash that is stored with the payload. -/
def payloadHash (staged : StagedPayload env) : String := makePayloadHash env staged.canonical

/-- The row holds what was staged. -/
structure Untouched (staged : StagedPayload env) (row : PendingAction) : Prop where
  actionType : row.actionType = staged.actionType
  payload : row.payload = staged.canonical
  payloadHash : row.payloadHash = staged.payloadHash

/-- The inserted row. -/
def row (staged : StagedPayload env) (id : ActionId) (userId : UserId) (commandKey : String)
    (clock : Clock) : PendingAction :=
  newPendingAction id userId staged.actionType staged.canonical staged.payloadHash commandKey clock

theorem untouched_row (staged : StagedPayload env) (id : ActionId) (userId : UserId)
    (commandKey : String)
    (clock : Clock) : staged.Untouched (staged.row id userId commandKey clock) :=
  ⟨rfl, rfl, rfl⟩

/-- **A staged action passes its own checks.** -/
structure PassesOwnCheck (staged : StagedPayload env) : Prop where
  /-- The canonical payload is canonical. -/
  again : canonicalizeActionPayload env staged.actionType staged.canonical = some staged.canonical
  /-- Its hash is the stored one. -/
  hash : (canonicalizeActionPayload env staged.actionType staged.canonical).map
    (makePayloadHash env) = some staged.payloadHash
  /-- The integrity check succeeds. -/
  required : ∀ row, staged.Untouched row →
    requireCanonicalPayload (payloadRules env) row = some staged.canonical
  /-- A claim in time is granted. -/
  claimed : ∀ row clock token userId, staged.Untouched row → row.status = .pending →
    clock 0 < row.expiresAt →
      (claimPendingAction (payloadRules env) clock token userId row).2 = true
  /-- The execution goes on to the provider. -/
  executed : ∀ row, staged.Untouched row → beforeOperation (payloadRules env) row = none
  /-- The lookup does not refuse the payload. -/
  reconciled : ∀ (handlers : HandlerEnv), handlers.rules = payloadRules env →
    ∀ row, staged.Untouched row → ∀ answers,
      (reconcileAction handlers row answers).errorCode ≠ some "payload_invalid"

end StagedPayload

/-! ## The second canonicalization -/

section

variable {env : PayloadEnv} {t : ActionType} {payload canonical : Json} {model : Schema}
  {given dumped candidate : List (String × Json)}

/-- A dump holds its own type. -/
theorem lookup_actionType_dump (hmodel : payloadModel env t = some model)
    (hdump : model.dump (modelArguments t candidate) = some dumped) :
    dumped.lookup "action_type" = some (.str t.text) := by
  have hmem := actionTypeField_mem hmodel
  have hlookup := Schema.lookup_dump (nodup_payloadModel hmodel) hdump hmem
  rw [ModelField.read] at hlookup
  exact hlookup.trans (if_pos rfl)

/-- The arguments that come from a dump are those of the dump. -/
theorem lookup_modelArguments_dump (h : dumped.lookup "action_type" = some (.str t.text))
    (key : String) : (modelArguments t dumped).lookup key = dumped.lookup key := by
  by_cases hkey : key = "action_type"
  · rw [hkey, h]
    rfl
  · exact lookup_modelArguments hkey

/-- The interval is read back as it was. -/
theorem read_datetimeField (env : PayloadEnv) (name : String) (arguments : List (String × Json)) :
    (datetimeField env name).read arguments =
      match arguments.lookup name with
      | some v => (env.readDatetime v).map fun d ↦ Json.str (env.dumpDatetime d)
      | none => none := rfl

theorem validateModel_dump (hmodel : payloadModel env t = some model)
    (hdump : model.dump (modelArguments t candidate) = some dumped)
    (hvalid : validateModel env (modelArguments t candidate) t = true) :
    validateModel env (modelArguments t dumped) t = true := by
  cases t with
  | createEvent =>
    have hread : ∀ name, datetimeField env name ∈ model → ∀ d,
        ((modelArguments .createEvent candidate).lookup name).bind env.readDatetime = some d →
          ((modelArguments .createEvent dumped).lookup name).bind env.readDatetime = some d := by
      intro name hmem d hd
      obtain ⟨v, hlookup, hv⟩ := Option.bind_eq_some_iff.mp hd
      have hdumped := Schema.lookup_dump (nodup_payloadModel hmodel) hdump hmem
      rw [lookup_modelArguments_dump (lookup_actionType_dump hmodel hdump)]
      have hfield : (datetimeField env name).read (modelArguments .createEvent candidate) =
          some (.str (env.dumpDatetime d)) := by
        rw [read_datetimeField, hlookup]
        exact Option.map_eq_some_iff.mpr ⟨d, hv, rfl⟩
      change dumped.lookup name = _ at hdumped
      rw [hdumped, hfield]
      exact env.readDatetime_dump v d hv
    obtain rfl := Option.some.inj hmodel
    simp only [validateModel, validateInterval] at hvalid ⊢
    split at hvalid
    · rename_i start finish hstart hfinish
      rw [hread _ (by simp [createEventPayload]) _ hstart,
        hread _ (by simp [createEventPayload]) _ hfinish]
      exact hvalid
    · cases hvalid
  | _ => rfl

/-- **What is canonical stays so exactly when its addresses fit.** -/
theorem canonicalizeActionPayload_again_iff
    (h : canonicalizeActionPayload env t payload = some canonical) :
    canonicalizeActionPayload env t canonical = some canonical ↔ EmailsFit env t payload := by
  obtain ⟨model, candidate, dumped, hmodel, hdict, hvalid, hvalidate, rfl⟩ :=
    canonicalizeActionPayload_eq_some h
  have hdump := Schema.dump_of_validate hvalidate
  have hnodup := nodup_payloadModel hmodel
  have htype := lookup_actionType_dump hmodel hdump
  have hkeys : ∀ entry ∈ modelArguments t dumped, entry.1 ∈ model.map ModelField.name := by
    intro entry hmem
    rcases List.mem_cons.mp hmem with rfl | hmem
    · exact List.mem_map.mpr ⟨_, actionTypeField_mem hmodel, rfl⟩
    · rw [← Schema.map_fst_dump hdump]
      exact List.mem_map_of_mem (List.mem_of_mem_filter hmem)
  have hsame : model.validate (modelArguments t dumped) = model.dump dumped := by
    rw [Schema.validate_eq_dump hkeys]
    refine Schema.dump_congr fun field _ ↦ ?_
    rw [ModelField.read, ModelField.read, lookup_modelArguments_dump htype]
  have hagain : canonicalizeActionPayload env t (.obj dumped) = (model.dump dumped).map .obj := by
    rw [canonicalizeActionPayload_obj hmodel ?_ (validateModel_dump hmodel hdump hvalid), hsame]
    intro v hv
    obtain rfl := Option.some.inj (htype.symm.trans hv)
    rfl
  rw [hagain, ← settled_iff_emailsFit hmodel hdict hdump, ← Schema.dump_dump_iff hnodup hdump]
  constructor
  · intro hmap
    obtain ⟨dumped', hdumped', hobj⟩ := Option.map_eq_some_iff.mp hmap
    rw [hdumped', Json.obj.inj hobj]
  · intro hself
    rw [hself]
    rfl

end

/-! ## The three checks -/

theorem errorCode_lookupFailure_ne (t : ActionType) (e : GoogleError) :
    (lookupFailure t e).errorCode ≠ some "payload_invalid" := by
  cases e with
  | rejected statusCode =>
    simp only [lookupFailure]
    split
    · simp [providerNotFound]
    · simp [unsettled]
  | other => simp [lookupFailure, unsettled]

theorem errorCode_withService_ne {t : ActionType} {answers : LookupAnswers} {unavailable : String}
    {lookup : Except GoogleError ReconciliationResult}
    (hunavailable : unavailable ≠ "payload_invalid")
    (hlookup : ∀ result, lookup = .ok result → result.errorCode ≠ some "payload_invalid") :
    (withService t answers unavailable lookup).errorCode ≠ some "payload_invalid" := by
  simp only [withService]
  split
  · cases lookup with
    | ok result => exact hlookup result rfl
    | error e => exact errorCode_lookupFailure_ne t e
  · intro h
    exact hunavailable (Option.some.inj h)

theorem errorCode_reconcileGmail_ne {env : HandlerEnv} {action : PendingAction} {payload : Json}
    {answers : LookupAnswers} (result : ReconciliationResult)
    (h : reconcileGmail env action payload answers = .ok result) :
    result.errorCode ≠ some "payload_invalid" := by
  rw [reconcileGmail] at h
  split at h
  · cases h
  · obtain rfl := Except.ok.inj h
    simp [providerNotFound]
  · split at h
    · cases h
    · split at h
      · obtain rfl := Except.ok.inj h
        rintro ⟨⟩
      · obtain rfl := Except.ok.inj h
        simp [unsettled]
  · obtain rfl := Except.ok.inj h
    simp [unsettled]

theorem errorCode_reconcileCalendar_ne {env : HandlerEnv} {action : PendingAction}
    {answers : LookupAnswers} (result : ReconciliationResult)
    (h : reconcileCalendar env action answers = .ok result) :
    result.errorCode ≠ some "payload_invalid" := by
  simp only [reconcileCalendar] at h
  split at h
  · cases h
  · obtain rfl := Except.ok.inj h
    simp [unsettled]
  · split at h
    · obtain rfl := Except.ok.inj h
      rintro ⟨⟩
    · obtain rfl := Except.ok.inj h
      simp [unsettled]

theorem errorCode_reconcileTask_ne {action : PendingAction} {answers : LookupAnswers}
    (result : ReconciliationResult) (h : reconcileTask action answers = .ok result) :
    result.errorCode ≠ some "payload_invalid" := by
  rw [reconcileTask] at h
  split at h
  · cases h
  · split at h
    · obtain rfl := Except.ok.inj h
      rintro ⟨⟩
    · obtain rfl := Except.ok.inj h
      simp [unsettled]
    · obtain rfl := Except.ok.inj h
      simp [unsettled]

/-- A lookup refuses the payload only when it cannot be canonicalized. -/
theorem errorCode_reconcileAction_ne {env : HandlerEnv} {action : PendingAction} {payload : Json}
    (answers : LookupAnswers)
    (h : env.rules.canonicalizeActionPayload action.actionType action.payload = some payload) :
    (reconcileAction env action answers).errorCode ≠ some "payload_invalid" := by
  rw [reconcileAction, h]
  dsimp only
  split
  · exact errorCode_withService_ne (by decide) errorCode_reconcileGmail_ne
  · exact errorCode_withService_ne (by decide) errorCode_reconcileGmail_ne
  · exact errorCode_withService_ne (by decide) errorCode_reconcileCalendar_ne
  · exact errorCode_withService_ne (by decide) errorCode_reconcileTask_ne
  · simp [unsettled]

/-- A check in time decides on the integrity of the payload only. -/
theorem claimPendingAction_granted {rules : PayloadRules} {clock : Clock} {token : String}
    {userId : UserId} {row : PendingAction} {payload : Json} (hstatus : row.status = .pending)
    (hclock : clock 0 < row.expiresAt) (h : requireCanonicalPayload rules row = some payload) :
    (claimPendingAction rules clock token userId row).2 = true := by
  have hnot : ¬(row.status = .pending ∧ row.expiresAt ≤ clock 0) := fun hexpired ↦
    absurd hexpired.2 (not_le.mpr hclock)
  rw [claimPendingAction]
  simp only [hstatus, h]
  rw [if_neg (by simp), if_neg (by simpa [hstatus] using hnot), if_neg (by simp)]

/-- **An untouched action passes its own checks exactly when no address has grown too long.** -/
theorem StagedPayload.passesOwnCheck_iff {env : PayloadEnv} (staged : StagedPayload env) :
    staged.PassesOwnCheck ↔ EmailsFit env staged.actionType staged.payload := by
  rw [← canonicalizeActionPayload_again_iff staged.accepted]
  refine ⟨PassesOwnCheck.again, fun hagain ↦ ?_⟩
  -- While the row is untouched, what is checked is the canonical payload once more.
  have hcanonicalize : ∀ row, staged.Untouched row →
      canonicalizeActionPayload env row.actionType row.payload = some staged.canonical := by
    intro row hrow
    rw [hrow.actionType, hrow.payload]
    exact hagain
  have hrequired : ∀ row, staged.Untouched row →
      requireCanonicalPayload (payloadRules env) row = some staged.canonical := by
    intro row hrow
    have hcanonical : (payloadRules env).canonicalizeActionPayload row.actionType row.payload =
        some staged.canonical := hcanonicalize row hrow
    rw [requireCanonicalPayload, hcanonical, hrow.payloadHash]
    exact if_pos rfl
  refine ⟨hagain, ?_, hrequired, ?_, ?_, ?_⟩
  · rw [hagain]
    rfl
  · intro row clock token userId hrow hstatus hclock
    exact claimPendingAction_granted hstatus hclock (hrequired row hrow)
  · intro row hrow
    have hcanonical : (payloadRules env).canonicalizeActionPayload row.actionType row.payload =
        some staged.canonical := hcanonicalize row hrow
    obtain ⟨model, -, -, hmodel, -⟩ := canonicalizeActionPayload_eq_some hcanonical
    rw [beforeOperation, hcanonical]
    cases htype : row.actionType with
    | other name =>
      rw [htype] at hmodel
      cases hmodel
    | _ => rfl
  · intro handlers hrules row hrow answers
    have hcanonical : handlers.rules.canonicalizeActionPayload row.actionType row.payload =
        some staged.canonical := by
      rw [hrules]
      exact hcanonicalize row hrow
    exact errorCode_reconcileAction_ne answers hcanonical

/-! ### An address that grows -/

/-- Folding writes `ß` as two letters. -/
def foldSharpS : CaseFolding where
  fold c := if c = 'ß' then ['s', 's'] else [c]
  ne_nil c := by split <;> exact nofun
  fold_fold c := by
    by_cases hc : c = 'ß'
    · rw [if_pos hc]
      rfl
    · rw [if_neg hc, List.flatMap_singleton, if_neg hc]
  fold_delimiter c h := by
    refine if_neg ?_
    rintro rfl
    cases h
  delimiter_of_mem c d hmem h := by
    split at hmem
    · rcases List.mem_pair.mp hmem with rfl | rfl
      · cases h
      · cases h
    · exact (List.mem_singleton.mp hmem).symm

/-- Addresses without a display name, and no dates. -/
def plainEnv : PayloadEnv where
  folding := foldSharpS
  parseaddr := id
  readDatetime _ := none
  dumpDatetime _ := ""
  zoneInfo _ := false
  isSchemaVersion
    | .num q => q = 1
    | _ => false
  number := .decimal
  sha256Hexdigest := id
  parseaddr_casefold _ _ := rfl
  readDatetime_dump := nofun
  isSchemaVersion_one := rfl

/-- An address whose local part is a run of `ß`. -/
def sharpAddress (n : ℕ) : String := String.ofList (List.replicate n 'ß' ++ ['@', 'x'])

theorem toList_sharpAddress (n : ℕ) :
    (sharpAddress n).toList = List.replicate n 'ß' ++ ['@', 'x'] := String.toList_ofList ..

theorem plainAddress_sharpAddress {n : ℕ} (h : n ≠ 0) : PlainAddress (sharpAddress n).toList where
  parts := by
    refine ⟨List.replicate n 'ß', ['x'], toList_sharpAddress n, ?_, by decide, ?_, by decide,
      by decide, by decide⟩
    · intro hmem
      cases List.eq_of_mem_replicate hmem
    · rw [Ne, List.replicate_eq_nil_iff]
      exact h
  no_space c hc := by
    rw [toList_sharpAddress] at hc
    rcases List.mem_append.mp hc with hc | hc
    · rw [List.eq_of_mem_replicate hc]
      rfl
    · rcases List.mem_pair.mp hc with rfl | rfl
      · rfl
      · rfl
  no_nul hmem := by
    rw [toList_sharpAddress] at hmem
    rcases List.mem_append.mp hmem with hmem | hmem
    · cases List.eq_of_mem_replicate hmem
    · revert hmem
      decide

theorem length_sharpAddress (n : ℕ) : (sharpAddress n).length = n + 2 := by
  rw [sharpAddress, String.length_ofList, List.length_append, List.length_replicate]
  rfl

theorem length_casefold_sharpAddress (n : ℕ) :
    (foldSharpS.casefold (sharpAddress n)).length = 2 * n + 2 := by
  have hfold : (foldSharpS.fold 'ß').length = 2 := rfl
  rw [CaseFolding.casefold, String.length_ofList, toList_sharpAddress, List.flatMap_append,
    List.length_append, List.length_flatMap, List.map_replicate, List.sum_replicate_nat, hfold,
    Nat.mul_comm]
  rfl

/-- An address within the limit is accepted, whatever folding makes of it. -/
theorem senderField_sharpAddress {n : ℕ} (hne : n ≠ 0) (hle : n ≤ 318) :
    (textField "sender_email" none none (canonicalEmail plainEnv)).validate
      (.str (sharpAddress n)) = some (.str (foldSharpS.casefold (sharpAddress n))) := by
  have hplain := plainAddress_sharpAddress hne
  have hparse : plainEnv.parseaddr (sharpAddress n) = sharpAddress n := rfl
  have hlength : (sharpAddress n).length ≤ 320 := by
    rw [length_sharpAddress]
    exact Nat.add_le_add_right hle 2
  simp only [textField]
  rw [trim_of_forall hplain.no_space, canonicalEmail_of_plain hparse hplain, if_pos hlength]
  rfl

/-- The fields of a message from a given sender. -/
def messageFrom (sender : String) : List (String × Json) :=
  [("sender_email", .str sender), ("recipient_email", .str "owner@example.com"),
    ("subject", .str "a"), ("email_body", .str "b")]

/-- What is dumped of such a message. -/
def dumpedFrom (sender : String) : List (String × Json) :=
  ("schema_version", .num 1) :: ("action_type", .str "send_email") :: messageFrom sender

theorem dump_messageFrom {sender folded : String}
    (h : (textField "sender_email" none none (canonicalEmail plainEnv)).validate (.str sender) =
      some (.str folded)) :
    (sendEmailPayload plainEnv).dump (modelArguments .sendEmail (messageFrom sender)) =
      some (dumpedFrom folded) := by
  have hread : (textField "sender_email" none none (canonicalEmail plainEnv)).read
      (modelArguments .sendEmail (messageFrom sender)) = some (.str folded) := h
  simp only [sendEmailPayload, Schema.dump]
  rw [hread]
  rfl

theorem canonicalize_messageFrom {sender folded : String}
    (h : (textField "sender_email" none none (canonicalEmail plainEnv)).validate (.str sender) =
      some (.str folded)) :
    canonicalizeActionPayload plainEnv .sendEmail (.obj (messageFrom sender)) =
      some (.obj (dumpedFrom folded)) := by
  have hvalidate : (sendEmailPayload plainEnv).validate
      (modelArguments .sendEmail (messageFrom sender)) = some (dumpedFrom folded) := by
    rw [Schema.validate_eq_dump, dump_messageFrom h]
    intro entry hmem
    have hnames : (sendEmailPayload plainEnv).map ModelField.name =
        "schema_version" :: (modelArguments .sendEmail (messageFrom sender)).map Prod.fst := rfl
    rw [hnames]
    exact List.mem_cons_of_mem _ (List.mem_map_of_mem hmem)
  have hnone : (messageFrom sender).lookup "action_type" = none := rfl
  rw [canonicalizeActionPayload_obj rfl (fun v hv ↦ nomatch hnone.symm.trans hv) rfl, hvalidate]
  rfl

/-- What is staged for a sender with `n + 2` characters, of which `n` are `ß`. -/
def stagedSharp (n : ℕ) (hne : n ≠ 0) (hle : n ≤ 318) : StagedPayload plainEnv where
  actionType := .sendEmail
  payload := .obj (messageFrom (sharpAddress n))
  canonical := .obj (dumpedFrom (foldSharpS.casefold (sharpAddress n)))
  accepted := canonicalize_messageFrom (senderField_sharpAddress hne hle)

/-- **A staged action can fail its own check**: the sender of 320 characters has become longer. -/
theorem not_passesOwnCheck :
    ¬(stagedSharp 318 (by decide) (by decide)).PassesOwnCheck := by
  intro h
  have hfit := (canonicalizeActionPayload_again_iff (StagedPayload.accepted _)).mp h.again
  have hlength := hfit (sharpAddress 318) List.mem_cons_self
  have hplain : PlainAddress (sharpAddress 318).toList := plainAddress_sharpAddress (by decide)
  rw [trim_of_forall hplain.no_space, strip_of_forall hplain.no_space] at hlength
  have hlong := length_casefold_sharpAddress 318
  exact absurd (hlong.symm.trans_le hlength) (by decide)

end Onebox.PendingActions
