import Onebox.PendingActions.Dispatch
import Onebox.PendingActions.OwnCheck
import Onebox.PendingActions.Requests

/-!
# What is dispatched is what was staged

The hash of the canonical payload is stored with the row, and the type of the action is part of what
is hashed. Whoever changes the payload or the type of a stored action, and leaves the hash alone, is
found out by the claim unless the change does not matter: the row still canonicalizes to what was
staged. The execution canonicalizes the claimed action once more, with the same result, and so the
content of its request is decided by what was staged and by the command key.
-/

namespace Onebox.PendingActions

open Python Transition

/-! ## The text of a canonical payload -/

section

variable {env : PayloadEnv} {t t' : ActionType} {payload payload' canonical canonical' : Json}
  {model : Schema} {given dumped : List (String × Json)}

theorem sortItems_map_str (ss : List String) : Json.sortItems (ss.map .str) = ss.map .str := by
  induction ss with
  | nil => rfl
  | cons s ss ih => rw [List.map_cons, Json.sortItems, ih, Json.sortKeys]

/-- The field dumps values without keys to sort. -/
structure DumpsFlat (field : ModelField) : Prop where
  validate : ∀ u v, field.validate u = some v → v.sortKeys = v
  default : ∀ d, field.default = some d → d.sortKeys = d

theorem DumpsText.flat {field : ModelField} (h : DumpsText field) : DumpsFlat field where
  validate u v hv := by
    obtain ⟨s, rfl⟩ := h.validate u v hv
    rfl
  default d hd := by
    obtain ⟨s, rfl⟩ := h.default d hd
    rfl

theorem dumpsFlat_schemaVersion : DumpsFlat (schemaVersion env) where
  validate u v h := by
    rw [schemaVersion] at h
    dsimp only at h
    split at h
    · obtain rfl := Option.some.inj h
      rfl
    · cases h
  default d hd := by
    obtain rfl := Option.some.inj hd
    rfl

theorem dumpsFlat_attendeeEmails : DumpsFlat (attendeeEmails env) where
  validate u v h := by
    obtain ⟨-, -, emails, -, -, -, -, rfl⟩ := attendeeEmails_eq_some h
    rw [Json.sortKeys, sortItems_map_str]
  default d hd := by
    obtain rfl := Option.some.inj hd
    rfl

theorem dumpsFlat_of_mem (hmodel : payloadModel env t = some model) :
    ∀ field ∈ model, DumpsFlat field := by
  cases t with
  | other name => cases hmodel
  | _ =>
    obtain rfl := Option.some.inj hmodel
    simp only [sendEmailPayload, sendReplyPayload, createEventPayload, createTaskPayload,
      List.forall_mem_cons, List.not_mem_nil, false_imp_iff, implies_true, and_true,
      dumpsFlat_schemaVersion, dumpsFlat_attendeeEmails, dumpsText_actionTypeField.flat,
      dumpsText_textField.flat, dumpsText_optional.flat, dumpsText_datetimeField.flat]

/-- A dump has no nested keys to sort. -/
theorem sortFields_dump (hmodel : payloadModel env t = some model)
    (hdump : model.dump given = some dumped) : Json.sortFields dumped = dumped := by
  have hflat : ∀ entry ∈ dumped, entry.2.sortKeys = entry.2 := by
    intro entry hmem
    obtain ⟨field, hfield, -, hread⟩ := Schema.exists_of_mem_dump hdump hmem
    have hdumps := dumpsFlat_of_mem hmodel field hfield
    exact ModelField.of_read hdumps.validate hdumps.default hread
  clear hdump
  induction dumped with
  | nil => rfl
  | cons entry dumped ih =>
    obtain ⟨key, v⟩ := entry
    obtain ⟨hv, hrest⟩ := List.forall_mem_cons.mp hflat
    rw [Json.sortFields, ih hrest, hv]

/-- The types that have a model differ in their text. -/
theorem text_injective (hmodel : payloadModel env t = some model) {model' : Schema}
    (hmodel' : payloadModel env t' = some model') (h : t.text = t'.text) : t = t' := by
  cases t with
  | other name => cases hmodel
  | _ =>
    cases t' with
    | other name => cases hmodel'
    | _ => first | rfl | exact absurd h (by decide)

/-- **The canonical text tells staged payloads apart**, and the type is part of it. -/
theorem canonical_eq_of_text (h : canonicalizeActionPayload env t payload = some canonical)
    (h' : canonicalizeActionPayload env t' payload' = some canonical')
    (htext : canonicalPayload env canonical' = canonicalPayload env canonical) :
    t' = t ∧ canonical' = canonical := by
  obtain ⟨model, candidate, dumped, hmodel, -, -, hvalidate, rfl⟩ :=
    canonicalizeActionPayload_eq_some h
  obtain ⟨model', candidate', dumped', hmodel', -, -, hvalidate', rfl⟩ :=
    canonicalizeActionPayload_eq_some h'
  have hdump := Schema.dump_of_validate hvalidate
  have hdump' := Schema.dump_of_validate hvalidate'
  have hperm : dumped'.Perm dumped := by
    rw [← sortFields_dump hmodel hdump, ← sortFields_dump hmodel' hdump']
    exact Json.perm_of_sortKeys_obj (Json.dumps_injective htext)
  have hnodup : (dumped.map Prod.fst).Nodup := by
    rw [Schema.map_fst_dump hdump]
    exact nodup_payloadModel hmodel
  -- Both dumps hold their type under one key, and so have the same type.
  have htype : t' = t := by
    have hread : ∀ {t : ActionType} {candidate : List (String × Json)},
        (actionTypeField t.text).read (modelArguments t candidate) = some (.str t.text) :=
      if_pos rfl
    obtain ⟨v, hv, hmem⟩ := Schema.mem_dump hdump (actionTypeField_mem hmodel)
    obtain ⟨v', hv', hmem'⟩ := Schema.mem_dump hdump' (actionTypeField_mem hmodel')
    have hentry := List.inj_on_of_nodup_map hnodup (hperm.mem_iff.mp hmem') hmem rfl
    obtain rfl := Option.some.inj (hread.symm.trans hv)
    obtain rfl := Option.some.inj (hread.symm.trans hv')
    exact text_injective hmodel' hmodel (Json.str.inj (Prod.ext_iff.mp hentry).2)
  subst htype
  obtain rfl := Option.some.inj (hmodel.symm.trans hmodel')
  refine ⟨rfl, congrArg Json.obj (eq_of_perm_of_map_eq hnodup hperm ?_)⟩
  rw [Schema.map_fst_dump hdump, Schema.map_fst_dump hdump']

end

/-! ## What the state service leaves alone -/

/-- The columns that are written once. -/
structure SameContent (row row' : PendingAction) : Prop where
  id : row'.id = row.id
  userId : row'.userId = row.userId
  actionType : row'.actionType = row.actionType
  payload : row'.payload = row.payload
  payloadHash : row'.payloadHash = row.payloadHash
  commandKey : row'.commandKey = row.commandKey

section

variable {rules : PayloadRules} {clock : Clock} {token : String} {userId : UserId}
  {row : PendingAction}

theorem SameContent.refl (row : PendingAction) : SameContent row row :=
  ⟨rfl, rfl, rfl, rfl, rfl, rfl⟩

variable (rules clock token userId row) in
theorem sameContent_claimPendingAction :
    SameContent row (claimPendingAction rules clock token userId row).1.row := by
  rw [claimPendingAction]
  dsimp only
  split
  · exact ⟨rfl, rfl, rfl, rfl, rfl, rfl⟩
  · split
    · exact ⟨rfl, rfl, rfl, rfl, rfl, rfl⟩
    · split
      · exact .refl row
      · split
        · exact ⟨rfl, rfl, rfl, rfl, rfl, rfl⟩
        · exact ⟨rfl, rfl, rfl, rfl, rfl, rfl⟩

theorem sameContent_rejectPendingAction {change : Change}
    (h : rejectPendingAction clock userId row = .ok change) : SameContent row change.row := by
  rw [rejectPendingAction] at h
  split at h
  · obtain rfl := Except.ok.inj h
    exact ⟨rfl, rfl, rfl, rfl, rfl, rfl⟩
  · split at h
    · cases h
    · obtain rfl := Except.ok.inj h
      exact .refl row

theorem sameContent_expireStaleAction {current : Time} {change : Change}
    (h : expireStaleAction current row = some change) : SameContent row change.row := by
  rw [expireStaleAction] at h
  split at h
  · obtain rfl := Option.some.inj h
    exact ⟨rfl, rfl, rfl, rfl, rfl, rfl⟩
  · cases h

variable (clock token row) in
theorem sameContent_finalizeClaimedAction (args : FinalizeArgs) :
    SameContent row (finalizeClaimedAction clock token args row).row := by
  rw [finalizeClaimedAction]
  split
  · split
    · exact ⟨rfl, rfl, rfl, rfl, rfl, rfl⟩
    · split
      · exact ⟨rfl, rfl, rfl, rfl, rfl, rfl⟩
      · exact ⟨rfl, rfl, rfl, rfl, rfl, rfl⟩
      · exact ⟨rfl, rfl, rfl, rfl, rfl, rfl⟩
  · exact .refl row

theorem sameContent_reconcilePromote {change : Change}
    (h : reconcilePromote clock userId row = .ok change) : SameContent row change.row := by
  rw [reconcilePromote] at h
  split at h
  · obtain rfl := Except.ok.inj h
    exact ⟨rfl, rfl, rfl, rfl, rfl, rfl⟩
  · split at h
    · cases h
    · obtain rfl := Except.ok.inj h
      exact .refl row

variable (clock userId row) in
theorem sameContent_reconcileFinish (outcome : ReconciliationResult) :
    SameContent row (reconcileFinish clock userId outcome row).row := by
  rw [reconcileFinish]
  split
  · dsimp only
    split
    · exact ⟨rfl, rfl, rfl, rfl, rfl, rfl⟩
    · exact ⟨rfl, rfl, rfl, rfl, rfl, rfl⟩
    · exact ⟨rfl, rfl, rfl, rfl, rfl, rfl⟩
  · exact .refl row

end

/-- What a step does to the content of the row, and where the actions of its approvals come from. -/
structure ContentEffect (rules : PayloadRules) (w : World) (e : Event) (w' : World) : Prop where
  row : SameContent w.row w'.row
  approvals : ∀ n approval', w'.approvals n = some approval' →
    (∃ approval, w.approvals n = some approval ∧ approval'.action = approval.action) ∨
      ∃ userId token clock, e = .approve n userId token clock ∧
        (claimPendingAction rules clock token userId w.row).2 = true ∧
          approval'.action = (claimPendingAction rules clock token userId w.row).1.row

section

variable {env : HandlerEnv} {rules : PayloadRules} {w w' : World} {e : Event} {o : Unit}

theorem ContentEffect.of_row {w' : World} (hrow : SameContent w.row w'.row)
    (happrovals : w'.approvals = w.approvals) : ContentEffect rules w e w' where
  row := hrow
  approvals n approval' h := by
    rw [happrovals] at h
    exact Or.inl ⟨approval', h, rfl⟩

theorem ContentEffect.of_approval {n : ℕ} {row : PendingAction} {approval approval' : Approval}
    (hrow : SameContent w.row row) (hcurrent : w.approvals n = some approval)
    (haction : approval'.action = approval.action) :
    ContentEffect rules w e ((w.setRow row).setApproval n approval') where
  row := hrow
  approvals m other h := by
    rcases World.setApproval_cases h with ⟨rfl, rfl⟩ | ⟨-, h⟩
    · exact Or.inl ⟨approval, hcurrent, haction⟩
    · exact Or.inl ⟨other, h, rfl⟩

theorem contentEffect_of_step (hs : w.step env e = some (w', o)) :
    ContentEffect env.rules w e w' := by
  cases e with
  | approve n userId token clock =>
    simp only [World.step] at hs
    split at hs
    · cases hs
    · obtain ⟨rfl, -⟩ := by simpa using hs
      exact .of_row (.refl _) rfl
    · rename_i row hfree hlocked
      obtain rfl : w.row = row := Option.some.inj (lockedForOwner_eq_ok hlocked)
      have hrow := sameContent_claimPendingAction env.rules clock token userId w.row
      split at hs
      · rename_i hgranted
        obtain ⟨rfl, -⟩ := by simpa using hs
        refine ⟨hrow, fun m approval' h ↦ ?_⟩
        rcases World.setApproval_cases h with ⟨rfl, rfl⟩ | ⟨-, h⟩
        · exact Or.inr ⟨userId, token, clock, rfl, hgranted, rfl⟩
        · exact Or.inl ⟨approval', h, rfl⟩
      · obtain ⟨rfl, -⟩ := by simpa using hs
        exact .of_row hrow rfl
  | attempt n attemptStep =>
    simp only [World.step] at hs
    split at hs
    · cases hs
    · rename_i approval hcurrent
      split at hs
      · cases hs
      · rename_i approval' hstep
        obtain ⟨rfl, -⟩ := by simpa using hs
        exact .of_approval (.refl _) hcurrent (attemptEffect_of_step hstep).action
  | issueWrite n now =>
    simp only [World.step] at hs
    split at hs
    · cases hs
    · rename_i approval hcurrent
      split at hs
      · obtain ⟨rfl, -⟩ := by simpa using hs
        exact .of_approval (.refl _) hcurrent rfl
      · cases hs
  | accept n =>
    simp only [World.step] at hs
    split at hs
    · cases hs
    · split at hs
      · obtain ⟨rfl, -⟩ := by simpa using hs
        exact .of_row (.refl _) rfl
      · cases hs
  | finalize n clock =>
    simp only [World.step] at hs
    split at hs
    · cases hs
    · rename_i approval hcurrent
      split at hs
      · rename_i args token hphase htoken
        obtain ⟨rfl, -⟩ := by simpa using hs
        exact .of_approval (sameContent_finalizeClaimedAction _ _ _ _) hcurrent rfl
      · cases hs
  | reject userId clock =>
    simp only [World.step] at hs
    split at hs
    · obtain ⟨rfl, -⟩ := by simpa using hs
      exact .of_row (.refl _) rfl
    · rename_i row hlocked
      obtain rfl : w.row = row := Option.some.inj (lockedForOwner_eq_ok hlocked)
      split at hs
      · obtain ⟨rfl, -⟩ := by simpa using hs
        exact .of_row (.refl _) rfl
      · rename_i change hchange
        obtain ⟨rfl, -⟩ := by simpa using hs
        exact .of_row (sameContent_rejectPendingAction hchange) rfl
  | sweep current =>
    simp only [World.step] at hs
    split at hs
    · obtain ⟨rfl, -⟩ := by simpa using hs
      exact .of_row (.refl _) rfl
    · rename_i change hchange
      obtain ⟨rfl, -⟩ := by simpa using hs
      exact .of_row (sameContent_expireStaleAction hchange) rfl
  | reconcileBegin m operatorUserId clock =>
    simp only [World.step] at hs
    split at hs
    · cases hs
    · obtain ⟨rfl, -⟩ := by simpa using hs
      exact .of_row (.refl _) rfl
    · rename_i change hfree hchange
      obtain ⟨rfl, -⟩ := by simpa using hs
      exact .of_row (sameContent_reconcilePromote hchange) rfl
  | lookup m answers =>
    simp only [World.step] at hs
    split at hs
    · split at hs
      · obtain ⟨rfl, -⟩ := by simpa using hs
        exact .of_row (.refl _) rfl
      · cases hs
    · cases hs
  | reconcileFinish m operatorUserId clock =>
    simp only [World.step] at hs
    split at hs
    · obtain ⟨rfl, -⟩ := by simpa using hs
      exact .of_row (sameContent_reconcileFinish _ _ _ _) rfl
    · cases hs

end

/-! ## A claim of a changed row -/

/-- The two texts are no collision. -/
def CollisionFree (env : PayloadEnv) (text text' : String) : Prop :=
  env.sha256Hexdigest text = env.sha256Hexdigest text' → text = text'

/-- The texts that a check of the row compares are no collision. -/
def ComparedWell {env : PayloadEnv} (staged : StagedPayload env) (row : PendingAction) : Prop :=
  ∀ canonical, canonicalizeActionPayload env row.actionType row.payload = some canonical →
    CollisionFree env (canonicalPayload env canonical) (canonicalPayload env staged.canonical)

/-- The action canonicalizes to what was staged, under the staged type. -/
structure Faithful {env : PayloadEnv} (staged : StagedPayload env) (action : PendingAction) :
    Prop where
  canonical : canonicalizeActionPayload env action.actionType action.payload =
    some staged.canonical
  actionType : action.actionType = staged.actionType

section

variable {env : PayloadEnv} {staged : StagedPayload env} {row : PendingAction} {clock : Clock}
  {token : String} {userId : UserId}

/-- What passes the check is what was staged. -/
theorem faithful_of_requireCanonicalPayload {canonical : Json}
    (hhash : row.payloadHash = staged.payloadHash) (hcompared : ComparedWell staged row)
    (h : requireCanonicalPayload (payloadRules env) row = some canonical) :
    Faithful staged row := by
  rw [requireCanonicalPayload] at h
  split at h
  · cases h
  · rename_i payload hpayload
    split at h
    · rename_i hsame
      have htext := hcompared payload hpayload (hsame.trans hhash)
      obtain ⟨htype, rfl⟩ := canonical_eq_of_text staged.accepted hpayload htext
      exact ⟨hpayload, htype⟩
    · cases h

/-- **A granted claim found what was staged.** -/
theorem faithful_of_claimed (hhash : row.payloadHash = staged.payloadHash)
    (hcompared : ComparedWell staged row)
    (hclaimed : (claimPendingAction (payloadRules env) clock token userId row).2 = true) :
    Faithful staged row := by
  have heffect := claimEffect_claimPendingAction (payloadRules env) clock token userId row
  rw [hclaimed] at heffect
  generalize (claimPendingAction (payloadRules env) clock token userId row).1.row = row' at heffect
  cases heffect with
  | granted status due payload =>
    obtain ⟨canonical, hcanonical⟩ := Option.isSome_iff_exists.mp payload
    exact faithful_of_requireCanonicalPayload hhash hcompared hcanonical

theorem Faithful.of_sameContent {row' : PendingAction} (h : Faithful staged row)
    (hsame : SameContent row row') : Faithful staged row' where
  canonical := by
    rw [hsame.actionType, hsame.payload]
    exact h.canonical
  actionType := hsame.actionType.trans h.actionType

end

/-! ## The content of a request -/

/-- The action type of a column. -/
def ActionType.ofText (text : String) : ActionType :=
  if text = "send_email" then .sendEmail
  else if text = "send_reply" then .sendReply
  else if text = "create_event" then .createEvent
  else if text = "create_task" then .createTask
  else .other text

/-- The handlers of a deployment. -/
def PayloadEnv.handlers (env : PayloadEnv) (unicode : UnicodeData)
    (getaddresses : String → List String) : HandlerEnv where
  rules := payloadRules env
  unicode := unicode
  sha256Hexdigest := env.sha256Hexdigest
  getaddresses := getaddresses

/-- What is sent for a canonical payload under a command key. -/
def contentOf (handlers : HandlerEnv) (canonical : Json) (commandKey : String) :
    Option ProviderRequest :=
  match textAt canonical "action_type" with
  | none => none
  | some text => providerRequest handlers (.ofText text) canonical commandKey

section

variable {env : PayloadEnv} {t : ActionType} {model : Schema} {staged : StagedPayload env}
  {action : PendingAction} {unicode : UnicodeData} {getaddresses : String → List String}

theorem ofText_text (hmodel : payloadModel env t = some model) : ActionType.ofText t.text = t := by
  cases t with
  | other name => cases hmodel
  | _ => rfl

/-- **The request of a faithful action is decided by what was staged and by the command key.** -/
theorem Faithful.executeRequest (h : Faithful staged action) :
    ∃ request, executeRequest (env.handlers unicode getaddresses) action = some request ∧
      contentOf (env.handlers unicode getaddresses) staged.canonical action.commandKey =
        some request := by
  obtain ⟨model, candidate, dumped, hmodel, -, -, hvalidate, hobj⟩ :=
    canonicalizeActionPayload_eq_some staged.accepted
  have hdump := Schema.dump_of_validate hvalidate
  obtain ⟨request, hrequest⟩ := exists_providerRequest (env.handlers unicode getaddresses)
    action.commandKey hmodel hdump
  have htext : textAt (.obj dumped) "action_type" = some staged.actionType.text := by
    rw [textAt, Json.get?, lookup_actionType_dump hmodel hdump]
    rfl
  refine ⟨request, ?_, ?_⟩
  · have hcanonical : (env.handlers unicode getaddresses).rules.canonicalizeActionPayload
        action.actionType action.payload = some (.obj dumped) := h.canonical.trans (by rw [hobj])
    rw [PendingActions.executeRequest, hcanonical, h.actionType]
    exact hrequest
  · rw [contentOf, hobj, htext]
    dsimp only
    rw [ofText_text hmodel]
    exact hrequest

end

/-! ## Runs with interference -/

/-- A step of the service, or a change of the stored columns by somebody else. -/
inductive Interference
  | event (e : Event)
  | tamper (actionType : ActionType) (payload : Json)

/-- The dispatcher, while anybody writes the type and the payload of the stored action. -/
def tampered (env : HandlerEnv) : System World Interference Unit where
  init := (dispatcher env).init
  step w
    | .event e => w.step env e
    | .tamper actionType payload =>
      some (w.setRow { w.row with actionType := actionType, payload := payload }, ())

/-- No check of a claim meets a collision. -/
def NoCollision {env : PayloadEnv} (staged : StagedPayload env) (w : World) : Interference → Prop
  | .event (.approve _ _ _ _) => ComparedWell staged w.row
  | _ => True

/-- What is kept while the row is tampered with. -/
structure Sealed {env : PayloadEnv} (staged : StagedPayload env) (key : String) (w : World) :
    Prop where
  payloadHash : w.row.payloadHash = staged.payloadHash
  commandKey : w.row.commandKey = key
  actions : ∀ n approval, w.approvals n = some approval →
    Faithful staged approval.action ∧ approval.action.commandKey = key

section

variable {env : PayloadEnv} {staged : StagedPayload env} {key : String} {w w' : World}
  {unicode : UnicodeData} {getaddresses : String → List String} {a : Interference} {o : Unit}

/-- The step lemma of `Sealed`. -/
theorem Sealed.step (hI : Sealed staged key w) (hC : NoCollision staged w a)
    (hs : (tampered (env.handlers unicode getaddresses)).step w a = some (w', o)) :
    Sealed staged key w' := by
  cases a with
  | event e =>
    have heffect := contentEffect_of_step hs
    refine ⟨heffect.row.payloadHash.trans hI.payloadHash,
      heffect.row.commandKey.trans hI.commandKey, fun n approval' hn ↦ ?_⟩
    rcases heffect.approvals n approval' hn with ⟨approval, hold, haction⟩ |
      ⟨userId, token, clock, rfl, hclaimed, haction⟩
    · rw [haction]
      exact hI.actions n approval hold
    · have hsame := sameContent_claimPendingAction (payloadRules env) clock token userId w.row
      rw [haction]
      refine ⟨?_, hsame.commandKey.trans hI.commandKey⟩
      exact (faithful_of_claimed hI.payloadHash hC hclaimed).of_sameContent hsame
  | tamper actionType payload =>
    obtain ⟨rfl, -⟩ := by simpa [tampered] using hs
    exact ⟨hI.payloadHash, hI.commandKey, hI.actions⟩

theorem sealed_of_run {tr : List (Interference × Unit)}
    (hinit : (tampered (env.handlers unicode getaddresses)).init w)
    (hstaged : staged.Untouched w.row)
    (hrun :
      System.Run (tampered (env.handlers unicode getaddresses)) (NoCollision staged) w tr w') :
    Sealed staged w.row.commandKey w' := by
  refine hrun.invariant ⟨hstaged.payloadHash, rfl, fun n approval hn ↦ ?_⟩
    fun w a w' o hI hC hs ↦ hI.step hC hs
  rw [hinit.2.2.1 n] at hn
  cases hn

end

/-- **What is dispatched is what was staged.** -/
structure DispatchesWhatWasStaged (env : PayloadEnv) (unicode : UnicodeData)
    (getaddresses : String → List String) : Prop where
  /-- The canonical text tells values apart, up to the order of their keys. -/
  injective : ∀ v w, canonicalPayload env v = canonicalPayload env w → v.sortKeys = w.sortKeys
  /-- A claim of a staged row, whatever has been written to its type and payload, is granted only if
  the row canonicalizes to what was staged, under the staged type. -/
  claimed : ∀ (staged : StagedPayload env) row clock token userId,
    row.payloadHash = staged.payloadHash → ComparedWell staged row →
      (claimPendingAction (payloadRules env) clock token userId row).2 = true →
        Faithful staged row
  /-- In every run in which others write the type and the payload of the stored action, at any
  moment, what an approved action sends is decided by what was staged and by the command key. -/
  dispatched : ∀ (staged : StagedPayload env) w tr w',
    (tampered (env.handlers unicode getaddresses)).init w → staged.Untouched w.row →
      System.Run (tampered (env.handlers unicode getaddresses)) (NoCollision staged) w tr w' →
        ∀ n approval, w'.approvals n = some approval →
          Faithful staged approval.action ∧
            ∃ request, executeRequest (env.handlers unicode getaddresses) approval.action =
                some request ∧
              contentOf (env.handlers unicode getaddresses) staged.canonical w.row.commandKey =
                some request

theorem dispatchesWhatWasStaged (env : PayloadEnv) (unicode : UnicodeData)
    (getaddresses : String → List String) :
    DispatchesWhatWasStaged env unicode getaddresses where
  injective _ _ := Json.dumps_injective
  claimed staged row clock token userId := faithful_of_claimed
  dispatched staged w tr w' hinit hstaged hrun n approval hn := by
    obtain ⟨hfaithful, hkey⟩ := (sealed_of_run hinit hstaged hrun).actions n approval hn
    refine ⟨hfaithful, ?_⟩
    rw [← hkey]
    exact hfaithful.executeRequest

end Onebox.PendingActions
