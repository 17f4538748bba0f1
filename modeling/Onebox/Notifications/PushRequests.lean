import Onebox.Notifications.Delivery
import Onebox.Notifications.Envelope
import Onebox.Python.Url
import Onebox.Python.Uuid

/-!
# Push requests

`receive_gmail_notification` with its dependency `require_pubsub_push_auth` and its helper
`_bounded_body`, over the mail service. Any number of requests are under way at once, and their
steps interleave with each other and with the workers. The answer of Google's verification, the
chunks that arrive and the connection that is loaded are part of the labels.

The tables hold the row of one mailbox. A commit may take effect and its answer be lost.
-/

namespace Onebox.Notifications

open Python Transition

/-! ## The route -/

/-- The settings of the route. -/
structure PushSettings where
  pushAudience : Option String
  pushServiceAccountEmail : Option String
  automationEnabled : Bool
  automationOwnerId : Option Uuid
  subscription : Option String

/-- The service around the route. -/
structure PushEnv where
  mail : MailEnv
  envelope : EnvelopeEnv
  settings : PushSettings
  /-- The mailbox that has a row. -/
  mailbox : String

/-- The headers that are read. -/
structure PushRequest where
  authorization : Option String
  contentLength : Option String

/-- `HTTPException`. -/
structure HttpError where
  statusCode : ℕ
  detail : String
  deriving DecidableEq

/-- What `verify_oauth2_token` comes to: claims, `GoogleProviderError`, or another exception. -/
inductive Verification
  | claims (claims : Json)
  | providerError
  | rejected

/-- What `load_connected_google_connection` comes to: a connection, one of the errors of
credentials, or another exception. -/
inductive ConnectionAnswer
  | connected (googleEmail : String)
  | unavailable
  | failed

namespace PushEnv

variable (env : PushEnv)

/-- `(settings.PUBSUB_PUSH_SERVICE_ACCOUNT_EMAIL or "").strip().casefold()`. -/
def expectedEmail : String :=
  env.envelope.folding.casefold (strip (env.settings.pushServiceAccountEmail.getD ""))

/-- `require_pubsub_push_auth`, up to the verification of the token. -/
def bearerToken (request : PushRequest) : Except HttpError String :=
  if strip (env.settings.pushAudience.getD "") = "" ∨ env.expectedEmail = "" then
    .error ⟨503, "Pub/Sub push authentication is not configured"⟩
  else
    let (scheme, token) := partition ' ' (request.authorization.getD "").toList
    if env.envelope.folding.casefold (String.ofList scheme) ≠ "bearer" ∨ token = [] then
      .error ⟨401, "Invalid Pub/Sub push authentication"⟩
    else .ok (String.ofList token)

/-- The claims are those of the configured principal. -/
def authorizes (claims : Json) : Bool :=
  (match claims.get? "email_verified" with
    | some (.bool true) => true
    | _ => false) &&
  match (claims.get? "email").bind Json.str? with
    | some email => env.envelope.folding.casefold (strip email) = env.expectedEmail
    | none => false

/-- `require_pubsub_push_auth`, from the verification of the token on. -/
def checkClaims : Verification → Option HttpError
  | .providerError =>
    some ⟨503, "Pub/Sub push authentication is temporarily unavailable"⟩
  | .rejected => some ⟨401, "Invalid Pub/Sub push authentication"⟩
  | .claims claims =>
    if claims.isDict = false then some ⟨401, "Invalid Pub/Sub push authentication"⟩
    else if env.authorizes claims = false then
      some ⟨403, "Pub/Sub push principal is not authorized"⟩
    else none

/-- `int(raw_length)`; `none` is the `ValueError`. -/
def readLength (raw : String) : Option ℤ :=
  if 4300 < (raw.toList.filter Char.isDigit).length then none else parseInt 10 raw.toList

/-- The beginning of the handler and of `_bounded_body`. -/
def checkLength (request : PushRequest) : Option HttpError :=
  if env.settings.automationEnabled = false ∨ env.settings.automationOwnerId.isNone = true then
    some ⟨503, "Gmail automation is disabled"⟩
  else if request.contentLength.getD "" = "" then none
  else
    match readLength (request.contentLength.getD "") with
    | none => some ⟨400, "Invalid notification body"⟩
    | some length =>
      if env.envelope.maxEnvelopeBytes < length then
        some ⟨413, "Notification body is too large"⟩
      else none

/-- `"Gmail notification persistence is unavailable"`. -/
def unavailable : HttpError := ⟨503, "Gmail notification persistence is unavailable"⟩

/-- What the route makes of an error of the parser. -/
def errorOf : EnvelopeError → HttpError
  | .validation _ => ⟨400, "Invalid Gmail notification"⟩
  | .uncaught => unavailable

/-- `parse_notification_envelope(body, settings.PUBSUB_SUBSCRIPTION)`. -/
def parse (body : Bytes) : Except EnvelopeError NotificationEnvelope :=
  parseNotificationEnvelope env.envelope body env.settings.subscription

/-- `enqueue_notification` up to its first look at the tables. -/
def checkMailbox (e : NotificationEnvelope) : ConnectionAnswer → Option HttpError
  | .unavailable | .failed => some unavailable
  | .connected googleEmail =>
    match normalizeEmail env.envelope (some (.str googleEmail)) with
    | .error error => some (errorOf error)
    | .ok expectedMailbox =>
      if e.mailboxEmail ≠ expectedMailbox then some ⟨400, "Invalid Gmail notification"⟩
      -- Another mailbox has no row.
      else if e.mailboxEmail ≠ env.mailbox then
        some ⟨503, "Gmail notification baseline is not ready"⟩
      else none

end PushEnv

/-! ## The system -/

/-- Where a request is. -/
inductive PushPhase
  /-- The token is being verified. -/
  | verifying (request : PushRequest) (token : String)
  /-- `_bounded_body` has these bytes. -/
  | receiving (body : Bytes)
  /-- The connection is being loaded. -/
  | locating (e : NotificationEnvelope)
  /-- `enqueue_notification` is at the tables. -/
  | enqueuing (e : NotificationEnvelope)
  /-- It has been answered, or it is gone. -/
  | closed

/-- The mail service and the requests. -/
structure PushService where
  service : MailService
  requests : ℕ → Option PushPhase

inductive PushLabel
  | mail (e : MailLabel)
  | request (n : ℕ) (request : PushRequest)
  /-- The verification of the token ends. -/
  | verified (n : ℕ) (token : String) (verification : Verification)
  | chunk (n : ℕ) (bytes : Bytes)
  | endOfBody (n : ℕ)
  /-- The client disconnects before the end of the body. -/
  | disconnect (n : ℕ)
  | located (n : ℕ) (answer : ConnectionAnswer)
  /-- The next step of `enqueue_notification` at the tables. -/
  | enqueue (n : ℕ) (id : JobId) (receivedAt : Time)
  /-- The same, but its answer is lost. -/
  | enqueueFails (n : ℕ) (id : JobId) (receivedAt : Time)
  /-- The request is cancelled. -/
  | cancel (n : ℕ)

inductive PushReply
  | none
  | mail (reply : ServiceReply)
  /-- 204. -/
  | accepted (n : ℕ)
  | refused (n : ℕ) (error : HttpError)

namespace PushService

def setPhase (d : PushService) (n : ℕ) (phase : PushPhase) : PushService :=
  { d with requests := Function.update d.requests n (some phase) }

/-- The request goes on, or is refused. -/
def proceed (d : PushService) (n : ℕ) (error : Option HttpError) (phase : PushPhase) :
    PushService × PushReply :=
  match error with
  | some error => (d.setPhase n .closed, .refused n error)
  | none => (d.setPhase n phase, .none)

/-- The error that the route makes of one that `enqueue_notification` raises at the tables. -/
def enqueueError (delivery : Option Delivery) : HttpError :=
  match delivery.map Delivery.phase with
  | some .reading => ⟨503, "Gmail notification baseline is not ready"⟩
  | _ => PushEnv.unavailable

def step (env : PushEnv) (d : PushService) : PushLabel → Option (PushService × PushReply)
  | .mail e =>
    (d.service.step env.mail (.mail e)).map fun result ↦
      ({ d with service := result.1 }, .mail result.2)
  | .request n request =>
    match d.requests n with
    | some _ => none
    | none =>
      match env.bearerToken request with
      | .error error => some (d.setPhase n .closed, .refused n error)
      | .ok token => some (d.setPhase n (.verifying request token), .none)
  | .verified n token verification =>
    match d.requests n with
    | some (.verifying request token') =>
      if token = token' then
        some (d.proceed n ((env.checkClaims verification).or (env.checkLength request))
          (.receiving []))
      else none
    | _ => none
  | .chunk n bytes =>
    match d.requests n with
    | some (.receiving body) =>
      if env.envelope.maxEnvelopeBytes < body.length + bytes.length then
        some (d.setPhase n .closed, .refused n ⟨413, "Notification body is too large"⟩)
      else some (d.setPhase n (.receiving (body ++ bytes)), .none)
    | _ => none
  | .endOfBody n =>
    match d.requests n with
    | some (.receiving body) =>
      match env.parse body with
      | .error error => some (d.setPhase n .closed, .refused n (PushEnv.errorOf error))
      | .ok e => some (d.setPhase n (.locating e), .none)
    | _ => none
  | .disconnect n =>
    match d.requests n with
    | some (.receiving _) => some (d.setPhase n .closed, .refused n PushEnv.unavailable)
    | _ => none
  | .located n answer =>
    match d.requests n with
    | some (.locating e) =>
      match env.checkMailbox e answer with
      | some error => some (d.setPhase n .closed, .refused n error)
      | none =>
        (d.service.step env.mail (.deliver n e.pubsubMessageId e.historyId)).map fun result ↦
          ({ d with service := result.1 }.setPhase n (.enqueuing e), .none)
    | _ => none
  | .enqueue n id receivedAt =>
    match d.requests n with
    | some (.enqueuing e) =>
      (d.service.step env.mail (.enqueue n id receivedAt)).map fun result ↦
        match result.2 with
        | .enqueued _ _ => ({ d with service := result.1 }.setPhase n .closed, .accepted n)
        | .raised => ({ d with service := result.1 }.setPhase n .closed,
            .refused n (enqueueError (d.service.deliveries n)))
        | _ => ({ d with service := result.1 }.setPhase n (.enqueuing e), .none)
    | _ => none
  | .enqueueFails n id receivedAt =>
    match d.requests n with
    | some (.enqueuing _) =>
      (d.service.step env.mail (.enqueue n id receivedAt)).map fun result ↦
        (PushService.setPhase ⟨result.1.setDelivery n none, d.requests⟩ n .closed,
          .refused n PushEnv.unavailable)
    | _ => none
  | .cancel n =>
    match d.requests n with
    | none | some .closed => none
    | some _ =>
      some (PushService.setPhase ⟨d.service.setDelivery n none, d.requests⟩ n .closed, .none)

end PushService

/-- The service with its route, from empty tables on. -/
def pushService (env : PushEnv) : System PushService PushLabel PushReply where
  init d := (mailService env.mail).init d.service ∧ ∀ n, d.requests n = none
  step := PushService.step env

/-! ## What a step does -/

section

variable {env : MailEnv} {d d' : MailService} {n : ℕ} {id : JobId} {receivedAt : Time}
  {o : ServiceReply}

/-- The database steps of `enqueue_notification`. -/
inductive EnqueueEffect (d : MailService) (n : ℕ) (delivery : Delivery) :
    ServiceReply → MailService → Prop
  | continues (phase : DeliveryPhase) :
      EnqueueEffect d n delivery .none (d.setDelivery n (some { delivery with phase := phase }))
  | raised : EnqueueEffect d n delivery .raised (d.setDelivery n none)
  | added {id : JobId} {receivedAt : Time} (free : d.mail.jobs.jobs id = none)
      (new : d.mail.jobs.pubsubIndex delivery.pubsubMessageId = none) :
      EnqueueEffect d n delivery (.enqueued delivery.pubsubMessageId true)
        ((d.setJobs (insertNotificationJob d.mail.jobs id delivery.pubsubMessageId
          delivery.historyId receivedAt)).setDelivery n none)
  | found {id : JobId} (known : d.mail.jobs.pubsubIndex delivery.pubsubMessageId = some id) :
      EnqueueEffect d n delivery (.enqueued delivery.pubsubMessageId false) (d.setDelivery n none)

theorem enqueueEffect_of_step (hs : d.step env (.enqueue n id receivedAt) = some (d', o)) :
    ∃ delivery, d.deliveries n = some delivery ∧ EnqueueEffect d n delivery o d' := by
  rw [MailService.step] at hs
  split at hs
  · cases hs
  · rename_i delivery hcurrent
    refine ⟨delivery, hcurrent, ?_⟩
    rw [MailService.enqueue] at hs
    split at hs
    · split at hs
      · obtain ⟨rfl, rfl⟩ := Prod.mk.inj (Option.some.inj hs)
        exact .raised
      · obtain ⟨rfl, rfl⟩ := Prod.mk.inj (Option.some.inj hs)
        exact .continues _
    · split at hs
      · rename_i hfree
        split at hs
        · obtain ⟨rfl, rfl⟩ := Prod.mk.inj (Option.some.inj hs)
          exact .continues _
        · rename_i hnew
          obtain ⟨rfl, rfl⟩ := Prod.mk.inj (Option.some.inj hs)
          exact .added hfree hnew
      · cases hs
    · split at hs
      · rename_i known hknown
        obtain ⟨rfl, rfl⟩ := Prod.mk.inj (Option.some.inj hs)
        exact .found hknown
      · obtain ⟨rfl, rfl⟩ := Prod.mk.inj (Option.some.inj hs)
        exact .raised

end

/-- The request that a label is about. -/
def PushLabel.about : PushLabel → Option ℕ
  | .mail _ => none
  | .request n _ | .verified n _ _ | .chunk n _ | .endOfBody n | .disconnect n | .located n _
  | .enqueue n _ _ | .enqueueFails n _ _ | .cancel n => some n

/-- What a step of the route does. -/
inductive PushEffect (env : PushEnv) (d : PushService) : PushLabel → PushReply → PushService → Prop
  | mail {e : MailLabel} {service : MailService} {reply : ServiceReply}
      (hs : d.service.step env.mail (.mail e) = some (service, reply)) :
      PushEffect env d (.mail e) (.mail reply) { d with service := service }
  | opened {n : ℕ} {request : PushRequest} {token : String} (fresh : d.requests n = none)
      (bearer : env.bearerToken request = .ok token) :
      PushEffect env d (.request n request) .none (d.setPhase n (.verifying request token))
  | admitted {n : ℕ} {request : PushRequest} {token : String} {claims : Json}
      (current : d.requests n = some (.verifying request token)) (dict : claims.isDict = true)
      (authorized : env.authorizes claims = true) :
      PushEffect env d (.verified n token (.claims claims)) .none (d.setPhase n (.receiving []))
  | received {n : ℕ} {body bytes : Bytes} (current : d.requests n = some (.receiving body))
      (fits : body.length + bytes.length ≤ env.envelope.maxEnvelopeBytes) :
      PushEffect env d (.chunk n bytes) .none (d.setPhase n (.receiving (body ++ bytes)))
  | parsed {n : ℕ} {body : Bytes} {e : NotificationEnvelope}
      (current : d.requests n = some (.receiving body)) (read : env.parse body = .ok e) :
      PushEffect env d (.endOfBody n) .none (d.setPhase n (.locating e))
  | located {n : ℕ} {e : NotificationEnvelope} {answer : ConnectionAnswer}
      (current : d.requests n = some (.locating e)) (mailbox : e.mailboxEmail = env.mailbox)
      (fresh : d.service.deliveries n = none) :
      PushEffect env d (.located n answer) .none
        ({ d with
          service := d.service.setDelivery n (some ⟨e.pubsubMessageId, e.historyId, .reading⟩)
        }.setPhase n (.enqueuing e))
  | enqueuing {n : ℕ} {id : JobId} {receivedAt : Time} {e : NotificationEnvelope}
      {delivery : Delivery} (phase : DeliveryPhase) (current : d.requests n = some (.enqueuing e))
      (delivering : d.service.deliveries n = some delivery) :
      PushEffect env d (.enqueue n id receivedAt) .none
        ({ d with
          service := d.service.setDelivery n (some { delivery with phase := phase })
        }.setPhase n (.enqueuing e))
  | accepted {n : ℕ} {id : JobId} {receivedAt : Time} {e : NotificationEnvelope}
      {delivery : Delivery} {service : MailService} {added : Bool}
      (current : d.requests n = some (.enqueuing e))
      (delivering : d.service.deliveries n = some delivery)
      (hs : d.service.step env.mail (.enqueue n id receivedAt) =
        some (service, .enqueued delivery.pubsubMessageId added)) :
      PushEffect env d (.enqueue n id receivedAt) (.accepted n)
        ({ d with service := service }.setPhase n .closed)
  /-- The answer of an insert is lost. -/
  | lost {n : ℕ} {id : JobId} {receivedAt : Time} {e : NotificationEnvelope} {error : HttpError}
      {service : MailService} {reply : ServiceReply}
      (current : d.requests n = some (.enqueuing e))
      (hs : d.service.step env.mail (.enqueue n id receivedAt) = some (service, reply)) :
      PushEffect env d (.enqueueFails n id receivedAt) (.refused n error)
        (PushService.setPhase ⟨service.setDelivery n none, d.requests⟩ n .closed)
  /-- The request is refused before it is at the tables. -/
  | refused {e : PushLabel} {n : ℕ} (error : HttpError) (about : e.about = some n)
      (active : d.requests n ≠ some .closed) (outside : ∀ e, d.requests n ≠ some (.enqueuing e)) :
      PushEffect env d e (.refused n error) (d.setPhase n .closed)
  /-- The request ends without a change of the rows. -/
  | ended {e : PushLabel} {n : ℕ} {o : PushReply} (about : e.about = some n)
      (silent : o = .none ∨ ∃ error, o = .refused n error) (active : d.requests n ≠ some .closed) :
      PushEffect env d e o
        (PushService.setPhase ⟨d.service.setDelivery n none, d.requests⟩ n .closed)

section

variable {env : PushEnv} {d d' : PushService} {e : PushLabel} {o : PushReply} {n : ℕ}
  {phase : PushPhase}

/-- A phase that is neither the last one nor at the tables. -/
def PushPhase.Outside : PushPhase → Prop
  | .enqueuing _ | .closed => False
  | _ => True

theorem effect_of_refusal {error : HttpError} (about : e.about = some n)
    (hphase : ∀ phase, d.requests n = some phase → phase.Outside) :
    PushEffect env d e (.refused n error) (d.setPhase n .closed) :=
  .refused error about (fun h ↦ hphase _ h) fun _ h ↦ hphase _ h

theorem effect_of_outside {error : HttpError} (about : e.about = some n)
    (hcurrent : d.requests n = some phase) (houtside : phase.Outside) :
    PushEffect env d e (.refused n error) (d.setPhase n .closed) := by
  refine effect_of_refusal about fun phase' h ↦ ?_
  obtain rfl := Option.some.inj (hcurrent.symm.trans h)
  exact houtside

theorem authorized_of_checkClaims {verification : Verification}
    (h : env.checkClaims verification = none) :
    ∃ claims, verification = .claims claims ∧ claims.isDict = true ∧
      env.authorizes claims = true := by
  cases verification with
  | claims claims =>
    rw [PushEnv.checkClaims] at h
    split at h
    · cases h
    · rename_i hdict
      split at h
      · cases h
      · rename_i hauthorized
        exact ⟨claims, rfl, Bool.not_eq_false _ ▸ hdict, Bool.not_eq_false _ ▸ hauthorized⟩
  | providerError => cases h
  | rejected => cases h

theorem mailbox_of_checkMailbox {envelope : NotificationEnvelope} {answer : ConnectionAnswer}
    (h : env.checkMailbox envelope answer = none) : envelope.mailboxEmail = env.mailbox := by
  cases answer with
  | connected googleEmail =>
    rw [PushEnv.checkMailbox] at h
    split at h
    · cases h
    · split at h
      · cases h
      · split at h
        · cases h
        · rename_i hmailbox
          exact not_not.mp hmailbox
  | unavailable => cases h
  | failed => cases h

/-- **Every step of the route.** -/
theorem pushEffect_of_step (hs : d.step env e = some (d', o)) : PushEffect env d e o d' := by
  cases e with
  | mail e =>
    obtain ⟨⟨service, reply⟩, hmail, hpair⟩ := Option.map_eq_some_iff.mp hs
    obtain ⟨rfl, rfl⟩ := Prod.mk.inj hpair
    exact .mail hmail
  | request n request =>
    rw [PushService.step] at hs
    split at hs
    · cases hs
    · rename_i hfresh
      split at hs
      · obtain ⟨rfl, rfl⟩ := Prod.mk.inj (Option.some.inj hs)
        exact effect_of_refusal rfl fun phase h ↦ by rw [hfresh] at h; cases h
      · rename_i token hbearer
        obtain ⟨rfl, rfl⟩ := Prod.mk.inj (Option.some.inj hs)
        exact .opened hfresh hbearer
  | verified n token verification =>
    rw [PushService.step] at hs
    split at hs
    · rename_i request token' hcurrent
      split at hs
      · rename_i htoken
        subst htoken
        rw [PushService.proceed.eq_def] at hs
        split at hs
        · obtain ⟨rfl, rfl⟩ := Prod.mk.inj (Option.some.inj hs)
          exact effect_of_outside rfl hcurrent trivial
        · rename_i hnone
          obtain ⟨rfl, rfl⟩ := Prod.mk.inj (Option.some.inj hs)
          obtain ⟨claims, rfl, hdict, hauthorized⟩ :=
            authorized_of_checkClaims (Option.or_eq_none_iff.mp hnone).1
          exact .admitted hcurrent hdict hauthorized
      · cases hs
    · cases hs
  | chunk n bytes =>
    rw [PushService.step] at hs
    split at hs
    · rename_i body hcurrent
      split at hs
      · obtain ⟨rfl, rfl⟩ := Prod.mk.inj (Option.some.inj hs)
        exact effect_of_outside rfl hcurrent trivial
      · rename_i hfits
        obtain ⟨rfl, rfl⟩ := Prod.mk.inj (Option.some.inj hs)
        exact .received hcurrent (Nat.le_of_not_lt hfits)
    · cases hs
  | endOfBody n =>
    rw [PushService.step] at hs
    split at hs
    · rename_i body hcurrent
      split at hs
      · obtain ⟨rfl, rfl⟩ := Prod.mk.inj (Option.some.inj hs)
        exact effect_of_outside rfl hcurrent trivial
      · rename_i envelope hread
        obtain ⟨rfl, rfl⟩ := Prod.mk.inj (Option.some.inj hs)
        exact .parsed hcurrent hread
    · cases hs
  | disconnect n =>
    rw [PushService.step] at hs
    split at hs
    · rename_i body hcurrent
      obtain ⟨rfl, rfl⟩ := Prod.mk.inj (Option.some.inj hs)
      exact effect_of_outside rfl hcurrent trivial
    · cases hs
  | located n answer =>
    rw [PushService.step] at hs
    split at hs
    · rename_i envelope hcurrent
      split at hs
      · obtain ⟨rfl, rfl⟩ := Prod.mk.inj (Option.some.inj hs)
        exact effect_of_outside rfl hcurrent trivial
      · rename_i hmailbox
        obtain ⟨⟨service, reply⟩, hdeliver, hpair⟩ := Option.map_eq_some_iff.mp hs
        obtain ⟨rfl, rfl⟩ := Prod.mk.inj hpair
        rw [MailService.step] at hdeliver
        split at hdeliver
        · cases hdeliver
        · rename_i hnone
          obtain ⟨rfl, rfl⟩ := Prod.mk.inj (Option.some.inj hdeliver)
          exact .located hcurrent (mailbox_of_checkMailbox hmailbox) hnone
    · cases hs
  | enqueue n id receivedAt =>
    rw [PushService.step] at hs
    split at hs
    · rename_i envelope hcurrent
      obtain ⟨⟨service, reply⟩, hstep, hpair⟩ := Option.map_eq_some_iff.mp hs
      obtain ⟨delivery, hdelivering, heffect⟩ := enqueueEffect_of_step hstep
      cases heffect with
      | continues phase =>
        obtain ⟨rfl, rfl⟩ := Prod.mk.inj hpair
        exact .enqueuing phase hcurrent hdelivering
      | raised =>
        obtain ⟨rfl, rfl⟩ := Prod.mk.inj hpair
        exact .ended rfl (Or.inr ⟨_, rfl⟩) (by rw [hcurrent]; rintro ⟨⟩)
      | added free new =>
        obtain ⟨rfl, rfl⟩ := Prod.mk.inj hpair
        exact .accepted hcurrent hdelivering hstep
      | found known =>
        obtain ⟨rfl, rfl⟩ := Prod.mk.inj hpair
        exact .accepted hcurrent hdelivering hstep
    · cases hs
  | enqueueFails n id receivedAt =>
    rw [PushService.step] at hs
    split at hs
    · rename_i envelope hcurrent
      obtain ⟨⟨service, reply⟩, hstep, hpair⟩ := Option.map_eq_some_iff.mp hs
      obtain ⟨rfl, rfl⟩ := Prod.mk.inj hpair
      exact .lost hcurrent hstep
    · cases hs
  | cancel n =>
    rw [PushService.step] at hs
    split at hs
    · cases hs
    · cases hs
    · rename_i phase hclosed hcurrent
      obtain ⟨rfl, rfl⟩ := Prod.mk.inj (Option.some.inj hs)
      exact .ended rfl (Or.inl rfl) (by rw [hcurrent]; exact fun h ↦ hclosed (Option.some.inj h))

end

end Onebox.Notifications
