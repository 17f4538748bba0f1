import Onebox.Credentials.Connection
import Onebox.Transition.System

/-!
# The OAuth flow

`server/oauth_state.py` with the routes `start_oauth` and `oauth_callback`. Every request is a party
of its own, which moves between two awaits; Redis, Google and the database answer in between, in any
order, late, or never.

Redis runs a command at most once. A command whose reply is lost may have run, and may still run
later. A key may vanish at any time, as its time to live ends or as a script runs that nobody waits
for.
-/

namespace Onebox.Credentials.OAuth

open Python Transition

/-! ## Bindings -/

/-- `AuthenticatedPrincipal`. -/
structure AuthenticatedPrincipal where
  userId : Uuid
  email : String

/-- `OAuthStateBinding`. -/
structure OAuthStateBinding where
  userId : String
  expectedEmail : String

/-- `f"{_STATE_KEY_PREFIX}{state}"`. -/
def stateKey (state : String) : String := "oauth_state:" ++ state

section

variable (unicode : UnicodeData)

/-- The value that `create_oauth_state` stores; `none` is the `ValueError`. -/
def createBinding (userId expectedEmail : String) : Option (List Char) :=
  (normalizeEmail unicode expectedEmail).map fun email ↦
    dumpsStrings [("user_id", userId), ("expected_email", email)]

/-- What `consume_oauth_state` makes of a reply. -/
def readBinding (rawBinding : Option (List Char)) : Option OAuthStateBinding := do
  let rawBinding ← rawBinding
  if rawBinding = [] then none
  else
    let binding ← loads rawBinding
    let userId ← binding.get? "user_id"
    let returnedEmail ← (← binding.get? "expected_email").str?
    let expectedEmail ← normalizeEmail unicode returnedEmail
    let userId ← userId.str?
    if userId = "" then none else some ⟨userId, expectedEmail⟩

/-! ## Requests -/

/-- The `SETEX` of a start. -/
inductive Command
  | unsent
  | sent
  | applied
  deriving DecidableEq

/-- A `start_oauth`. -/
structure StartRequest where
  state : String
  value : List Char
  command : Command
  answered : Bool

/-- Where a callback stands. -/
inductive Phase
  /-- The script has run, and its reply is under way. -/
  | replied (rawBinding : Option (List Char))
  /-- In `exchange_oauth_code`. -/
  | exchanging (userId : Uuid) (binding : OAuthStateBinding)
  /-- In `persist_oauth_connection`. -/
  | persisting (userId : Uuid) (binding : OAuthStateBinding)
      (exchange : OAuthExchangeResult unicode)
  | ended

/-- An `oauth_callback`. -/
structure Callback where
  state : String
  code : Option String
  error : Option String
  phase : Phase unicode

/-- The bounds of the query parameters. -/
def validQuery (code : Option String) (state : String) (error : Option String) : Bool :=
  code.all (fun code ↦ 1 ≤ code.length && code.length ≤ 4096) &&
    (1 ≤ state.length && state.length ≤ 512) && error.all (·.length ≤ 256)

/-! ## The world -/

/-- A start that has drawn a state. -/
structure Start where
  principal : AuthenticatedPrincipal
  state : String
  value : List Char

/-- Redis, the requests and the rows, with the starts so far and the states that were exchanged. -/
structure World where
  store : String → Option (List Char)
  requests : List StartRequest
  callbacks : List (Callback unicode)
  rows : Uuid → Option AgentToken
  starts : List Start
  exchanged : List String

inductive Event
  /-- `start_oauth` draws a state, and may send it. -/
  | start (principal : AuthenticatedPrincipal) (state : String) (sent : Bool)
  /-- Redis runs the `SETEX` of a start. -/
  | apply (request : ℕ)
  /-- `start_oauth` returns; the reply may have been lost, or the URL not built. -/
  | answerStart (request : ℕ) (built : Bool)
  /-- A key vanishes. -/
  | expire (key : String)
  /-- A callback arrives, and Redis runs its script. -/
  | callback (code : Option String) (state : String) (error : Option String)
  /-- A callback arrives while Redis runs nothing. -/
  | callbackUnavailable
  /-- The reply of Redis arrives, or is lost. -/
  | reply (callback : ℕ) (lost : Bool)
  /-- `exchange_oauth_code` comes back; `none` is any exception. -/
  | exchange (callback : ℕ) (answer : Option ExchangeAnswer)
  /-- `persist_oauth_connection` is carried out. -/
  | persist (callback : ℕ) (keyring : Option Keyring) (nonce : Nonce)
  /-- A callback is abandoned or raises. -/
  | abandon (callback : ℕ)
  /-- Another transaction writes the row of a user. -/
  | write (userId : Uuid) (row : Option AgentToken)

inductive Outcome
  | done
  /-- `OAuthStartResponse`. -/
  | authorization (state : String)
  /-- The status code 503. -/
  | serviceUnavailable
  /-- The status code 422. -/
  | invalidQuery
  /-- `exchange_oauth_code` is called. -/
  | exchanging (state : String)
  /-- `_frontend_redirect("failure", …)`. -/
  | failure (errorMessage : String)
  /-- `_frontend_redirect("success", …)`. -/
  | connected (state : String) (userId : Uuid) (googleEmail : String)
  deriving DecidableEq

variable {unicode}

/-- A callback after its reply: where it stands, and what it shows. -/
def Callback.received (callback : Callback unicode) (rawBinding : Option (List Char)) :
    Phase unicode × Outcome :=
  match readBinding unicode rawBinding with
  | none => (.ended, .failure "Invalid or expired OAuth state")
  | some binding =>
    match Uuid.ofText binding.userId.toList with
    | none => (.ended, .failure "Invalid OAuth state")
    | some userId =>
      if callback.error.any (· ≠ "") then
        (.ended, .failure "OAuth authorization was not completed.")
      else if !callback.code.any (· ≠ "") then (.ended, .failure "Invalid OAuth callback")
      else (.exchanging userId binding, .exchanging callback.state)

/-- A callback after the exchange. -/
def afterExchange (userId : Uuid) (binding : OAuthStateBinding)
    (exchange : Option (OAuthExchangeResult unicode)) : Phase unicode × Outcome :=
  match exchange with
  | none => (.ended, .failure "Authentication failed")
  | some exchange =>
    if exchange.normalizedGoogleEmail ≠ binding.expectedEmail then
      (.ended, .failure "The selected Google account does not match the signed-in account.")
    else (.persisting userId binding exchange, .done)

/-- A callback that has come to where it now stands. -/
def World.moved (w : World unicode) (n : ℕ) (callback : Callback unicode) (phase : Phase unicode) :
    World unicode :=
  { w with callbacks := w.callbacks.set n { callback with phase := phase } }

variable (unicode) (aead : Aead) (json : JsonModule)

def stepStart (w : World unicode) (principal : AuthenticatedPrincipal) (state : String)
    (sent : Bool) : Option (World unicode × Outcome) :=
  -- `secrets.token_urlsafe` draws a state that was not drawn before.
  if state ∈ w.starts.map (·.state) then none
  else
    match createBinding unicode principal.userId.toText principal.email with
    | none => some (w, .serviceUnavailable)
    | some value => some ({ w with
        requests := w.requests ++ [⟨state, value, if sent then .sent else .unsent, false⟩]
        starts := w.starts ++ [⟨principal, state, value⟩] }, .done)

def stepReply (w : World unicode) (n : ℕ) (lost : Bool) : Option (World unicode × Outcome) :=
  match w.callbacks[n]? with
  | none => none
  | some callback =>
    match callback.phase with
    | .replied rawBinding =>
      if lost then
        some (w.moved n callback .ended,
          .failure "OAuth is temporarily unavailable. Please try again.")
      else
        match callback.received rawBinding with
        | (.exchanging userId binding, outcome) => some ({
            w.moved n callback (.exchanging userId binding) with
            exchanged := w.exchanged ++ [callback.state] }, outcome)
        | (phase, outcome) => some (w.moved n callback phase, outcome)
    | _ => none

def stepPersist (w : World unicode) (n : ℕ) (keyring : Option Keyring) (nonce : Nonce) :
    Option (World unicode × Outcome) :=
  match w.callbacks[n]? with
  | none => none
  | some callback =>
    match callback.phase with
    | .persisting userId binding exchange =>
      match persistOauthConnection unicode aead json keyring nonce userId binding.expectedEmail
          exchange (w.rows userId) with
      | .ok (row, _) => some ({ w.moved n callback .ended with
          rows := Function.update w.rows userId (some row) },
          .connected callback.state userId exchange.normalizedGoogleEmail)
      | .error .oauthAccountMismatch => some (w.moved n callback .ended,
          .failure "This Google account does not match the account already connected.")
      | .error _ => some (w.moved n callback .ended, .failure "Authentication failed")
    | _ => none

def step (w : World unicode) : Event → Option (World unicode × Outcome)
  | .start principal state sent => stepStart unicode w principal state sent
  | .apply n =>
    match w.requests[n]? with
    | none => none
    | some request =>
      if request.command = .sent then some ({ w with
        store := Function.update w.store (stateKey request.state) (some request.value)
        requests := w.requests.set n { request with command := .applied } }, .done)
      else none
  | .answerStart n built =>
    match w.requests[n]? with
    | none => none
    | some request =>
      if request.answered then none
      else
        let w := { w with requests := w.requests.set n { request with answered := true } }
        if built then
          if request.command = .applied then some (w, .authorization request.state) else none
        else some (w, .serviceUnavailable)
  | .expire key => some ({ w with store := Function.update w.store key none }, .done)
  | .callback code state error =>
    if validQuery code state error then some ({ w with
      store := Function.update w.store (stateKey state) none
      callbacks := w.callbacks ++ [⟨state, code, error, .replied (w.store (stateKey state))⟩] },
      .done)
    else some (w, .invalidQuery)
  | .callbackUnavailable =>
    some (w, .failure "OAuth is temporarily unavailable. Please try again.")
  | .reply n lost => stepReply unicode w n lost
  | .exchange n answer =>
    match w.callbacks[n]? with
    | none => none
    | some callback =>
      match callback.phase with
      | .exchanging userId binding =>
        let (phase, outcome) :=
          afterExchange userId binding (answer.bind (exchangeOauthCode unicode))
        some (w.moved n callback phase, outcome)
      | _ => none
  | .persist n keyring nonce => stepPersist unicode aead json w n keyring nonce
  | .abandon n =>
    match w.callbacks[n]? with
    | none => none
    | some callback => some (w.moved n callback .ended, .failure "Authentication failed")
  | .write userId row => some ({ w with rows := Function.update w.rows userId row }, .done)

/-- The flow, with nothing in Redis and no requests at first. -/
def flow : System (World unicode) Event Outcome where
  init w := (∀ state, w.store (stateKey state) = none) ∧ w.requests = [] ∧ w.callbacks = [] ∧
    w.starts = [] ∧ w.exchanged = []
  step := step unicode aead json

end

end Onebox.Credentials.OAuth
