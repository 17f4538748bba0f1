import Onebox.Python.Bytes

/-!
# The request-body limit and the receive protocol

`RequestBodyLimitMiddleware` stands between the server and the application. It reads the request
body itself, at most `max_body_bytes` of it, and then hands the application a `receive` that
replays what was read.

The server's side of the protocol is the list of messages its `receive()` delivers to whoever
calls it; a call beyond the end of the list is still waiting. The application's side is the number
of `receive()` calls it makes. A transparent middleware gives the application, call by call, what
the server would have given it.

## Where the replay ends

The replay is an iterator with a default: once the buffered messages are used up, every further
call answers `http.disconnect` at once. The server is never asked again, so an application that
keeps listening for a disconnect while it streams its response is told that the client is gone.
-/

namespace Onebox.RequestLimits

open Python

/-! ## Messages and requests -/

/-- The value under a message's `body` key: the protocol promises `bytes`, the code checks it. -/
inductive BodyValue
  | bytes (data : Bytes)
  | other
  deriving DecidableEq

/-- An ASGI message of an HTTP connection. Both keys of `http.request` may be absent. -/
inductive Message
  | request (body : Option BodyValue) (moreBody : Option Bool)
  | disconnect
  deriving DecidableEq

/-- The scope of a connection, as far as the middleware reads it. -/
structure Scope where
  isHttp : Bool
  headers : List (Bytes × Bytes)

/-- The response sent in place of the application's. -/
structure Rejection where
  status : ℕ
  error : String
  detail : String
  deriving DecidableEq

/-- What has become of a connection after the messages delivered so far. -/
inductive Outcome
  /-- The application was called with the server's own `receive`. -/
  | passedThrough
  /-- The 413 response was sent. -/
  | rejected (response : Rejection)
  /-- The middleware is still waiting in `receive()`. -/
  | waiting
  /-- The application was called with a `receive` that replays these messages. -/
  | dispatched (messages : List Message)
  deriving DecidableEq

/-- The middleware and its configured limit, positive as the constructor requires. -/
structure RequestBodyLimitMiddleware where
  maxBodyBytes : ℕ
  pos : 1 ≤ maxBodyBytes

namespace RequestBodyLimitMiddleware

/-- The name `content-length`. -/
def contentLengthName : Bytes :=
  [99, 111, 110, 116, 101, 110, 116, 45, 108, 101, 110, 103, 116, 104]

/-- `_content_length`: the first header of that name decides, and one that is not a non-negative
integer counts as absent. -/
def contentLength (headers : List (Bytes × Bytes)) : Option ℕ :=
  match headers with
  | [] => none
  | (name, value) :: rest =>
    if name.lower = contentLengthName then
      match Bytes.parseInt value with
      | some parsed => if 0 ≤ parsed then some parsed.toNat else none
      | none => none
    else contentLength rest

/-- `_reject`. -/
def reject : Outcome :=
  .rejected
    { status := 413
      error := "payload_too_large"
      detail := "Request body exceeds the configured size limit." }

variable (mw : RequestBodyLimitMiddleware)

/-- The buffering loop of `__call__`, with the messages and the size received so far. -/
def bufferBody : List Message → List Message → ℕ → Outcome
  | [], _, _ => .waiting
  | .disconnect :: _, messages, _ => .dispatched (messages ++ [.disconnect])
  | .request body moreBody :: rest, messages, receivedSize =>
    match body.getD (.bytes []) with
    | .other => reject
    | .bytes data =>
      if receivedSize + data.length > mw.maxBodyBytes then reject
      else if moreBody.getD false then
        bufferBody rest (messages ++ [.request body moreBody]) (receivedSize + data.length)
      else .dispatched (messages ++ [.request body moreBody])

/-- `__call__`, as far as the messages delivered so far take it. -/
def call (scope : Scope) (delivered : List Message) : Outcome :=
  if !scope.isHttp then .passedThrough
  else
    match contentLength scope.headers with
    | some declared =>
      if declared > mw.maxBodyBytes then reject else mw.bufferBody delivered [] 0
    | none => mw.bufferBody delivered [] 0

end RequestBodyLimitMiddleware

/-! ## The application's side -/

/-- `replay_receive`: the next buffered message, or the iterator's default. -/
def replayReceive : List Message → Message × List Message
  | [] => (.disconnect, [])
  | message :: rest => (message, rest)

/-- The messages that `n` calls of the replaying `receive` return. -/
def replayed : List Message → ℕ → List Message
  | _, 0 => []
  | messages, n + 1 => (replayReceive messages).1 :: replayed (replayReceive messages).2 n

namespace Outcome

/-- Whether the application was called. -/
def called : Outcome → Bool
  | passedThrough => true
  | dispatched _ => true
  | rejected _ => false
  | waiting => false

/-- The messages an application obtains that calls its `receive()` `n` times. The server's own
`receive` answers only as often as it has something to deliver. -/
def obtained (delivered : List Message) (n : ℕ) : Outcome → List Message
  | passedThrough => delivered.take n
  | dispatched messages => replayed messages n
  | rejected _ => []
  | waiting => []

end Outcome

/-! ## The protocol's own terms -/

/-- The messages of one request body: everything up to the first message that is not followed by
more of the body. -/
def requestMessages : List Message → List Message
  | [] => []
  | .disconnect :: _ => [.disconnect]
  | .request body moreBody :: rest =>
    .request body moreBody :: if moreBody.getD false then requestMessages rest else []

/-- Whether the delivered messages contain the end of the body, or a disconnect before it. -/
def ended : List Message → Bool
  | [] => false
  | .disconnect :: _ => true
  | .request _ moreBody :: rest => !moreBody.getD false || ended rest

/-- The number of body bytes a message carries. -/
def bodySize : Message → ℕ
  | .request (some (.bytes data)) _ => data.length
  | _ => 0

/-- All body values are `bytes`. -/
def AllBytes (messages : List Message) : Prop :=
  ∀ body moreBody, Message.request body moreBody ∈ messages → body ≠ some .other

/-- The accumulated body of the request. -/
def accumulatedBody (delivered : List Message) : ℕ :=
  ((requestMessages delivered).map bodySize).sum

/-- Neither the declared nor the accumulated length exceeds the limit. -/
def WithinLimit (mw : RequestBodyLimitMiddleware) (scope : Scope) (delivered : List Message) :
    Prop :=
  (∀ declared, RequestBodyLimitMiddleware.contentLength scope.headers = some declared →
    declared ≤ mw.maxBodyBytes) ∧ accumulatedBody delivered ≤ mw.maxBodyBytes

/-- **Transparency.** Once the request has ended, the application is called exactly when the limit
is kept; and if it is called, its first `n` receive calls return what the server delivers. -/
structure Transparent (mw : RequestBodyLimitMiddleware) (scope : Scope)
    (delivered : List Message) (n : ℕ) : Prop where
  called_iff : ended delivered = true →
    ((mw.call scope delivered).called = true ↔ WithinLimit mw scope delivered)
  obtained_eq : (mw.call scope delivered).called = true →
    (mw.call scope delivered).obtained delivered n = delivered.take n

/-! ## The buffering loop -/

theorem AllBytes.tail {message : Message} {rest : List Message}
    (h : AllBytes (message :: rest)) : AllBytes rest :=
  fun body moreBody hmem ↦ h body moreBody (List.mem_cons_of_mem _ hmem)

theorem requestMessages_prefix_delivered (delivered : List Message) :
    requestMessages delivered <+: delivered := by
  induction delivered with
  | nil => exact List.prefix_refl _
  | cons message rest ih =>
    cases message with
    | disconnect => exact ⟨rest, rfl⟩
    | request body moreBody =>
      rw [requestMessages]
      split
      · exact List.cons_prefix_cons.mpr ⟨rfl, ih⟩
      · exact ⟨rest, rfl⟩

theorem accumulatedBody_cons_request (body : Option BodyValue) (moreBody : Option Bool)
    (rest : List Message) :
    accumulatedBody (.request body moreBody :: rest) = bodySize (.request body moreBody)
      + if moreBody.getD false then accumulatedBody rest else 0 := by
  rw [accumulatedBody, requestMessages, List.map_cons, List.sum_cons]
  split <;> rfl

/-- The loop in closed form: what it buffers, and when it gives up. -/
theorem bufferBody_eq (mw : RequestBodyLimitMiddleware) (delivered : List Message)
    (hbytes : AllBytes delivered) : ∀ (messages : List Message) (receivedSize : ℕ),
    receivedSize ≤ mw.maxBodyBytes →
    mw.bufferBody delivered messages receivedSize
      = if mw.maxBodyBytes < receivedSize + accumulatedBody delivered then
          RequestBodyLimitMiddleware.reject
        else if ended delivered then .dispatched (messages ++ requestMessages delivered)
        else .waiting := by
  induction delivered with
  | nil =>
    intro messages receivedSize hsize
    have : ¬mw.maxBodyBytes < receivedSize := by omega
    simp [RequestBodyLimitMiddleware.bufferBody, accumulatedBody, requestMessages, ended, this]
  | cons message rest ih =>
    intro messages receivedSize hsize
    cases message with
    | disconnect =>
      have : ¬mw.maxBodyBytes < receivedSize := by omega
      simp [RequestBodyLimitMiddleware.bufferBody, accumulatedBody, requestMessages, ended,
        bodySize, this]
    | request body moreBody =>
      obtain ⟨data, hdata, hlen⟩ : ∃ data, body.getD (.bytes []) = .bytes data ∧
          bodySize (.request body moreBody) = data.length := by
        cases body with
        | none => exact ⟨[], rfl, rfl⟩
        | some value =>
          cases value with
          | bytes data => exact ⟨data, rfl, rfl⟩
          | other => exact absurd rfl (hbytes _ _ List.mem_cons_self)
      rw [RequestBodyLimitMiddleware.bufferBody, hdata, accumulatedBody_cons_request, hlen]
      dsimp only
      -- The loop goes on only with a size within the limit, as the induction hypothesis asks.
      by_cases hover : receivedSize + data.length > mw.maxBodyBytes
      · rw [if_pos hover, if_pos (by omega)]
      · rw [if_neg hover]
        by_cases hmore : moreBody.getD false = true
        · rw [if_pos hmore, if_pos hmore, ih hbytes.tail _ _ (by omega)]
          simp [requestMessages, ended, hmore, Nat.add_assoc]
        · rw [if_neg hmore, if_neg hmore, if_neg (by omega)]
          simp [requestMessages, ended, hmore]

/-- `__call__` on an HTTP connection in closed form. -/
theorem call_eq (mw : RequestBodyLimitMiddleware) {scope : Scope} (hhttp : scope.isHttp = true)
    {delivered : List Message} (hbytes : AllBytes delivered)
    [Decidable (WithinLimit mw scope delivered)] :
    mw.call scope delivered
      = if WithinLimit mw scope delivered then
          (if ended delivered then .dispatched (requestMessages delivered) else .waiting)
        else RequestBodyLimitMiddleware.reject := by
  have hloop := bufferBody_eq mw delivered hbytes [] 0 (Nat.zero_le _)
  rw [Nat.zero_add, List.nil_append] at hloop
  rw [RequestBodyLimitMiddleware.call, hhttp]
  simp only [Bool.not_true, Bool.false_eq_true, if_false]
  cases hlen : RequestBodyLimitMiddleware.contentLength scope.headers with
  | none =>
    have hiff : WithinLimit mw scope delivered ↔
        accumulatedBody delivered ≤ mw.maxBodyBytes := by
      simp [WithinLimit, hlen]
    simp only [hloop, hiff, ← not_lt, ite_not]
  | some declared =>
    have hiff : WithinLimit mw scope delivered ↔
        declared ≤ mw.maxBodyBytes ∧ accumulatedBody delivered ≤ mw.maxBodyBytes := by
      simp [WithinLimit, hlen]
    by_cases hdecl : declared > mw.maxBodyBytes
    · rw [if_neg (by rw [hiff]; omega)]
      simp [hdecl]
    · have hdecl' : declared ≤ mw.maxBodyBytes := by omega
      simp only [hdecl, if_false, hloop, hiff, hdecl', true_and, ← not_lt, ite_not]

/-! ## The replay -/

/-- The replay is the buffered messages followed by disconnects without end. -/
theorem replayed_eq (messages : List Message) (n : ℕ) :
    replayed messages n
      = messages.take n ++ List.replicate (n - messages.length) .disconnect := by
  induction n generalizing messages with
  | zero => simp [replayed]
  | succ n ih =>
    cases messages with
    | nil => simp [replayed, replayReceive, ih, List.replicate_succ]
    | cons message rest => simp [replayed, replayReceive, ih]

/-- The replay agrees with the server exactly as long as it has something to replay, or the server
itself has nothing but disconnects to offer. -/
theorem replayed_prefix_eq_take_iff {messages delivered : List Message}
    (hpre : messages <+: delivered) (n : ℕ) :
    replayed messages n = delivered.take n ↔
      (delivered.drop messages.length).take (n - messages.length)
        = List.replicate (n - messages.length) .disconnect := by
  obtain ⟨rest, rfl⟩ := hpre
  rw [replayed_eq, List.take_append, List.append_cancel_left_eq, List.drop_left]
  exact eq_comm

/-! ## When the middleware is transparent -/

/-- The server has nothing but disconnects to deliver on those of the first `n` receive calls that
come after the end of the request. -/
def DisconnectsPastRequest (delivered : List Message) (n : ℕ) : Prop :=
  (delivered.drop (requestMessages delivered).length).take (n - (requestMessages delivered).length)
    = List.replicate (n - (requestMessages delivered).length) .disconnect

instance (delivered : List Message) (n : ℕ) : Decidable (DisconnectsPastRequest delivered n) :=
  inferInstanceAs (Decidable (_ = _))

/-- While the client stays connected the condition is a bound on the number of calls: the
application must not call `receive()` again once it has the whole request. -/
theorem disconnectsPastRequest_iff_le {delivered : List Message} {n : ℕ}
    (hconn : Message.disconnect ∉ delivered) :
    DisconnectsPastRequest delivered n ↔ n ≤ (requestMessages delivered).length := by
  rw [DisconnectsPastRequest]
  constructor
  · intro h
    by_contra hlt
    have hmem : Message.disconnect ∈ List.replicate
        (n - (requestMessages delivered).length) Message.disconnect :=
      List.mem_replicate.mpr ⟨by omega, rfl⟩
    rw [← h] at hmem
    exact hconn (List.mem_of_mem_drop (List.mem_of_mem_take hmem))
  · intro h
    rw [Nat.sub_eq_zero_of_le h, List.take_zero, List.replicate_zero]

/-- **The limit is enforced exactly, and the replay is faithful up to the end of the request.**
Every connection is treated transparently except one whose application calls `receive()` past the
end of its request while the server still has something other than a disconnect to say, be it a
message or nothing at all. -/
theorem transparent_iff (mw : RequestBodyLimitMiddleware) {scope : Scope}
    (hhttp : scope.isHttp = true) {delivered : List Message} (hbytes : AllBytes delivered) (n : ℕ) :
    Transparent mw scope delivered n ↔
      (ended delivered = true → WithinLimit mw scope delivered →
        DisconnectsPastRequest delivered n) := by
  classical
  have hcall := call_eq mw hhttp hbytes
  constructor
  · intro htrans hended hlimit
    rw [if_pos hlimit, if_pos hended] at hcall
    have hobt := htrans.obtained_eq (by rw [hcall]; rfl)
    rw [hcall] at hobt
    exact (replayed_prefix_eq_take_iff (requestMessages_prefix_delivered delivered) n).mp hobt
  · intro hcond
    refine ⟨fun hended ↦ ?_, fun hcalled ↦ ?_⟩
    · rw [hcall, if_pos hended]
      by_cases hlimit : WithinLimit mw scope delivered
      · simp [hlimit, Outcome.called]
      · simp [hlimit, Outcome.called, RequestBodyLimitMiddleware.reject]
    · by_cases hlimit : WithinLimit mw scope delivered
      · by_cases hended : ended delivered = true
        · rw [hcall, if_pos hlimit, if_pos hended]
          exact (replayed_prefix_eq_take_iff (requestMessages_prefix_delivered delivered) n).mpr
            (hcond hended hlimit)
        · rw [hcall, if_pos hlimit, if_neg hended] at hcalled
          exact absurd hcalled (by simp [Outcome.called])
      · rw [hcall, if_neg hlimit] at hcalled
        exact absurd hcalled (by simp [Outcome.called, RequestBodyLimitMiddleware.reject])

/-- A bounded request whose application reads the body and never calls `receive()` again. -/
theorem transparent_single_chunk :
    Transparent ⟨8, by decide⟩ ⟨true, []⟩ [.request (some (.bytes [1, 2, 3])) (some false)] 1 :=
  (transparent_iff _ rfl
    (fun body moreBody hmem ↦ by
      obtain ⟨rfl, -⟩ : body = some (.bytes [1, 2, 3]) ∧ moreBody = some false := by
        simpa using hmem
      simp) 1).mpr
    fun _ _ ↦ by decide

/-- The same request with an application that listens for a disconnect after it: the client is
still connected, and the application is told that it is not. -/
theorem not_transparent_listening_app :
    ¬Transparent ⟨8, by decide⟩ ⟨true, []⟩
      [.request (some (.bytes [1, 2, 3])) (some false)] 2 := by
  intro h
  exact absurd (h.obtained_eq (by decide)) (by decide)

end Onebox.RequestLimits
