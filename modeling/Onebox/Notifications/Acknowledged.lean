import Onebox.Notifications.PushRequests

/-!
# Acknowledged pushes

An acknowledgement stands for a committed job, which stays; and a job stands for a request of the
configured principal whose body was read as an envelope with the job's ids. Both hold in every
interleaving of any number of requests with the workers, also where requests are cancelled and
where the answer of a commit is lost.
-/

namespace Onebox.Notifications

open Python Transition

/-! ## What a trace says about a request -/

/-- The bytes that a label brings in for a request. -/
def PushLabel.bytesFor (n : ℕ) : PushLabel → Bytes
  | .chunk m bytes => if m = n then bytes else []
  | _ => []

/-- The body of a request, as far as it has arrived. -/
def bodyOf (n : ℕ) (tr : List (PushLabel × PushReply)) : Bytes :=
  tr.flatMap fun event ↦ event.1.bytesFor n

/-- The request has come with a token that was verified with claims of the configured principal. -/
def Authorized (env : PushEnv) (n : ℕ) (tr : List (PushLabel × PushReply)) : Prop :=
  ∃ request token claims, .request n request ∈ tr.map Prod.fst ∧
    env.bearerToken request = .ok token ∧
    .verified n token (.claims claims) ∈ tr.map Prod.fst ∧ claims.isDict = true ∧
    env.authorizes claims = true

/-- The request posts the envelope to the mailbox that has a row. -/
structure Posts (env : PushEnv) (n : ℕ) (tr : List (PushLabel × PushReply))
    (e : NotificationEnvelope) : Prop where
  authorized : Authorized env n tr
  read : env.parse (bodyOf n tr) = .ok e
  mailbox : e.mailboxEmail = env.mailbox

/-- The answer, if the event is one to the request. -/
def isAnswerTo (n : ℕ) (event : PushLabel × PushReply) : Bool :=
  match event.2 with
  | .accepted m | .refused m _ => m = n
  | _ => false

/-! ## The invariant -/

/-- What the phase of a request says about the trace. -/
def PhaseOk (env : PushEnv) (n : ℕ) (tr : List (PushLabel × PushReply)) :
    Option PushPhase → Option Delivery → Prop
  | none, delivery => bodyOf n tr = [] ∧ delivery = none
  | some (.verifying request token), delivery =>
    .request n request ∈ tr.map Prod.fst ∧ env.bearerToken request = .ok token ∧
      bodyOf n tr = [] ∧ delivery = none
  | some (.receiving body), delivery =>
    Authorized env n tr ∧ bodyOf n tr = body ∧ body.length ≤ env.envelope.maxEnvelopeBytes ∧
      delivery = none
  | some (.locating e), delivery =>
    Authorized env n tr ∧ env.parse (bodyOf n tr) = .ok e ∧ delivery = none
  | some (.enqueuing e), delivery =>
    Posts env n tr e ∧ ∃ phase, delivery = some ⟨e.pubsubMessageId, e.historyId, phase⟩
  | some .closed, delivery => delivery = none

/-- The job comes from a request that is closed. -/
def Sourced (env : PushEnv) (d : PushService) (tr : List (PushLabel × PushReply))
    (job : GmailNotificationJob) : Prop :=
  ∃ n e, d.requests n = some .closed ∧ Posts env n tr e ∧
    e.pubsubMessageId = job.pubsubMessageId ∧ e.historyId = job.historyId

/-- The request has been answered once at most, and not before it is closed. -/
structure AnsweredOnce (d : PushService) (n : ℕ) (tr : List (PushLabel × PushReply)) : Prop where
  atMostOnce : tr.countP (isAnswerTo n) ≤ 1
  notYet : d.requests n ≠ some .closed → tr.countP (isAnswerTo n) = 0

/-- What holds of a state and the trace that led to it. -/
structure PushInvariant (env : PushEnv) (d : PushService)
    (tr : List (PushLabel × PushReply)) : Prop where
  tables : ∃ t, Follows env.mail d.service t
  phases : ∀ n, PhaseOk env n tr (d.requests n) (d.service.deliveries n)
  sourced : ∀ id job, d.service.mail.jobs.jobs id = some job → Sourced env d tr job
  checked : ∀ n, bodyOf n tr ≠ [] → Authorized env n tr
  answered : ∀ n, AnsweredOnce d n tr

section

variable {env : PushEnv} {d d' : PushService} {e : PushLabel} {o : PushReply} {n m : ℕ}
  {tr : List (PushLabel × PushReply)} {envelope : NotificationEnvelope} {phase : PushPhase}

theorem bodyOf_append (n : ℕ) (tr : List (PushLabel × PushReply)) (e : PushLabel) (o : PushReply) :
    bodyOf n (tr ++ [(e, o)]) = bodyOf n tr ++ e.bytesFor n := by
  rw [bodyOf, List.flatMap_append, List.flatMap_singleton, bodyOf]

theorem bytesFor_endOfBody (n m : ℕ) : PushLabel.bytesFor m (.endOfBody n) = [] := rfl

theorem bytesFor_of_about (h : e.about ≠ some n) : e.bytesFor n = [] := by
  cases e with
  | chunk m bytes =>
    rw [PushLabel.bytesFor, if_neg]
    rintro rfl
    exact h rfl
  | _ => rfl

theorem mem_labels_append {a : PushLabel} (h : a ∈ tr.map Prod.fst)
    (event : PushLabel × PushReply) : a ∈ (tr ++ [event]).map Prod.fst := by
  rw [List.map_append]
  exact List.mem_append_left _ h

theorem mem_labels_self (tr : List (PushLabel × PushReply)) (e : PushLabel) (o : PushReply) :
    e ∈ (tr ++ [(e, o)]).map Prod.fst := by
  rw [List.map_append]
  exact List.mem_append_right _ (List.mem_singleton_self e)

theorem Authorized.append (h : Authorized env n tr) (event : PushLabel × PushReply) :
    Authorized env n (tr ++ [event]) := by
  obtain ⟨request, token, claims, hrequest, hbearer, hverified, hclaims⟩ := h
  exact ⟨request, token, claims, mem_labels_append hrequest event, hbearer,
    mem_labels_append hverified event, hclaims⟩

theorem Posts.append (h : Posts env n tr envelope) (hbytes : e.bytesFor n = []) :
    Posts env n (tr ++ [(e, o)]) envelope := by
  refine ⟨h.authorized.append _, ?_, h.mailbox⟩
  rw [bodyOf_append, hbytes, List.append_nil]
  exact h.read

/-- An event that brings nothing in for a request leaves its phase as it is. -/
theorem PhaseOk.append {current : Option PushPhase} {delivery : Option Delivery}
    (h : PhaseOk env n tr current delivery) (hbytes : e.bytesFor n = []) :
    PhaseOk env n (tr ++ [(e, o)]) current delivery := by
  have hbody : bodyOf n (tr ++ [(e, o)]) = bodyOf n tr := by
    rw [bodyOf_append, hbytes, List.append_nil]
  rcases current with _ | phase
  · rwa [PhaseOk, hbody]
  · cases phase with
    | verifying request token =>
      rw [PhaseOk, hbody]
      exact ⟨mem_labels_append h.1 _, h.2⟩
    | receiving body =>
      rw [PhaseOk, hbody]
      exact ⟨h.1.append _, h.2⟩
    | locating envelope =>
      rw [PhaseOk, hbody]
      exact ⟨h.1.append _, h.2⟩
    | enqueuing envelope => exact ⟨h.1.append hbytes, h.2⟩
    | closed => exact h

/-! ### Other requests -/

@[simp] theorem PushService.setPhase_self (d : PushService) (n : ℕ) (phase : PushPhase) :
    (d.setPhase n phase).requests n = some phase := Function.update_self ..

theorem PushService.setPhase_of_ne (d : PushService) (phase : PushPhase) (h : m ≠ n) :
    (d.setPhase n phase).requests m = d.requests m := Function.update_of_ne h ..

@[simp] theorem PushService.setPhase_service (d : PushService) (n : ℕ) (phase : PushPhase) :
    (d.setPhase n phase).service = d.service := rfl

@[simp] theorem MailService.setDelivery_self (d : MailService) (n : ℕ)
    (delivery : Option Delivery) : (d.setDelivery n delivery).deliveries n = delivery :=
  Function.update_self ..

theorem MailService.setDelivery_of_ne (d : MailService) (delivery : Option Delivery)
    (h : m ≠ n) : (d.setDelivery n delivery).deliveries m = d.deliveries m :=
  Function.update_of_ne h ..

@[simp] theorem MailService.setDelivery_mail (d : MailService) (n : ℕ)
    (delivery : Option Delivery) : (d.setDelivery n delivery).mail = d.mail := rfl

theorem EnqueueEffect.deliveries_of_ne {service service' : MailService} {delivery : Delivery}
    {reply : ServiceReply} (h : EnqueueEffect service n delivery reply service') (hne : m ≠ n) :
    service'.deliveries m = service.deliveries m := by
  cases h with
  | continues phase => exact service.setDelivery_of_ne _ hne
  | raised => exact service.setDelivery_of_ne _ hne
  | added free new => exact MailService.setDelivery_of_ne _ _ hne
  | found known => exact service.setDelivery_of_ne _ hne

theorem deliveries_of_mail {service service' : MailService} {e : MailLabel}
    {reply : ServiceReply} (hs : service.step env.mail (.mail e) = some (service', reply)) :
    service'.deliveries = service.deliveries := by
  rw [MailService.step] at hs
  split at hs
  · cases hs
  · obtain ⟨⟨w, reply'⟩, -, hpair⟩ := Option.map_eq_some_iff.mp hs
    obtain ⟨rfl, -⟩ := Prod.mk.inj hpair
    rfl

theorem ne_of_about (hn : e.about ≠ some m) (h : e.about = some n) : m ≠ n := by
  rintro rfl
  exact hn h

/-- A step leaves the requests alone that it is not about. -/
theorem PushEffect.frame (h : PushEffect env d e o d') (hn : e.about ≠ some m) :
    d'.requests m = d.requests m ∧ d'.service.deliveries m = d.service.deliveries m := by
  cases h with
  | mail hs => exact ⟨rfl, congrFun (deliveries_of_mail hs) m⟩
  | @opened n _ _ fresh bearer =>
    have hne := ne_of_about hn rfl
    exact ⟨d.setPhase_of_ne _ hne, rfl⟩
  | @admitted n _ _ _ current dict authorized =>
    have hne := ne_of_about hn rfl
    exact ⟨d.setPhase_of_ne _ hne, rfl⟩
  | @received n _ _ current fits =>
    have hne := ne_of_about hn rfl
    exact ⟨d.setPhase_of_ne _ hne, rfl⟩
  | @parsed n _ _ current read =>
    have hne := ne_of_about hn rfl
    exact ⟨d.setPhase_of_ne _ hne, rfl⟩
  | @located n _ _ current mailbox fresh =>
    have hne := ne_of_about hn rfl
    exact ⟨PushService.setPhase_of_ne _ _ hne, d.service.setDelivery_of_ne _ hne⟩
  | @enqueuing n _ _ _ _ phase current delivering =>
    have hne := ne_of_about hn rfl
    exact ⟨PushService.setPhase_of_ne _ _ hne, d.service.setDelivery_of_ne _ hne⟩
  | @accepted n _ _ _ _ _ _ current delivering hs =>
    have hne := ne_of_about hn rfl
    obtain ⟨delivery, -, heffect⟩ := enqueueEffect_of_step hs
    exact ⟨PushService.setPhase_of_ne _ _ hne, heffect.deliveries_of_ne hne⟩
  | @lost n _ _ _ _ _ _ current hs =>
    have hne := ne_of_about hn rfl
    obtain ⟨delivery, -, heffect⟩ := enqueueEffect_of_step hs
    exact ⟨PushService.setPhase_of_ne _ _ hne,
      (MailService.setDelivery_of_ne _ _ hne).trans (heffect.deliveries_of_ne hne)⟩
  | @refused _ n error about active outside =>
    have hne := ne_of_about hn about
    exact ⟨d.setPhase_of_ne _ hne, rfl⟩
  | @ended _ n _ about silent active =>
    have hne := ne_of_about hn about
    exact ⟨PushService.setPhase_of_ne _ _ hne, d.service.setDelivery_of_ne _ hne⟩

/-- Nothing happens to a request that is closed. -/
theorem PushEffect.about_ne_of_closed (h : PushEffect env d e o d')
    (hclosed : d.requests n = some .closed) : e.about ≠ some n := by
  intro habout
  cases h with
  | mail hs => cases habout
  | opened fresh bearer =>
    obtain rfl := Option.some.inj habout
    rw [fresh] at hclosed
    cases hclosed
  | admitted current dict authorized =>
    obtain rfl := Option.some.inj habout
    rw [current] at hclosed
    cases hclosed
  | received current fits =>
    obtain rfl := Option.some.inj habout
    rw [current] at hclosed
    cases hclosed
  | parsed current read =>
    obtain rfl := Option.some.inj habout
    rw [current] at hclosed
    cases hclosed
  | located current mailbox fresh =>
    obtain rfl := Option.some.inj habout
    rw [current] at hclosed
    cases hclosed
  | enqueuing phase current delivering =>
    obtain rfl := Option.some.inj habout
    rw [current] at hclosed
    cases hclosed
  | accepted current delivering hs =>
    obtain rfl := Option.some.inj habout
    rw [current] at hclosed
    cases hclosed
  | lost current hs =>
    obtain rfl := Option.some.inj habout
    rw [current] at hclosed
    cases hclosed
  | refused error about active outside =>
    obtain rfl := Option.some.inj (about.symm.trans habout)
    exact active hclosed
  | ended about silent active =>
    obtain rfl := Option.some.inj (about.symm.trans habout)
    exact active hclosed

theorem PushEffect.closed (h : PushEffect env d e o d') (hclosed : d.requests n = some .closed) :
    d'.requests n = some .closed := by
  rw [(h.frame (h.about_ne_of_closed hclosed)).1]
  exact hclosed

/-! ### The phases -/

/-- The request that a step is about. -/
theorem PushEffect.phaseOk (h : PushEffect env d e o d') (hn : e.about = some n)
    (hok : PhaseOk env n tr (d.requests n) (d.service.deliveries n)) :
    PhaseOk env n (tr ++ [(e, o)]) (d'.requests n) (d'.service.deliveries n) := by
  cases h with
  | mail hs => cases hn
  | @opened n request token fresh bearer =>
    obtain rfl := Option.some.inj hn
    rw [fresh] at hok
    rw [PushService.setPhase_self, PushService.setPhase_service, PhaseOk, bodyOf_append, hok.1]
    exact ⟨mem_labels_self tr _ _, bearer, rfl, hok.2⟩
  | @admitted n request token claims current dict authorized =>
    obtain rfl := Option.some.inj hn
    rw [current] at hok
    obtain ⟨hrequest, hbearer, hbody, hdelivery⟩ := hok
    rw [PushService.setPhase_self, PushService.setPhase_service, PhaseOk, bodyOf_append, hbody]
    exact ⟨⟨request, token, claims, mem_labels_append hrequest _, hbearer,
      mem_labels_self tr _ _, dict, authorized⟩, rfl, Nat.zero_le _, hdelivery⟩
  | @received n body bytes current fits =>
    obtain rfl := Option.some.inj hn
    rw [current] at hok
    obtain ⟨hauthorized, hbody, -, hdelivery⟩ := hok
    -- The body read so far is the body of the trace, with this piece at its end.
    rw [PushService.setPhase_self, PushService.setPhase_service, PhaseOk, bodyOf_append, hbody,
      PushLabel.bytesFor, if_pos rfl, List.length_append]
    exact ⟨hauthorized.append _, rfl, fits, hdelivery⟩
  | @parsed n body envelope current read =>
    obtain rfl := Option.some.inj hn
    rw [current] at hok
    obtain ⟨hauthorized, hbody, -, hdelivery⟩ := hok
    rw [PushService.setPhase_self, PushService.setPhase_service, PhaseOk, bodyOf_append, hbody]
    refine ⟨hauthorized.append _, ?_, hdelivery⟩
    rw [bytesFor_endOfBody, List.append_nil]
    exact read
  | @located n envelope answer current mailbox fresh =>
    obtain rfl := Option.some.inj hn
    rw [current] at hok
    obtain ⟨hauthorized, hread, -⟩ := hok
    rw [PushService.setPhase_self, PushService.setPhase_service, MailService.setDelivery_self]
    exact ⟨Posts.append ⟨hauthorized, hread, mailbox⟩ rfl, .reading, rfl⟩
  | @enqueuing n id receivedAt envelope delivery phase current delivering =>
    obtain rfl := Option.some.inj hn
    rw [current, delivering] at hok
    obtain ⟨hposts, before, hdelivery⟩ := hok
    obtain rfl := Option.some.inj hdelivery
    rw [PushService.setPhase_self, PushService.setPhase_service, MailService.setDelivery_self]
    exact ⟨hposts.append rfl, phase, rfl⟩
  | @accepted n id receivedAt envelope delivery service added current delivering hs =>
    obtain rfl := Option.some.inj hn
    rw [PushService.setPhase_self, PushService.setPhase_service]
    obtain ⟨delivery', hdelivery', heffect⟩ := enqueueEffect_of_step hs
    obtain rfl := Option.some.inj (delivering.symm.trans hdelivery')
    cases heffect with
    | added free new => exact MailService.setDelivery_self _ _ _
    | found known => exact MailService.setDelivery_self _ _ _
  | @lost n id receivedAt envelope error service reply current hs =>
    obtain rfl := Option.some.inj hn
    rw [PushService.setPhase_self]
    exact MailService.setDelivery_self _ _ _
  -- Until the job is enqueued no delivery is open, whatever the request is refused for.
  | @refused _ m error about active outside =>
    obtain rfl := Option.some.inj (about.symm.trans hn)
    rw [PushService.setPhase_self, PushService.setPhase_service]
    rcases hcurrent : d.requests m with _ | phase
    · rw [hcurrent] at hok
      exact hok.2
    · rw [hcurrent] at hok
      cases phase with
      | verifying request token => exact hok.2.2.2
      | receiving body => exact hok.2.2.2
      | locating envelope => exact hok.2.2
      | enqueuing envelope => exact absurd hcurrent (outside envelope)
      | closed => exact absurd hcurrent active
  | @ended _ m _ about silent active =>
    obtain rfl := Option.some.inj (about.symm.trans hn)
    rw [PushService.setPhase_self]
    exact MailService.setDelivery_self _ _ _

theorem PushEffect.phases (h : PushEffect env d e o d')
    (hok : PhaseOk env n tr (d.requests n) (d.service.deliveries n)) :
    PhaseOk env n (tr ++ [(e, o)]) (d'.requests n) (d'.service.deliveries n) := by
  by_cases hn : e.about = some n
  · exact h.phaseOk hn hok
  · rw [(h.frame hn).1, (h.frame hn).2]
    exact hok.append (bytesFor_of_about hn)

/-! ### The tables -/

/-- What a step does to the tables: nothing, or what a step of the mail service does. -/
theorem PushEffect.service (h : PushEffect env d e o d') :
    d'.service.mail = d.service.mail ∨ ∃ e' o' service',
      d.service.step env.mail e' = some (service', o') ∧ d'.service.mail = service'.mail ∧
      ∀ n id receivedAt, e' = .enqueue n id receivedAt → d'.requests n = some .closed ∧
        ∃ envelope, d.requests n = some (.enqueuing envelope) ∧ e.bytesFor n = [] := by
  cases h with
  | mail hs => exact Or.inr ⟨_, _, _, hs, rfl, by rintro n id receivedAt ⟨⟩⟩
  | accepted current delivering hs =>
    refine Or.inr ⟨_, _, _, hs, rfl, ?_⟩
    rintro n id receivedAt ⟨⟩
    exact ⟨PushService.setPhase_self _ _ _, _, current, rfl⟩
  | lost current hs =>
    refine Or.inr ⟨_, _, _, hs, rfl, ?_⟩
    rintro n id receivedAt ⟨⟩
    exact ⟨PushService.setPhase_self _ _ _, _, current, rfl⟩
  | _ => exact Or.inl rfl

/-- The row that an insert makes has the ids of its delivery. -/
theorem ServiceEffect.inserted_row {service service' : MailService} {a : ServiceLabel}
    {reply : ServiceReply} (h : ServiceEffect service a reply service') {id : JobId}
    {job : GmailNotificationJob} (hnone : service.mail.jobs.jobs id = none)
    (hjob : service'.mail.jobs.jobs id = some job) :
    ∃ n receivedAt delivery, a = .enqueue n id receivedAt ∧
      service.deliveries n = some delivery ∧ delivery.pubsubMessageId = job.pubsubMessageId ∧
      delivery.historyId = job.historyId := by
  cases h with
  | moved a move =>
    rw [move.absent id hnone] at hjob
    cases hjob
  | @inserted d' delivery n id' receivedAt current free new jobs =>
    rw [jobs] at hjob
    by_cases hsame : id = id'
    · subst hsame
      obtain ⟨job', hjob', hpubsub, hhistory, -⟩ := insertNotificationJob_self service.mail.jobs id
        delivery.pubsubMessageId delivery.historyId receivedAt
      obtain rfl := Option.some.inj (hjob'.symm.trans hjob)
      exact ⟨n, receivedAt, delivery, rfl, current, hpubsub.symm, hhistory.symm⟩
    · rw [insertNotificationJob_of_ne hsame, hnone] at hjob
      cases hjob

/-- A row keeps its ids. -/
def KeepsRows (s s' : JobStore) : Prop :=
  ∀ id job, s.jobs id = some job → ∃ job', s'.jobs id = some job' ∧
    job'.pubsubMessageId = job.pubsubMessageId ∧ job'.historyId = job.historyId

theorem KeepsRows.refl (s : JobStore) : KeepsRows s s := fun _ job hjob ↦ ⟨job, hjob, rfl, rfl⟩

theorem KeepsRows.trans {s s' s'' : JobStore} (h : KeepsRows s s') (h' : KeepsRows s' s'') :
    KeepsRows s s'' := by
  intro id job hjob
  obtain ⟨job', hjob', hpubsub, hhistory⟩ := h id job hjob
  obtain ⟨job'', hjob'', hpubsub', hhistory'⟩ := h' id job' hjob'
  exact ⟨job'', hjob'', hpubsub'.trans hpubsub, hhistory'.trans hhistory⟩

/-- **A step keeps the rows, and a row that it makes has the ids of an envelope.** -/
theorem PushEffect.rows {t : MailTables} (h : PushEffect env d e o d')
    (ht : Follows env.mail d.service t) :
    (∃ u, Follows env.mail d'.service u) ∧
      KeepsRows d.service.mail.jobs d'.service.mail.jobs ∧
      ∀ id job, d.service.mail.jobs.jobs id = none → d'.service.mail.jobs.jobs id = some job →
        ∃ n envelope delivery, d.requests n = some (.enqueuing envelope) ∧ e.bytesFor n = [] ∧
          d'.requests n = some .closed ∧ d.service.deliveries n = some delivery ∧
          delivery.pubsubMessageId = job.pubsubMessageId ∧ delivery.historyId = job.historyId := by
  rcases h.service with hsame | ⟨e', o', service', hs, hmail, henqueue⟩
  · rw [hsame]
    refine ⟨⟨t, ht.of_mail_eq hsame⟩, .refl _, fun id job hnone hjob ↦ ?_⟩
    rw [hnone] at hjob
    cases hjob
  · obtain ⟨heffect, u, hu, -⟩ := ht.step hs
    rw [hmail]
    refine ⟨⟨u, hu.of_mail_eq hmail⟩, fun id job hjob ↦ ?_, fun id job hnone hjob ↦ ?_⟩
    · obtain ⟨job', hjob', hmove⟩ := heffect.row hjob
      exact ⟨job', hjob', hmove.immutable⟩
    · obtain ⟨n, receivedAt, delivery, rfl, hdelivery, hids⟩ := heffect.inserted_row hnone hjob
      obtain ⟨hclosed, envelope, hcurrent, hbytes⟩ := henqueue n id receivedAt rfl
      exact ⟨n, envelope, delivery, hcurrent, hbytes, hclosed, hdelivery, hids⟩

/-! ### Answers -/

theorem isAnswerTo_refused {error : HttpError} (ho : isAnswerTo n (e, .refused m error) = true) :
    m = n := of_decide_eq_true ho

theorem isAnswerTo_accepted (ho : isAnswerTo n (e, .accepted m) = true) : m = n :=
  of_decide_eq_true ho

/-- An answer is given to a request that is not closed, and ends it. -/
theorem PushEffect.answer (h : PushEffect env d e o d') (ho : isAnswerTo n (e, o) = true) :
    d.requests n ≠ some .closed ∧ d'.requests n = some .closed := by
  cases h with
  | accepted current delivering hs =>
    obtain rfl := isAnswerTo_accepted ho
    refine ⟨?_, PushService.setPhase_self _ _ _⟩
    rw [current]
    rintro ⟨⟩
  | lost current hs =>
    obtain rfl := isAnswerTo_refused ho
    refine ⟨?_, PushService.setPhase_self _ _ _⟩
    rw [current]
    rintro ⟨⟩
  | refused error about active outside =>
    obtain rfl := isAnswerTo_refused ho
    exact ⟨active, PushService.setPhase_self _ _ _⟩
  | ended about silent active =>
    rcases silent with rfl | ⟨error, rfl⟩
    · cases ho
    · obtain rfl := isAnswerTo_refused ho
      exact ⟨active, PushService.setPhase_self _ _ _⟩
  | _ => cases ho

theorem PushEffect.answered (h : PushEffect env d e o d') (hcount : AnsweredOnce d n tr) :
    AnsweredOnce d' n (tr ++ [(e, o)]) := by
  constructor
  · rw [List.countP_append, List.countP_singleton]
    by_cases ho : isAnswerTo n (e, o) = true
    · rw [hcount.notYet (h.answer ho).1, if_pos ho]
    · rw [if_neg ho]
      exact hcount.atMostOnce
  · intro hactive
    have hbefore : d.requests n ≠ some .closed := fun hclosed ↦ hactive (h.closed hclosed)
    have ho : ¬isAnswerTo n (e, o) = true := fun ho ↦ hactive (h.answer ho).2
    rw [List.countP_append, List.countP_singleton, hcount.notYet hbefore, if_neg ho]

/-! ### Runs -/

theorem pushInvariant_of_init (hinit : (pushService env).init d) : PushInvariant env d [] := by
  obtain ⟨hservice, hrequests⟩ := hinit
  obtain ⟨t, ht⟩ := follows_of_init hservice
  refine ⟨⟨t, ht⟩, fun n ↦ ?_, fun id job hjob ↦ ?_, fun n hne ↦ absurd rfl hne,
    fun n ↦ ⟨Nat.zero_le _, fun _ ↦ rfl⟩⟩
  · rw [hrequests n, hservice.2.2 n]
    exact ⟨rfl, rfl⟩
  · rw [hservice.1.2.2.1 id] at hjob
    cases hjob

/-- A chunk is taken or refused in the phase that takes them. -/
theorem receiving_of_chunk {bytes : Bytes} (hs : d.step env (.chunk n bytes) = some (d', o)) :
    ∃ body, d.requests n = some (.receiving body) := by
  rw [PushService.step] at hs
  split at hs
  · rename_i body hcurrent
    exact ⟨body, hcurrent⟩
  · cases hs

/-- What a step brings in for a request is for an authorized one. -/
theorem authorized_of_bytesFor (hs : d.step env e = some (d', o)) (hne : e.bytesFor n ≠ [])
    (hok : PhaseOk env n tr (d.requests n) (d.service.deliveries n)) : Authorized env n tr := by
  cases e with
  | chunk m bytes =>
    by_cases hm : m = n
    · subst hm
      obtain ⟨body, hcurrent⟩ := receiving_of_chunk hs
      rw [hcurrent] at hok
      exact hok.1
    · rw [PushLabel.bytesFor, if_neg hm] at hne
      exact absurd rfl hne
  | _ => exact absurd rfl hne

/-- The step lemma. -/
theorem PushInvariant.step (h : PushInvariant env d tr) (hs : d.step env e = some (d', o)) :
    PushInvariant env d' (tr ++ [(e, o)]) := by
  obtain ⟨⟨t, ht⟩, hphases, hsourced, hchecked, hanswered⟩ := h
  have heffect := pushEffect_of_step hs
  obtain ⟨hu, hkeeps, hcreated⟩ := heffect.rows ht
  refine ⟨hu, fun n ↦ heffect.phases (hphases n), fun id job' hjob' ↦ ?_, fun n hne ↦ ?_,
    fun n ↦ heffect.answered (hanswered n)⟩
  swap
  · rw [bodyOf_append] at hne
    by_cases hbytes : e.bytesFor n = []
    · rw [hbytes, List.append_nil] at hne
      exact (hchecked n hne).append _
    · exact (authorized_of_bytesFor hs hbytes (hphases n)).append _
  cases hjob : d.service.mail.jobs.jobs id with
  | none =>
    -- The row is new: the envelope of its request is in the phase.
    obtain ⟨n, envelope, delivery, hcurrent, hbytes, hclosed, hdelivery, hpubsub, hhistory⟩ :=
      hcreated id job' hjob hjob'
    have hok := hphases n
    rw [hcurrent, hdelivery] at hok
    obtain ⟨hposts, phase, hsame⟩ := hok
    obtain rfl := Option.some.inj hsame
    exact ⟨n, envelope, hclosed, hposts.append hbytes, hpubsub, hhistory⟩
  | some job =>
    obtain ⟨job₁, hjob₁, hpubsub, hhistory⟩ := hkeeps id job hjob
    obtain rfl := Option.some.inj (hjob₁.symm.trans hjob')
    obtain ⟨n, envelope, hclosed, hposts, hids⟩ := hsourced id job hjob
    have hbytes := bytesFor_of_about (heffect.about_ne_of_closed hclosed)
    exact ⟨n, envelope, heffect.closed hclosed, hposts.append hbytes, hids.1.trans hpubsub.symm,
      hids.2.trans hhistory.symm⟩

/-- The run lemma. -/
theorem pushInvariant_of_run {s : PushService} (hinit : (pushService env).init s)
    (hrun : System.Run (pushService env) System.anyStep s tr d) : PushInvariant env d tr :=
  hrun.history (pushInvariant_of_init hinit) fun _ _ _ _ _ h _ hs ↦ h.step hs

theorem keepsRows_of_run {t : MailTables} (ht : Follows env.mail d.service t)
    (hrun : System.Run (pushService env) System.anyStep d tr d') :
    KeepsRows d.service.mail.jobs d'.service.mail.jobs := by
  refine (hrun.relates (I := fun d ↦ ∃ t, Follows env.mail d.service t)
    (R := fun d d' ↦ KeepsRows d.service.mail.jobs d'.service.mail.jobs) (fun _ ↦ .refl _)
    (fun _ _ _ ↦ KeepsRows.trans) ⟨t, ht⟩ ?_).2
  rintro d e d' o ⟨t, ht⟩ - hs
  obtain ⟨hu, hkeeps, -⟩ := (pushEffect_of_step hs).rows ht
  exact ⟨hu, hkeeps⟩

/-- When a request is accepted, the tables have a job with the Pub/Sub id of its envelope. -/
theorem PushInvariant.accepted (h : PushInvariant env d tr)
    (hs : d.step env e = some (d', .accepted n)) :
    ∃ envelope id job, Posts env n tr envelope ∧ d'.service.mail.jobs.jobs id = some job ∧
      job.pubsubMessageId = envelope.pubsubMessageId := by
  obtain ⟨⟨t, ht⟩, hphases, -, -, -⟩ := h
  have hok := hphases n
  cases pushEffect_of_step hs with
  | @accepted _ id receivedAt envelope delivery service added current delivering hstep =>
    rw [current, delivering] at hok
    obtain ⟨hposts, phase, hsame⟩ := hok
    obtain rfl := Option.some.inj hsame
    obtain ⟨-, u, hu, -⟩ := ht.step hstep
    obtain ⟨delivery', hdelivery', heffect⟩ := enqueueEffect_of_step hstep
    obtain rfl := Option.some.inj (hdelivery'.symm.trans delivering)
    have hindex : ∃ id, service.mail.jobs.pubsubIndex envelope.pubsubMessageId = some id := by
      cases heffect with
      | added free new => exact ⟨_, insertNotificationJob_index_self _ _ _ _ _⟩
      | found known => exact ⟨_, known⟩
    obtain ⟨id, hindex⟩ := hindex
    obtain ⟨job, hjob, hpubsub⟩ := hu.indexed _ _ hindex
    exact ⟨envelope, id, job, hposts, hjob, hpubsub⟩
  | ended about silent active =>
    rcases silent with hsilent | ⟨error, hsilent⟩
    · cases hsilent
    · cases hsilent

end

/-! ## Acknowledgements and jobs -/

/-- What holds in every interleaving of requests and workers. -/
structure PushesAcknowledged (env : PushEnv) : Prop where
  /-- When 204 is answered, the job of the request's envelope is in the tables, and it stays there
  with its ids. -/
  durable : ∀ {s d d' tr e n}, (pushService env).init s →
    System.Run (pushService env) System.anyStep s tr d → d.step env e = some (d', .accepted n) →
    ∃ envelope id job, Posts env n tr envelope ∧ d'.service.mail.jobs.jobs id = some job ∧
      job.pubsubMessageId = envelope.pubsubMessageId ∧
      ∀ {tr' d''}, System.Run (pushService env) System.anyStep d' tr' d'' →
        ∃ job', d''.service.mail.jobs.jobs id = some job' ∧
          job'.pubsubMessageId = job.pubsubMessageId ∧ job'.historyId = job.historyId
  /-- Every job has the ids of the envelope of an authorized request to the mailbox. -/
  authentic : ∀ {s d tr}, (pushService env).init s →
    System.Run (pushService env) System.anyStep s tr d →
    ∀ id job, d.service.mail.jobs.jobs id = some job → ∃ n envelope, Posts env n tr envelope ∧
      envelope.WellFormed env.envelope ∧ envelope.pubsubMessageId = job.pubsubMessageId ∧
      envelope.historyId = job.historyId
  /-- No more of a body is held than an envelope may have. -/
  bounded : ∀ {s d tr}, (pushService env).init s →
    System.Run (pushService env) System.anyStep s tr d →
    ∀ n body, d.requests n = some (.receiving body) →
      body = bodyOf n tr ∧ body.length ≤ env.envelope.maxEnvelopeBytes
  /-- Nothing of a body is taken before the principal has been checked. -/
  checked : ∀ {s d tr}, (pushService env).init s →
    System.Run (pushService env) System.anyStep s tr d →
    ∀ n, bodyOf n tr ≠ [] → Authorized env n tr
  /-- A request is answered once at most. -/
  once : ∀ {s d tr}, (pushService env).init s →
    System.Run (pushService env) System.anyStep s tr d →
    ∀ n, tr.countP (isAnswerTo n) ≤ 1

end Onebox.Notifications
