import Onebox.Notifications.Tables
import Onebox.Transition.Clocked

/-!
# Watch renewal

Any number of processes claim, complete and fail the renewal of the Gmail watch, among all the other
transactions on the tables. A claim that finds no mailbox row inserts one, and the unique constraint
lets one insert pass.

The clock only moves forward. A process may have read it before it waited for the row, so what it
has read may be old.
-/

namespace Onebox.Notifications

open Python Transition

/-! ## The watch columns -/

/-- The columns of the mailbox row that belong to its watch. -/
structure WatchColumns where
  historyId : Option ℕ := none
  expiresAt : Option Time := none
  leaseToken : Option LeaseToken := none
  leaseExpiresAt : Option Time := none
  attemptCount : ℕ := 0
  nextAttemptAt : Option Time := none
  lastErrorCode : Option String := none

def GmailMailboxState.watch (state : GmailMailboxState) : WatchColumns where
  historyId := state.watchHistoryId
  expiresAt := state.watchExpiresAt
  leaseToken := state.watchLeaseToken
  leaseExpiresAt := state.watchLeaseExpiresAt
  attemptCount := state.watchRenewalAttemptCount
  nextAttemptAt := state.watchRenewalNextAttemptAt
  lastErrorCode := state.watchLastErrorCode

/-- The watch columns; of a missing row, those it is created with. -/
def JobStore.watch (s : JobStore) : WatchColumns := (s.mailbox.getD {}).watch

/-- A claim is due: no lease is held, the backoff has passed, and the watch runs out soon. -/
def WatchColumns.Due (settings : Settings) (r : WatchColumns) (time : Time) : Prop :=
  (∀ expiresAt ∈ r.leaseExpiresAt, expiresAt ≤ time) ∧
    (∀ nextAttemptAt ∈ r.nextAttemptAt, nextAttemptAt ≤ time) ∧
    ∀ expiresAt ∈ r.expiresAt, expiresAt ≤ time + seconds settings.watchRenewalSeconds

/-! ## The system -/

/-- A claim that has found no mailbox row, before its commit. -/
structure PendingInsert where
  leaseToken : LeaseToken
  leaseExpiresAt : Time

/-- The tables and the claims that are about to insert the mailbox row, with the tokens that were
granted and those that took effect, in order. -/
structure WatchWorld where
  tables : MailTables
  inserts : List PendingInsert
  granted : List LeaseToken
  consumed : List LeaseToken

inductive WatchCall
  | claim (now : Time)
  /-- The commit of a claim that found no row. -/
  | insert (n : ℕ)
  | complete (leaseToken : LeaseToken) (historyId : ℕ) (expiresAt : Time)
  | fail (now : Time) (leaseToken : LeaseToken) (errorCode : String)
  /-- Any other transaction. -/
  | other (call : TableCall)

inductive WatchReply
  | none
  /-- `claim_watch_renewal` returned a token. -/
  | granted (leaseToken : LeaseToken)
  /-- The insert violates the unique constraint. -/
  | conflict
  /-- The token took effect. -/
  | consumed (leaseToken : LeaseToken)

/-- The transaction is none of watch renewal, and a cursor that it brings is positive, as every
history id that `_history_id` accepts. -/
def TableCall.isOther : TableCall → Bool
  | .claimWatch _ | .completeWatch _ _ _ | .failWatch _ _ _ => false
  | .completeJob _ _ historyCursor | .completeResync _ historyCursor => 0 < historyCursor
  | _ => true

namespace WatchWorld

def setStore (w : WatchWorld) (store : JobStore) : WatchWorld :=
  { w with tables := w.tables.setStore store }

/-- The row that a claim inserts. -/
def insertedRow (insert : PendingInsert) : GmailMailboxState where
  watchLeaseToken := some insert.leaseToken
  watchLeaseExpiresAt := some insert.leaseExpiresAt

def stepClaim (settings : Settings) (w : WatchWorld) (now : Time) :
    Option (WatchWorld × WatchReply) :=
  let store := w.tables.store
  match store.mailbox with
  | none => some ({ w.setStore store.drawToken with
      inserts := w.inserts ++ [⟨store.nextToken, now + settings.leaseDuration⟩] }, .none)
  | some _ =>
    match claimWatchRenewal settings store now with
    | (_, none) => some (w, .none)
    | (store, some leaseToken) =>
      some ({ w.setStore store with granted := w.granted ++ [leaseToken] }, .granted leaseToken)

def step (settings : Settings) (w : WatchWorld) : WatchCall → Option (WatchWorld × WatchReply)
  | .claim now => stepClaim settings w now
  | .insert n =>
    match w.inserts[n]? with
    | none => none
    | some insert =>
      let w := { w with inserts := w.inserts.eraseIdx n }
      match w.tables.store.mailbox with
      | some _ => some (w, .conflict)
      | none => some ({ w.setStore (w.tables.store.setMailbox (insertedRow insert)) with
          granted := w.granted ++ [insert.leaseToken] }, .granted insert.leaseToken)
  | .complete leaseToken historyId expiresAt =>
    -- The renewal answers with a usable history id, or fails.
    if 0 < historyId then
      match completeWatchRenewal w.tables.store leaseToken historyId expiresAt with
      | (_, false) => some (w, .none)
      | (store, true) => some ({ w.setStore store with
          consumed := w.consumed ++ [leaseToken] }, .consumed leaseToken)
    else none
  | .fail now leaseToken errorCode =>
    if w.tables.store.watch.leaseToken = some leaseToken then
      some ({ w.setStore (failWatchRenewal settings w.tables.store now leaseToken errorCode) with
        consumed := w.consumed ++ [leaseToken] }, .consumed leaseToken)
    else
      some (w.setStore (failWatchRenewal settings w.tables.store now leaseToken errorCode), .none)
  | .other call =>
    if call.isOther then
      (w.tables.step settings call).map fun (tables, _) ↦ ({ w with tables := tables }, .none)
    else none

end WatchWorld

/-- What a call has read of the clock. -/
def WatchCall.reading : WatchCall → Option Time
  | .claim now | .fail now _ _ => some now
  | .insert _ | .complete _ _ _ | .other _ => none

/-- Watch renewal, from empty tables on. -/
def watchRenewal (settings : Settings) : System WatchWorld WatchCall WatchReply where
  init w := (mailTables settings).init w.tables ∧ w.inserts = [] ∧ w.granted = [] ∧ w.consumed = []
  step := WatchWorld.step settings

/-! ## The other transactions -/

/-- The watch columns stay, and the cursor does not become zero. -/
structure KeepsWatch (s s' : JobStore) : Prop where
  watch : s'.watch = s.watch
  cursor : s.historyCursor ≠ some 0 → s'.historyCursor ≠ some 0

section

variable {settings : Settings} {s s' : JobStore} {clock : ℕ → Time} {now : Time}
  {state state' : GmailMailboxState}

theorem JobStore.watch_of_mailbox (h : s.mailbox = some state) : s.watch = state.watch := by
  rw [watch, h, Option.getD_some]

namespace KeepsWatch

theorem of_mailbox_eq (h : s'.mailbox = s.mailbox) : KeepsWatch s s' where
  watch := by rw [JobStore.watch, JobStore.watch, h]
  cursor := by
    rw [JobStore.historyCursor, JobStore.historyCursor, h]
    exact id

theorem refl (s : JobStore) : KeepsWatch s s := of_mailbox_eq rfl

/-- The mailbox row is written. -/
theorem of_mailbox (h : s.mailbox = some state) (h' : s'.mailbox = some state')
    (hwatch : state'.watch = state.watch)
    (hcursor : state'.historyCursor = state.historyCursor ∨
      ∃ cursor, 0 < cursor ∧ state'.historyCursor = some cursor) : KeepsWatch s s' where
  watch := by rw [JobStore.watch_of_mailbox h, JobStore.watch_of_mailbox h', hwatch]
  cursor := by
    rw [JobStore.historyCursor_of_mailbox h, JobStore.historyCursor_of_mailbox h']
    intro hpositive
    rcases hcursor with hsame | ⟨cursor, hpos, hcursor⟩
    · rw [hsame]
      exact hpositive
    · rw [hcursor]
      intro hzero
      rw [Option.some.inj hzero] at hpos
      exact Nat.lt_irrefl 0 hpos

end KeepsWatch

theorem keepsWatch_claimNotificationJob {id : JobId} {claim : Option ClaimedNotificationJob}
    (h : claimNotificationJob settings s id clock = some (s', claim)) : KeepsWatch s s' := by
  rw [claimNotificationJob] at h
  dsimp only at h
  split at h
  · rename_i job state hjob hmailbox
    split at h
    · split at h
      · split at h
        · obtain ⟨rfl, -⟩ := by simpa using h
          exact .of_mailbox hmailbox rfl rfl (Or.inl rfl)
        · obtain ⟨rfl, -⟩ := by simpa using h
          exact .of_mailbox_eq rfl
      · split at h
        · obtain ⟨rfl, -⟩ := by simpa using h
          exact .of_mailbox_eq rfl
        · split at h
          · obtain ⟨rfl, -⟩ := by simpa using h
            exact .of_mailbox hmailbox rfl rfl (Or.inl rfl)
          · obtain ⟨rfl, -⟩ := by simpa using h
            exact .of_mailbox_eq rfl
    · cases h
  · cases h

theorem keepsWatch_completeJobAndAdvanceCursor (claim : ClaimedNotificationJob)
    {historyCursor : ℕ} (hpos : 0 < historyCursor) :
    KeepsWatch s (completeJobAndAdvanceCursor settings s clock claim historyCursor).1 := by
  rw [completeJobAndAdvanceCursor]
  split
  · exact .refl s
  · split
    · exact .of_mailbox_eq rfl
    · rename_i state hmailbox
      split
      · exact .of_mailbox_eq rfl
      · exact .of_mailbox hmailbox rfl rfl
          (Or.inr ⟨_, Nat.lt_of_lt_of_le hpos (Nat.le_max_right _ _), rfl⟩)

theorem watch_startResyncLocked (state : GmailMailboxState) (errorCode : String) (now : Time) :
    (startResyncLocked state errorCode now).watch = state.watch ∧
      (startResyncLocked state errorCode now).historyCursor = state.historyCursor := by
  rw [startResyncLocked]
  split <;> split <;> exact ⟨rfl, rfl⟩

theorem keepsWatch_failJob (claim : ClaimedNotificationJob) (args : FailArgs) :
    KeepsWatch s (failJob settings s clock claim args) := by
  rw [failJob]
  dsimp only
  split
  · exact .refl s
  · split
    · exact .of_mailbox_eq rfl
    · rename_i state hmailbox
      obtain ⟨hwatch, hcursor⟩ := watch_startResyncLocked state args.errorCode (clock 0)
      split
      · exact .of_mailbox_eq rfl
      · split
        · split
          · exact .of_mailbox hmailbox rfl hwatch (Or.inl hcursor)
          · exact .of_mailbox hmailbox rfl hwatch (Or.inl hcursor)
        · exact .of_mailbox_eq rfl

theorem keepsWatch_claimMailboxResync :
    KeepsWatch s (claimMailboxResync settings s clock).1 := by
  rw [claimMailboxResync]
  split
  · exact .refl s
  · rename_i state hmailbox
    split
    · exact .refl s
    · exact .refl s
    · split
      · exact .of_mailbox hmailbox rfl rfl (Or.inl rfl)
      · exact .refl s
    · split
      · exact .refl s
      · exact .of_mailbox hmailbox rfl rfl (Or.inl rfl)

theorem keepsWatch_requireManualResync (resync : ClaimedMailboxResync) (errorCode : String) :
    KeepsWatch s (requireManualResync s resync errorCode).1 := by
  rw [requireManualResync]
  split
  · exact .refl s
  · rename_i state hlocked
    exact .of_mailbox (JobStore.lockedResyncState_eq_some hlocked).1 rfl rfl (Or.inl rfl)

theorem keepsWatch_persistPage (resync : ClaimedMailboxResync) (nextPageToken : PageToken)
    (processedCount : ℕ) :
    KeepsWatch s (persistPage settings s clock resync nextPageToken processedCount).1 := by
  rw [persistPage]
  split
  · exact keepsWatch_requireManualResync resync _
  · rw [checkpointBoundedResync]
    split
    · exact .refl s
    · rename_i state hlocked
      exact .of_mailbox (JobStore.lockedResyncState_eq_some hlocked).1 rfl rfl (Or.inl rfl)

theorem keepsWatch_completeBoundedResync (resync : ClaimedMailboxResync) {historyCursor : ℕ}
    (hpos : 0 < historyCursor) :
    KeepsWatch s (completeBoundedResync s resync historyCursor).1 := by
  rw [completeBoundedResync]
  split
  · exact .refl s
  · rename_i state hlocked
    exact .of_mailbox (JobStore.lockedResyncState_eq_some hlocked).1 rfl rfl
      (Or.inr ⟨historyCursor, hpos, rfl⟩)

theorem keepsWatch_releaseMailboxResync (resync : ClaimedMailboxResync) (errorCode : String) :
    KeepsWatch s (releaseMailboxResync settings s clock resync errorCode).1 := by
  rw [releaseMailboxResync]
  split
  · exact .refl s
  · rename_i state hlocked
    exact .of_mailbox (JobStore.lockedResyncState_eq_some hlocked).1 rfl rfl (Or.inl rfl)

theorem keepsWatch_recordWorkerHeartbeat : KeepsWatch s (recordWorkerHeartbeat s now) := by
  rw [recordWorkerHeartbeat]
  split
  · exact .refl s
  · rename_i state hmailbox
    exact .of_mailbox hmailbox rfl rfl (Or.inl rfl)

/-- **Nothing else touches the watch.** -/
theorem keepsWatch_of_step {t u : MailTables} {call : TableCall} {o : TableReply}
    (hother : call.isOther = true) (hs : t.step settings call = some (u, o)) :
    KeepsWatch t.store u.store := by
  cases call with
  | insertJob id pubsubMessageId historyId receivedAt =>
    obtain ⟨-, rfl, -⟩ := MailTables.eq_of_guarded hs
    exact .of_mailbox_eq rfl
  | claimJob id clock =>
    simp only [MailTables.step] at hs
    split at hs
    · cases hs
    · rename_i store claim hclaim
      obtain ⟨rfl, -⟩ := Prod.mk.inj (Option.some.inj hs)
      exact keepsWatch_claimNotificationJob hclaim
  | readMailbox claim =>
    obtain ⟨-, rfl, -⟩ := MailTables.eq_of_guarded hs
    exact .refl _
  | completeJob claim clock historyCursor =>
    obtain ⟨-, rfl, -⟩ := MailTables.eq_of_guarded hs
    exact keepsWatch_completeJobAndAdvanceCursor claim (of_decide_eq_true hother)
  | failJob claim clock args =>
    obtain ⟨-, rfl, -⟩ := MailTables.eq_of_guarded hs
    exact keepsWatch_failJob claim args
  | requeueJob claim clock errorCode nextAttemptAt =>
    obtain ⟨-, rfl, -⟩ := MailTables.eq_of_guarded hs
    refine .of_mailbox_eq ?_
    rw [requeueJob]
    split <;> rfl
  | deadLetterJob claim clock errorCode =>
    obtain ⟨-, rfl, -⟩ := MailTables.eq_of_guarded hs
    refine .of_mailbox_eq ?_
    rw [deadLetterJob]
    split <;> rfl
  | claimResync clock =>
    obtain ⟨rfl, -⟩ := Prod.mk.inj (Option.some.inj hs)
    exact keepsWatch_claimMailboxResync
  | persistPage resync clock nextPageToken processedCount =>
    obtain ⟨-, rfl, -⟩ := MailTables.eq_of_guarded hs
    exact keepsWatch_persistPage resync nextPageToken processedCount
  | completeResync resync historyCursor =>
    obtain ⟨-, rfl, -⟩ := MailTables.eq_of_guarded hs
    exact keepsWatch_completeBoundedResync resync (of_decide_eq_true hother)
  | releaseResync resync clock errorCode =>
    obtain ⟨-, rfl, -⟩ := MailTables.eq_of_guarded hs
    exact keepsWatch_releaseMailboxResync resync errorCode
  | requireManual resync errorCode =>
    obtain ⟨-, rfl, -⟩ := MailTables.eq_of_guarded hs
    exact keepsWatch_requireManualResync resync errorCode
  | claimWatch | completeWatch | failWatch => cases hother
  | heartbeat now =>
    obtain ⟨rfl, -⟩ := Prod.mk.inj (Option.some.inj hs)
    exact keepsWatch_recordWorkerHeartbeat

end

end Onebox.Notifications
