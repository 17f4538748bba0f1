import Mathlib.Data.List.Nodup
import Onebox.Notifications.WatchRenewal

/-!
# One watch lease

The token in the mailbox row is the one that was granted last, and it has not been used. So no other
token takes effect, and none takes effect twice. The cursor of the mailbox is set by a renewal only
when there is none.
-/

namespace Onebox.Notifications

open Python Transition

/-! ## The transactions -/

section

variable {settings : Settings} {s : JobStore} {now : Time} {leaseToken : LeaseToken}
  {state : GmailMailboxState}

theorem WatchColumns.Due.mono {r : WatchColumns} {time : Time} (h : r.Due settings now)
    (hle : now ≤ time) : r.Due settings time := by
  obtain ⟨hlease, hbackoff, hexpiry⟩ := h
  refine ⟨fun at' hat ↦ Nat.le_trans (hlease at' hat) hle,
    fun at' hat ↦ Nat.le_trans (hbackoff at' hat) hle, fun at' hat ↦ ?_⟩
  exact Nat.le_trans (hexpiry at' hat) (Nat.add_le_add_right hle _)

/-- A claim is granted when it is due. -/
theorem claimWatchRenewal_cases (settings : Settings) (now : Time) (h : s.mailbox = some state) :
    claimWatchRenewal settings s now = (s, none) ∨ state.watch.Due settings now ∧
      claimWatchRenewal settings s now = ((s.setMailbox { state with
        watchLeaseToken := some s.nextToken
        watchLeaseExpiresAt := some (now + settings.leaseDuration) }).drawToken,
          some s.nextToken) := by
  have hle : ∀ {o : Option Time} {bound : Time}, ¬o.any (bound < ·) = true →
      ∀ t ∈ o, t ≤ bound := by
    rintro o bound hany t rfl
    simpa using hany
  rw [claimWatchRenewal, h, Option.getD_some]
  split
  · exact Or.inl rfl
  · rename_i hbackoff
    split
    · exact Or.inl rfl
    · rename_i hexpiry
      split
      · exact Or.inl rfl
      · rename_i hlease
        exact Or.inr ⟨⟨hle hlease, hle hbackoff, hle hexpiry⟩, rfl⟩

/-- The token in the row. -/
theorem JobStore.exists_mailbox_of_leaseToken (h : s.watch.leaseToken = some leaseToken) :
    ∃ state, s.mailbox = some state ∧ state.watchLeaseToken = some leaseToken := by
  cases hmailbox : s.mailbox with
  | none =>
    rw [watch, hmailbox] at h
    cases h
  | some state =>
    rw [watch_of_mailbox hmailbox] at h
    exact ⟨state, rfl, h⟩

/-- The token in the row completes the renewal. -/
theorem completeWatchRenewal_of_holds {historyId : ℕ} {expiresAt : Time}
    (h : s.mailbox = some state) (htoken : state.watchLeaseToken = some leaseToken) :
    completeWatchRenewal s leaseToken historyId expiresAt = (s.setMailbox { state with
      watchHistoryId := some historyId
      historyCursor := some (cursorOr state.historyCursor historyId)
      watchExpiresAt := some expiresAt
      watchLeaseToken := none
      watchLeaseExpiresAt := none
      watchRenewalAttemptCount := 0
      watchRenewalNextAttemptAt := none
      watchLastErrorCode := none
      lastErrorCode := none }, true) := by
  rw [completeWatchRenewal, h]
  exact if_pos htoken

theorem failWatchRenewal_of_holds {errorCode : String} (h : s.mailbox = some state)
    (htoken : state.watchLeaseToken = some leaseToken) :
    failWatchRenewal settings s now leaseToken errorCode = s.setMailbox { state with
      watchLastErrorCode := some errorCode
      lastErrorCode := some errorCode
      watchLeaseToken := none
      watchLeaseExpiresAt := none
      watchRenewalAttemptCount := state.watchRenewalAttemptCount + 1
      watchRenewalNextAttemptAt :=
        some (retryAt settings now (state.watchRenewalAttemptCount + 1)) } := by
  rw [failWatchRenewal, h]
  exact if_pos htoken

/-- The token has no effect. -/
structure Ineffective (settings : Settings) (s : JobStore) (leaseToken : LeaseToken) : Prop where
  complete : ∀ historyId expiresAt,
    completeWatchRenewal s leaseToken historyId expiresAt = (s, false)
  fail : ∀ now errorCode, failWatchRenewal settings s now leaseToken errorCode = s

/-- **A token that is not in the row has no effect.** -/
theorem ineffective_of_ne (settings : Settings) (h : s.watch.leaseToken ≠ some leaseToken) :
    Ineffective settings s leaseToken := by
  constructor
  · intro historyId expiresAt
    rw [completeWatchRenewal]
    split
    · rfl
    · rename_i state hmailbox
      rw [JobStore.watch_of_mailbox hmailbox] at h
      exact if_neg h
  · intro now errorCode
    rw [failWatchRenewal]
    split
    · rfl
    · rename_i state hmailbox
      rw [JobStore.watch_of_mailbox hmailbox] at h
      exact if_neg h

end

/-! ## The invariant -/

def WatchReply.grantedToken : WatchReply → Option LeaseToken
  | .granted leaseToken => some leaseToken
  | _ => Option.none

def WatchReply.consumedToken : WatchReply → Option LeaseToken
  | .consumed leaseToken => some leaseToken
  | _ => Option.none

/-- The token in the row is the last that was granted, and it has not been used. -/
structure WatchWorld.Consistent (w : WatchWorld) : Prop where
  drawn : ∀ token ∈ w.granted, token < w.tables.store.nextToken
  distinct : w.granted.Nodup
  consumed : w.consumed ⊆ w.granted
  inserts : ∀ insert ∈ w.inserts, insert.leaseToken < w.tables.store.nextToken
  missing : w.tables.store.mailbox = none → w.granted = []
  owner : ∀ token, w.tables.store.watch.leaseToken = some token →
    w.granted.getLast? = some token ∧ token ∉ w.consumed
  lease : w.tables.store.watch.leaseExpiresAt.isSome = true →
    w.tables.store.watch.leaseToken.isSome = true
  cursor : w.tables.store.historyCursor ≠ some 0

/-- What a call does by the time `time`. -/
structure WatchWorld.Moved (settings : Settings) (time : Time) (w : WatchWorld) (call : WatchCall)
    (w' : WatchWorld) (reply : WatchReply) : Prop where
  consistent : w'.Consistent
  granted : w'.granted = w.granted ++ reply.grantedToken.toList
  consumed : w'.consumed = w.consumed ++ reply.consumedToken.toList
  due : ∀ token, reply = .granted token → w.tables.store.watch.Due settings time
  cursor : w'.tables.store.historyCursor = w.tables.store.historyCursor ∨
    (∃ other, call = .other other) ∨ w.tables.store.historyCursor = none ∧
      ∃ token historyId expiresAt, call = .complete token historyId expiresAt ∧
        w'.tables.store.historyCursor = some historyId

section

variable {settings : Settings} {time : Time} {w w' : WatchWorld} {reply : WatchReply}
  {state : GmailMailboxState}

namespace WatchWorld.Consistent

variable (h : w.Consistent)

include h

/-- A new token goes into the row. -/
theorem grant {token : LeaseToken} {store : JobStore} {inserts : List PendingInsert}
    (hmailbox : store.mailbox = some state) (htoken : state.watchLeaseToken = some token)
    (hcursor : state.historyCursor ≠ some 0) (hnew : token ∉ w.granted)
    (hdrawn : token < store.nextToken) (hle : w.tables.store.nextToken ≤ store.nextToken)
    (hinserts : inserts ⊆ w.inserts) :
    WatchWorld.Consistent { w.setStore store with
      inserts := inserts
      granted := w.granted ++ [token] } where
  drawn := by
    intro token' hmem
    rcases List.mem_append.mp hmem with hold | hlast
    · exact Nat.lt_of_lt_of_le (h.drawn token' hold) hle
    · rw [List.mem_singleton.mp hlast]
      exact hdrawn
  distinct := List.nodup_append.mpr ⟨h.distinct, List.nodup_singleton token, by
    intro token' hmem token'' hmem' heq
    rw [List.mem_singleton.mp hmem'] at heq
    exact hnew (heq ▸ hmem)⟩
  consumed := fun token' hmem ↦ List.mem_append_left _ (h.consumed hmem)
  inserts := fun insert hmem ↦ Nat.lt_of_lt_of_le (h.inserts insert (hinserts hmem)) hle
  missing := by
    intro hnone
    exact absurd (hmailbox.symm.trans hnone) nofun
  owner := by
    intro token' htoken'
    change store.watch.leaseToken = some token' at htoken'
    rw [JobStore.watch_of_mailbox hmailbox] at htoken'
    obtain rfl := Option.some.inj (htoken.symm.trans htoken')
    exact ⟨List.getLast?_concat, fun hconsumed ↦ hnew (h.consumed hconsumed)⟩
  lease := by
    intro _
    change store.watch.leaseToken.isSome = true
    rw [JobStore.watch_of_mailbox hmailbox]
    exact Option.isSome_of_eq_some htoken
  cursor := by
    change store.historyCursor ≠ some 0
    rw [JobStore.historyCursor_of_mailbox hmailbox]
    exact hcursor

/-- The token in the row is used. -/
theorem consume {token : LeaseToken} {store : JobStore}
    (hmailbox : store.mailbox = some state) (htoken : state.watchLeaseToken = none)
    (hexpiry : state.watchLeaseExpiresAt = none) (hcursor : state.historyCursor ≠ some 0)
    (htokens : store.nextToken = w.tables.store.nextToken) (hgranted : token ∈ w.granted) :
    WatchWorld.Consistent { w.setStore store with consumed := w.consumed ++ [token] } where
  drawn := by
    intro token' hmem
    change token' < store.nextToken
    rw [htokens]
    exact h.drawn token' hmem
  distinct := h.distinct
  consumed := by
    intro token' hmem
    rcases List.mem_append.mp hmem with hold | hlast
    · exact h.consumed hold
    · rw [List.mem_singleton.mp hlast]
      exact hgranted
  inserts := by
    intro insert hmem
    change insert.leaseToken < store.nextToken
    rw [htokens]
    exact h.inserts insert hmem
  missing := by
    intro hnone
    exact absurd (hmailbox.symm.trans hnone) nofun
  owner := by
    intro token' htoken'
    change store.watch.leaseToken = some token' at htoken'
    rw [JobStore.watch_of_mailbox hmailbox] at htoken'
    exact absurd (htoken.symm.trans htoken') nofun
  lease := by
    intro hsome
    change store.watch.leaseExpiresAt.isSome = true at hsome
    rw [JobStore.watch_of_mailbox hmailbox] at hsome
    change state.watchLeaseExpiresAt.isSome = true at hsome
    rw [hexpiry] at hsome
    cases hsome
  cursor := by
    change store.historyCursor ≠ some 0
    rw [JobStore.historyCursor_of_mailbox hmailbox]
    exact hcursor

/-- The watch is left as it is. -/
theorem keep {tables : MailTables} (hkeeps : KeepsWatch w.tables.store tables.store)
    (hle : w.tables.store.nextToken ≤ tables.store.nextToken)
    (hpresent : w.tables.store.mailbox.isSome = true → tables.store.mailbox.isSome = true) :
    WatchWorld.Consistent { w with tables := tables } where
  drawn := fun token hmem ↦ Nat.lt_of_lt_of_le (h.drawn token hmem) hle
  distinct := h.distinct
  consumed := h.consumed
  inserts := fun insert hmem ↦ Nat.lt_of_lt_of_le (h.inserts insert hmem) hle
  missing := by
    intro hnone
    refine h.missing ?_
    rw [← Option.not_isSome_iff_eq_none]
    intro hsome
    have hsome' := hpresent hsome
    rw [hnone] at hsome'
    cases hsome'
  owner := by
    intro token htoken
    change tables.store.watch.leaseToken = some token at htoken
    rw [hkeeps.watch] at htoken
    exact h.owner token htoken
  lease := by
    change tables.store.watch.leaseExpiresAt.isSome = true → tables.store.watch.leaseToken.isSome
    rw [hkeeps.watch]
    exact h.lease
  cursor := hkeeps.cursor h.cursor

/-- A claim that finds no row draws its token. -/
theorem draw (expiresAt : Time) :
    WatchWorld.Consistent { w.setStore w.tables.store.drawToken with
      inserts := w.inserts ++ [⟨w.tables.store.nextToken, expiresAt⟩] } where
  drawn := fun token hmem ↦ Nat.lt_succ_of_lt (h.drawn token hmem)
  distinct := h.distinct
  consumed := h.consumed
  inserts := by
    intro insert hmem
    rcases List.mem_append.mp hmem with hold | hlast
    · exact Nat.lt_succ_of_lt (h.inserts insert hold)
    · rw [List.mem_singleton.mp hlast]
      exact Nat.lt_succ_self _
  missing := h.missing
  owner := h.owner
  lease := h.lease
  cursor := h.cursor

/-- A token in the row was granted. -/
theorem mem_granted {token : LeaseToken} (htoken : w.tables.store.watch.leaseToken = some token) :
    token ∈ w.granted := List.mem_of_getLast? (h.owner token htoken).1

theorem historyCursor_ne {state : GmailMailboxState}
    (hmailbox : w.tables.store.mailbox = some state) :
    state.historyCursor ≠ some 0 := by
  rw [← JobStore.historyCursor_of_mailbox hmailbox]
  exact h.cursor

end WatchWorld.Consistent

/-- A call that grants nothing and uses no token. -/
theorem WatchWorld.Moved.of_quiet {call : WatchCall} (h : w'.Consistent)
    (hgranted : w'.granted = w.granted) (hconsumed : w'.consumed = w.consumed)
    (hreply : reply.grantedToken = none ∧ reply.consumedToken = none)
    (hcursor : w'.tables.store.historyCursor = w.tables.store.historyCursor ∨
      ∃ other, call = .other other) : w.Moved settings time call w' reply where
  consistent := h
  granted := by
    rw [hgranted, hreply.1]
    exact (List.append_nil _).symm
  consumed := by
    rw [hconsumed, hreply.2]
    exact (List.append_nil _).symm
  due := by
    rintro token rfl
    cases hreply.1
  cursor := hcursor.imp_right Or.inl

theorem WatchWorld.Consistent.claim (h : w.Consistent) {now : Time} (hnow : now ≤ time)
    (hs : w.stepClaim settings now = some (w', reply)) :
    w.Moved settings time (.claim now) w' reply := by
  rw [stepClaim] at hs
  dsimp only at hs
  split at hs
  · obtain ⟨rfl, rfl⟩ := Prod.mk.inj (Option.some.inj hs)
    exact .of_quiet (h.draw _) rfl rfl ⟨rfl, rfl⟩ (Or.inl rfl)
  · rename_i state hmailbox
    have hstate := h.historyCursor_ne hmailbox
    rcases claimWatchRenewal_cases settings now hmailbox with hnone | ⟨hdue, hgrant⟩
    · rw [hnone] at hs
      obtain ⟨rfl, rfl⟩ := Prod.mk.inj (Option.some.inj hs)
      exact .of_quiet h rfl rfl ⟨rfl, rfl⟩ (Or.inl rfl)
    · rw [hgrant] at hs
      obtain ⟨rfl, rfl⟩ := Prod.mk.inj (Option.some.inj hs)
      refine ⟨?_, rfl, (List.append_nil _).symm, ?_, Or.inl ?_⟩
      · exact h.grant rfl rfl hstate
          (fun hmem ↦ Nat.lt_irrefl _ (h.drawn _ hmem)) (Nat.lt_succ_self _) (Nat.le_succ _)
          (List.Subset.refl _)
      · intro token _
        rw [JobStore.watch_of_mailbox hmailbox]
        exact hdue.mono hnow
      · rw [JobStore.historyCursor_of_mailbox hmailbox]
        rfl

/-- The insert of a claim. Only the first passes. -/
theorem WatchWorld.Consistent.insert (h : w.Consistent) {n : ℕ}
    (hs : w.step settings (.insert n) = some (w', reply)) :
    w.Moved settings time (.insert n) w' reply := by
  rw [step] at hs
  split at hs
  · cases hs
  · rename_i insert hn
    have hinserts : w.inserts.eraseIdx n ⊆ w.inserts := List.eraseIdx_subset
    dsimp only at hs
    split at hs
    · obtain ⟨rfl, rfl⟩ := Prod.mk.inj (Option.some.inj hs)
      refine .of_quiet ?_ rfl rfl ⟨rfl, rfl⟩ (Or.inl rfl)
      exact ⟨h.drawn, h.distinct, h.consumed, fun insert hmem ↦ h.inserts insert (hinserts hmem),
        h.missing, h.owner, h.lease, h.cursor⟩
    · rename_i hmissing
      obtain ⟨rfl, rfl⟩ := Prod.mk.inj (Option.some.inj hs)
      have hnone := h.missing hmissing
      refine ⟨?_, rfl, (List.append_nil _).symm, ?_, Or.inl ?_⟩
      · have hmailbox : (w.tables.store.setMailbox (insertedRow insert)).mailbox =
            some (insertedRow insert) := rfl
        exact h.grant hmailbox rfl (by rintro ⟨⟩)
          (by rw [hnone]; exact List.not_mem_nil)
          (h.inserts insert (List.mem_of_getElem? hn)) (Nat.le_refl _) hinserts
      · intro token _
        rw [JobStore.watch, hmissing, Option.getD_none]
        exact ⟨(by rintro _ ⟨⟩), (by rintro _ ⟨⟩), (by rintro _ ⟨⟩)⟩
      · rw [JobStore.historyCursor, JobStore.historyCursor, hmissing]
        rfl

/-- A completed renewal sets the cursor when there is none. -/
theorem WatchWorld.Consistent.complete (h : w.Consistent) {leaseToken : LeaseToken} {historyId : ℕ}
    {expiresAt : Time}
    (hs : w.step settings (.complete leaseToken historyId expiresAt) = some (w', reply)) :
    w.Moved settings time (.complete leaseToken historyId expiresAt) w' reply := by
  rw [step] at hs
  split at hs
  · rename_i hpos
    by_cases htoken : w.tables.store.watch.leaseToken = some leaseToken
    · obtain ⟨state, hmailbox, hholds⟩ := JobStore.exists_mailbox_of_leaseToken htoken
      rw [completeWatchRenewal_of_holds hmailbox hholds] at hs
      obtain ⟨rfl, rfl⟩ := Prod.mk.inj (Option.some.inj hs)
      have hstate := h.historyCursor_ne hmailbox
      have hcursor : cursorOr state.historyCursor historyId ≠ 0 ∧
          (some (cursorOr state.historyCursor historyId) = state.historyCursor ∨
            state.historyCursor = none ∧ cursorOr state.historyCursor historyId = historyId) := by
        cases hcase : state.historyCursor with
        | none => exact ⟨Nat.ne_of_gt hpos, Or.inr ⟨rfl, rfl⟩⟩
        | some cursor =>
          cases cursor with
          | zero => exact absurd hcase hstate
          | succ cursor => exact ⟨Nat.succ_ne_zero cursor, Or.inl rfl⟩
      refine ⟨?_, (List.append_nil _).symm, rfl, nofun, ?_⟩
      · exact h.consume rfl rfl rfl (fun hzero ↦ hcursor.1 (Option.some.inj hzero)) rfl
          (h.mem_granted htoken)
      · rw [JobStore.historyCursor_of_mailbox hmailbox]
        rcases hcursor.2 with hsame | ⟨hnone, hset⟩
        · exact Or.inl hsame
        · exact Or.inr (Or.inr ⟨hnone, _, _, _, rfl, congrArg some hset⟩)
    · rw [(ineffective_of_ne settings htoken).complete historyId expiresAt] at hs
      obtain ⟨rfl, rfl⟩ := Prod.mk.inj (Option.some.inj hs)
      exact .of_quiet h rfl rfl ⟨rfl, rfl⟩ (Or.inl rfl)
  · cases hs

theorem WatchWorld.Consistent.fail (h : w.Consistent) {now : Time} {leaseToken : LeaseToken}
    {errorCode : String}
    (hs : w.step settings (.fail now leaseToken errorCode) = some (w', reply)) :
    w.Moved settings time (.fail now leaseToken errorCode) w' reply := by
  rw [step] at hs
  split at hs
  · rename_i htoken
    obtain ⟨state, hmailbox, hholds⟩ := JobStore.exists_mailbox_of_leaseToken htoken
    rw [failWatchRenewal_of_holds hmailbox hholds] at hs
    obtain ⟨rfl, rfl⟩ := Prod.mk.inj (Option.some.inj hs)
    have hstate := h.historyCursor_ne hmailbox
    refine ⟨?_, (List.append_nil _).symm, rfl, nofun, Or.inl ?_⟩
    · exact h.consume rfl rfl rfl hstate rfl (h.mem_granted htoken)
    · rw [JobStore.historyCursor_of_mailbox hmailbox]
      rfl
  · rename_i htoken
    rw [(ineffective_of_ne settings htoken).fail now errorCode] at hs
    obtain ⟨rfl, rfl⟩ := Prod.mk.inj (Option.some.inj hs)
    exact .of_quiet h rfl rfl ⟨rfl, rfl⟩ (Or.inl rfl)

/-- **One call.** -/
theorem WatchWorld.Consistent.moved (h : w.Consistent) {call : WatchCall}
    (hreading : ∀ now, call.reading = some now → now ≤ time)
    (hs : w.step settings call = some (w', reply)) : w.Moved settings time call w' reply := by
  cases call with
  | claim now => exact h.claim (hreading now rfl) hs
  | insert n => exact h.insert hs
  | complete leaseToken historyId expiresAt => exact h.complete hs
  | fail now leaseToken errorCode => exact h.fail hs
  | other call =>
    rw [step] at hs
    split at hs
    · rename_i hother
      obtain ⟨⟨tables, tableReply⟩, hstep, heq⟩ := Option.map_eq_some_iff.mp hs
      obtain ⟨rfl, rfl⟩ := Prod.mk.inj heq
      have hmove := MailTables.storeMove_of_step hstep
      have hle : w.tables.store.nextToken ≤ tables.store.nextToken := by
        rcases hmove.tokens with ⟨-, hle⟩ | hsucc
        · exact hle
        · rw [hsucc]
          exact Nat.le_succ _
      exact .of_quiet (h.keep (keepsWatch_of_step hother hstep) hle hmove.present) rfl rfl
        ⟨rfl, rfl⟩ (Or.inr ⟨call, rfl⟩)
    · cases hs

end

/-! ## Every run -/

/-- Watch renewal under a clock. -/
def clockedRenewal (settings : Settings) :
    System (Clocked WatchWorld Time) (Time × WatchCall) WatchReply :=
  (watchRenewal settings).clocked WatchCall.reading

section

variable {settings : Settings} {c c' : Clocked WatchWorld Time}
  {tr : List ((Time × WatchCall) × WatchReply)}

/-- The tokens that were granted, in order. -/
def grantedTokens (tr : List ((Time × WatchCall) × WatchReply)) : List LeaseToken :=
  tr.filterMap fun e ↦ e.2.grantedToken

/-- The tokens that took effect, in order. -/
def consumedTokens (tr : List ((Time × WatchCall) × WatchReply)) : List LeaseToken :=
  tr.filterMap fun e ↦ e.2.consumedToken

theorem consistent_of_watchInit (hinit : (watchRenewal settings).init c.state) :
    c.state.Consistent := by
  obtain ⟨⟨hmailbox, -, -, -⟩, hinserts, hgranted, hconsumed⟩ := hinit
  have hwatch : c.state.tables.store.watch = {} := by
    rw [JobStore.watch, hmailbox]
    rfl
  constructor
  · rw [hgranted]
    exact fun _ hmem ↦ absurd hmem List.not_mem_nil
  · rw [hgranted]
    exact List.nodup_nil
  · rw [hconsumed]
    exact List.nil_subset _
  · rw [hinserts]
    exact fun _ hmem ↦ absurd hmem List.not_mem_nil
  · exact fun _ ↦ hgranted
  · intro token htoken
    rw [hwatch] at htoken
    cases htoken
  · rw [hwatch]
    exact id
  · rw [JobStore.historyCursor, hmailbox]
    rintro ⟨⟩

theorem moved_of_clockedStep (h : c.state.Consistent) {time : Time} {call : WatchCall}
    {reply : WatchReply}
    (hs : (clockedRenewal settings).step c (time, call) = some (c', reply)) :
    c.state.Moved settings time call c'.state reply := by
  obtain ⟨-, -, hreading, hstep⟩ := System.step_of_clocked hs
  exact h.moved hreading hstep

theorem logs_of_run (hinit : (watchRenewal settings).init c.state)
    (hrun : System.Run (clockedRenewal settings) System.anyStep c tr c') :
    c'.state.Consistent ∧ c'.state.granted = grantedTokens tr ∧
      c'.state.consumed = consumedTokens tr := by
  have hstep : ∀ c a c' reply, (clockedRenewal settings).step c a = some (c', reply) →
      c.state.Consistent → c.state.Moved settings a.1 a.2 c'.state reply :=
    fun _ _ _ _ hs h ↦ moved_of_clockedStep h hs
  have hconsistent := consistent_of_watchInit hinit
  refine ⟨?_, ?_, ?_⟩
  · exact hrun.invariant hconsistent fun c a c' reply h _ hs ↦ (hstep c a c' reply hs h).consistent
  · have hlog := hrun.log_eq (fun c ↦ c.state.granted) (fun e ↦ e.2.grantedToken) hconsistent
      fun c a c' reply h _ hs ↦
        have hmoved := hstep c a c' reply hs h
        ⟨hmoved.consistent, hmoved.granted⟩
    rw [hlog, hinit.2.2.1, List.nil_append, grantedTokens]
  · have hlog := hrun.log_eq (fun c ↦ c.state.consumed) (fun e ↦ e.2.consumedToken) hconsistent
      fun c a c' reply h _ hs ↦
        have hmoved := hstep c a c' reply hs h
        ⟨hmoved.consistent, hmoved.consumed⟩
    rw [hlog, hinit.2.2.2, List.nil_append, consumedTokens]

/-- What holds of watch renewal after a run. -/
structure SinglyLeased (settings : Settings) (tr : List ((Time × WatchCall) × WatchReply))
    (c : Clocked WatchWorld Time) : Prop where
  /-- At most one token can take effect. -/
  one : ∀ token token', ¬Ineffective settings c.state.tables.store token →
    ¬Ineffective settings c.state.tables.store token' → token = token'
  /-- A token that was used, or is not the last that was granted, has no effect. -/
  spent : ∀ token, token ∈ consumedTokens tr ∨ (grantedTokens tr).getLast? ≠ some token →
    Ineffective settings c.state.tables.store token
  /-- A lease that expires has a token. -/
  lease : ∀ state, c.state.tables.store.mailbox = some state →
    state.watchLeaseExpiresAt.isSome = true → state.watchLeaseToken.isSome = true
  /-- A token is granted only when a claim is due. -/
  due : ∀ time call c' token,
    (clockedRenewal settings).step c (time, call) = some (c', .granted token) →
      c.state.tables.store.watch.Due settings time
  /-- Renewal changes the cursor only from null to the renewed history id. -/
  cursor : ∀ time call c' reply, (clockedRenewal settings).step c (time, call) = some (c', reply) →
    c'.state.tables.store.historyCursor = c.state.tables.store.historyCursor ∨
      (∃ other, call = .other other) ∨ c.state.tables.store.historyCursor = none ∧
        ∃ token historyId expiresAt, call = .complete token historyId expiresAt ∧
          c'.state.tables.store.historyCursor = some historyId

/-- **Watch renewal is singly leased and never moves an existing cursor.** -/
theorem singlyLeased_of_run (hinit : (watchRenewal settings).init c.state)
    (hrun : System.Run (clockedRenewal settings) System.anyStep c tr c') :
    SinglyLeased settings tr c' := by
  obtain ⟨hconsistent, hgranted, hconsumed⟩ := logs_of_run hinit hrun
  -- A token that takes effect is the one in the row.
  have hholds : ∀ token, ¬Ineffective settings c'.state.tables.store token →
      c'.state.tables.store.watch.leaseToken = some token := by
    intro token heffect
    by_contra hne
    exact heffect (ineffective_of_ne settings hne)
  constructor
  · intro token token' heffect heffect'
    exact Option.some.inj ((hholds token heffect).symm.trans (hholds token' heffect'))
  · intro token hspent
    refine ineffective_of_ne settings fun htoken ↦ ?_
    obtain ⟨hlast, hunused⟩ := hconsistent.owner token htoken
    rw [hgranted] at hlast
    rw [hconsumed] at hunused
    exact hspent.elim hunused (· hlast)
  · intro state hmailbox hexpiry
    have hlease := hconsistent.lease
    rw [JobStore.watch_of_mailbox hmailbox] at hlease
    exact hlease hexpiry
  · intro time call c'' token hs
    exact (moved_of_clockedStep hconsistent hs).due token rfl
  · intro time call c'' reply hs
    exact (moved_of_clockedStep hconsistent hs).cursor

end

/-! ### Two processes that find no row -/

def emptyWatchWorld : WatchWorld where
  tables :=
    { store :=
        { jobs := fun _ ↦ none, pubsubIndex := fun _ ↦ none, mailbox := none, nextToken := 0 }
      jobClaims := []
      resyncClaims := [] }
  inserts := []
  granted := []
  consumed := []

/-- Both draw a token, and one of the inserts passes. The renewal is completed, and then reported as
failed as well. -/
def racingCalls : List (Time × WatchCall) :=
  [(0, .claim 0), (1, .claim 0), (2, .insert 1), (3, .insert 0), (4, .complete 1 7 100),
    (5, .fail 5 1 "watch_internal")]

theorem singlyLeased_of_run_racing : ∃ tr c,
    System.Run (clockedRenewal .default) System.anyStep ⟨emptyWatchWorld, 0⟩ tr c ∧
      grantedTokens tr = [1] ∧ consumedTokens tr = [1] ∧
      c.state.tables.store.historyCursor = some 7 ∧ SinglyLeased .default tr c := by
  have hreplay : ∃ c, (clockedRenewal .default).replay ⟨emptyWatchWorld, 0⟩ racingCalls =
      some (c, [.none, .none, .granted 1, .conflict, .consumed 1, .none]) ∧
        c.state.tables.store.historyCursor = some 7 := ⟨_, rfl, rfl⟩
  obtain ⟨c, hreplay, hcursor⟩ := hreplay
  have hrun := System.run_of_replay hreplay
  exact ⟨_, c, hrun, rfl, rfl, hcursor,
    singlyLeased_of_run ⟨⟨rfl, fun _ ↦ rfl, rfl, rfl⟩, rfl, rfl, rfl⟩ hrun⟩

end Onebox.Notifications
