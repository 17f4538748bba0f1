import Onebox.Transition.System
import Mathlib.Order.Monotone.Basic
import Mathlib.Order.Interval.Set.Defs
import Mathlib.Data.Set.Function

/-!
# The mail cache and its generations

Mail responses are cached in Redis under keys that carry the user's current generation. A mutation
takes effect in Gmail and then advances the generation, so that later reads look under keys that
no earlier read has written.

One user's requests are modelled as a reactive system: any number of read and mutation requests,
each Redis operation and each Gmail call a step of its own, every Redis operation free to fail.
A response is identified with the number of mutations that had taken effect when it was fetched,
which is all a linearizable Gmail can show. Each read records, for the statement only, the newest
mutation whose invalidation had been reported done when the read started.

## The fallback generation

A failed read of the generation key is treated as generation zero. That is a cache miss only while
nothing is stored under generation zero; the entries of the first generation stay in Redis for
their whole lifetime.
-/

namespace Onebox.Cache

open Transition

/-! ## Redis and the keys -/

/-- The answer of one Redis operation, or the `RedisAdapterError` raised in its place. -/
inductive RedisReply (α : Type)
  | reply (value : α)
  | error

/-- The part of a key after the generation, such as `detail:…` or `page:…`. -/
abbrev Namespace := String

/-- `user:{user_id}:mail:g{generation}:{namespace}` for a fixed user. -/
structure CacheKey where
  generation : ℕ
  ns : Namespace
  deriving DecidableEq

/-- A response to a mail read: how many mutations had taken effect when it was fetched. -/
structure MailResponse where
  version : ℕ
  deriving DecidableEq

/-- `get_user_mail_cache_generation`. -/
def getUserMailCacheGeneration : RedisReply (Option ℕ) → ℕ
  | .reply (some generation) => generation
  | .reply none => 0
  | .error => 0

/-- `user_mail_cache_key`. -/
def userMailCacheKey (reply : RedisReply (Option ℕ)) (ns : Namespace) : CacheKey :=
  ⟨getUserMailCacheGeneration reply, ns⟩

/-- `cache_get`: a failed read is a miss. -/
def cacheGet : RedisReply (Option MailResponse) → Option MailResponse
  | .reply data => data
  | .error => none

/-! ## Requests -/

/-- A cached read between two of its steps. `since` is the newest mutation whose invalidation was
reported done before the read started. -/
inductive ReadRequest
  | idle
  | started (ns : Namespace) (since : ℕ)
  | keyed (ns : Namespace) (generation : RedisReply (Option ℕ)) (since : ℕ)
  | fetching (ns : Namespace) (generation : RedisReply (Option ℕ)) (since : ℕ)
  | storing (ns : Namespace) (generation : RedisReply (Option ℕ)) (response : MailResponse)
      (since : ℕ)

/-- A mutation endpoint between two of its steps; after the effect, the number of that effect. -/
inductive MutationRequest
  | idle
  | applying
  | invalidating (effect : ℕ)

/-- Redis, Gmail and the requests of one user. -/
structure World where
  generation : Option ℕ
  entries : CacheKey → Option MailResponse
  version : ℕ
  reads : ℕ → ReadRequest
  mutations : ℕ → MutationRequest
  /-- The newest mutation whose `invalidate_user_mail_cache` has returned `True`. -/
  acknowledged : ℕ

/-- How an `INCR` ends: with an answer, or with an error that may hide its effect. -/
inductive IncrOutcome
  | answered
  | failed (applied : Bool)

/-- The steps of the requests and of Redis' own expiry. -/
inductive Label
  | startRead (read : ℕ) (ns : Namespace)
  | readGeneration (read : ℕ) (fails : Bool)
  | readEntry (read : ℕ) (fails : Bool)
  | fetch (read : ℕ) (fails : Bool)
  | storeEntry (read : ℕ) (stored : Bool)
  | startMutation (mutation : ℕ)
  | mutate (mutation : ℕ) (applied raises : Bool)
  | invalidate (mutation : ℕ) (outcome : IncrOutcome)
  | expire (key : CacheKey)

/-- A response handed to a caller, with the `since` of its request. -/
structure Returned where
  response : MailResponse
  since : ℕ
  deriving DecidableEq

namespace World

variable (w : World)

/-- The active generation. -/
def activeGeneration : ℕ := w.generation.getD 0

/-- The answer Redis gives to a read. -/
def redisReply {α : Type} (value : α) (fails : Bool) : RedisReply α :=
  if fails then .error else .reply value

def setRead (read : ℕ) (request : ReadRequest) : World :=
  { w with reads := Function.update w.reads read request }

def setMutation (mutation : ℕ) (request : MutationRequest) : World :=
  { w with mutations := Function.update w.mutations mutation request }

def setEntry (key : CacheKey) (entry : Option MailResponse) : World :=
  { w with entries := Function.update w.entries key entry }

/-- `INCR` on the generation key. -/
def incr : World := { w with generation := some (w.activeGeneration + 1) }

/-- One step of a request, with the response it returns to its caller if it ends there. -/
def step : Label → Option (World × Option Returned)
  | .startRead read ns =>
    match w.reads read with
    | .idle => some (w.setRead read (.started ns w.acknowledged), none)
    | _ => none
  | .readGeneration read fails =>
    match w.reads read with
    | .started ns since =>
      some (w.setRead read (.keyed ns (redisReply w.generation fails) since), none)
    | _ => none
  | .readEntry read fails =>
    match w.reads read with
    | .keyed ns generation since =>
      match cacheGet (redisReply (w.entries (userMailCacheKey generation ns)) fails) with
      | some response => some (w.setRead read .idle, some ⟨response, since⟩)
      | none => some (w.setRead read (.fetching ns generation since), none)
    | _ => none
  | .fetch read fails =>
    match w.reads read with
    | .fetching ns generation since =>
      if fails then some (w.setRead read .idle, none)
      else some (w.setRead read (.storing ns generation ⟨w.version⟩ since), none)
    | _ => none
  | .storeEntry read stored =>
    match w.reads read with
    | .storing ns generation response since =>
      let w' := if stored then w.setEntry (userMailCacheKey generation ns) (some response) else w
      some (w'.setRead read .idle, some ⟨response, since⟩)
    | _ => none
  | .startMutation mutation =>
    match w.mutations mutation with
    | .idle => some (w.setMutation mutation .applying, none)
    | _ => none
  | .mutate mutation applied raises =>
    match w.mutations mutation with
    | .applying =>
      let w' := if applied then { w with version := w.version + 1 } else w
      -- A failed Gmail call ends the request without an invalidation.
      if raises then some (w'.setMutation mutation .idle, none)
      else if applied then some (w'.setMutation mutation (.invalidating w'.version), none)
      else none
    | _ => none
  | .invalidate mutation outcome =>
    match w.mutations mutation with
    | .invalidating effect =>
      match outcome with
      | .answered =>
        some ({ w.incr with acknowledged := max w.acknowledged effect }.setMutation mutation .idle,
          none)
      | .failed applied => some ((if applied then w.incr else w).setMutation mutation .idle, none)
    | _ => none
  | .expire key => some (w.setEntry key none, none)

end World

/-- Requests of one user against an empty cache. -/
def mailCache : System World Label (Option Returned) where
  init w := w.generation = none ∧ (∀ key, w.entries key = none) ∧ (∀ read, w.reads read = .idle) ∧
    (∀ mutation, w.mutations mutation = .idle) ∧ w.acknowledged = 0
  step := World.step

/-- **No stale mail.** Under the schedules from `s` that `C` describes, a read never returns a
response that was fetched before a mutation whose invalidation had been reported done when the read
started. -/
def NoStaleMail (s : World) (C : World → Label → Prop) : Prop :=
  ∀ tr t a u returned, mailCache.init s → mailCache.Run C s tr t → C t a →
    mailCache.step t a = some (u, some returned) → returned.since ≤ returned.response.version

/-- A read whose generation lookup failed finds nothing under the fallback key. -/
def FallbackMisses (w : World) : Label → Prop
  | .readEntry read fails =>
    ∀ ns since, w.reads read = .keyed ns .error since → fails = false →
      w.entries ⟨0, ns⟩ = none
  | _ => True

/-! ## Floors

While a generation is active, the newest mutation that has advanced it does not change. That
number is the floor of the generation: whoever learns the generation fetches afterwards, so
nothing older is ever stored under it. -/

/-- Floors of the generations up to `active`, the latest of them bounded by `version`. -/
structure Floors (floor : ℕ → ℕ) (active version : ℕ) : Prop where
  zero : floor 0 = 0
  mono : MonotoneOn floor (Set.Iic active)
  le_version : floor active ≤ version

namespace Floors

variable {floor : ℕ → ℕ} {active version : ℕ}

theorem le_of_le (h : Floors floor active version) {generation : ℕ} (hg : generation ≤ active) :
    floor generation ≤ version :=
  (h.mono (Set.mem_Iic.mpr hg) (Set.mem_Iic.mpr le_rfl) hg).trans h.le_version

theorem weaken (h : Floors floor active version) {version' : ℕ} (hv : version ≤ version') :
    Floors floor active version' :=
  ⟨h.zero, h.mono, h.le_version.trans hv⟩

/-- Opening a new generation leaves the floors of the older ones alone. -/
theorem advance (h : Floors floor active version) {effect : ℕ} (he : effect ≤ version) :
    Floors (Function.update floor (active + 1) (max (floor active) effect)) (active + 1)
      version := by
  refine ⟨?_, ?_, ?_⟩
  · rw [Function.update_of_ne (by omega), h.zero]
  · intro a ha b hb hab
    rw [Set.mem_Iic] at ha hb
    by_cases hb' : b = active + 1
    · subst hb'
      by_cases ha' : a = active + 1
      · rw [ha']
      · rw [Function.update_of_ne ha', Function.update_self]
        exact (h.mono (Set.mem_Iic.mpr (by omega)) (Set.mem_Iic.mpr le_rfl) (by omega)).trans
          (le_max_left _ _)
    · rw [Function.update_of_ne (by omega), Function.update_of_ne hb']
      exact h.mono (Set.mem_Iic.mpr (by omega)) (Set.mem_Iic.mpr (by omega)) hab
  · rw [Function.update_self]
    exact max_le h.le_version he

end Floors

/-- What a read in progress may rely on. -/
def ReadRequest.Sound (floor : ℕ → ℕ) (w : World) : ReadRequest → Prop
  | idle => True
  | started _ since => since ≤ w.acknowledged
  | keyed _ generation since =>
    getUserMailCacheGeneration generation ≤ w.activeGeneration ∧ since ≤ w.version ∧
      ∀ value, generation = .reply value →
        since ≤ floor (getUserMailCacheGeneration generation)
  | fetching _ generation since =>
    getUserMailCacheGeneration generation ≤ w.activeGeneration ∧ since ≤ w.version
  | storing _ generation response since =>
    getUserMailCacheGeneration generation ≤ w.activeGeneration ∧
      floor (getUserMailCacheGeneration generation) ≤ response.version ∧
      since ≤ response.version

/-- An effect that is waiting to be invalidated has happened. -/
def MutationRequest.Sound (w : World) : MutationRequest → Prop
  | invalidating effect => effect ≤ w.version
  | _ => True

/-- The invariant of the cache: there are floors under which no entry lies. -/
structure Inv (floor : ℕ → ℕ) (w : World) : Prop where
  floors : Floors floor w.activeGeneration w.version
  acknowledged : w.acknowledged ≤ floor w.activeGeneration
  entries : ∀ key response, w.entries key = some response →
    key.generation ≤ w.activeGeneration ∧ floor key.generation ≤ response.version
  reads : ∀ read, (w.reads read).Sound floor w
  mutations : ∀ mutation, (w.mutations mutation).Sound w

/-- Soundness of a read survives every change that only moves forward. -/
theorem ReadRequest.Sound.forward {floor floor' : ℕ → ℕ} {w : World} {request : ReadRequest}
    (h : request.Sound floor w) (w' : World) (hgen : w.activeGeneration ≤ w'.activeGeneration)
    (hver : w.version ≤ w'.version) (hack : w.acknowledged ≤ w'.acknowledged)
    (hfloor : ∀ g ≤ w.activeGeneration, floor' g = floor g) : request.Sound floor' w' := by
  cases request with
  | idle => trivial
  | started ns since => exact le_trans h hack
  | keyed ns generation since =>
    obtain ⟨hg, hs, hval⟩ := h
    refine ⟨hg.trans hgen, hs.trans hver, fun value hv ↦ ?_⟩
    rw [hfloor _ hg]
    exact hval value hv
  | fetching ns generation since => exact ⟨h.1.trans hgen, h.2.trans hver⟩
  | storing ns generation response since =>
    obtain ⟨hg, hr, hs⟩ := h
    refine ⟨hg.trans hgen, ?_, hs⟩
    rw [hfloor _ hg]
    exact hr

theorem MutationRequest.Sound.forward {w : World} {request : MutationRequest}
    (h : request.Sound w) (w' : World) (hver : w.version ≤ w'.version) : request.Sound w' := by
  cases request with
  | idle => trivial
  | applying => trivial
  | invalidating effect => exact le_trans h hver

namespace Inv

variable {floor : ℕ → ℕ} {w : World}

theorem setRead (h : Inv floor w) {read : ℕ} {request : ReadRequest}
    (hr : request.Sound floor w) : Inv floor (w.setRead read request) := by
  refine ⟨h.floors, h.acknowledged, h.entries, fun i ↦ ?_, fun mutation ↦ ?_⟩
  · by_cases hi : i = read
    · subst hi
      simpa [World.setRead] using hr.forward (w.setRead i request) le_rfl le_rfl le_rfl
        fun _ _ ↦ rfl
    · simpa [World.setRead, hi] using (h.reads i).forward (w.setRead read request) le_rfl
        le_rfl le_rfl fun _ _ ↦ rfl
  · exact (h.mutations mutation).forward (w.setRead read request) le_rfl

theorem setMutation (h : Inv floor w) {mutation : ℕ} {request : MutationRequest}
    (hm : request.Sound w) : Inv floor (w.setMutation mutation request) := by
  refine ⟨h.floors, h.acknowledged, h.entries, fun read ↦ ?_, fun i ↦ ?_⟩
  · exact (h.reads read).forward (w.setMutation mutation request) le_rfl le_rfl le_rfl
      fun _ _ ↦ rfl
  · by_cases hi : i = mutation
    · subst hi
      simpa [World.setMutation] using hm.forward (w.setMutation i request) le_rfl
    · simpa [World.setMutation, hi] using
        (h.mutations i).forward (w.setMutation mutation request) le_rfl

theorem setEntry (h : Inv floor w) {key : CacheKey} {entry : Option MailResponse}
    (he : ∀ response, entry = some response →
      key.generation ≤ w.activeGeneration ∧ floor key.generation ≤ response.version) :
    Inv floor (w.setEntry key entry) := by
  refine ⟨h.floors, h.acknowledged, fun key' response hk ↦ ?_, fun read ↦ ?_, fun mutation ↦ ?_⟩
  · by_cases hkey : key' = key
    · subst hkey
      exact he response (by simpa [World.setEntry] using hk)
    · exact h.entries key' response (by simpa [World.setEntry, hkey] using hk)
  · exact (h.reads read).forward (w.setEntry key entry) le_rfl le_rfl le_rfl fun _ _ ↦ rfl
  · exact (h.mutations mutation).forward (w.setEntry key entry) le_rfl

theorem mutated (h : Inv floor w) : Inv floor { w with version := w.version + 1 } := by
  refine ⟨h.floors.weaken (Nat.le_succ _), h.acknowledged, h.entries, fun read ↦ ?_,
    fun mutation ↦ ?_⟩
  · exact (h.reads read).forward { w with version := w.version + 1 } le_rfl
      (Nat.le_succ _) le_rfl fun _ _ ↦ rfl
  · exact (h.mutations mutation).forward { w with version := w.version + 1 }
      (Nat.le_succ _)

/-- Advancing the generation raises the floor of the new generation, and of no older one, to the
effect that is being invalidated. -/
theorem incr (h : Inv floor w) {effect ack : ℕ} (he : effect ≤ w.version)
    (hlo : w.acknowledged ≤ ack) (hhi : ack ≤ max w.acknowledged effect) :
    Inv (Function.update floor (w.activeGeneration + 1) (max (floor w.activeGeneration) effect))
      { w.incr with acknowledged := ack } := by
  have hold : ∀ g ≤ w.activeGeneration, Function.update floor (w.activeGeneration + 1)
      (max (floor w.activeGeneration) effect) g = floor g := fun g hg ↦
    Function.update_of_ne (by omega) _ _
  refine ⟨h.floors.advance he, ?_, fun key response hk ↦ ?_, fun read ↦ ?_, fun mutation ↦ ?_⟩
  · have hack : ack ≤ max (floor w.activeGeneration) effect := by
      have := h.acknowledged
      omega
    simpa [World.activeGeneration, World.incr] using hack
  · obtain ⟨hg, hv⟩ := h.entries key response hk
    refine ⟨hg.trans (Nat.le_succ _), ?_⟩
    rw [hold _ hg]
    exact hv
  · exact (h.reads read).forward { w.incr with acknowledged := ack } (Nat.le_succ _)
      le_rfl hlo hold
  · exact (h.mutations mutation).forward { w.incr with acknowledged := ack } le_rfl

end Inv

/-! ## Preservation -/

/-- Every step keeps the invariant, with the same floors or with one more. -/
theorem inv_step {floor : ℕ → ℕ} {w w' : World} {a : Label} {o : Option Returned}
    (h : Inv floor w) (hs : w.step a = some (w', o)) : ∃ floor', Inv floor' w' := by
  cases a with
  | startRead read ns =>
    rw [World.step] at hs
    split at hs
    · obtain ⟨rfl, -⟩ := by simpa using hs
      exact ⟨floor, h.setRead (le_refl w.acknowledged)⟩
    · cases hs
  | readGeneration read fails =>
    rw [World.step] at hs
    split at hs
    · rename_i ns since hreq
      obtain ⟨rfl, -⟩ := by simpa using hs
      have hsound : ReadRequest.Sound floor w (.started ns since) := by
        simpa [hreq] using h.reads read
      -- What was acknowledged before the read is under the floor of the generation it learns.
      have hsince : since ≤ floor w.activeGeneration := le_trans hsound h.acknowledged
      refine ⟨floor, h.setRead ⟨?_, hsince.trans h.floors.le_version, fun value hv ↦ ?_⟩⟩
      · cases fails <;> cases hgen : w.generation <;>
          simp [World.redisReply, getUserMailCacheGeneration, World.activeGeneration, hgen]
      · cases fails with
        | true => simp [World.redisReply] at hv
        | false =>
          cases hgen : w.generation <;>
            simpa [World.redisReply, getUserMailCacheGeneration, World.activeGeneration, hgen]
              using hsince
    · cases hs
  | readEntry read fails =>
    rw [World.step] at hs
    split at hs
    · rename_i ns generation since hreq
      have hsound : ReadRequest.Sound floor w (.keyed ns generation since) := by
        simpa [hreq] using h.reads read
      split at hs
      · obtain ⟨rfl, -⟩ := by simpa using hs
        exact ⟨floor, h.setRead trivial⟩
      · obtain ⟨rfl, -⟩ := by simpa using hs
        exact ⟨floor, h.setRead ⟨hsound.1, hsound.2.1⟩⟩
    · cases hs
  | fetch read fails =>
    rw [World.step] at hs
    split at hs
    · rename_i ns generation since hreq
      have hsound : ReadRequest.Sound floor w (.fetching ns generation since) := by
        simpa [hreq] using h.reads read
      split at hs
      · obtain ⟨rfl, -⟩ := by simpa using hs
        exact ⟨floor, h.setRead trivial⟩
      · obtain ⟨rfl, -⟩ := by simpa using hs
        exact ⟨floor, h.setRead ⟨hsound.1, h.floors.le_of_le hsound.1, hsound.2⟩⟩
    · cases hs
  | storeEntry read stored =>
    rw [World.step] at hs
    split at hs
    · rename_i ns generation response since hreq
      have hsound : ReadRequest.Sound floor w (.storing ns generation response since) := by
        simpa [hreq] using h.reads read
      obtain ⟨rfl, -⟩ := by simpa using hs
      cases stored with
      | false => exact ⟨floor, h.setRead trivial⟩
      | true =>
        refine ⟨floor, (h.setEntry fun response' hr ↦ ?_).setRead trivial⟩
        obtain rfl : response = response' := by simpa using hr
        exact ⟨hsound.1, hsound.2.1⟩
    · cases hs
  | startMutation mutation =>
    rw [World.step] at hs
    split at hs
    · obtain ⟨rfl, -⟩ := by simpa using hs
      exact ⟨floor, h.setMutation trivial⟩
    · cases hs
  | mutate mutation applied raises =>
    rw [World.step] at hs
    split at hs
    · cases applied <;> cases raises
      · simp at hs
      · obtain ⟨rfl, -⟩ := by simpa using hs
        exact ⟨floor, h.setMutation trivial⟩
      · obtain ⟨rfl, -⟩ := by simpa using hs
        exact ⟨floor, h.mutated.setMutation (le_refl (w.version + 1))⟩
      · obtain ⟨rfl, -⟩ := by simpa using hs
        exact ⟨floor, h.mutated.setMutation trivial⟩
    · cases hs
  | invalidate mutation outcome =>
    rw [World.step] at hs
    split at hs
    · rename_i effect hreq
      -- A new generation opens, and its floor is the effect that is invalidated.
      have heffect : MutationRequest.Sound w (.invalidating effect) := by
        simpa [hreq] using h.mutations mutation
      cases outcome with
      | answered =>
        obtain ⟨rfl, -⟩ := by simpa using hs
        exact ⟨_, (h.incr heffect (le_max_left _ _) le_rfl).setMutation trivial⟩
      | failed applied =>
        obtain ⟨rfl, -⟩ := by simpa using hs
        cases applied with
        | false => exact ⟨floor, h.setMutation trivial⟩
        | true => exact ⟨_, (h.incr heffect le_rfl (le_max_left _ _)).setMutation trivial⟩
    · cases hs
  | expire key =>
    obtain ⟨rfl, -⟩ := by simpa [World.step] using hs
    exact ⟨floor, h.setEntry fun response hr ↦ absurd hr (by simp)⟩

theorem inv_of_init {w : World} (h : mailCache.init w) : Inv (fun _ ↦ 0) w := by
  obtain ⟨hgen, hentries, hreads, hmutations, hack⟩ := h
  refine ⟨⟨rfl, fun _ _ _ _ _ ↦ le_rfl, Nat.zero_le _⟩, hack.le, fun key response hk ↦ ?_,
    fun read ↦ ?_, fun mutation ↦ ?_⟩
  · rw [hentries] at hk
    cases hk
  · rw [hreads]
    trivial
  · rw [hmutations]
    trivial

theorem exists_inv_of_run {C : World → Label → Prop} {s t : World}
    {tr : List (Label × Option Returned)} (hinit : mailCache.init s)
    (h : mailCache.Run C s tr t) : ∃ floor, Inv floor t :=
  h.invariant (I := fun w ↦ ∃ floor, Inv floor w) ⟨_, inv_of_init hinit⟩
    fun _ _ _ _ ⟨_, hI⟩ _ hs ↦ inv_step hI hs

/-! ## What a read returns -/

/-- A response returned in a state that satisfies the invariant is as new as the read may expect,
unless it was found under the fallback key. -/
theorem since_le_of_step {floor : ℕ → ℕ} {w w' : World} {a : Label} {returned : Returned}
    (h : Inv floor w) (hC : FallbackMisses w a) (hs : w.step a = some (w', some returned)) :
    returned.since ≤ returned.response.version := by
  cases a with
  | readEntry read fails =>
    rw [World.step] at hs
    split at hs
    · rename_i ns generation since hreq
      have hsound : ReadRequest.Sound floor w (.keyed ns generation since) := by
        simpa [hreq] using h.reads read
      split at hs
      · rename_i response hget
        obtain ⟨-, rfl⟩ := by simpa using hs
        cases fails with
        | true => simp [World.redisReply, cacheGet] at hget
        | false =>
          have hentry : w.entries (userMailCacheKey generation ns) = some response := by
            simpa [World.redisReply, cacheGet] using hget
          -- A lookup that failed reads under the key of generation zero, where nothing is found;
          -- under any other key the entry is as new as the generation.
          cases generation with
          | error =>
            have hnone := hC ns since hreq rfl
            rw [userMailCacheKey, getUserMailCacheGeneration, hnone] at hentry
            cases hentry
          | reply value => exact (hsound.2.2 value rfl).trans (h.entries _ _ hentry).2
      · simp at hs
    · cases hs
  | storeEntry read stored =>
    rw [World.step] at hs
    split at hs
    · rename_i ns generation response since hreq
      have hsound : ReadRequest.Sound floor w (.storing ns generation response since) := by
        simpa [hreq] using h.reads read
      obtain ⟨-, rfl⟩ := by simpa using hs
      exact hsound.2.2
    · cases hs
  -- The other steps return no response.
  | startRead read ns => rw [World.step] at hs; split at hs <;> simp at hs
  | readGeneration read fails => rw [World.step] at hs; split at hs <;> simp at hs
  | fetch read fails =>
    rw [World.step] at hs
    split at hs
    · cases fails <;> simp at hs
    · cases hs
  | startMutation mutation => rw [World.step] at hs; split at hs <;> simp at hs
  | mutate mutation applied raises =>
    rw [World.step] at hs
    split at hs
    · cases applied <;> cases raises <;> simp at hs
    · cases hs
  | invalidate mutation outcome =>
    rw [World.step] at hs
    split at hs
    · cases outcome <;> simp at hs
    · cases hs
  | expire key => simp [World.step] at hs

/-- **Stale mail comes from the fallback key only.** When no read whose generation lookup failed
finds an entry of generation zero, no read ever returns a response older than a mutation it was
told about. -/
theorem noStaleMail_of_fallbackMisses (s : World) : NoStaleMail s FallbackMisses := by
  intro tr t a u returned hinit hrun hC hs
  obtain ⟨floor, hinv⟩ := exists_inv_of_run hinit hrun
  exact since_le_of_step hinv hC hs

/-- The empty cache. -/
def emptyWorld : World where
  generation := none
  entries _ := none
  version := 0
  reads _ := .idle
  mutations _ := .idle
  acknowledged := 0

/-- A read fills generation zero, a mutation is invalidated, and the generation lookup of the next
read fails. -/
def staleSchedule : List Label :=
  [ .startRead 0 "detail:m", .readGeneration 0 false, .readEntry 0 false, .fetch 0 false,
    .storeEntry 0 true, .startMutation 0, .mutate 0 true false, .invalidate 0 .answered,
    .startRead 1 "detail:m", .readGeneration 1 true ]

/-- The second read of the schedule returns the response from before the mutation. -/
theorem not_noStaleMail : ¬NoStaleMail emptyWorld System.anyStep := by
  intro h
  obtain ⟨t, os, hreplay, hread⟩ : ∃ t os,
      mailCache.replay emptyWorld staleSchedule = some (t, os) ∧
        ∃ u, mailCache.step t (.readEntry 1 false) = some (u, some ⟨⟨0⟩, 1⟩) :=
    ⟨_, _, rfl, _, rfl⟩
  obtain ⟨u, hstep⟩ := hread
  have hinit : mailCache.init emptyWorld :=
    ⟨rfl, fun _ ↦ rfl, fun _ ↦ rfl, fun _ ↦ rfl, rfl⟩
  exact absurd (h _ _ _ _ _ hinit (System.run_of_replay hreplay) trivial hstep) (by decide)

end Onebox.Cache
