import Mathlib.Data.List.Perm.Basic
import Onebox.Providers.StreamBridge

/-!
# The bridge never truncates silently

What `__anext__` has returned, followed by the chunks that are queued, is a beginning of what the
provider has yielded; while nothing has been given up and the bridge is open it is all of it except
for the chunk in the worker's hand. Only a worker that has come to the end of the provider puts an
end into the queue of an open bridge, and only a closed bridge answers without its queue. So the
consumer is told the end after the whole sequence, or is told an error.
-/

namespace Onebox.Providers

open Transition Streams

variable {κ : Type} {b b' : Bridge κ} {queueSize : ℕ}

@[simp] theorem chunks_append (xs ys : List (Item κ)) :
    chunks (xs ++ ys) = chunks xs ++ chunks ys :=
  List.filterMap_append

theorem chunks_cons (item : Item κ) (xs : List (Item κ)) :
    chunks (item :: xs) = chunks [item] ++ chunks xs :=
  chunks_append [item] xs

/-- At most one chunk: its order among the other items does not matter. -/
theorem chunks_cons_eraseIdx {xs : List (Item κ)} (h : (chunks xs).length ≤ 1) {i : ℕ}
    {item : Item κ} (hi : xs[i]? = some item) : chunks (item :: xs.eraseIdx i) = chunks xs := by
  obtain ⟨hlt, rfl⟩ := List.getElem?_eq_some_iff.mp hi
  have hperm := (List.getElem_cons_eraseIdx_perm hlt).filterMap Item.chunk?
  match hxs : chunks xs, h with
  | [], _ => exact List.perm_nil.mp (hxs ▸ hperm)
  | [c], _ => exact List.perm_singleton.mp (hxs ▸ hperm)

theorem prefix_chunks_eraseIdx {xs : List (Item κ)} (h : (chunks xs).length ≤ 1) (i : ℕ) :
    chunks (xs.eraseIdx i) <+: chunks xs := by
  have hsub : (chunks (xs.eraseIdx i)).Sublist (chunks xs) :=
    (List.eraseIdx_sublist xs i).filterMap Item.chunk?
  match hxs : chunks xs, h with
  | [], _ => exact (List.sublist_nil.mp (hxs ▸ hsub)) ▸ List.prefix_rfl
  | [c], _ =>
    rcases List.sublist_singleton.mp (hxs ▸ hsub) with hnil | hone
    · exact hnil ▸ List.nil_prefix
    · exact hone ▸ List.prefix_rfl

/-! ## The producer's side -/

namespace Bridge

/-- What the consumer has, or finds in the queue. -/
def delivered (b : Bridge κ) : List κ := items b.answers ++ chunks b.queue

/-- All of what the provider has yielded is delivered, but for what is in the worker's hand. -/
def Tracks (b : Bridge κ) (hand : List κ) : Prop :=
  b.abandoned = [] ∧ b.delivered ++ hand = b.produced

/-- The provider has come to its end and all of it is delivered. -/
def Whole (b : Bridge κ) : Prop := b.exhausted = true ∧ b.delivered = b.produced

end Bridge

/-- What holds of the bridge in each phase of the worker. Once a put waits it is made whether the
bridge is closed or not. -/
def WorkerPhase.Fits (b : Bridge κ) : WorkerPhase κ → Prop
  | .unstarted | .opening _ | .iterating => b.exhausted = false ∧ (b.stop = false → b.Tracks [])
  | .holding c | .enqueueing (.chunk c) =>
    b.exhausted = false ∧ (b.stop = false → b.Tracks [c])
  | .putting (.chunk c) => b.exhausted = false ∧ b.Tracks [c]
  | .enqueueing .ending => b.exhausted = true ∧ (b.stop = false → b.Tracks [])
  | .putting .ending => b.exhausted = true ∧ b.Tracks []
  | .enqueueing (.error _) | .putting (.error _) | .failing _ | .ended _ => True

/-- The invariant of what is on its way to the consumer. -/
structure Bridge.Supply (b : Bridge κ) : Prop where
  stopped : b.stop = b.closed
  behind : b.delivered ++ chunks b.abandoned <+: b.produced
  single : (chunks b.abandoned).length ≤ 1
  fits : b.worker.Fits b
  abandonedEnd : Item.ending ∈ b.abandoned → b.Whole
  queuedEnd : b.closed = false → ∀ before after, b.queue = before ++ .ending :: after →
    b.exhausted = true ∧ items b.answers ++ chunks before = b.produced

/-- The phase of the worker still fits when the others have moved: they deliver no chunk unless a
put was given up, and do not open the bridge again. -/
theorem WorkerPhase.Fits.mono {w : WorkerPhase κ} (h : w.Fits b)
    (hexhausted : b'.exhausted = b.exhausted) (hproduced : b'.produced = b.produced)
    (hstop : b'.stop = false → b.stop = false)
    (hmoved : b.abandoned = [] → b'.abandoned = [] ∧ b'.delivered = b.delivered) : w.Fits b' := by
  have tracks : ∀ hand, b.Tracks hand → b'.Tracks hand := by
    rintro hand ⟨habandoned, hdelivered⟩
    obtain ⟨habandoned', hdelivered'⟩ := hmoved habandoned
    exact ⟨habandoned', by rw [hdelivered', hproduced, hdelivered]⟩
  have live : ∀ ended hand, b.exhausted = ended ∧ (b.stop = false → b.Tracks hand) →
      b'.exhausted = ended ∧ (b'.stop = false → b'.Tracks hand) :=
    fun ended hand hfit ↦ ⟨hexhausted.trans hfit.1, fun hs ↦ tracks hand (hfit.2 (hstop hs))⟩
  match w with
  | .unstarted | .opening _ | .iterating => exact live false [] h
  | .holding c | .enqueueing (.chunk c) => exact live false [c] h
  | .putting (.chunk c) => exact ⟨hexhausted.trans h.1, tracks [c] h.2⟩
  | .enqueueing .ending => exact live true [] h
  | .putting .ending => exact ⟨hexhausted.trans h.1, tracks [] h.2⟩
  | .enqueueing (.error _) | .putting (.error _) | .failing _ | .ended _ => trivial

namespace Bridge

/-- An end that is on its way has been put after the provider's. -/
theorem Supply.no_ending (h : b.Supply) (hexhausted : b.exhausted = false) :
    Item.ending ∉ b.abandoned ∧
      (b.closed = false → ∀ before after, b.queue ≠ before ++ .ending :: after) := by
  refine ⟨fun hmem ↦ ?_, fun hclosed before after hqueue ↦ ?_⟩
  · exact Bool.false_ne_true (hexhausted.symm.trans (h.abandonedEnd hmem).1)
  · exact Bool.false_ne_true (hexhausted.symm.trans (h.queuedEnd hclosed before after hqueue).1)

/-- The worker goes on by itself. -/
theorem Supply.goTo (h : b.Supply) {w : WorkerPhase κ} (hw : w.Fits b) :
    Supply { b with worker := w } :=
  { h with fits := hw.mono rfl rfl id fun ha ↦ ⟨ha, rfl⟩ }

/-- The provider yields. -/
theorem Supply.yields (h : b.Supply) (hw : b.worker = .iterating) (c : κ) :
    Supply { b with worker := .holding c, produced := b.produced ++ [c] } := by
  have hfits := h.fits
  rw [hw] at hfits
  obtain ⟨hexhausted, htracks⟩ := hfits
  obtain ⟨hno, hnone⟩ := h.no_ending hexhausted
  refine ⟨h.stopped, h.behind.trans (List.prefix_append _ _), h.single, ⟨hexhausted, ?_⟩,
    fun hmem ↦ absurd hmem hno, fun hclosed before after hq ↦ absurd hq (hnone hclosed _ _)⟩
  intro hstop
  obtain ⟨habandoned, hdelivered⟩ := htracks hstop
  rw [List.append_nil] at hdelivered
  exact ⟨habandoned, congrArg (· ++ [c]) hdelivered⟩

/-- The provider comes to its end. -/
theorem Supply.finishes (h : b.Supply) (hw : b.worker = .iterating) :
    Supply { b with worker := .enqueueing .ending, exhausted := true } := by
  have hfits := h.fits
  rw [hw] at hfits
  obtain ⟨hexhausted, htracks⟩ := hfits
  obtain ⟨hno, hnone⟩ := h.no_ending hexhausted
  exact ⟨h.stopped, h.behind, h.single, ⟨rfl, htracks⟩, fun hmem ↦ absurd hmem hno,
    fun hclosed before after hq ↦ absurd hq (hnone hclosed _ _)⟩

theorem delivered_push (b : Bridge κ) (item : Item κ) :
    (b.push item).delivered = b.delivered ++ chunks [item] := by
  rw [delivered, delivered, push, chunks_append, List.append_assoc]

/-- A put is made: `rest` are then the puts that were given up, and `w` is the worker's phase. -/
theorem Supply.push (h : b.Supply) {item : Item κ} {rest : List (Item κ)} {w : WorkerPhase κ}
    (hbehind : b.delivered ++ chunks (item :: rest) <+: b.produced)
    (hsingle : (chunks rest).length ≤ 1) (hend : Item.ending ∈ item :: rest → b.Whole)
    (hfits : w.Fits { b.push item with abandoned := rest, worker := w }) :
    Supply { b.push item with abandoned := rest, worker := w } := by
  have hdelivered := delivered_push b item
  rw [chunks_cons, ← List.append_assoc, ← hdelivered] at hbehind
  refine ⟨h.stopped, hbehind, hsingle, hfits, fun hmem ↦ ?_, fun hclosed before after hq ↦ ?_⟩
  · obtain ⟨hexhausted, hwhole⟩ := hend (List.mem_cons_of_mem _ hmem)
    refine ⟨hexhausted, ?_⟩
    -- nothing is left to be delivered after the whole
    have hle := ((List.prefix_append _ _).trans hbehind).length_le
    rw [hdelivered, ← hwhole, List.length_append] at hle
    have hnil : chunks [item] = [] := List.length_eq_zero_iff.mp (by omega)
    change (b.push item).delivered = b.produced
    rw [hdelivered, hnil, List.append_nil, hwhole]
  · rcases List.eq_nil_or_concat' after with rfl | ⟨after, last, rfl⟩
    · obtain ⟨rfl, hitem⟩ := List.append_inj' hq rfl
      obtain rfl := List.singleton_inj.mp hitem
      exact hend List.mem_cons_self
    · rw [← List.cons_append, ← List.append_assoc] at hq
      exact h.queuedEnd hclosed before after (List.append_inj' hq rfl).1

/-- The worker gives a put up. -/
theorem Supply.abandon (h : b.Supply) {item : Item κ} (hw : b.worker = .putting item) :
    Supply { b with worker := afterTimeout item, abandoned := b.abandoned ++ [item] } := by
  have hfits := h.fits
  rw [hw] at hfits
  match item with
  | .chunk c =>
    obtain ⟨hexhausted, habandoned, hdelivered⟩ := hfits
    refine ⟨h.stopped, ?_, ?_, trivial, fun hmem ↦ ?_, h.queuedEnd⟩
    · rw [habandoned]
      exact hdelivered ▸ List.prefix_rfl
    · rw [habandoned]
      exact Nat.le_refl 1
    · rw [habandoned] at hmem
      exact nomatch List.mem_singleton.mp hmem
  | .ending =>
    obtain ⟨hexhausted, habandoned, hdelivered⟩ := hfits
    rw [List.append_nil] at hdelivered
    refine ⟨h.stopped, ?_, ?_, trivial, fun _ ↦ ⟨hexhausted, hdelivered⟩, h.queuedEnd⟩
    · rw [chunks_append]
      exact (List.append_nil (chunks b.abandoned)).symm ▸ h.behind
    · rw [habandoned]
      exact Nat.zero_le 1
  | .error e =>
    have hchunks : chunks (b.abandoned ++ [.error e]) = chunks b.abandoned := by
      rw [chunks_append]
      exact List.append_nil _
    refine ⟨h.stopped, hchunks.symm ▸ h.behind, hchunks.symm ▸ h.single, trivial, fun hmem ↦ ?_,
      h.queuedEnd⟩
    rcases List.mem_append.mp hmem with hold | hnew
    · exact h.abandonedEnd hold
    · exact nomatch List.mem_singleton.mp hnew

/-- A put is made that had not been given up. -/
theorem Supply.pushNext (h : b.Supply) {item : Item κ} {w : WorkerPhase κ}
    (hbehind : b.delivered ++ chunks (item :: b.abandoned) <+: b.produced)
    (hend : Item.ending ∈ item :: b.abandoned → b.Whole)
    (hfits : w.Fits { b.push item with worker := w }) :
    Supply { b.push item with worker := w } :=
  h.push hbehind h.single hend hfits

/-- The consumer moves, or the bridge is closed, and what is delivered stays. -/
theorem Supply.serve (h : b.Supply) {queue : List (Item κ)} {stop closed : Bool}
    {consumer : ConsumerPhase} {answers : List (Answer κ LlmError)} (hstopped : stop = closed)
    (hstop : stop = false → b.stop = false)
    (hdelivered : items answers ++ chunks queue = b.delivered)
    (hqueued : closed = false → ∀ before after, queue = before ++ .ending :: after →
      b.exhausted = true ∧ items answers ++ chunks before = b.produced) :
    Supply { b with
      queue := queue, stop := stop, closed := closed, consumer := consumer,
      answers := answers } := by
  have hbehind := h.behind
  rw [← hdelivered] at hbehind
  refine ⟨hstopped, hbehind, h.single, ?_, fun hmem ↦ ?_, hqueued⟩
  · exact h.fits.mono rfl rfl hstop fun hnil ↦ ⟨hnil, hdelivered⟩
  · obtain ⟨hexhausted, hwhole⟩ := h.abandonedEnd hmem
    exact ⟨hexhausted, hdelivered.trans hwhole⟩

/-- The first item is taken off the queue, and is answered if it is a chunk. -/
theorem Supply.take (h : b.Supply) {item : Item κ} {rest : List (Item κ)}
    {answers : List (Answer κ LlmError)} {consumer : ConsumerPhase} (hq : b.queue = item :: rest)
    (hitems : items answers = items b.answers ++ chunks [item]) :
    Supply { b with queue := rest, consumer := consumer, answers := answers } := by
  refine h.serve h.stopped id ?_ fun hclosed before after hrest ↦ ?_
  · rw [hitems, delivered, hq, chunks_cons item rest, List.append_assoc]
  · have hqueue : b.queue = (item :: before) ++ .ending :: after := by
      rw [hq, hrest, List.cons_append]
    obtain ⟨hexhausted, hwhole⟩ := h.queuedEnd hclosed _ _ hqueue
    refine ⟨hexhausted, ?_⟩
    rw [hitems, List.append_assoc, ← chunks_cons, hwhole]

/-- An answer without an item. -/
theorem Supply.answer (h : b.Supply) {a : Answer κ LlmError} (ha : a.item? = none) :
    (b.answer a).Supply := by
  have hitems : items (b.answers ++ [a]) = items b.answers := by
    rw [items_snoc, ha]
    exact List.append_nil _
  refine h.serve h.stopped id ?_ fun hclosed before after hq ↦ ?_
  · rw [hitems, delivered]
  · rw [hitems]
    exact h.queuedEnd hclosed before after hq

theorem exists_aclose (queueSize : ℕ) (hstopped : b.stop = b.closed) :
    ∃ tail, chunks tail = [] ∧
      b.aclose queueSize = { b with closed := true, stop := true, queue := b.queue ++ tail } := by
  rw [aclose]
  split
  · rename_i hclosed
    refine ⟨[], rfl, ?_⟩
    rw [List.append_nil, ← hstopped.trans hclosed]
    exact congrArg (fun closed ↦ { b with closed := closed }) hstopped.symm
  · split
    · exact ⟨[.ending], rfl, rfl⟩
    · refine ⟨[], rfl, ?_⟩
      rw [List.append_nil]

theorem Supply.aclose (h : b.Supply) (queueSize : ℕ) : (b.aclose queueSize).Supply := by
  obtain ⟨tail, htail, heq⟩ := exists_aclose queueSize h.stopped
  rw [heq]
  refine h.serve rfl nofun ?_ nofun
  rw [chunks_append, htail, List.append_nil, delivered]

/-! ## The consumer's side -/

/-- The invariant of what has been answered. -/
structure Served (b : Bridge κ) : Prop where
  endsOnce : EndsOnce b.answers
  going : b.closed = false → Going b.answers
  waits : b.consumer = .waiting → Going b.answers
  closedBy : b.closed = true → Going b.answers → b.closedOutside = true
  whole : ∀ before after, b.answers = before ++ .stop :: after → Going before →
    b.closedOutside = false → b.exhausted = true ∧ items before = b.produced

/-- The consumer does not see the worker, the runner and the queue move. -/
theorem Served.move (h : b.Served) (queue : List (Item κ)) (worker : WorkerPhase κ)
    (abandoned : List (Item κ)) (runner : RunnerPhase) :
    Served { b with queue := queue, worker := worker, abandoned := abandoned, runner := runner } :=
  ⟨h.endsOnce, h.going, h.waits, h.closedBy, h.whole⟩

/-- The provider goes on: no end has been answered. -/
theorem Served.grow (h : b.Served) (hexhausted : b.exhausted = false) (worker : WorkerPhase κ)
    (produced : List κ) (exhausted : Bool) :
    Served { b with worker := worker, produced := produced, exhausted := exhausted } := by
  refine ⟨h.endsOnce, h.going, h.waits, h.closedBy, fun before after heq hbefore hopen ↦ ?_⟩
  exact absurd (hexhausted.symm.trans (h.whole before after heq hbefore hopen).1) Bool.false_ne_true

theorem Served.answer_item (h : b.Served) (hwaits : b.consumer = .waiting) (c : κ) :
    (b.answer (.item c)).Served := by
  have hgoing := h.waits hwaits
  refine ⟨hgoing.endsOnce_snoc _, fun _ ↦ hgoing.snoc c, nofun, fun hclosed _ ↦
    h.closedBy hclosed hgoing, fun before after heq _ _ ↦ ?_⟩
  exact nomatch (hgoing.eq_of_split heq rfl).2.1

/-- The answer that ends the iteration. -/
theorem served_answer (hgoing : Going b.answers) (hclosed : b.closed = true)
    {a : Answer κ LlmError} (ha : a.item? = none)
    (hwhole : a = .stop → b.closedOutside = false →
      b.exhausted = true ∧ items b.answers = b.produced) :
    (b.answer a).Served := by
  refine ⟨hgoing.endsOnce_snoc a, fun hopen ↦ ?_, nofun, fun _ hall ↦ ?_,
    fun before after heq _ hopen ↦ ?_⟩
  · exact absurd (hopen.symm.trans hclosed) Bool.false_ne_true
  · exact absurd ha (hall a (List.mem_append_right _ (List.mem_singleton_self a)))
  · obtain ⟨rfl, hstop, -⟩ := hgoing.eq_of_split heq rfl
    exact hwhole hstop.symm hopen

/-- A closed bridge answers without its queue. -/
theorem Served.answer_stop (h : b.Served) (hclosed : b.closed = true) :
    (b.answer .stop).Served := by
  refine ⟨h.endsOnce.snoc_stop, fun hopen ↦ ?_, nofun, fun _ hall ↦ ?_,
    fun before after heq hbefore hopen ↦ ?_⟩
  · exact absurd (hopen.symm.trans hclosed) Bool.false_ne_true
  · exact absurd rfl (hall .stop (List.mem_append_right _ (List.mem_singleton_self _)))
  · rcases List.eq_nil_or_concat' after with rfl | ⟨after, last, rfl⟩
    · obtain ⟨rfl, -⟩ := List.append_inj' heq rfl
      exact absurd (hopen.symm.trans (h.closedBy hclosed hbefore)) Bool.false_ne_true
    · rw [← List.cons_append, ← List.append_assoc] at heq
      exact h.whole before after (List.append_inj' heq rfl).1 hbefore hopen

theorem Served.closedFromOutside (h : b.Served) (queueSize : ℕ) :
    Served { b.aclose queueSize with closedOutside := b.closedOutside || !b.closed } := by
  rw [aclose]
  by_cases hclosed : b.closed = true
  · rw [if_pos hclosed, hclosed, Bool.not_true, Bool.or_false]
    exact h
  · have hopen : b.closed = false := Bool.eq_false_iff.mpr hclosed
    rw [if_neg hclosed, hopen, Bool.not_false, Bool.or_true]
    exact ⟨h.endsOnce, nofun, h.waits, fun _ _ ↦ rfl, nofun⟩

/-! ## Steps -/

structure Consistent (b : Bridge κ) : Prop where
  supply : b.Supply
  served : b.Served

theorem Consistent.goTo (h : b.Consistent) {w : WorkerPhase κ} (hw : w.Fits b) :
    Consistent { b with worker := w } :=
  ⟨h.supply.goTo hw, h.served.move _ w _ _⟩

/-- `__anext__` closes the bridge and raises. -/
theorem Supply.aclose_answer (h : b.Supply) (hgoing : Going b.answers) (queueSize : ℕ)
    {a : Answer κ LlmError} (ha : a.item? = none)
    (hwhole : a = .stop → b.closedOutside = false →
      b.exhausted = true ∧ items b.answers = b.produced) :
    ((b.aclose queueSize).answer a).Consistent := by
  refine ⟨(h.aclose queueSize).answer ha, ?_⟩
  obtain ⟨tail, -, heq⟩ := exists_aclose queueSize h.stopped
  rw [heq]
  exact served_answer (b := { b with closed := true, stop := true, queue := b.queue ++ tail })
    hgoing rfl ha hwhole

theorem Consistent.setRunner (h : b.Consistent) (runner : RunnerPhase) :
    Consistent { b with runner := runner } :=
  ⟨⟨h.supply.stopped, h.supply.behind, h.supply.single,
    h.supply.fits.mono rfl rfl id fun ha ↦ ⟨ha, rfl⟩, h.supply.abandonedEnd, h.supply.queuedEnd⟩,
    h.served.move _ _ _ _⟩

theorem fits_afterOpening (next : OpeningStep)
    (h : b.exhausted = false ∧ (b.stop = false → b.Tracks [])) : (afterOpening next).Fits b := by
  cases next <;> exact h

theorem Consistent.workerOpens (h : b.Consistent) {failure : Option ProviderFailure}
    (hstep : b.step queueSize (.workerOpens failure) = some b') : b'.Consistent := by
  have hfits := h.supply.fits
  simp only [step] at hstep
  split at hstep
  case h_2 => cases hstep
  rename_i next hw
  rw [hw] at hfits
  split at hstep
  · obtain rfl := Option.some.inj hstep
    exact h.goTo trivial
  · split at hstep
    · obtain rfl := Option.some.inj hstep
      exact h.goTo trivial
    · obtain rfl := Option.some.inj hstep
      exact h.goTo (fits_afterOpening next hfits)

theorem Consistent.providerAnswers (h : b.Consistent) {answer : ProviderAnswer κ}
    (hstep : b.step queueSize (.providerAnswers answer) = some b') : b'.Consistent := by
  have hfits := h.supply.fits
  simp only [step] at hstep
  split at hstep
  case h_2 => cases hstep
  rename_i hw
  rw [hw] at hfits
  split at hstep
  · obtain rfl := Option.some.inj hstep
    exact ⟨h.supply.yields hw _, h.served.grow hfits.1 _ _ _⟩
  · obtain rfl := Option.some.inj hstep
    exact ⟨h.supply.finishes hw, h.served.grow hfits.1 _ _ _⟩
  · obtain rfl := Option.some.inj hstep
    exact h.goTo trivial

/-- The worker does not go on with a closed bridge. -/
theorem Consistent.workerChecks (h : b.Consistent)
    (hstep : b.step queueSize .workerChecks = some b') : b'.Consistent := by
  have hfits := h.supply.fits
  simp only [step] at hstep
  split at hstep <;> rename_i hw
  · obtain rfl := Option.some.inj hstep
    rw [hw] at hfits
    refine h.goTo ?_
    split
    · trivial
    · exact hfits
  · obtain rfl := Option.some.inj hstep
    rename_i item
    rw [hw] at hfits
    refine h.goTo ?_
    split
    · rename_i hstop
      match item with
      | .chunk c => exact ⟨hfits.1, fun hopen ↦ absurd (hopen.symm.trans hstop) Bool.false_ne_true⟩
      | .ending | .error _ => trivial
    · rename_i hopen
      match item with
      | .chunk c => exact ⟨hfits.1, hfits.2 (Bool.eq_false_iff.mpr hopen)⟩
      | .ending => exact ⟨hfits.1, hfits.2 (Bool.eq_false_iff.mpr hopen)⟩
      | .error e => trivial
  · obtain rfl := Option.some.inj hstep
    refine h.goTo ?_
    split <;> trivial
  · cases hstep

/-- A put that the worker waits for. -/
theorem Consistent.putCompletes (h : b.Consistent)
    (hstep : b.step queueSize .putCompletes = some b') : b'.Consistent := by
  have hfits := h.supply.fits
  simp only [step] at hstep
  split at hstep
  case h_2 => cases hstep
  rename_i item hw
  rw [hw] at hfits
  split at hstep
  case isFalse => cases hstep
  obtain rfl := Option.some.inj hstep
  refine ⟨?_, h.served.move _ _ _ _⟩
  match item with
  | .chunk c =>
    obtain ⟨hexhausted, habandoned, hdelivered⟩ := hfits
    refine h.supply.pushNext ?_ ?_ ⟨hexhausted, fun _ ↦ ?_⟩
    · rw [habandoned]
      exact hdelivered ▸ List.prefix_rfl
    · rw [habandoned]
      exact nofun
    · refine ⟨habandoned, ?_⟩
      rw [List.append_nil]
      exact (delivered_push b (.chunk c)).trans hdelivered
  | .ending =>
    obtain ⟨hexhausted, habandoned, hdelivered⟩ := hfits
    rw [List.append_nil] at hdelivered
    exact h.supply.pushNext h.supply.behind (fun _ ↦ ⟨hexhausted, hdelivered⟩) trivial
  | .error e =>
    refine h.supply.pushNext h.supply.behind ?_ trivial
    intro hmem
    rcases List.mem_cons.mp hmem with heq | hold
    · cases heq
    · exact h.supply.abandonedEnd hold

/-- A put that the worker no longer waits for. -/
theorem Consistent.abandonedPutCompletes (h : b.Consistent) {i : ℕ}
    (hstep : b.step queueSize (.abandonedPutCompletes i) = some b') : b'.Consistent := by
  simp only [step] at hstep
  split at hstep
  case h_2 => cases hstep
  rename_i item hi
  split at hstep
  case isFalse => cases hstep
  obtain rfl := Option.some.inj hstep
  have hchunks := chunks_cons_eraseIdx h.supply.single hi
  have hmem := List.mem_of_getElem? hi
  refine ⟨h.supply.push (w := b.worker) ?_ ?_ ?_ ?_, h.served.move _ _ _ _⟩
  · exact hchunks.symm ▸ h.supply.behind
  · exact Nat.le_trans (prefix_chunks_eraseIdx h.supply.single i).length_le h.supply.single
  · intro hend
    rcases List.mem_cons.mp hend with rfl | hrest
    · exact h.supply.abandonedEnd hmem
    · exact h.supply.abandonedEnd (List.mem_of_mem_eraseIdx hrest)
  · refine h.supply.fits.mono rfl rfl id fun hnil ↦ ?_
    rw [hnil] at hmem
    cases hmem

theorem Consistent.abandonedPutCancelled (h : b.Consistent) (i : ℕ) :
    Consistent { b with abandoned := b.abandoned.eraseIdx i } := by
  have hlater := prefix_chunks_eraseIdx h.supply.single i
  refine ⟨⟨h.supply.stopped, ?_, Nat.le_trans hlater.length_le h.supply.single, ?_,
    fun hmem ↦ h.supply.abandonedEnd (List.mem_of_mem_eraseIdx hmem), h.supply.queuedEnd⟩,
    h.served.move _ _ _ _⟩
  · exact ((List.prefix_append_right_inj _).mpr hlater).trans h.supply.behind
  · refine h.supply.fits.mono rfl rfl id fun hnil ↦ ⟨?_, rfl⟩
    change b.abandoned.eraseIdx i = []
    rw [hnil, List.eraseIdx_nil]

theorem Consistent.runnerReturns (h : b.Consistent)
    (hstep : b.step queueSize .runnerReturns = some b') : b'.Consistent := by
  simp only [step] at hstep
  split at hstep
  · obtain rfl := Option.some.inj hstep
    exact h.setRunner .finished
  · obtain rfl := Option.some.inj hstep
    exact h.setRunner _
  · cases hstep

/-- The runner's error is queued. -/
theorem Consistent.runnerPutCompletes (h : b.Consistent)
    (hstep : b.step queueSize .runnerPutCompletes = some b') : b'.Consistent := by
  simp only [step] at hstep
  split at hstep
  case h_2 => cases hstep
  rename_i e hrunner
  split at hstep
  case isFalse => cases hstep
  obtain rfl := Option.some.inj hstep
  have hdelivered : (b.push (.error e)).delivered = b.delivered :=
    (delivered_push b (.error e)).trans (List.append_nil _)
  have hpush : (b.push (.error e)).Supply := by
    refine h.supply.pushNext (w := b.worker) h.supply.behind (fun hmem ↦ ?_)
      (h.supply.fits.mono rfl rfl id fun ha ↦ ⟨ha, hdelivered⟩)
    rcases List.mem_cons.mp hmem with heq | hold
    · cases heq
    · exact h.supply.abandonedEnd hold
  exact Consistent.setRunner ⟨hpush, h.served.move _ _ _ b.runner⟩ .finished

/-- `__anext__` has got an item. -/
theorem Consistent.receive (h : b.Consistent) {item : Item κ} {rest : List (Item κ)}
    (hwaits : b.consumer = .waiting) (hq : b.queue = item :: rest) :
    ({ b with queue := rest }.receive queueSize item).Consistent := by
  have hgoing := h.served.waits hwaits
  match item with
  | .chunk c =>
    exact ⟨h.supply.take hq (items_snoc _ _), (h.served.move rest _ _ _).answer_item hwaits c⟩
  | .ending =>
    have htake : Supply { b with queue := rest } := h.supply.take hq (List.append_nil _).symm
    refine htake.aclose_answer hgoing queueSize rfl fun _ hopen ↦ ?_
    -- an open bridge: the end that has been taken off the queue is the provider's
    have hclosed : b.closed = false := by
      rw [Bool.eq_false_iff]
      intro hclosed
      exact Bool.false_ne_true (hopen.symm.trans (h.served.closedBy hclosed hgoing))
    obtain ⟨hexhausted, hwhole⟩ := h.supply.queuedEnd hclosed [] rest hq
    exact ⟨hexhausted, (List.append_nil _).symm.trans hwhole⟩
  | .error e =>
    have htake : Supply { b with queue := rest } := h.supply.take hq (List.append_nil _).symm
    exact htake.aclose_answer hgoing queueSize rfl fun hstop ↦ nomatch hstop

/-- `__anext__` runs out of time. -/
theorem Consistent.expire (h : b.Consistent) (hgoing : Going b.answers) :
    ((b.aclose queueSize).answer (.raised .timeout)).Consistent :=
  h.supply.aclose_answer hgoing queueSize rfl fun hstop ↦ nomatch hstop

theorem Consistent.nextCalled (h : b.Consistent) {expired : Bool}
    (hstep : b.step queueSize (.nextCalled expired) = some b') : b'.Consistent := by
  simp only [step] at hstep
  split at hstep
  · cases hstep
  · split at hstep
    · rename_i hclosed
      obtain rfl := Option.some.inj hstep
      exact ⟨h.supply.answer rfl, h.served.answer_stop hclosed⟩
    · rename_i hopen
      have hgoing := h.served.going (Bool.eq_false_iff.mpr hopen)
      split at hstep
      · obtain rfl := Option.some.inj hstep
        exact h.expire hgoing
      · obtain rfl := Option.some.inj hstep
        exact ⟨h.supply.serve h.supply.stopped id rfl h.supply.queuedEnd,
          h.served.endsOnce, h.served.going, fun _ ↦ hgoing, h.served.closedBy, h.served.whole⟩

theorem Consistent.step (h : b.Consistent) {e : BridgeEvent κ}
    (hstep : b.step queueSize e = some b') : b'.Consistent := by
  match e with
  | .workerChecks => exact h.workerChecks hstep
  | .putCompletes => exact h.putCompletes hstep
  | .abandonedPutCompletes i => exact h.abandonedPutCompletes hstep
  | .nextCalled expired => exact h.nextCalled hstep
  | .workerOpens failure => exact h.workerOpens hstep
  | .providerAnswers answer => exact h.providerAnswers hstep
  | .runnerReturns => exact h.runnerReturns hstep
  | .runnerPutCompletes => exact h.runnerPutCompletes hstep
  | .workerStarts =>
    have hfits := h.supply.fits
    simp only [Bridge.step] at hstep
    split at hstep
    · rename_i hw
      rw [hw] at hfits
      obtain rfl := Option.some.inj hstep
      exact h.goTo hfits
    · cases hstep
  | .putTimesOut =>
    simp only [Bridge.step] at hstep
    split at hstep
    · rename_i hw
      obtain rfl := Option.some.inj hstep
      exact ⟨h.supply.abandon hw, h.served.move _ _ _ _⟩
    · cases hstep
  | .abandonedPutCancelled i =>
    obtain rfl := Option.some.inj hstep
    exact h.abandonedPutCancelled i
  | .runnerFails failure =>
    simp only [Bridge.step] at hstep
    split at hstep
    · obtain rfl := Option.some.inj hstep
      exact h.setRunner _
    · cases hstep
  | .runnerCancelled =>
    simp only [Bridge.step] at hstep
    split at hstep
    · obtain rfl := Option.some.inj hstep
      exact h.setRunner .finished
    · cases hstep
  | .itemReceived =>
    simp only [Bridge.step] at hstep
    split at hstep
    · rename_i hwaits hq
      obtain rfl := Option.some.inj hstep
      exact h.receive hwaits hq
    · cases hstep
  | .waitTimesOut =>
    simp only [Bridge.step] at hstep
    split at hstep
    · rename_i hwaits
      obtain rfl := Option.some.inj hstep
      exact h.expire (h.served.waits hwaits)
    · cases hstep
  | .closedFromOutside =>
    obtain rfl := Option.some.inj hstep
    obtain ⟨hstopped, hbehind, hsingle, hfits, hend, hqueued⟩ := h.supply.aclose queueSize
    exact ⟨⟨hstopped, hbehind, hsingle, hfits.mono rfl rfl id fun ha ↦ ⟨ha, rfl⟩, hend, hqueued⟩,
      h.served.closedFromOutside queueSize⟩

end Bridge

/-! ## Runs -/

theorem consistent_of_start (hinit : (streamBridge κ queueSize).init b) : b.Consistent := by
  obtain rfl := hinit
  have hnone : ∀ (before after : List (Item κ)), [] ≠ before ++ .ending :: after :=
    fun before after h ↦ List.append_ne_nil_of_right_ne_nil before (List.cons_ne_nil _ after) h.symm
  have hno : ∀ (before after : List (Answer κ LlmError)) (a : Answer κ LlmError),
      [] ≠ before ++ a :: after :=
    fun before after a h ↦
      List.append_ne_nil_of_right_ne_nil before (List.cons_ne_nil a after) h.symm
  exact ⟨⟨rfl, List.prefix_rfl, Nat.zero_le 1, ⟨rfl, fun _ ↦ ⟨rfl, rfl⟩⟩, nofun,
    fun _ before after h ↦ absurd h (hnone before after)⟩,
    ⟨fun before a after h ↦ absurd h (hno before after a), fun _ ↦ going_nil, nofun, nofun,
      fun before after h ↦ absurd h (hno before after .stop)⟩⟩

theorem consistent_of_bridge_run {tr : List (BridgeEvent κ × Option (Answer κ LlmError))}
    (hinit : (streamBridge κ queueSize).init b)
    (hrun : System.Run (streamBridge κ queueSize) System.anyStep b tr b') : b'.Consistent := by
  refine hrun.invariant (consistent_of_start hinit) fun b e b' o h _ hstep ↦ ?_
  obtain ⟨b'', hb'', heq⟩ := Option.map_eq_some_iff.mp hstep
  obtain ⟨rfl, -⟩ := Prod.mk.inj heq
  exact h.step hb''

/-- The chunk that the provider yields. -/
def BridgeEvent.yielded? : BridgeEvent κ → Option κ
  | .providerAnswers (.yields c) => some c
  | _ => none

namespace Bridge

@[simp] theorem aclose_answers (queueSize : ℕ) (b : Bridge κ) :
    (b.aclose queueSize).answers = b.answers := by
  rw [aclose]
  split <;> rfl

@[simp] theorem aclose_produced (queueSize : ℕ) (b : Bridge κ) :
    (b.aclose queueSize).produced = b.produced := by
  rw [aclose]
  split <;> rfl

theorem exists_receive (queueSize : ℕ) (b : Bridge κ) (item : Item κ) :
    ∃ a, (b.receive queueSize item).answers = b.answers ++ [a] ∧
      (b.receive queueSize item).produced = b.produced := by
  match item with
  | .chunk c => exact ⟨_, rfl, rfl⟩
  | .ending => exact ⟨.stop, by simp [receive, answer], by simp [receive, answer]⟩
  | .error e => exact ⟨.raised e, by simp [receive, answer], by simp [receive, answer]⟩

/-- A step answers once or not at all, and the provider yields in one kind of step only. -/
theorem recorded_of_step {e : BridgeEvent κ} (hstep : b.step queueSize e = some b') :
    (b'.answers = b.answers ∨ ∃ a, b'.answers = b.answers ++ [a]) ∧
      b'.produced = b.produced ++ e.yielded?.toList := by
  cases e <;> simp only [step] at hstep <;> (repeat' split at hstep) <;>
    first
    | cases hstep; done
    | obtain rfl := Option.some.inj hstep
      simp [push, answer, failRunner, BridgeEvent.yielded?]
      done
    | rename_i item rest _ _
      obtain rfl := Option.some.inj hstep
      obtain ⟨a, hanswers, hproduced⟩ := exists_receive queueSize { b with queue := rest } item
      exact ⟨.inr ⟨a, hanswers⟩, hproduced.trans (List.append_nil _).symm⟩

end Bridge

/-- What the bridge records is what the trace shows. -/
theorem recorded_of_run {tr : List (BridgeEvent κ × Option (Answer κ LlmError))}
    (hinit : (streamBridge κ queueSize).init b)
    (hrun : System.Run (streamBridge κ queueSize) System.anyStep b tr b') :
    b'.answers = tr.filterMap Prod.snd ∧ b'.produced = tr.filterMap fun r ↦ r.1.yielded? := by
  obtain rfl := hinit
  constructor
  · refine hrun.log_eq (I := fun _ ↦ True) Bridge.answers Prod.snd trivial
      fun s e t o _ _ hstep ↦ ?_
    obtain ⟨t', ht, heq⟩ := Option.map_eq_some_iff.mp hstep
    obtain ⟨rfl, rfl⟩ := Prod.mk.inj heq
    refine ⟨trivial, ?_⟩
    rcases (Bridge.recorded_of_step ht).1 with hsame | ⟨a, hanswers⟩
    · rw [hsame, List.getElem?_eq_none (Nat.le_refl _)]
      exact (List.append_nil _).symm
    · rw [hanswers, List.getElem?_concat_length]
      rfl
  · refine hrun.log_eq (I := fun _ ↦ True) Bridge.produced (fun r ↦ r.1.yielded?) trivial
      fun s e t o _ _ hstep ↦ ?_
    obtain ⟨t', ht, heq⟩ := Option.map_eq_some_iff.mp hstep
    obtain ⟨rfl, -⟩ := Prod.mk.inj heq
    exact ⟨trivial, (Bridge.recorded_of_step ht).2⟩

/-- No truncation goes unnoticed. -/
structure Bridge.NeverTruncates (queueSize : ℕ) (b : Bridge κ) : Prop where
  /-- What has been returned is a beginning of what the provider has yielded. -/
  inOrder : items b.answers <+: b.produced
  /-- After the first answer that is not a chunk there is no chunk and no error. -/
  endsOnce : EndsOnce b.answers
  /-- An end that nobody asked for comes after the whole sequence. -/
  whole : ∀ before after, b.answers = before ++ .stop :: after → Going before →
    b.closedOutside = false → b.exhausted = true ∧ items before = b.produced
  /-- `__anext__` can be called, and a call that waits is answered in the end: with an error. -/
  responsive : (b.consumer = .idle → ∀ expired, b.step queueSize (.nextCalled expired) ≠ none) ∧
    (b.consumer = .waiting → ∃ b', (streamBridge κ queueSize).step b .waitTimesOut =
      some (b', some (.raised .timeout)))

theorem Bridge.responsive_of_consistent (queueSize : ℕ) (h : b.Consistent) :
    (b.consumer = .idle → ∀ expired, b.step queueSize (.nextCalled expired) ≠ none) ∧
      (b.consumer = .waiting → ∃ b', (streamBridge κ queueSize).step b .waitTimesOut =
        some (b', some (.raised .timeout))) := by
  refine ⟨fun hidle expired ↦ ?_, fun hwaiting ↦ ?_⟩
  · simp only [step, hidle]
    split
    · exact nofun
    · split <;> exact nofun
  · obtain ⟨tail, -, heq⟩ := exists_aclose queueSize h.supply.stopped
    refine ⟨(b.aclose queueSize).answer (.raised .timeout), ?_⟩
    simp only [streamBridge, step, hwaiting, Option.map_some, heq, answer,
      List.getElem?_concat_length]

/-- **No silent truncation**, of what the provider yields in a run, in what `__anext__` answers. -/
theorem neverTruncates_of_run {tr : List (BridgeEvent κ × Option (Answer κ LlmError))}
    (hinit : (streamBridge κ queueSize).init b)
    (hrun : System.Run (streamBridge κ queueSize) System.anyStep b tr b') :
    b'.NeverTruncates queueSize ∧ b'.answers = tr.filterMap Prod.snd ∧
      b'.produced = tr.filterMap fun r ↦ r.1.yielded? := by
  have hconsistent := consistent_of_bridge_run hinit hrun
  have hlater : items b'.answers <+: b'.produced :=
    ((List.prefix_append _ _).trans (List.prefix_append _ _)).trans hconsistent.supply.behind
  refine ⟨⟨hlater, hconsistent.served.endsOnce, hconsistent.served.whole, ?_⟩,
    recorded_of_run hinit hrun⟩
  exact Bridge.responsive_of_consistent queueSize hconsistent

/-- A put that times out after the chunk before it, and is made all the same. -/
def timedOutPut : List (BridgeEvent Char) :=
  [.workerStarts, .workerOpens none, .workerOpens none, .workerOpens none, .workerOpens none,
    .providerAnswers (.yields 'a'), .workerChecks, .workerChecks, .putCompletes,
    .providerAnswers (.yields 'b'), .workerChecks, .workerChecks, .putTimesOut, .workerChecks,
    .nextCalled false, .itemReceived, .workerChecks, .abandonedPutCompletes 0, .nextCalled false,
    .itemReceived, .putCompletes, .nextCalled false, .itemReceived, .nextCalled false]

theorem neverTruncates_of_run_timedOutPut :
    ∃ b : Bridge Char, b.NeverTruncates 1 ∧ b.answers =
      [.item 'a', .item 'b', .raised .unavailable, .stop] :=
  have hreplay : (streamBridge Char 1).replay .started timedOutPut = some (_, _) := rfl
  ⟨_, (neverTruncates_of_run rfl (System.run_of_replay hreplay)).1, rfl⟩

/-- `iter_stream` yields a beginning of the provider's chunks, and all of them if it returns. -/
theorem Bridge.NeverTruncates.iterStream (h : b.NeverTruncates queueSize) :
    (iterStream b.answers).1 <+: b.produced ∧
      ∀ passed, Providers.iterStream b.answers = (passed, some .returned) →
        b.closedOutside = false → b.exhausted = true ∧ passed = b.produced := by
  refine ⟨(prefix_asyncFor b.answers).trans h.inOrder, fun passed hreturned hopen ↦ ?_⟩
  obtain ⟨before, after, hanswers, hgoing, rfl⟩ := exists_stop_of_asyncFor hreturned
  exact h.whole before after hanswers hgoing hopen

end Onebox.Providers
