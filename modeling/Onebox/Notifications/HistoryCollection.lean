import Onebox.Notifications.HistoryItems

/-!
# Complete collection, or refusal

Over any sequence of pages and within any bounds, the collection ends within its page bound. It
returns everything that the pages mention, or it refuses because of a bound: unless it comes to
something malformed first, where it raises whatever Python does.
-/

namespace Onebox.Notifications

open Python

/-- `_history_message_ids` with its bounds, which are checked before the first call. -/
def collectHistory (unicode : UnicodeData) (maxMessages maxPages : ℕ)
    (responses : List (Except HistoryFailure Json)) (cursor : ℕ) :
    Option (Except HistoryFailure HistoryWork) :=
  if maxMessages < 1 ∨ maxPages < 1 then some (.error .internal)
  else readPages unicode maxMessages maxPages responses 0 ⟨[], cursor⟩

/-! ## The pages -/

def firstPages (pages : ℕ → Json) (n : ℕ) : List Json := (List.range n).map pages

/-- The message ids that the first pages mention, with repetitions. -/
def mentionedFirst (pages : ℕ → Json) (n : ℕ) : List MessageId :=
  (firstPages pages n).flatMap mentionedMessages

/-- The history ids that the first pages show. -/
def shownFirst (unicode : UnicodeData) (pages : ℕ → Json) (n : ℕ) : List ℕ :=
  (firstPages pages n).flatMap (shownIds unicode)

/-- How many different messages a list mentions. -/
def distinct (messageIds : List MessageId) : ℕ := messageIds.eraseDups.length

/-- Something malformed comes before the items mention too many messages, of which `seen` were
mentioned before. -/
def MalformedItem (maxMessages : ℕ) (seen : List MessageId) (items : List HistoryItem) : Prop :=
  ∃ before after, items = before ++ .malformed :: after ∧
    distinct (seen ++ itemMessages before) ≤ maxMessages

/-- Something malformed comes before a bound ends the collection, `count` pages and the messages of
`seen` being behind it. -/
def MalformedPage (unicode : UnicodeData) (maxMessages maxPages : ℕ) (seen : List MessageId)
    (count : ℕ) (pages : ℕ → Json) : Prop :=
  ∃ i, count + i < maxPages ∧
    (∀ j < i, hasNextPage (pages j) = true ∧
      distinct (seen ++ mentionedFirst pages (j + 1)) < maxMessages) ∧
    MalformedItem maxMessages (seen ++ mentionedFirst pages i) (pageItems unicode (pages i))

section

variable {unicode : UnicodeData} {maxMessages maxPages : ℕ} {seen : List MessageId} {cursor : ℕ}
  {items : List HistoryItem} {pages : ℕ → Json} {count : ℕ}

theorem firstPages_succ (pages : ℕ → Json) (n : ℕ) :
    firstPages pages (n + 1) = pages 0 :: firstPages (fun i ↦ pages (i + 1)) n := by
  rw [firstPages, List.range_succ_eq_map, List.map_cons, List.map_map]
  rfl

theorem mentionedFirst_succ (pages : ℕ → Json) (n : ℕ) :
    mentionedFirst pages (n + 1) =
      mentionedMessages (pages 0) ++ mentionedFirst (fun i ↦ pages (i + 1)) n := by
  rw [mentionedFirst, firstPages_succ, List.flatMap_cons, mentionedFirst]

/-- The messages of the pages behind, one page further on. -/
theorem append_mentionedFirst_succ (pages : ℕ → Json) (n : ℕ) :
    seen ++ mentionedFirst pages (n + 1) =
      seen ++ mentionedMessages (pages 0) ++ mentionedFirst (fun i ↦ pages (i + 1)) n := by
  rw [mentionedFirst_succ, List.append_assoc]

theorem append_mentionedFirst_zero (pages : ℕ → Json) : seen ++ mentionedFirst pages 0 = seen :=
  List.append_nil seen

theorem shownFirst_succ (pages : ℕ → Json) (n : ℕ) :
    shownFirst unicode pages (n + 1) =
      shownIds unicode (pages 0) ++ shownFirst unicode (fun i ↦ pages (i + 1)) n := by
  rw [shownFirst, firstPages_succ, List.flatMap_cons, shownFirst]

theorem distinct_le_append (messageIds more : List MessageId) :
    distinct messageIds ≤ distinct (messageIds ++ more) := by
  rw [distinct, distinct, List.eraseDups_append, List.length_append]
  exact Nat.le_add_right _ _

/-! ## The items of a page -/

theorem not_malformedItem_nil : ¬MalformedItem maxMessages seen [] := by
  rintro ⟨before, after, hsplit, -⟩
  exact absurd hsplit.symm (List.append_ne_nil_of_right_ne_nil _ (List.cons_ne_nil _ _))

theorem malformedItem_malformed (hseen : distinct seen ≤ maxMessages) :
    MalformedItem maxMessages seen (.malformed :: items) :=
  ⟨[], items, rfl, by rwa [itemMessages, List.filterMap_nil, List.append_nil]⟩

/-- An item that can be read is passed over. -/
theorem malformedItem_cons_iff (item : HistoryItem) (hitem : item ≠ .malformed) :
    MalformedItem maxMessages seen (item :: items) ↔
      MalformedItem maxMessages (seen ++ itemMessages [item]) items := by
  constructor
  · rintro ⟨before, after, hsplit, hbound⟩
    cases before with
    | nil => exact absurd (List.cons.inj hsplit).1 hitem
    | cons first before =>
      obtain ⟨rfl, rfl⟩ := List.cons.inj hsplit
      refine ⟨before, after, rfl, ?_⟩
      rwa [List.append_assoc, ← itemMessages_append]
  · rintro ⟨before, after, rfl, hbound⟩
    refine ⟨item :: before, after, rfl, ?_⟩
    rwa [List.append_assoc, ← itemMessages_append] at hbound

/-- **What the items of a page come to.** -/
theorem takeItems_spec (items : List HistoryItem) (seen : List MessageId) (cursor : ℕ)
    (hseen : distinct seen ≤ maxMessages) :
    (MalformedItem maxMessages seen items →
      takeItems maxMessages items ⟨seen.eraseDups, cursor⟩ = .error .internal) ∧
    (¬MalformedItem maxMessages seen items →
      takeItems maxMessages items ⟨seen.eraseDups, cursor⟩ =
        if distinct (seen ++ itemMessages items) ≤ maxMessages then
          .ok ⟨(seen ++ itemMessages items).eraseDups, (itemShown items).foldl max cursor⟩
        else .error .workLimitExceeded) := by
  induction items generalizing seen cursor with
  | nil =>
    refine ⟨fun h ↦ absurd h not_malformedItem_nil, fun _ ↦ ?_⟩
    rw [itemMessages, List.filterMap_nil, List.append_nil, if_pos hseen]
    rfl
  | cons item rest ih =>
    rw [takeItems_cons]
    cases item with
    | malformed =>
      exact ⟨fun _ ↦ rfl, fun h ↦ absurd (malformedItem_malformed hseen) h⟩
    | shown historyId =>
      have hiff : MalformedItem maxMessages seen (.shown historyId :: rest) ↔
          MalformedItem maxMessages (seen ++ []) rest :=
        malformedItem_cons_iff (.shown historyId) (by rintro ⟨⟩)
      rw [hiff, List.append_nil]
      exact ih seen _ hseen
    | message messageId =>
      have hiff : MalformedItem maxMessages seen (.message messageId :: rest) ↔
          MalformedItem maxMessages (seen ++ [messageId]) rest :=
        malformedItem_cons_iff (.message messageId) (by rintro ⟨⟩)
      have hmessages : seen ++ itemMessages (.message messageId :: rest) =
          (seen ++ [messageId]) ++ itemMessages rest := by
        rw [List.append_assoc]
        rfl
      rw [hiff, hmessages, takeItem]
      by_cases hmem : messageId ∈ seen
      -- It has been seen before.
      · have hsame : (seen ++ [messageId]).eraseDups = seen.eraseDups := by
          rw [eraseDups_concat, if_pos hmem]
        have hrest := ih (seen ++ [messageId]) cursor (by rw [distinct, hsame]; exact hseen)
        rw [hsame] at hrest
        rw [if_pos (List.mem_eraseDups.mpr hmem)]
        exact hrest
      · have hnew : (seen ++ [messageId]).eraseDups = seen.eraseDups ++ [messageId] := by
          rw [eraseDups_concat, if_neg hmem]
        have hcount : distinct (seen ++ [messageId]) = distinct seen + 1 := by
          rw [distinct, hnew, List.length_append, List.length_singleton, distinct]
        rw [if_neg (List.mem_eraseDups.not.mpr hmem)]
        by_cases hlimit : maxMessages ≤ seen.eraseDups.length
        -- It is one too many.
        · have hover : ∀ more, ¬distinct (seen ++ [messageId] ++ more) ≤ maxMessages := by
            intro more hle
            have hle' := (distinct_le_append (seen ++ [messageId]) more).trans hle
            rw [hcount] at hle'
            exact absurd (hlimit.trans_lt (Nat.lt_of_succ_le hle')) (lt_irrefl _)
          rw [if_pos hlimit, if_neg (hover _)]
          refine ⟨?_, fun _ ↦ rfl⟩
          rintro ⟨before, after, -, hbound⟩
          exact absurd hbound (hover _)
        · have hrest := ih (seen ++ [messageId]) cursor
            (by rw [hcount]; exact Nat.succ_le_of_lt (not_le.mp hlimit))
          rw [hnew] at hrest
          rw [if_neg hlimit]
          exact hrest

/-! ## The pages -/

/-- A page that ends the collection, or one that another follows. -/
theorem malformedPage_iff (seen : List MessageId) (hcount : count < maxPages) :
    MalformedPage unicode maxMessages maxPages seen count pages ↔
      MalformedItem maxMessages seen (pageItems unicode (pages 0)) ∨
        hasNextPage (pages 0) = true ∧
          distinct (seen ++ mentionedMessages (pages 0)) < maxMessages ∧
          count + 1 < maxPages ∧
          MalformedPage unicode maxMessages maxPages (seen ++ mentionedMessages (pages 0))
            (count + 1) (fun i ↦ pages (i + 1)) := by
  constructor
  · rintro ⟨i, hi, hbefore, hitem⟩
    cases i with
    | zero =>
      rw [append_mentionedFirst_zero] at hitem
      exact Or.inl hitem
    | succ i =>
      obtain ⟨hnext, hdistinct⟩ := hbefore 0 (Nat.succ_pos i)
      rw [append_mentionedFirst_succ, append_mentionedFirst_zero] at hdistinct
      rw [append_mentionedFirst_succ] at hitem
      refine Or.inr ⟨hnext, hdistinct, by omega, i, by omega, fun j hj ↦ ?_, hitem⟩
      obtain ⟨hnext', hdistinct'⟩ := hbefore (j + 1) (Nat.succ_lt_succ hj)
      rw [append_mentionedFirst_succ] at hdistinct'
      exact ⟨hnext', hdistinct'⟩
  · rintro (hitem | ⟨hnext, hdistinct, hlt, i, hi, hbefore, hitem⟩)
    · refine ⟨0, hcount, fun j hj ↦ absurd hj (Nat.not_lt_zero j), ?_⟩
      rw [append_mentionedFirst_zero]
      exact hitem
    · refine ⟨i + 1, by omega, fun j hj ↦ ?_, ?_⟩
      · rw [append_mentionedFirst_succ]
        cases j with
        | zero =>
          rw [append_mentionedFirst_zero]
          exact ⟨hnext, hdistinct⟩
        | succ j => exact hbefore j (Nat.lt_of_succ_lt_succ hj)
      · rw [append_mentionedFirst_succ]
        exact hitem

/-- The verdict on a collection that has read `calls` pages, where nothing malformed is in its way:
`count` pages and the messages of `seen` were behind it. -/
inductive Verdict (unicode : UnicodeData) (maxMessages maxPages : ℕ) (seen : List MessageId)
    (cursor count : ℕ) (pages : ℕ → Json) : ℕ → Except HistoryFailure HistoryWork → Prop
  | complete {calls : ℕ} (last : hasNextPage (pages calls) = false)
      (within : distinct (seen ++ mentionedFirst pages (calls + 1)) ≤ maxMessages) :
      Verdict unicode maxMessages maxPages seen cursor count pages (calls + 1)
        (.ok ⟨(seen ++ mentionedFirst pages (calls + 1)).eraseDups,
          (shownFirst unicode pages (calls + 1)).foldl max cursor⟩)
  | refused {calls : ℕ}
      (limit : maxMessages < distinct (seen ++ mentionedFirst pages (calls + 1)) ∨
        hasNextPage (pages calls) = true ∧ (maxPages ≤ count + (calls + 1) ∨
          maxMessages ≤ distinct (seen ++ mentionedFirst pages (calls + 1)))) :
      Verdict unicode maxMessages maxPages seen cursor count pages (calls + 1)
        (.error .workLimitExceeded)

theorem Verdict.later {calls : ℕ} {result : Except HistoryFailure HistoryWork}
    (h : Verdict unicode maxMessages maxPages (seen ++ mentionedMessages (pages 0))
      ((shownIds unicode (pages 0)).foldl max cursor) (count + 1) (fun i ↦ pages (i + 1)) calls
      result) :
    Verdict unicode maxMessages maxPages seen cursor count pages (calls + 1) result := by
  cases h with
  | @complete calls last within =>
    rw [← append_mentionedFirst_succ] at within ⊢
    rw [← List.foldl_append, ← shownFirst_succ]
    exact .complete last within
  | @refused calls limit =>
    rw [← append_mentionedFirst_succ, Nat.add_assoc count, Nat.add_comm 1] at limit
    exact .refused limit

/-- The collection has read so many pages when it ends. -/
def Reads (unicode : UnicodeData) (maxMessages maxPages : ℕ) (count : ℕ) (work : HistoryWork)
    (pages : ℕ → Json) (calls : ℕ) (result : Except HistoryFailure HistoryWork) : Prop :=
  ∀ n, readPages unicode maxMessages maxPages ((firstPages pages n).map .ok) count work =
    if n < calls then none else some result

section

variable {work work' : HistoryWork} {result : Except HistoryFailure HistoryWork} {calls : ℕ}

/-- The first page ends the collection. -/
theorem reads_one
    (h : ∀ rest, readPages unicode maxMessages maxPages (.ok (pages 0) :: rest) count work =
      some result) : Reads unicode maxMessages maxPages count work pages 1 result := by
  intro n
  cases n with
  | zero => rfl
  | succ n =>
    rw [firstPages_succ, List.map_cons, h, if_neg (by omega)]

/-- The first page is followed by the others. -/
theorem reads_succ
    (h : ∀ rest, readPages unicode maxMessages maxPages (.ok (pages 0) :: rest) count work =
      readPages unicode maxMessages maxPages rest (count + 1) work')
    (hrest : Reads unicode maxMessages maxPages (count + 1) work' (fun i ↦ pages (i + 1)) calls
      result) : Reads unicode maxMessages maxPages count work pages (calls + 1) result := by
  intro n
  cases n with
  | zero => exact (if_pos (Nat.succ_pos calls)).symm
  | succ n =>
    rw [firstPages_succ, List.map_cons, h, hrest n]
    simp only [Nat.succ_lt_succ_iff]

end

/-- What a page comes to. -/
theorem readPage_spec_of_seen (unicode : UnicodeData) (cursor : ℕ)
    (hseen : distinct seen ≤ maxMessages) (response : Json) :
    (MalformedItem maxMessages seen (pageItems unicode response) →
      readPage unicode maxMessages response ⟨seen.eraseDups, cursor⟩ = .error .internal) ∧
    (¬MalformedItem maxMessages seen (pageItems unicode response) →
      readPage unicode maxMessages response ⟨seen.eraseDups, cursor⟩ =
        if distinct (seen ++ mentionedMessages response) ≤ maxMessages then
          .ok ⟨(seen ++ mentionedMessages response).eraseDups,
            (shownIds unicode response).foldl max cursor⟩
        else .error .workLimitExceeded) := by
  rw [readPage_eq_takeItems, ← itemMessages_pageItems, ← itemShown_pageItems]
  exact takeItems_spec _ _ _ hseen

/-- The collection ends within its page bound, with the verdict on what it has read. -/
def Ends (unicode : UnicodeData) (maxMessages maxPages : ℕ) (seen : List MessageId)
    (cursor count : ℕ) (pages : ℕ → Json) : Prop :=
  ∃ calls result, 1 ≤ calls ∧ count + calls ≤ maxPages ∧
    Reads unicode maxMessages maxPages count ⟨seen.eraseDups, cursor⟩ pages calls result ∧
    (MalformedPage unicode maxMessages maxPages seen count pages → result = .error .internal) ∧
    (¬MalformedPage unicode maxMessages maxPages seen count pages →
      Verdict unicode maxMessages maxPages seen cursor count pages calls result)

/-- The first page is well-formed and ends the collection. -/
theorem ends_of_first {result : Except HistoryFailure HistoryWork} (hcount : count < maxPages)
    (hitem : ¬MalformedItem maxMessages seen (pageItems unicode (pages 0)))
    (hlast : hasNextPage (pages 0) = true → count + 1 < maxPages →
      ¬distinct (seen ++ mentionedMessages (pages 0)) < maxMessages)
    (hread : ∀ rest, readPages unicode maxMessages maxPages (.ok (pages 0) :: rest) count
      ⟨seen.eraseDups, cursor⟩ = some result)
    (hverdict : Verdict unicode maxMessages maxPages seen cursor count pages 1 result) :
    Ends unicode maxMessages maxPages seen cursor count pages := by
  have hwell : ¬MalformedPage unicode maxMessages maxPages seen count pages := by
    rw [malformedPage_iff seen hcount]
    rintro (h | ⟨hnext, hdistinct, hmore, -⟩)
    · exact hitem h
    · exact hlast hnext hmore hdistinct
  exact ⟨1, result, le_rfl, hcount, reads_one hread, fun h ↦ absurd h hwell, fun _ ↦ hverdict⟩

/-- The step lemma: the first page ends the collection, or leaves it to the others. -/
theorem ends_step (hcount : count < maxPages) (hseen : distinct seen ≤ maxMessages)
    (hmore : count + 1 < maxPages →
      distinct (seen ++ mentionedMessages (pages 0)) < maxMessages →
      Ends unicode maxMessages maxPages (seen ++ mentionedMessages (pages 0))
        ((shownIds unicode (pages 0)).foldl max cursor) (count + 1) (fun i ↦ pages (i + 1))) :
    Ends unicode maxMessages maxPages seen cursor count pages := by
  obtain ⟨hmalformed, hreadable⟩ := readPage_spec_of_seen unicode cursor hseen (pages 0)
  have hmentioned : seen ++ mentionedFirst pages (0 + 1) = seen ++ mentionedMessages (pages 0) := by
    rw [append_mentionedFirst_succ, append_mentionedFirst_zero]
  have hshown : shownFirst unicode pages (0 + 1) = shownIds unicode (pages 0) := by
    rw [shownFirst_succ]
    exact List.append_nil _
  by_cases hitem : MalformedItem maxMessages seen (pageItems unicode (pages 0))
  · refine ⟨1, _, le_rfl, hcount, reads_one fun rest ↦ ?_, fun _ ↦ rfl,
      fun h ↦ absurd ((malformedPage_iff seen hcount).mpr (Or.inl hitem)) h⟩
    rw [readPages, hmalformed hitem]
  have hreadable := hreadable hitem
  by_cases hdistinct : distinct (seen ++ mentionedMessages (pages 0)) ≤ maxMessages
  swap
  -- Too many messages on this page.
  · rw [if_neg hdistinct] at hreadable
    refine ends_of_first hcount hitem (fun _ _ h ↦ hdistinct h.le) (fun rest ↦ ?_)
      (.refused (Or.inl (by rw [hmentioned]; exact not_le.mp hdistinct)))
    rw [readPages, hreadable]
  rw [if_pos hdistinct] at hreadable
  by_cases hnext : hasNextPage (pages 0) = true
  swap
  -- The last page.
  · have hverdict : Verdict unicode maxMessages maxPages seen cursor count pages (0 + 1) _ :=
      .complete (Bool.eq_false_of_not_eq_true hnext) (by rw [hmentioned]; exact hdistinct)
    rw [hmentioned, hshown] at hverdict
    refine ends_of_first hcount hitem (fun h ↦ absurd h hnext) (fun rest ↦ ?_) hverdict
    rw [readPages, hreadable]
    exact if_neg hnext
  by_cases hbound : maxPages ≤ count + 1 ∨
      maxMessages ≤ distinct (seen ++ mentionedMessages (pages 0))
  -- Another page is announced at a bound.
  · refine ends_of_first hcount hitem (fun _ hlt h ↦ ?_) (fun rest ↦ ?_)
      (.refused (Or.inr ⟨hnext, by rw [hmentioned]; exact hbound⟩))
    · exact hbound.elim (not_le.mpr hlt) (not_le.mpr h)
    · rw [readPages, hreadable]
      dsimp only
      rw [if_pos hnext]
      exact if_pos hbound
  · obtain ⟨hcount', hdistinct'⟩ := not_or.mp hbound
    have hcount' := not_le.mp hcount'
    have hdistinct' := not_le.mp hdistinct'
    obtain ⟨calls, result, hcalls, hwithin, hreads, hinternal, hverdict⟩ :=
      hmore hcount' hdistinct'
    have hiff : MalformedPage unicode maxMessages maxPages seen count pages ↔
        MalformedPage unicode maxMessages maxPages (seen ++ mentionedMessages (pages 0))
          (count + 1) (fun i ↦ pages (i + 1)) := by
      rw [malformedPage_iff seen hcount]
      exact ⟨fun h ↦ (h.resolve_left hitem).2.2.2, fun h ↦ Or.inr ⟨hnext, hdistinct', hcount', h⟩⟩
    refine ⟨calls + 1, result, Nat.le_add_left _ _, by omega, reads_succ (fun rest ↦ ?_) hreads,
      fun h ↦ hinternal (hiff.mp h), fun h ↦ (hverdict (hiff.not.mp h)).later⟩
    rw [readPages, hreadable]
    dsimp only
    rw [if_pos hnext]
    exact if_neg hbound

/-- **The run lemma.** -/
theorem ends_of_count {left : ℕ} (hcount : count + (left + 1) = maxPages)
    (hseen : distinct seen ≤ maxMessages) :
    Ends unicode maxMessages maxPages seen cursor count pages := by
  -- On the pages left before the bound.
  induction left generalizing seen cursor count pages with
  | zero => exact ends_step (by omega) hseen fun h ↦ absurd h (by omega)
  | succ left ih => exact ends_step (by omega) hseen fun _ h ↦ ih (by omega) h.le

end

/-! ## Every sequence of pages -/

/-- What `_history_message_ids` promises of a collection that makes so many calls and ends with that
result. -/
structure CollectedHistory (unicode : UnicodeData) (maxMessages maxPages cursor : ℕ)
    (pages : ℕ → Json) (calls : ℕ) (result : Except HistoryFailure HistoryWork) : Prop where
  reads : ∀ n, collectHistory unicode maxMessages maxPages ((firstPages pages n).map .ok) cursor =
    if n < calls then none else some result
  calls_le : calls ≤ maxPages
  /-- What it returns is all there is. -/
  complete : ∀ work, result = .ok work →
    (∃ last, calls = last + 1 ∧ hasNextPage (pages last) = false) ∧
    work.messageIds = (mentionedFirst pages calls).eraseDups ∧
    work.messageIds.length ≤ maxMessages ∧
    work.latestCursor = (shownFirst unicode pages calls).foldl max cursor
  refuses : ∀ failure, result = .error failure → failure = .workLimitExceeded
  /-- It refuses where a bound is passed, or reached with another page announced. -/
  limit : result = .error .workLimitExceeded ↔
    maxMessages < distinct (mentionedFirst pages calls) ∨
      (∃ last, calls = last + 1 ∧ hasNextPage (pages last) = true) ∧
        (maxPages ≤ calls ∨ maxMessages ≤ distinct (mentionedFirst pages calls))

section

variable {unicode : UnicodeData} {maxMessages maxPages cursor calls : ℕ} {pages : ℕ → Json}
  {result : Except HistoryFailure HistoryWork}

theorem ends_collectHistory (unicode : UnicodeData) (cursor : ℕ) (pages : ℕ → Json)
    (hmessages : 1 ≤ maxMessages) (hpages : 1 ≤ maxPages) :
    Ends unicode maxMessages maxPages [] cursor 0 pages ∧
      ∀ responses, collectHistory unicode maxMessages maxPages responses cursor =
        readPages unicode maxMessages maxPages responses 0 ⟨[], cursor⟩ := by
  obtain ⟨left, hleft⟩ : ∃ left, 0 + (left + 1) = maxPages := ⟨maxPages - 1, by omega⟩
  refine ⟨ends_of_count hleft (Nat.zero_le _), fun responses ↦ ?_⟩
  rw [collectHistory, if_neg (by omega)]

/-- **The collection makes at most `maxPages` calls**, whatever the pages are. -/
theorem exists_calls_collectHistory (unicode : UnicodeData) (cursor : ℕ) (pages : ℕ → Json)
    (hmessages : 1 ≤ maxMessages) (hpages : 1 ≤ maxPages) :
    ∃ calls result, calls ≤ maxPages ∧
      ∀ n, collectHistory unicode maxMessages maxPages ((firstPages pages n).map .ok) cursor =
        if n < calls then none else some result := by
  obtain ⟨⟨calls, result, -, hwithin, hreads, -⟩, hcollect⟩ :=
    ends_collectHistory unicode cursor pages hmessages hpages
  refine ⟨calls, result, by omega, fun n ↦ ?_⟩
  rw [hcollect]
  exact hreads n

/-- The verdict on a whole collection. -/
theorem Verdict.collectedHistory
    (h : Verdict unicode maxMessages maxPages [] cursor 0 pages calls result)
    (hreads : ∀ n, collectHistory unicode maxMessages maxPages ((firstPages pages n).map .ok)
      cursor = if n < calls then none else some result) (hcalls : calls ≤ maxPages) :
    CollectedHistory unicode maxMessages maxPages cursor pages calls result := by
  cases h with
  | @complete last hlast within =>
    rw [List.nil_append] at within
    refine ⟨hreads, hcalls, ?_, nofun, iff_of_false nofun ?_⟩
    · rintro work ⟨⟩
      exact ⟨⟨last, rfl, hlast⟩, rfl, within, rfl⟩
    · rintro (hover | ⟨⟨last', hcalls', hnext⟩, -⟩)
      · exact absurd hover (not_lt.mpr within)
      · obtain rfl := Nat.succ.inj hcalls'
        rw [hlast] at hnext
        cases hnext
  | @refused last hlimit =>
    rw [List.nil_append, Nat.zero_add] at hlimit
    refine ⟨hreads, hcalls, nofun, ?_, iff_of_true rfl ?_⟩
    · rintro failure ⟨⟩
      rfl
    · exact hlimit.imp_right fun h ↦ ⟨⟨last, rfl, h.1⟩, h.2⟩

/-- **History collection is complete or refuses, unless it comes to something malformed before a
bound ends it.** -/
theorem exists_collectedHistory_iff (hmessages : 1 ≤ maxMessages) (hpages : 1 ≤ maxPages) :
    (∃ calls result, CollectedHistory unicode maxMessages maxPages cursor pages calls result) ↔
      ¬MalformedPage unicode maxMessages maxPages [] 0 pages := by
  obtain ⟨⟨calls, result, -, hwithin, hreads, hinternal, hverdict⟩, hcollect⟩ :=
    ends_collectHistory unicode cursor pages hmessages hpages
  constructor
  · rintro ⟨calls', result', hcollected⟩ hmalformed
    -- Both say what is returned after enough pages.
    have hread := hcollected.reads (max calls calls')
    have hends := hreads (max calls calls')
    rw [List.eraseDups_nil] at hends
    rw [hcollect, hends, if_neg (by omega), if_neg (by omega), hinternal hmalformed] at hread
    exact absurd (hcollected.refuses .internal (Option.some.inj hread).symm) nofun
  · intro hwell
    refine ⟨calls, result, (hverdict hwell).collectedHistory (fun n ↦ ?_) (by omega)⟩
    rw [hcollect]
    exact hreads n

end

/-- Two pages with entries of all sorts, and the second of them for ever. -/
def twoHistoryPages : ℕ → Json
  | 0 => .obj [("historyId", .str "101"), ("nextPageToken", .str "next"), ("history", .arr
      [.str "junk", .obj [("id", .num 7), ("messagesAdded", .arr
        [.obj [("message", .obj [("id", .str "m-1")])], .null, .obj [("message", .null)],
          .obj [("message", .obj [("id", .str "m-1")])]])]])]
  | _ + 1 => .obj [("historyId", .str "103"), ("history", .arr
      [.obj [("id", .str "102"), ("messagesAdded", .arr
        [.obj [("message", .obj [("id", .str "m-2")])]])]])]

theorem exists_collectedHistory_twoPages :
    collectHistory .ascii 2 2 ((firstPages twoHistoryPages 2).map .ok) 100 =
        some (.ok ⟨["m-1", "m-2"], 103⟩) ∧
      ∃ calls result, CollectedHistory .ascii 2 2 100 twoHistoryPages calls result := by
  refine ⟨rfl, (exists_collectedHistory_iff (by decide) (by decide)).mpr ?_⟩
  have hfirst : .malformed ∉ pageItems .ascii (twoHistoryPages 0) := by decide
  have hothers : .malformed ∉ pageItems .ascii (twoHistoryPages 1) := by decide
  have hwell : ∀ n, .malformed ∉ pageItems .ascii (twoHistoryPages n)
    | 0 => hfirst
    | _ + 1 => hothers
  rintro ⟨i, -, -, before, after, hsplit, -⟩
  refine hwell i ?_
  rw [hsplit]
  exact List.mem_append_right _ List.mem_cons_self

/-- A record that has null for its messages. -/
def malformedHistoryPage (_ : ℕ) : Json :=
  .obj [("historyId", .str "102"), ("history", .arr
    [.obj [("id", .str "102"), ("messagesAdded", .null)]])]

/-- The collection raises what Python raises on null. -/
theorem not_collectedHistory : ¬∃ calls result,
    CollectedHistory .ascii 100 10 100 malformedHistoryPage calls result := by
  rintro ⟨calls, result, hcollected⟩
  have hread := hcollected.reads 1
  have hinternal : collectHistory .ascii 100 10 ((firstPages malformedHistoryPage 1).map .ok) 100 =
      some (.error .internal) := rfl
  rw [hinternal] at hread
  split at hread
  · cases hread
  · exact absurd (hcollected.refuses .internal (Option.some.inj hread).symm) nofun

end Onebox.Notifications
