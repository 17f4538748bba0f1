import Mathlib.Data.List.Find
import Onebox.PendingActions.ProviderStore
import Onebox.PendingActions.Staging
import Onebox.Python.Lists

/-!
# Markers

`execute_action` marks its write with the command key, `reconcile_action` looks for the mark, and
each derives it on its own. A write that is stored as it was submitted is found by its own action,
and by no other one.
-/

namespace Onebox.PendingActions

open Python Paging

/-! ## Text that passes unchanged -/

section

variable {S : Surroundings} {s commandKey : String}

/-- A character of an identifier. -/
def IsIdChar (c : Char) : Prop := (c.isAlphanum || c == '_' || c == '-') = true

theorem IsIdChar.toNat {c : Char} (h : IsIdChar c) :
    45 ≤ c.toNat ∧ c.toNat ≤ 122 ∧ c.toNat ≠ 91 ∧ c.toNat ≠ 93 := by
  have hbounds : 'A'.val.toNat = 65 ∧ 'Z'.val.toNat = 90 ∧ 'a'.val.toNat = 97 ∧
      'z'.val.toNat = 122 ∧ '0'.val.toNat = 48 ∧ '9'.val.toNat = 57 := by decide
  change ((((c.val ≥ 'A'.val ∧ c.val ≤ 'Z'.val) || (c.val ≥ 'a'.val && c.val ≤ 'z'.val)) ||
    (c.val ≥ '0'.val && c.val ≤ '9'.val)) || c == '_' || c == '-') = true at h
  simp only [Bool.or_eq_true, Bool.and_eq_true, decide_eq_true_eq, beq_iff_eq,
    UInt32.le_iff_toNat_le, ge_iff_le] at h
  change _ ≤ c.val.toNat ∧ c.val.toNat ≤ _ ∧ c.val.toNat ≠ _ ∧ c.val.toNat ≠ _
  obtain ((hletter | hdigit) | rfl) | rfl := h
  · omega
  · omega
  · decide
  · decide

theorem isIdChar_of_validateCommandKey (h : validateCommandKey commandKey = true) :
    ∀ c ∈ commandKey.toList, IsIdChar c := by
  rw [validateCommandKey, Bool.and_eq_true] at h
  exact List.all_eq_true.mp h.2

theorem isSpace_of_visible {c : Char} (hlow : 33 ≤ c.toNat) (hhigh : c.toNat < 128) :
    isSpace c = false := by
  simp only [isSpace, Bool.or_eq_false_iff, Bool.and_eq_false_iff, decide_eq_false_iff_not,
    beq_eq_false_iff_ne]
  omega

/-- Words without space are one word. -/
theorem splitWords_of_solid {cs word : List Char} (h : ∀ c ∈ cs, isSpace c = false)
    (hne : word ++ cs ≠ []) : splitWords cs word = [String.ofList (word ++ cs)] := by
  induction cs generalizing word with
  | nil =>
    rw [List.append_nil] at hne ⊢
    rw [splitWords, if_neg (by simpa using hne)]
  | cons c cs ih =>
    obtain ⟨hc, hcs⟩ := List.forall_mem_cons.mp h
    have happend : word ++ c :: cs = word ++ [c] ++ cs := by simp
    rw [splitWords, hc, if_neg Bool.false_ne_true, ih hcs (by simp), happend]

theorem join_split_of_isSolid (h : IsSolid s) : String.join (split s) = s := by
  by_cases hempty : s = ""
  · rw [hempty]
    rfl
  · have hne : [] ++ s.toList ≠ [] := by simpa using hempty
    rw [split, splitWords_of_solid h hne, List.nil_append, String.ofList_toList]
    simp [String.join]

/-- What is made of hexadecimal digits can be seen. -/
theorem visible_sha256Hexdigest (S : Surroundings) (commandKey : String) :
    ∀ c ∈ (S.env.sha256Hexdigest commandKey).toList, 33 ≤ c.toNat ∧ c.toNat < 128 := by
  have hdigits : ∀ c ∈ "0123456789abcdef".toList, 33 ≤ c.toNat ∧ c.toNat < 128 :=
    forall_mem_of_all (by decide)
  exact fun c hc ↦ hdigits c (S.hexdigest commandKey c hc)

theorem toList_append_append (s s' s'' : String) :
    (s ++ s' ++ s'').toList = s.toList ++ s'.toList ++ s''.toList := by
  rw [String.toList_append, String.toList_append]

theorem toList_gmailMessageId (S : Surroundings) (commandKey : String) :
    (gmailMessageId S.handlers commandKey).toList = "<onebox.".toList ++
      (S.env.sha256Hexdigest commandKey).toList.take 32 ++ "@onebox.invalid>".toList := by
  have hdigest : (String.ofList ((S.handlers.sha256Hexdigest commandKey).toList.take 32)).toList =
      (S.env.sha256Hexdigest commandKey).toList.take 32 := String.toList_ofList ..
  have hparts : (gmailMessageId S.handlers commandKey).toList = "<onebox.".toList ++
      (String.ofList ((S.handlers.sha256Hexdigest commandKey).toList.take 32)).toList ++
        "@onebox.invalid>".toList := toList_append_append _ _ _
  rw [hparts, hdigest]

theorem visible_gmailMessageId (S : Surroundings) (commandKey : String) :
    ∀ c ∈ (gmailMessageId S.handlers commandKey).toList, 33 ≤ c.toNat ∧ c.toNat < 128 := by
  have hbefore : ∀ c ∈ "<onebox.".toList, 33 ≤ c.toNat ∧ c.toNat < 128 :=
    forall_mem_of_all (by decide)
  have hafter : ∀ c ∈ "@onebox.invalid>".toList, 33 ≤ c.toNat ∧ c.toNat < 128 :=
    forall_mem_of_all (by decide)
  intro c hc
  rw [toList_gmailMessageId, List.mem_append, List.mem_append] at hc
  obtain (hc | hc) | hc := hc
  · exact hbefore c hc
  · exact visible_sha256Hexdigest S commandKey c (List.mem_of_mem_take hc)
  · exact hafter c hc

/-- What can be seen passes the transport unchanged. -/
theorem headerText_of_visible (h : ∀ c ∈ s.toList, 33 ≤ c.toNat ∧ c.toNat < 128) :
    S.headerText s = s :=
  S.headerText_ascii s (fun c hc ↦ (h c hc).2) fun c hc ↦ isSpace_of_visible (h c hc).1 (h c hc).2

theorem headerText_commandKey (h : validateCommandKey commandKey = true) :
    S.headerText commandKey = commandKey := by
  refine headerText_of_visible fun c hc ↦ ?_
  have hchar := (isIdChar_of_validateCommandKey h c hc).toNat
  omega

theorem headerText_gmailMessageId (S : Surroundings) (commandKey : String) :
    S.headerText (gmailMessageId S.handlers commandKey) = gmailMessageId S.handlers commandKey :=
  headerText_of_visible (visible_gmailMessageId S commandKey)

theorem isSolid_gmailMessageId (S : Surroundings) (commandKey : String) :
    IsSolid (gmailMessageId S.handlers commandKey) := fun c hc ↦
  isSpace_of_visible (visible_gmailMessageId S commandKey c hc).1
    (visible_gmailMessageId S commandKey c hc).2

/-! ## What is derived from the command key -/

variable {commandKey' : String}

/-- The prefixes of the digests that the markers are made of differ. -/
def PrefixesDiffer (S : Surroundings) (commandKey commandKey' : String) : Prop :=
  (S.env.sha256Hexdigest commandKey).toList.take 32 ≠
    (S.env.sha256Hexdigest commandKey').toList.take 32

theorem gmailMessageId_ne (h : PrefixesDiffer S commandKey commandKey') :
    gmailMessageId S.handlers commandKey ≠ gmailMessageId S.handlers commandKey' := by
  intro heq
  have hlists := congrArg String.toList heq
  rw [toList_gmailMessageId, toList_gmailMessageId] at hlists
  exact h (List.append_cancel_left (List.append_cancel_right hlists))

theorem calendarEventId_ne (h : PrefixesDiffer S commandKey commandKey') :
    calendarEventId S.handlers commandKey ≠ calendarEventId S.handlers commandKey' := by
  intro heq
  have hdigest : ∀ key, (calendarEventId S.handlers key).toList =
      "ob".toList ++ (S.env.sha256Hexdigest key).toList.take 40 := by
    intro key
    have htake : (String.ofList ((S.handlers.sha256Hexdigest key).toList.take 40)).toList =
        (S.env.sha256Hexdigest key).toList.take 40 := String.toList_ofList ..
    rw [calendarEventId, String.toList_append, htake]
  have hlists := congrArg String.toList heq
  rw [hdigest, hdigest] at hlists
  have htake := congrArg (List.take 32) (List.append_cancel_left hlists)
  rw [List.take_take, List.take_take] at htake
  exact h htake

/-- What stands between the brackets of a task marker. -/
def taskMarkerBody (commandKey : String) : List Char :=
  "onebox-command-key:".toList ++ commandKey.toList

theorem toList_taskMarker (commandKey : String) :
    (taskMarker commandKey).toList = '[' :: taskMarkerBody commandKey ++ [']'] := by
  have hopening : "[onebox-command-key:".toList = '[' :: "onebox-command-key:".toList := by decide
  have hclosing : "]".toList = [']'] := by decide
  have hparts : (taskMarker commandKey).toList =
      "[onebox-command-key:".toList ++ commandKey.toList ++ "]".toList :=
    toList_append_append _ _ _
  rw [hopening, hclosing] at hparts
  exact hparts

theorem notMem_taskMarkerBody (h : validateCommandKey commandKey = true) :
    '[' ∉ taskMarkerBody commandKey ∧ ']' ∉ taskMarkerBody commandKey ∧
      '\n' ∉ taskMarkerBody commandKey := by
  have hkey : ∀ c ∈ commandKey.toList, c ≠ '[' ∧ c ≠ ']' ∧ c ≠ '\n' := by
    intro c hc
    obtain ⟨hlow, -, hopening, hclosing⟩ := (isIdChar_of_validateCommandKey h c hc).toNat
    refine ⟨?_, ?_, ?_⟩
    · rintro rfl
      exact hopening rfl
    · rintro rfl
      exact hclosing rfl
    · rintro rfl
      exact absurd hlow (by decide)
  have hname : ∀ c ∈ "onebox-command-key:".toList, c ≠ '[' ∧ c ≠ ']' ∧ c ≠ '\n' :=
    forall_mem_of_all (by decide)
  have hbody : ∀ c ∈ taskMarkerBody commandKey, c ≠ '[' ∧ c ≠ ']' ∧ c ≠ '\n' := fun c hc ↦
    (List.mem_append.mp hc).elim (hname c) (hkey c)
  exact ⟨fun hc ↦ (hbody _ hc).1 rfl, fun hc ↦ (hbody _ hc).2.1 rfl, fun hc ↦ (hbody _ hc).2.2 rfl⟩

/-- **A marker is found in the notes of no other command**, unless the text of the notes has it. -/
theorem eq_of_infix_taskMarker {notes : String} (hkey : validateCommandKey commandKey = true)
    (hkey' : validateCommandKey commandKey' = true)
    (hfree : ¬(taskMarker commandKey').toList <:+: notes.toList)
    (h : (taskMarker commandKey').toList <:+: (notes ++ "\n\n" ++ taskMarker commandKey).toList) :
    commandKey' = commandKey := by
  have hgap : '\n' ∉ (taskMarker commandKey').toList := by
    rw [toList_taskMarker]
    have hbody := (notMem_taskMarkerBody hkey').2.2
    simpa using hbody
  have htext : (notes ++ "\n\n" ++ taskMarker commandKey).toList =
      notes.toList ++ '\n' :: ([] ++ '\n' :: (taskMarker commandKey).toList) := by
    rw [toList_append_append, List.append_assoc]
    rfl
  rw [htext] at h
  have hmarker : (taskMarker commandKey').toList <:+: (taskMarker commandKey).toList := by
    have hright := (infix_or_infix_of_gap hgap h).resolve_left hfree
    refine (infix_or_infix_of_gap hgap hright).resolve_left fun hnil ↦ ?_
    rw [List.infix_nil, toList_taskMarker] at hnil
    cases hnil
  rw [toList_taskMarker, toList_taskMarker] at hmarker
  obtain ⟨hopening, hclosing, -⟩ := notMem_taskMarkerBody hkey
  have hbodies := eq_of_infix_brackets (by decide) hopening hclosing hmarker
  exact String.toList_inj.mp (List.append_cancel_left hbodies)

end

/-! ## What is stored of a message -/

section

variable {S : Surroundings} {headers : List (String × String)}
  {name contentType commandKey : String}
  {t : ActionType} {payload : Json} {message : MimeMessage} {threadId : Option String}

/-- Headers with ASCII names are found by their names in lower case. -/
theorem getHeaderValue_ascii (hheaders : ∀ header ∈ headers, IsAscii header.1)
    (hname : IsAscii name) :
    getHeaderValue S.handlers headers name =
      (headers.find? fun header ↦
        UnicodeData.ascii.lower header.1 = UnicodeData.ascii.lower name).map Prod.snd := by
  have hlower : ∀ header ∈ headers,
      decide (S.handlers.unicode.lower header.1 = S.handlers.unicode.lower name) =
        decide (UnicodeData.ascii.lower header.1 = UnicodeData.ascii.lower name) := by
    intro header hmem
    have hheader : S.handlers.unicode.lower header.1 = UnicodeData.ascii.lower header.1 :=
      S.lower_ascii _ (hheaders header hmem)
    have hname : S.handlers.unicode.lower name = UnicodeData.ascii.lower name :=
      S.lower_ascii _ hname
    rw [hheader, hname]
  rw [getHeaderValue, List.find?_congr hlower]

/-- The names of the headers of a stored message are ASCII text. -/
theorem isAscii_storedHeaders {message : MimeMessage}
    (h : ∀ name ∈ message.headers.map Prod.fst, IsAscii name) :
    ∀ header ∈ storedHeaders S contentType message, IsAscii header.1 := by
  simp only [storedHeaders, List.forall_mem_cons, List.forall_mem_map] at h ⊢
  exact ⟨by decide, by decide, h⟩

/-- The names of all headers in lower case. -/
theorem lower_headerNames :
    UnicodeData.ascii.lower "Content-Type" = "content-type" ∧
      UnicodeData.ascii.lower "MIME-Version" = "mime-version" ∧
      UnicodeData.ascii.lower "To" = "to" ∧ UnicodeData.ascii.lower "to" = "to" ∧
      UnicodeData.ascii.lower "from" = "from" ∧ UnicodeData.ascii.lower "subject" = "subject" ∧
      UnicodeData.ascii.lower "In-Reply-To" = "in-reply-to" ∧
      UnicodeData.ascii.lower "References" = "references" ∧
      UnicodeData.ascii.lower "Message-ID" = "message-id" ∧
      UnicodeData.ascii.lower "X-OneBox-Command-Key" = "x-onebox-command-key" := by
  decide

/-- What a lookup reads of the headers of a stored message. -/
structure Marked (S : Surroundings) (headers : List (String × String))
    (commandKey recipient : String) :
    Prop where
  recipient : getHeaderValue S.handlers headers "To" = some (S.headerText recipient)
  messageId : getHeaderValue S.handlers headers "Message-ID" =
    some (S.headerText (gmailMessageId S.handlers commandKey))
  marker : getHeaderValue S.handlers headers "X-OneBox-Command-Key" =
    some (S.headerText commandKey)

theorem marked_of_providerRequest (contentType : String)
    (h : providerRequest S.handlers t payload commandKey = some (.sendMessage message threadId)) :
    (t = .sendEmail ∨ t = .sendReply) ∧
      (t = .sendReply → ∃ thread, threadId = some thread ∧
        textAt payload "thread_id" = some thread) ∧
      ∃ recipient, textAt payload "recipient_email" = some recipient ∧
        Marked S (storedHeaders S contentType message) commandKey recipient := by
  cases t with
  | sendEmail =>
    simp only [providerRequest, Option.bind_eq_bind, Option.bind_eq_some_iff, Option.some.injEq,
      ProviderRequest.sendMessage.injEq] at h
    obtain ⟨sender, -, recipient, hrecipient, subject, -, body, -, rfl, rfl⟩ := h
    refine ⟨Or.inl rfl, (by rintro ⟨⟩), recipient, hrecipient, ?_⟩
    -- All names are ASCII, so the lookup without case finds the first header of the name.
    have hascii : ∀ header ∈ storedHeaders S contentType
        (createRawMessage sender [recipient] subject
        body [] [] (gmailMessageId S.handlers commandKey) (markerHeaders commandKey)),
        IsAscii header.1 := by
      refine isAscii_storedHeaders ?_
      have hnames : (createRawMessage sender [recipient] subject body [] []
          (gmailMessageId S.handlers commandKey) (markerHeaders commandKey)).headers.map Prod.fst =
            ["to", "from", "subject", "Message-ID", "X-OneBox-Command-Key"] := rfl
      rw [hnames]
      decide
    refine ⟨?_, ?_, ?_⟩
    · rw [getHeaderValue_ascii hascii (by decide)]
      simp [storedHeaders, createRawMessage, lower_headerNames]
    · rw [getHeaderValue_ascii hascii (by decide)]
      simp [storedHeaders, createRawMessage, lower_headerNames]
    · rw [getHeaderValue_ascii hascii (by decide)]
      simp [storedHeaders, createRawMessage, markerHeaders, lower_headerNames]
  | sendReply =>
    simp only [providerRequest, Option.bind_eq_bind, Option.bind_eq_some_iff, Option.some.injEq,
      ProviderRequest.sendMessage.injEq] at h
    obtain ⟨sender, -, recipient, hrecipient, subject, -, body, -, thread, hthread, originalId, -,
      references, -, rfl, rfl⟩ := h
    refine ⟨Or.inr rfl, fun _ ↦ ⟨thread, rfl, hthread⟩, recipient, hrecipient, ?_⟩
    have hascii : ∀ header ∈ storedHeaders S contentType (createRawReplyMessage S.handlers.unicode
        sender [recipient] subject body originalId references
        (gmailMessageId S.handlers commandKey) (markerHeaders commandKey)), IsAscii header.1 := by
      refine isAscii_storedHeaders ?_
      have hnames : (createRawReplyMessage S.handlers.unicode sender [recipient] subject body
          originalId references (gmailMessageId S.handlers commandKey)
          (markerHeaders commandKey)).headers.map Prod.fst =
            ["to", "from", "subject", "In-Reply-To", "References", "Message-ID",
              "X-OneBox-Command-Key"] := rfl
      rw [hnames]
      decide
    refine ⟨?_, ?_, ?_⟩
    · rw [getHeaderValue_ascii hascii (by decide)]
      simp [storedHeaders, createRawReplyMessage, lower_headerNames]
    · rw [getHeaderValue_ascii hascii (by decide)]
      simp [storedHeaders, createRawReplyMessage, lower_headerNames]
    · rw [getHeaderValue_ascii hascii (by decide)]
      simp [storedHeaders, createRawReplyMessage, markerHeaders, lower_headerNames]
  | createEvent =>
    simp only [providerRequest, Option.bind_eq_bind, Option.bind_eq_some_iff, Option.some.injEq,
      reduceCtorEq, and_false, exists_false] at h
  | createTask =>
    simp only [providerRequest, Option.bind_eq_bind, Option.bind_eq_some_iff, Option.some.injEq,
      reduceCtorEq, and_false, exists_false] at h
  | other name => cases h

/-! ## The recipient -/

variable {given : Json} {recipient : String}

/-- The recipient of a canonical payload is a canonical address. -/
theorem exists_canonicalEmail_recipient (ht : t = .sendEmail ∨ t = .sendReply)
    (hcanonical : canonicalizeActionPayload S.env t given = some payload)
    (hrecipient : textAt payload "recipient_email" = some recipient) :
    ∃ s, canonicalEmail S.env s = some recipient := by
  obtain ⟨model, candidate, dumped, hmodel, -, -, hvalidate, rfl⟩ :=
    canonicalizeActionPayload_eq_some hcanonical
  have hdump := Schema.dump_of_validate hvalidate
  have hmem : textField "recipient_email" none none (canonicalEmail S.env) ∈ model := by
    obtain rfl | rfl := ht
    · rw [← Option.some.inj hmodel, sendEmailPayload]
      simp
    · rw [← Option.some.inj hmodel, sendReplyPayload]
      simp
  have hlookup := Schema.lookup_dump (nodup_payloadModel hmodel) hdump hmem
  change dumped.lookup "recipient_email" = _ at hlookup
  obtain ⟨v, hv, hstr⟩ := Option.bind_eq_some_iff.mp hrecipient
  obtain rfl := Json.str?_eq_some_iff.mp hstr
  have hread := hlookup.symm.trans hv
  rw [ModelField.read] at hread
  split at hread
  · obtain ⟨s, s', -, -, hvalid, heq⟩ := textField_eq_some hread
    rw [Json.str.inj heq]
    exact ⟨_, hvalid⟩
  · cases hread

/-- A canonical address is the one address of its header, and is folded. -/
theorem getaddresses_of_canonicalEmail {s : String} (h : canonicalEmail S.env s = some recipient) :
    S.handlers.getaddresses recipient = [recipient] ∧
      S.handlers.unicode.casefold recipient = recipient ∧ recipient ≠ "" ∧ IsSolid recipient := by
  obtain ⟨v, -, hparse, hplain, rfl⟩ := canonicalEmail_eq_some h
  have hfolded : PlainAddress (S.env.folding.casefold v).toList := by
    rw [CaseFolding.toList_casefold]
    exact hplain.flatMap S.env.folding
  refine ⟨S.getaddresses_plain _ hfolded (S.env.parseaddr_casefold v hparse), ?_, ?_,
    hfolded.no_space⟩
  · exact (S.casefold_eq _).trans (CaseFolding.casefold_casefold S.env.folding v)
  · intro hempty
    obtain ⟨as, ds, hsplit, -⟩ := hfolded.parts
    rw [hempty] at hsplit
    simp at hsplit

end

/-! ## The parts of a store -/

def StoredObject.message? : StoredObject → Option MessageMetadata
  | message m => some m
  | _ => none

def StoredObject.event? : StoredObject → Option CalendarEvent
  | event e => some e
  | _ => none

def StoredObject.task? : StoredObject → Option (TaskItem × String)
  | task t taskListId => some (t, taskListId)
  | _ => none

/-- The message has the id that a search for the command goes by. -/
def isHit (S : Surroundings) (commandKey : String) (m : MessageMetadata) : Bool :=
  getHeaderValue S.handlers m.headers "Message-ID" = some (gmailMessageId S.handlers commandKey)

/-- The event has the id that a lookup for the command asks for. -/
def isEvent (S : Surroundings) (commandKey : String) (e : CalendarEvent) : Bool :=
  e.id = some (calendarEventId S.handlers commandKey)

section

variable {S : Surroundings} {store : ProviderStore} {commandKey : String} {object : StoredObject}

theorem filterMap_message_objects (store : ProviderStore) :
    store.objects.filterMap StoredObject.message? = store.messages := by
  simp [ProviderStore.objects, List.filterMap_map, Function.comp_def, StoredObject.message?]

theorem filterMap_event_objects (store : ProviderStore) :
    store.objects.filterMap StoredObject.event? = store.events := by
  simp [ProviderStore.objects, List.filterMap_map, Function.comp_def, StoredObject.event?]

theorem filterMap_task_objects (store : ProviderStore) :
    store.objects.filterMap StoredObject.task? = store.tasklists.flatMap TaskListing.entries := by
  simp [ProviderStore.objects, List.filterMap_map, Function.comp_def, StoredObject.task?]

/-- A scan filters the tasks that can be read. -/
theorem scanTaskMarker_eq_filter (tasklists : List TaskListing) (marker : String) :
    scanTaskMarker tasklists marker =
      (tasklists.flatMap TaskListing.entries).filter fun entry ↦ entry.1.hasMarker marker := by
  rw [scanTaskMarker, List.filter_flatMap]
  refine List.flatMap_congr fun taskList _ ↦ ?_
  rw [TaskListing.entries]
  cases taskList.id.filter (· ≠ "") with
  | none => rfl
  | some taskListId =>
    dsimp only
    rw [List.filter_map]
    rfl

/-- What a lookup goes by is carried. -/
theorem carriesKey_of_isHit (object : StoredObject) (m : MessageMetadata)
    (hobject : object.message? = some m) (h : isHit S commandKey m = true) :
    object.CarriesKey S commandKey := by
  cases object with
  | message m' =>
    obtain rfl := Option.some.inj hobject
    exact Or.inr (of_decide_eq_true h)
  | _ => cases hobject

theorem find?_isEvent (events : List CalendarEvent) :
    (events.find? fun e ↦ e.id = some (calendarEventId S.handlers commandKey)) =
      events.find? (isEvent S commandKey) := rfl

theorem carriesKey_of_isEvent (object : StoredObject) (e : CalendarEvent)
    (hobject : object.event? = some e) (h : isEvent S commandKey e = true) :
    object.CarriesKey S commandKey := by
  cases object with
  | event e' =>
    obtain rfl := Option.some.inj hobject
    exact Or.inr (of_decide_eq_true h)
  | _ => cases hobject

theorem carriesKey_of_hasMarker (object : StoredObject) (entry : TaskItem × String)
    (hobject : object.task? = some entry)
    (h : entry.1.hasMarker (taskMarker commandKey) = true) : object.CarriesKey S commandKey := by
  cases object with
  | task t taskListId =>
    obtain rfl := Option.some.inj hobject
    exact h
  | _ => cases hobject

section

variable {α : Type} {part : StoredObject → Option α} {p : α → Bool} {a : α}

/-- The one object that carries the key is all that a lookup finds. -/
theorem filter_eq_singleton_of_storedAlone (h : StoredAlone S store commandKey object)
    (hcarries : ∀ object a, part object = some a → p a = true → object.CarriesKey S commandKey)
    (hpart : part object = some a) (hp : p a = true) :
    (store.objects.filterMap part).filter p = [a] := by
  obtain ⟨before, after, hobjects, hothers⟩ := h
  rw [hobjects]
  refine filter_filterMap_eq_singleton hpart hp fun other hmem b hb ↦ ?_
  exact Bool.eq_false_of_not_eq_true fun hpb ↦ hothers other hmem (hcarries other b hb hpb)

/-- Where no object carries the key, a lookup finds nothing. -/
theorem filter_eq_nil_of_storedAlone (h : StoredAlone S store commandKey object)
    (hcarries : ∀ object a, part object = some a → p a = true → object.CarriesKey S commandKey)
    (hobject : ¬object.CarriesKey S commandKey) :
    (store.objects.filterMap part).filter p = [] := by
  obtain ⟨before, after, hobjects, hothers⟩ := h
  refine filter_filterMap_eq_nil fun other hmem b hb ↦ ?_
  refine Bool.eq_false_of_not_eq_true fun hpb ↦ ?_
  have hother := hcarries other b hb hpb
  rw [hobjects, List.mem_append, List.mem_cons] at hmem
  obtain hmem | rfl | hmem := hmem
  · exact hothers other (List.mem_append_left _ hmem) hother
  · exact hobject hother
  · exact hothers other (List.mem_append_right _ hmem) hother

end

end

/-! ## Dispatch and lookup -/

/-- `execute_action` submits this request, for a canonical payload under a command key of the
server. The addresses are ASCII, and no text has a marker in it. -/
structure Submits (S : Surroundings) (action : PendingAction) (payload : Json)
    (request : ProviderRequest) : Prop where
  commandKey : validateCommandKey action.commandKey = true
  canonical : canonicalizeActionPayload S.env action.actionType action.payload = some payload
  ascii : ∀ key ∈ ["sender_email", "recipient_email"], ∀ address,
    textAt payload key = some address → IsAscii address
  unmarked : ∀ key text, textAt payload key = some text →
    ∀ commandKey, ¬(taskMarker commandKey).toList <:+: text.toList
  request : executeRequest S.handlers action = some request

/-- A write that is stored as it was submitted is found by its own action and by no other one. -/
structure MarkersAgree (S : Surroundings) : Prop where
  reconciled : ∀ action payload request id object store pages taskListId resource,
    Submits S action payload request → StoredAs S request id object →
    StoredAlone S store action.commandKey object → AnsweredFrom S store action.commandKey pages →
    resource.get? "id" = some (.str id) → id ≠ "" →
      ∃ sent found,
        writeOutcome action.actionType payload
          (callResult action.actionType taskListId (.ok resource)) = .returned sent ∧
        (reconcileAction S.handlers action pages.answers).status = .succeeded ∧
        (reconcileAction S.handlers action pages.answers).result = some found ∧
        sent.get? "external_id" = some (.str id) ∧ found.get? "external_id" = some (.str id)
  apart : ∀ action payload request id object other store pages,
    Submits S action payload request → StoredAs S request id object →
    validateCommandKey other.commandKey = true → other.commandKey ≠ action.commandKey →
    PrefixesDiffer S action.commandKey other.commandKey →
    StoredAlone S store other.commandKey object → AnsweredFrom S store other.commandKey pages →
      (reconcileAction S.handlers other pages.answers).status ≠ .succeeded

section

variable {S : Surroundings} {action : PendingAction} {payload body : Json}
  {request : ProviderRequest} {id : String} {object : StoredObject} {store : ProviderStore}
  {pages : LookupPages} {mime : MimeMessage} {threadId : Option String}

theorem Submits.providerRequest (h : Submits S action payload request) :
    providerRequest S.handlers action.actionType payload action.commandKey = some request := by
  have hrequest := h.request
  have hcanonical : S.handlers.rules.canonicalizeActionPayload action.actionType action.payload =
      some payload := h.canonical
  rw [executeRequest, hcanonical] at hrequest
  exact hrequest

/-- An event carries the command key in two places. -/
theorem Submits.event {sendUpdates : String}
    (h : Submits S action payload (.insertEvent body sendUpdates)) :
    action.actionType = .createEvent ∧
      body.get? "id" = some (.str (calendarEventId S.handlers action.commandKey)) ∧
      oneboxCommandKey body = some action.commandKey := by
  have hrequest := h.providerRequest
  cases ht : action.actionType with
  | createEvent =>
    rw [ht] at hrequest
    simp only [PendingActions.providerRequest, Option.bind_eq_bind, Option.bind_eq_some_iff,
      Option.some.injEq, ProviderRequest.insertEvent.injEq] at hrequest
    obtain ⟨attendees, -, title, -, location, -, description, -, start, -, timeZone, -, finish, -,
      rfl, -⟩ := hrequest
    exact ⟨rfl, rfl, rfl⟩
  | _ =>
    rw [ht] at hrequest
    simp only [PendingActions.providerRequest, Option.bind_eq_bind, Option.bind_eq_some_iff,
      Option.some.injEq, reduceCtorEq, and_false, exists_false] at hrequest

/-- A task carries the command key behind its own notes. -/
theorem Submits.task (h : Submits S action payload (.insertTask body)) :
    action.actionType = .createTask ∧ ∃ notes, textAt payload "notes" = some notes ∧
      body.get? "notes" = some (.str (notes ++ "\n\n" ++ taskMarker action.commandKey)) := by
  have hrequest := h.providerRequest
  cases ht : action.actionType with
  | createTask =>
    rw [ht] at hrequest
    simp only [PendingActions.providerRequest, Option.bind_eq_bind, Option.bind_eq_some_iff,
      Option.some.injEq, ProviderRequest.insertTask.injEq] at hrequest
    obtain ⟨notes, hnotes, title, -, rfl⟩ := hrequest
    exact ⟨rfl, notes, hnotes, rfl⟩
  | _ =>
    rw [ht] at hrequest
    simp only [PendingActions.providerRequest, Option.bind_eq_bind, Option.bind_eq_some_iff,
      Option.some.injEq, reduceCtorEq, and_false, exists_false] at hrequest

/-- A stored message is the command's. -/
theorem Submits.message (h : Submits S action payload (.sendMessage mime threadId))
    {contentType : String} {m : MessageMetadata}
    (hheaders : m.headers = storedHeaders S contentType mime)
    (hthread : ∀ id, threadId = some id → m.threadId = some id) :
    (action.actionType = .sendEmail ∨ action.actionType = .sendReply) ∧
      getHeaderValue S.handlers m.headers "X-OneBox-Command-Key" = some action.commandKey ∧
      getHeaderValue S.handlers m.headers "Message-ID" =
        some (gmailMessageId S.handlers action.commandKey) ∧
      Carries S.handlers action payload m := by
  obtain ⟨ht, hthreadId, recipient, hrecipient, hmarked⟩ :=
    marked_of_providerRequest contentType h.providerRequest
  obtain ⟨s, hs⟩ := exists_canonicalEmail_recipient ht h.canonical hrecipient
  obtain ⟨haddresses, hfolded, hne, hsolid⟩ := getaddresses_of_canonicalEmail hs
  have hto : S.headerText recipient = recipient :=
    S.headerText_ascii _ (h.ascii _ (by simp) _ hrecipient) hsolid
  rw [← hheaders] at hmarked
  have hmarker := hmarked.marker
  rw [headerText_commandKey h.commandKey] at hmarker
  have hmessageId := hmarked.messageId
  rw [headerText_gmailMessageId] at hmessageId
  refine ⟨ht, hmarker, hmessageId, hmarker, ?_, ⟨recipient, ?_, hne, ?_⟩, fun hreply ↦ ?_⟩
  · rw [hmessageId, Option.getD_some, join_split_of_isSolid (isSolid_gmailMessageId S _)]
  · rw [hmarked.recipient, hto, Option.getD_some, haddresses]
    exact List.mem_singleton_self recipient
  · obtain ⟨v, hv, hstr⟩ := Option.bind_eq_some_iff.mp hrecipient
    rw [hfolded, hv, Json.str?_eq_some_iff.mp hstr]
  · obtain ⟨thread, hsome, htext⟩ := hthreadId hreply
    exact (hthread thread hsome).trans htext.symm

/-! ### The result of the write -/

variable {resource taskListId : Json} {t : ActionType}

/-- A value with an id is a dictionary that counts as true. -/
theorem truthy_of_get? {v : Json} (h : resource.get? "id" = some v) :
    resource.truthy = true ∧ resource.isDict = true := by
  cases resource with
  | obj fields =>
    cases fields with
    | nil => cases h
    | cons field fields => exact ⟨rfl, rfl⟩
  | _ => cases h

theorem confirmResource_of_id (unconfirmed : String) (result : Json → Json)
    (hid : resource.get? "id" = some (.str id)) (hne : id ≠ "") :
    confirmResource unconfirmed resource result = .returned (result (.str id)) := by
  obtain ⟨htruthy, hdict⟩ := truthy_of_get? hid
  have hstr : (Json.str id).truthy = true := decide_eq_true hne
  rw [confirmResource, if_pos htruthy, if_pos hdict, hid]
  exact if_pos hstr

theorem taskInserted_of_id (hid : resource.get? "id" = some (.str id)) (hne : id ≠ "") :
    taskInserted taskListId resource = .returned (.obj [("external_id", .str id),
      ("task_list_id", taskListId), ("provider", .str "tasks")]) := by
  obtain ⟨htruthy, hdict⟩ := truthy_of_get? hid
  have hstr : (Json.str id).truthy = true := decide_eq_true hne
  rw [taskInserted, if_pos htruthy, if_pos hdict, hid]
  exact if_pos hstr

/-- An accepted write returns the id of its object. -/
theorem exists_sent (payload taskListId : Json) (ht : t.isSupported = true)
    (hid : resource.get? "id" = some (.str id)) (hne : id ≠ "") :
    ∃ sent, writeOutcome t payload (callResult t taskListId (.ok resource)) = .returned sent ∧
      sent.get? "external_id" = some (.str id) := by
  cases t with
  | createTask =>
    refine ⟨.obj [("external_id", .str id), ("task_list_id", taskListId),
      ("provider", .str "tasks")], ?_, rfl⟩
    rw [callResult, taskInserted_of_id hid hne]
    rfl
  | other name => cases ht
  | _ =>
    refine ⟨_, confirmResource_of_id _ _ hid hne, ?_⟩
    rfl

/-! ### The result of the lookup -/

theorem withService_of_service {answers : LookupAnswers} (h : answers.service = true)
    (unavailable : String) (result : ReconciliationResult) :
    withService t answers unavailable (.ok result) = result := if_pos h

/-- A message that is stored alone is found. -/
theorem reconcileAction_of_message {m : MessageMetadata} {contentType : String}
    (hsubmits : Submits S action payload (.sendMessage mime threadId))
    (hheaders : m.headers = storedHeaders S contentType mime)
    (hthread : ∀ id, threadId = some id → m.threadId = some id)
    (halone : StoredAlone S store action.commandKey (.message m))
    (hanswered : AnsweredFrom S store action.commandKey pages) :
    reconcileAction S.handlers action pages.answers =
      ⟨.succeeded, some (.obj [("external_id", .str m.id), ("provider", .str "gmail")]), none,
        [("lookup", .text "exact_marker")]⟩ := by
  obtain ⟨ht, -, hmessageId, hcarries⟩ := hsubmits.message hheaders hthread
  have hhits : store.hits S action.commandKey = [m] := by
    have hfilter := filter_eq_singleton_of_storedAlone halone carriesKey_of_isHit rfl
      (decide_eq_true hmessageId)
    rwa [filterMap_message_objects] at hfilter
  have hmem : m ∈ store.messages := by
    have hmem : m ∈ store.hits S action.commandKey := by
      rw [hhits]
      exact List.mem_singleton_self m
    exact (List.mem_filter.mp hmem).1
  have hfound : Found pages [m.id] := by
    have hsearch := hanswered.search
    rwa [hhits] at hsearch
  have hsearch : searchMatches pages.answers.search [] = .ok [m.id] :=
    found_singleton_iff.mp hfound
  have hmessage : pages.answers.message = .ok m := hanswered.message m hmem hfound
  rw [reconcileAction_gmail _ ht hsubmits.canonical, reconcileGmail, hsearch]
  dsimp only
  rw [hmessage]
  dsimp only
  rw [if_pos (messageMatches_iff.mpr hcarries)]
  exact withService_of_service hanswered.service _ _

/-- An event that is stored alone is found. -/
theorem reconcileAction_of_event {sendUpdates : String}
    (hsubmits : Submits S action payload (.insertEvent body sendUpdates))
    (hid : body.get? "id" = some (.str id))
    (halone : StoredAlone S store action.commandKey (.event ⟨some id, oneboxCommandKey body⟩))
    (hanswered : AnsweredFrom S store action.commandKey pages) :
    reconcileAction S.handlers action pages.answers =
      ⟨.succeeded, some (.obj [("external_id", .str id), ("provider", .str "calendar")]), none,
        [("lookup", .text "exact_marker")]⟩ := by
  obtain ⟨ht, hbody, hkey⟩ := hsubmits.event
  have hid' : calendarEventId S.handlers action.commandKey = id :=
    Json.str.inj (Option.some.inj (hbody.symm.trans hid))
  have hisEvent : isEvent S action.commandKey ⟨some id, oneboxCommandKey body⟩ = true :=
    decide_eq_true (congrArg some hid'.symm)
  have hfind : store.events.find? (isEvent S action.commandKey) =
      some ⟨some id, oneboxCommandKey body⟩ := by
    have hfilter := filter_eq_singleton_of_storedAlone halone carriesKey_of_isEvent rfl hisEvent
    rw [filterMap_event_objects] at hfilter
    rw [← List.head?_filter, hfilter]
    rfl
  have hevent : pages.answers.event = .ok (some ⟨some id, oneboxCommandKey body⟩) := by
    have hread := hanswered.event
    rwa [find?_isEvent, hfind] at hread
  have hcanonical : S.handlers.rules.canonicalizeActionPayload action.actionType action.payload =
      some payload := hsubmits.canonical
  rw [reconcileAction, hcanonical, ht]
  dsimp only
  rw [reconcileCalendar, hevent, hid', hkey]
  dsimp only
  rw [if_pos ⟨rfl, rfl⟩]
  exact withService_of_service hanswered.service _ _

/-- A task that is stored alone is found. -/
theorem reconcileAction_of_task {notes listId : String}
    (hsubmits : Submits S action payload (.insertTask body))
    (hnotes : body.get? "notes" = some (.str notes))
    (halone : StoredAlone S store action.commandKey (.task ⟨id, some notes⟩ listId))
    (hanswered : AnsweredFrom S store action.commandKey pages) :
    reconcileAction S.handlers action pages.answers =
      ⟨.succeeded, some (.obj [("external_id", .str id), ("task_list_id", .str listId),
          ("provider", .str "tasks")]), none, [("lookup", .text "exact_marker")]⟩ := by
  obtain ⟨ht, text, -, hbody⟩ := hsubmits.task
  have hnotes' : text ++ "\n\n" ++ taskMarker action.commandKey = notes :=
    Json.str.inj (Option.some.inj (hbody.symm.trans hnotes))
  have hmarker : TaskItem.hasMarker (taskMarker action.commandKey) ⟨id, some notes⟩ = true := by
    refine decide_eq_true ?_
    rw [Option.getD_some, ← hnotes', String.toList_append]
    exact (List.suffix_append _ _).isInfix
  have hscan : scanTaskMarker store.tasklists (taskMarker action.commandKey) =
      [(⟨id, some notes⟩, listId)] := by
    have hfilter := filter_eq_singleton_of_storedAlone halone carriesKey_of_hasMarker rfl hmarker
    rwa [filterMap_task_objects, ← scanTaskMarker_eq_filter] at hfilter
  have htasklists : pages.answers.tasklists = .ok store.tasklists := hanswered.tasklists
  rw [reconcileAction_task _ ht hsubmits.canonical, reconcileTask, htasklists]
  dsimp only
  rw [hscan]
  exact withService_of_service hanswered.service _ _

/-! ### Other actions -/

variable {commandKey : String}

/-- A stored object carries no key but that of its action. -/
theorem StoredAs.not_carriesKey (h : StoredAs S request id object)
    (hsubmits : Submits S action payload request) (hkey : validateCommandKey commandKey = true)
    (hne : commandKey ≠ action.commandKey)
    (hprefixes : PrefixesDiffer S action.commandKey commandKey) :
    ¬object.CarriesKey S commandKey := by
  cases h with
  | message hheaders hthread =>
    obtain ⟨-, hmarker, hmessageId, -⟩ := hsubmits.message hheaders hthread
    rintro (hcarried | hcarried)
    · exact hne (Option.some.inj (hcarried.symm.trans hmarker))
    · exact gmailMessageId_ne hprefixes (Option.some.inj (hmessageId.symm.trans hcarried))
  | event hid =>
    obtain ⟨-, hbody, hmarker⟩ := hsubmits.event
    rintro (hcarried | hcarried)
    · exact hne (Option.some.inj (hcarried.symm.trans hmarker))
    · have hid' := Json.str.inj (Option.some.inj (hbody.symm.trans hid))
      exact calendarEventId_ne hprefixes (hid'.trans (Option.some.inj hcarried))
  | task hnotes =>
    obtain ⟨-, text, htext, hbody⟩ := hsubmits.task
    obtain rfl := Json.str.inj (Option.some.inj (hbody.symm.trans hnotes))
    intro hcarried
    exact hne (eq_of_infix_taskMarker hsubmits.commandKey hkey
      (hsubmits.unmarked _ _ htext commandKey) (of_decide_eq_true hcarried))

theorem not_succeeds_error (e : GoogleError) : ¬Succeeds (.error e) := by
  rintro ⟨result, hresult, -⟩
  cases hresult

theorem not_succeeds_unsettled (errorCode : String) (evidence : Evidence) :
    ¬Succeeds (.ok (unsettled errorCode evidence)) := by
  rintro ⟨result, hresult, hsucceeded⟩
  rw [← Except.ok.inj hresult] at hsucceeded
  cases hsucceeded

/-- Where nothing carries the key, nothing succeeds. -/
theorem not_succeeded_of_storedAlone (halone : StoredAlone S store action.commandKey object)
    (hobject : ¬object.CarriesKey S action.commandKey)
    (hanswered : AnsweredFrom S store action.commandKey pages) :
    (reconcileAction S.handlers action pages.answers).status ≠ .succeeded := by
  intro hsucceeded
  -- A Gmail search finds nothing.
  have hgmail : action.actionType = .sendEmail ∨ action.actionType = .sendReply → False := by
    intro ht
    obtain ⟨-, messageId, -, -, hfound, -⟩ := (succeeded_iff_of_gmail ht).mp hsucceeded
    have hhits : store.hits S action.commandKey = [] := by
      have hfilter := filter_eq_nil_of_storedAlone halone carriesKey_of_isHit hobject
      rwa [filterMap_message_objects] at hfilter
    have hsearch := hanswered.search
    rw [hhits] at hsearch
    cases hsearch.unique hfound
  cases hcanonical :
    S.handlers.rules.canonicalizeActionPayload action.actionType action.payload with
  | none =>
    rw [status_reconcileAction_of_none _ hcanonical] at hsucceeded
    cases hsucceeded
  | some payload =>
    cases ht : action.actionType with
    | sendEmail => exact hgmail (Or.inl ht)
    | sendReply => exact hgmail (Or.inr ht)
    | createEvent =>
      have hevent : pages.answers.event = .error (.rejected (some 404)) := by
        have hread := hanswered.event
        rw [find?_isEvent] at hread
        have hfilter := filter_eq_nil_of_storedAlone halone carriesKey_of_isEvent hobject
        rw [filterMap_event_objects] at hfilter
        rwa [← List.head?_filter, hfilter] at hread
      rw [reconcileAction, hcanonical, ht] at hsucceeded
      have hlookup := (withService_succeeded_iff.mp hsucceeded).2
      rw [reconcileCalendar, hevent] at hlookup
      exact not_succeeds_error _ hlookup
    | createTask =>
      have htasklists : pages.answers.tasklists = .ok store.tasklists := hanswered.tasklists
      have hscan : scanTaskMarker store.tasklists (taskMarker action.commandKey) = [] := by
        have hfilter := filter_eq_nil_of_storedAlone halone carriesKey_of_hasMarker hobject
        rwa [filterMap_task_objects, ← scanTaskMarker_eq_filter] at hfilter
      rw [reconcileAction_task _ ht hcanonical] at hsucceeded
      have hlookup := (withService_succeeded_iff.mp hsucceeded).2
      rw [reconcileTask, htasklists] at hlookup
      dsimp only at hlookup
      rw [hscan] at hlookup
      exact not_succeeds_unsettled _ _ hlookup
    | other name =>
      rw [reconcileAction, hcanonical, ht] at hsucceeded
      cases hsucceeded

end

/-- **Dispatch and lookup agree on markers.** -/
theorem markersAgree (S : Surroundings) : MarkersAgree S where
  reconciled action payload request id object store pages taskListId resource hsubmits hstored
      halone hanswered hid hne := by
    cases hstored with
    | message hheaders hthread =>
      obtain ⟨ht, -⟩ := hsubmits.message hheaders hthread
      have hsupported : action.actionType.isSupported = true := by
        obtain ht | ht := ht
        · rw [ht]
          rfl
        · rw [ht]
          rfl
      obtain ⟨sent, hsent, hsentId⟩ := exists_sent payload taskListId hsupported hid hne
      have hfound := reconcileAction_of_message hsubmits hheaders hthread halone hanswered
      exact ⟨sent, _, hsent, congrArg (·.status) hfound, congrArg (·.result) hfound, hsentId, rfl⟩
    | event hgiven =>
      have hsupported : action.actionType.isSupported = true := by
        rw [hsubmits.event.1]
        rfl
      obtain ⟨sent, hsent, hsentId⟩ := exists_sent payload taskListId hsupported hid hne
      have hfound := reconcileAction_of_event hsubmits hgiven halone hanswered
      exact ⟨sent, _, hsent, congrArg (·.status) hfound, congrArg (·.result) hfound, hsentId, rfl⟩
    | task hgiven =>
      have hsupported : action.actionType.isSupported = true := by
        rw [hsubmits.task.1]
        rfl
      obtain ⟨sent, hsent, hsentId⟩ := exists_sent payload taskListId hsupported hid hne
      have hfound := reconcileAction_of_task hsubmits hgiven halone hanswered
      exact ⟨sent, _, hsent, congrArg (·.status) hfound, congrArg (·.result) hfound, hsentId, rfl⟩
  apart action payload request id object other store pages hsubmits hstored hkey hne hprefixes
      halone hanswered :=
    not_succeeded_of_storedAlone halone (hstored.not_carriesKey hsubmits hkey hne hprefixes)
      hanswered

/-! ## A task that is found -/

/-- Surroundings as they are on plain ASCII text. -/
def plainSurroundings : Surroundings where
  env := { plainEnv with
    folding := .ascii
    sha256Hexdigest := fun _ ↦ "22a48051594c1949deed7040850c1f0f8764537f5191be56732d16a54c1d8153"
    parseaddr_casefold := fun _ _ ↦ rfl }
  unicode := { UnicodeData.ascii with casefold := CaseFolding.ascii.casefold }
  getaddresses header := [header]
  headerText := id
  lower_ascii _ _ := rfl
  casefold_eq _ := rfl
  getaddresses_plain _ _ _ := rfl
  headerText_ascii _ _ _ := rfl
  hexdigest _ := by
    change ∀ c ∈ "22a48051594c1949deed7040850c1f0f8764537f5191be56732d16a54c1d8153".toList, _
    exact forall_mem_of_all (by decide)

def reviewKey : String := "command-key-paginated-scan"

def reviewPayload : Json :=
  .obj [("schema_version", .num 1), ("action_type", .str "create_task"), ("title", .str "Review"),
    ("notes", .str "Check this")]

def reviewAction : PendingAction :=
  newPendingAction 1 7 .createTask reviewPayload "" reviewKey fun _ ↦ 0

/-- The task as it is stored. -/
def reviewTask : TaskItem where
  id := "task-later"
  notes := some ("Check this" ++ "\n\n" ++ taskMarker reviewKey)

def reviewRequest : ProviderRequest :=
  .insertTask (.obj [("title", .str "Review"),
    ("notes", .str ("Check this" ++ "\n\n" ++ taskMarker reviewKey))])

def reviewStore : ProviderStore where
  messages := []
  events := []
  tasklists := [⟨some "list-second", [reviewTask]⟩]

/-- The task list and its task are on second pages. -/
def reviewPages : LookupPages where
  service := true
  search := [.ok ⟨[], none⟩]
  message := .error .other
  event := .error (.rejected (some 404))
  tasklists := [.ok ⟨[], some "next"⟩,
    .ok ⟨[⟨some "list-second", [.ok ⟨[], some "next"⟩, .ok ⟨[reviewTask], none⟩]⟩], none⟩]

theorem submits_review : Submits plainSurroundings reviewAction reviewPayload reviewRequest where
  commandKey := by decide
  canonical := rfl
  ascii key hkey address haddress := by
    rcases List.mem_pair.mp hkey with rfl | rfl
    · cases haddress
    · cases haddress
  unmarked key text htext commandKey hinfix := by
    have hopening : '[' ∈ text.toList :=
      hinfix.subset (by rw [toList_taskMarker]; exact List.mem_cons_self)
    have htexts : ∀ field ∈ [("schema_version", Json.num 1), ("action_type", .str "create_task"),
        ("title", .str "Review"), ("notes", .str "Check this")],
        ∀ s, field.2 = .str s → '[' ∉ s.toList := by
      simp only [List.forall_mem_cons]
      refine ⟨nofun, ?_, ?_, ?_, nofun⟩
      · rintro s ⟨⟩
        decide
      · rintro s ⟨⟩
        decide
      · rintro s ⟨⟩
        decide
    obtain ⟨v, hv, hstr⟩ := Option.bind_eq_some_iff.mp htext
    obtain ⟨before, after, hfields, -⟩ := List.lookup_eq_some_iff.mp hv
    refine htexts (key, v) ?_ text (Json.str?_eq_some_iff.mp hstr) hopening
    rw [hfields]
    simp
  request := rfl

theorem markersAgree_review :
    (reconcileAction plainSurroundings.handlers reviewAction reviewPages.answers).status =
      .succeeded := by
  obtain ⟨sent, found, -, hstatus, -⟩ := (markersAgree plainSurroundings).reconciled reviewAction
    reviewPayload reviewRequest "task-later" (.task reviewTask "list-second") reviewStore
    reviewPages (.str "list-second") (.obj [("id", .str "task-later")]) submits_review
    (.task rfl) ⟨[], [], rfl, nofun⟩
    { service := rfl
      search := ⟨[⟨[], none⟩], .last [] rfl, rfl⟩
      message := nofun
      event := rfl
      tasklists := rfl } rfl (by decide)
  exact hstatus

end Onebox.PendingActions
