import Onebox.PendingActions.Integrity
import Onebox.PendingActions.Reconciliation

/-!
# A provider that keeps what it is given

The provider stores an accepted write as it was submitted, under an id, and answers lookups from
what it has stored. `Surroundings` collects what a write passes through on its way there and back:
the `email` package and the Unicode database, with what is relied on of each.
-/

namespace Onebox.PendingActions

open Python Paging

/-! ## Surroundings -/

def IsAscii (s : String) : Prop := ∀ c ∈ s.toList, c.toNat < 128

instance (s : String) : Decidable (IsAscii s) :=
  List.decidableBAll (fun c : Char ↦ c.toNat < 128) s.toList

/-- Text without space. -/
def IsSolid (s : String) : Prop := ∀ c ∈ s.toList, isSpace c = false

/-- The code between the payloads and the provider. -/
structure Surroundings where
  env : PayloadEnv
  unicode : UnicodeData
  /-- The addresses of `email.utils.getaddresses([header])`. -/
  getaddresses : String → List String
  /-- What comes of a header value by `Message.as_bytes` and unfolding. -/
  headerText : String → String
  lower_ascii : ∀ s, IsAscii s → unicode.lower s = UnicodeData.ascii.lower s
  casefold_eq : ∀ s, unicode.casefold s = env.folding.casefold s
  /-- A single plain address is read by both parsers alike. -/
  getaddresses_plain : ∀ a, PlainAddress a.toList → env.parseaddr a = a → getaddresses a = [a]
  headerText_ascii : ∀ s, IsAscii s → IsSolid s → headerText s = s
  hexdigest : ∀ s, ∀ c ∈ (env.sha256Hexdigest s).toList, c ∈ "0123456789abcdef".toList

namespace Surroundings

/-- The handlers of this deployment. -/
def handlers (S : Surroundings) : HandlerEnv := S.env.handlers S.unicode S.getaddresses

end Surroundings

/-! ## The store -/

/-- What a provider account holds. -/
structure ProviderStore where
  messages : List MessageMetadata
  events : List CalendarEvent
  tasklists : List TaskListing

inductive StoredObject
  | message (message : MessageMetadata)
  | event (event : CalendarEvent)
  | task (task : TaskItem) (taskListId : String)

/-- The tasks of a list, if the list has an id. -/
def TaskListing.entries (taskList : TaskListing) : List (TaskItem × String) :=
  match taskList.id.filter (· ≠ "") with
  | none => []
  | some taskListId => taskList.tasks.map (·, taskListId)

def ProviderStore.objects (store : ProviderStore) : List StoredObject :=
  store.messages.map .message ++ store.events.map .event ++
    (store.tasklists.flatMap TaskListing.entries).map fun entry ↦ .task entry.1 entry.2

/-- The object carries the command key: in a header or a property, or as what is derived from it. -/
def StoredObject.CarriesKey (S : Surroundings) (commandKey : String) : StoredObject → Prop
  | message m =>
    getHeaderValue S.handlers m.headers "X-OneBox-Command-Key" = some commandKey ∨
      getHeaderValue S.handlers m.headers "Message-ID" = some (gmailMessageId S.handlers commandKey)
  | event e =>
    e.oneboxCommandKey = some commandKey ∨ e.id = some (calendarEventId S.handlers commandKey)
  | task t _ => t.hasMarker (taskMarker commandKey) = true

/-- The headers of a message as they are stored, behind those of `MIMEMultipart`. -/
def storedHeaders (S : Surroundings) (contentType : String) (message : MimeMessage) :
    List (String × String) :=
  ("Content-Type", contentType) :: ("MIME-Version", "1.0") ::
    message.headers.map fun header ↦ (header.1, S.headerText header.2)

/-- The private command key of an event resource. -/
def oneboxCommandKey (body : Json) : Option String :=
  (((body.get? "extendedProperties").bind (·.get? "private")).bind
    (·.get? "oneboxCommandKey")).bind Json.str?

/-- The object is what the provider stores of the write, under this id. -/
inductive StoredAs (S : Surroundings) : ProviderRequest → String → StoredObject → Prop
  | message {message : MimeMessage} {threadId : Option String} {contentType : String}
      {m : MessageMetadata} (headers : m.headers = storedHeaders S contentType message)
      (thread : ∀ id, threadId = some id → m.threadId = some id) :
      StoredAs S (.sendMessage message threadId) m.id (.message m)
  | event {body : Json} {sendUpdates id : String} (given : body.get? "id" = some (.str id)) :
      StoredAs S (.insertEvent body sendUpdates) id (.event ⟨some id, oneboxCommandKey body⟩)
  | task {body : Json} {notes id taskListId : String}
      (given : body.get? "notes" = some (.str notes)) :
      StoredAs S (.insertTask body) id (.task ⟨id, some notes⟩ taskListId)

/-- The object is stored once, and no other object carries the command key. -/
def StoredAlone (S : Surroundings) (store : ProviderStore) (commandKey : String)
    (object : StoredObject) : Prop :=
  ∃ before after, store.objects = before ++ object :: after ∧
    ∀ other ∈ before ++ after, ¬other.CarriesKey S commandKey

/-- The messages that a search for the command finds. -/
def ProviderStore.hits (store : ProviderStore) (S : Surroundings) (commandKey : String) :
    List MessageMetadata :=
  store.messages.filter fun m ↦
    getHeaderValue S.handlers m.headers "Message-ID" = some (gmailMessageId S.handlers commandKey)

/-- A lookup for the command is answered from the store, in pages of any size. -/
structure AnsweredFrom (S : Surroundings) (store : ProviderStore) (commandKey : String)
    (pages : LookupPages) : Prop where
  service : pages.service = true
  search : Found pages ((store.hits S commandKey).map MessageMetadata.id)
  message : ∀ m ∈ store.messages, Found pages [m.id] → pages.message = .ok m
  event : pages.event =
    match store.events.find? fun e ↦ e.id = some (calendarEventId S.handlers commandKey) with
    | some e => .ok (some e)
    | none => .error (.rejected (some 404))
  tasklists : readTaskListings pages.tasklists = .ok store.tasklists

end Onebox.PendingActions
