import Onebox.Mail.Sanitizer
import Onebox.Python.Codecs
import Onebox.Python.Json

/-!
# The body of a mail

`extract_mail_content` on an untrusted payload: the bounded walk over its MIME parts, the bounded
decoding of their data, and the choice between plain text and sanitized HTML.

`HTMLParser` is known by the handler calls it makes on a text. It is documented to accept invalid
markup; that it may raise all the same is kept apart, in `HtmlParser.fails`.
-/

namespace Onebox.Mail

open Python

def maxBodyBytes : ℕ := 256 * 1024

def maxMimePartDepth : ℕ := 32

def maxMimeParts : ℕ := 512

/-- `HTMLParser(convert_charrefs=True)`: the handler calls that `feed` and `close` make on a text,
and whether they end with an exception of its own. -/
structure HtmlParser where
  calls : String → List HtmlCall
  fails : String → Bool

/-- What the extraction rests on. -/
structure MimeEnv where
  unicode : UnicodeData
  htmlParser : HtmlParser

/-- `MailContent`. -/
structure MailContent where
  body : String
  sanitizedHtml : Option String := none
  deriving DecidableEq

/-- The exceptions that leave `extract_mail_content`. -/
inductive MailError
  /-- The `ValueError` of a link target. -/
  | url (e : UrlError)
  | parser

/-! ## Parts and their data -/

/-- `decode_base64url_text`. -/
def decodeBase64urlText (data : Option Json) (maxBytes : ℕ) : Option String :=
  match data with
  | some (.str data) =>
    if data = "" then none
    else if (maxBytes + 2) / 3 * 4 + 4 < data.length then none
    else
      match b64decode (data.toList ++ List.replicate ((4 - data.length % 4) % 4) '=') with
      | none => none
      | some decoded => if maxBytes < decoded.length then none else some (decodeUtf8 decoded)
  | _ => none

/-- The children of a part that the walk descends into. -/
def childParts (part : Json) (depth : ℕ) : Option (List Json) :=
  match part.get? "parts" with
  | some (.arr children) => if depth < maxMimePartDepth then some children else none
  | _ => none

/-- The loop of `_walk_parts`: the parts yielded from a stack of iterators on. -/
def walkLoop (visitedParts : ℕ) : List (List Json × ℕ) → List Json
  | [] => []
  | ([], _) :: stack => walkLoop visitedParts stack
  | (part :: siblings, depth) :: stack =>
    if maxMimeParts < visitedParts + 1 then []
    else if part.isDict then
      part ::
        match childParts part depth with
        | some children => walkLoop (visitedParts + 1)
            ((children, depth + 1) :: (siblings, depth) :: stack)
        | none => walkLoop (visitedParts + 1) ((siblings, depth) :: stack)
    else walkLoop (visitedParts + 1) ((siblings, depth) :: stack)
-- Each round visits a part, of which there is a bound, or drops an iterator.
termination_by stack => (maxMimeParts + 1 - visitedParts, stack.length)
decreasing_by
  all_goals simp_wf
  all_goals omega

/-- `_walk_parts`. -/
def walkParts (payload : Json) : List Json :=
  if payload.isDict then walkLoop 0 [([payload], 0)] else []

/-- The MIME type of a part with its decoded body, where it has both. -/
def decodedBody (part : Json) : Option (String × String) :=
  match part.get? "mimeType" with
  | some (.str mimeType) =>
    let data := (part.get? "body").bind (·.get? "data")
    (decodeBase64urlText data maxBodyBytes).map fun decoded ↦ (mimeType, decoded)
  | _ => none

/-- `plain_body` and `html_body`. -/
structure Bodies where
  plainBody : Option String := none
  htmlBody : Option String := none

/-- One round of the loop of `extract_mail_content`. -/
def Bodies.add (unicode : UnicodeData) (bodies : Bodies) (part : Json) : Bodies :=
  match decodedBody part with
  | none => bodies
  | some (mimeType, decoded) =>
    if unicode.lower mimeType = "text/plain" ∧ bodies.plainBody = none then
      { bodies with plainBody := some decoded }
    else if unicode.lower mimeType = "text/html" ∧ bodies.htmlBody = none then
      { bodies with htmlBody := some decoded }
    else bodies

/-- The loop of `extract_mail_content`. -/
def collectBodies (unicode : UnicodeData) (payload : Json) : Bodies :=
  (walkParts payload).foldl (Bodies.add unicode) {}

/-- The HTML branch of `extract_mail_content`. -/
def sanitizeHtml (env : MimeEnv) (htmlBody : String) : Except MailError MailContent :=
  match Sanitizer.new.handleAll env.unicode (env.htmlParser.calls htmlBody) with
  | .error e => .error (.url e)
  | .ok sanitizer =>
    if env.htmlParser.fails htmlBody then .error .parser
    else
      let sanitizedHtml := sanitizer.renderedHtml
      .ok
        { body := sanitizer.renderedText
          sanitizedHtml := if sanitizedHtml = "" then none else some sanitizedHtml }

/-- `extract_mail_content`. -/
def extractMailContent (env : MimeEnv) (payload : Json) : Except MailError MailContent :=
  let bodies := collectBodies env.unicode payload
  match bodies.plainBody, bodies.htmlBody with
  | some plainBody, _ => .ok { body := plainBody }
  | none, none => .ok { body := "" }
  | none, some htmlBody => sanitizeHtml env htmlBody

/-! ## When the extraction raises -/

/-- The HTML text that is sanitized: there is no plain text, and it is the first of its kind. -/
def htmlToSanitize (unicode : UnicodeData) (payload : Json) : Option String :=
  match (collectBodies unicode payload).plainBody with
  | some _ => none
  | none => (collectBodies unicode payload).htmlBody

/-- A text that the parser goes through and whose visible links all have a target that splits. -/
def HarmlessHtml (env : MimeEnv) (text : String) : Prop :=
  env.htmlParser.fails text = false ∧
    ∀ target ∈ visibleTargets env.unicode 0 (env.htmlParser.calls text),
      ¬BadTarget env.unicode target

theorem sanitizeHtml_ok_iff {env : MimeEnv} {text : String} :
    (∃ content, sanitizeHtml env text = .ok content) ↔ HarmlessHtml env text := by
  have hraises : (∃ e, Sanitizer.new.handleAll env.unicode (env.htmlParser.calls text) = .error e)
      ↔ ∃ target ∈ visibleTargets env.unicode 0 (env.htmlParser.calls text),
        BadTarget env.unicode target := Sanitizer.handleAll_eq_error_iff
  rw [HarmlessHtml, sanitizeHtml]
  cases hcalls : Sanitizer.new.handleAll env.unicode (env.htmlParser.calls text) with
  | error e =>
    obtain ⟨target, hmem, hbad⟩ := hraises.mp ⟨e, hcalls⟩
    exact ⟨nofun, fun h ↦ absurd hbad (h.2 target hmem)⟩
  | ok sanitizer =>
    -- No target is bad, or the calls would have raised.
    have hgood : ∀ target ∈ visibleTargets env.unicode 0 (env.htmlParser.calls text),
        ¬BadTarget env.unicode target := by
      intro target hmem hbad
      obtain ⟨e, he⟩ := hraises.mpr ⟨target, hmem, hbad⟩
      rw [hcalls] at he
      cases he
    cases hfails : env.htmlParser.fails text with
    | true => exact ⟨nofun, nofun⟩
    | false => exact ⟨fun _ ↦ ⟨rfl, hgood⟩, fun _ ↦ ⟨_, rfl⟩⟩

/-- **The exact condition under which a payload has content.** -/
theorem extractMailContent_ok_iff (env : MimeEnv) (payload : Json) :
    (∃ content, extractMailContent env payload = .ok content)
      ↔ ∀ text, htmlToSanitize env.unicode payload = some text → HarmlessHtml env text := by
  rw [extractMailContent, htmlToSanitize]
  cases (collectBodies env.unicode payload).plainBody with
  | some plainBody => exact ⟨fun _ ↦ nofun, fun _ ↦ ⟨_, rfl⟩⟩
  | none =>
    cases (collectBodies env.unicode payload).htmlBody with
    | none => exact ⟨fun _ ↦ nofun, fun _ ↦ ⟨_, rfl⟩⟩
    | some htmlBody => simp only [sanitizeHtml_ok_iff, Option.some.injEq, forall_eq']

/-! ### A link that does not split -/

/-- A payload without children is its only part. -/
theorem walkParts_leaf {payload : Json} (hdict : payload.isDict = true)
    (hparts : payload.get? "parts" = none) : walkParts payload = [payload] := by
  have hchildren : childParts payload 0 = none := by rw [childParts, hparts]
  rw [walkParts, if_pos hdict, walkLoop, if_neg (by decide), if_pos hdict, hchildren]
  simp only [walkLoop]

/-- The calls on a tag: `/name`, or a name and attributes with quoted values, between blanks. -/
def plainTagCall (tag : List Char) : HtmlCall :=
  match tag with
  | '/' :: name => .endtag (String.ofList name)
  | _ =>
    .starttag (String.ofList (partition ' ' tag).1)
      (((tag.splitOn ' ').drop 1).map fun attr ↦
        (String.ofList (partition '=' attr).1,
          some (String.ofList ((partition '=' attr).2.filter (· ≠ '"')))))

def plainDataCall (data : List Char) : List HtmlCall :=
  if data.isEmpty then [] else [.data (String.ofList data)]

/-- The parser on plain markup: lower-case tags, values in double quotes and without blanks, no
self-closing tags, no character references, and nothing that opens with `<!` or `<?`. -/
def plainMarkup : HtmlParser where
  calls text :=
    match text.toList.splitOn '<' with
    | [] => []
    | first :: rest =>
      plainDataCall first ++ rest.flatMap fun chunk ↦
        plainTagCall (partition '>' chunk).1 :: plainDataCall (partition '>' chunk).2
  fails _ := false

/-- The HTML part `<a href="https://[">x</a>`. -/
def bracketPayload : Json :=
  .obj [("mimeType", .str "text/html"),
    ("body", .obj [("data", .str "PGEgaHJlZj0iaHR0cHM6Ly9bIj54PC9hPg==")])]

theorem decodedBody_bracketPayload :
    decodedBody bracketPayload = some ("text/html", "<a href=\"https://[\">x</a>") := by
  rfl

/-- **The hostile body**: its link makes `urlsplit` raise, and the whole extraction with it. -/
theorem not_extractMailContent_ok :
    ¬∀ payload, ∃ content, extractMailContent ⟨.ascii, plainMarkup⟩ payload = .ok content := by
  intro h
  obtain ⟨content, hcontent⟩ := h bracketPayload
  have hbodies : collectBodies .ascii bracketPayload
      = { htmlBody := some "<a href=\"https://[\">x</a>" } := by
    rw [collectBodies, walkParts_leaf rfl rfl, List.foldl_cons, List.foldl_nil, Bodies.add,
      decodedBody_bracketPayload]
    rfl
  rw [extractMailContent, hbodies] at hcontent
  cases hcontent

end Onebox.Mail
