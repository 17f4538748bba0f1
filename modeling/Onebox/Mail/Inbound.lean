import Onebox.Mail.Mime

/-!
# The body of an inbound mail

`get_email_body`: the first text among the parts of an untrusted payload, by a bounded walk of its
own, which does not pass over a malformed part but raises.
-/

namespace Onebox.Mail

open Python

def maxInboundMimePartDepth : ℕ := 32

def maxInboundMimeParts : ℕ := 512

/-- `ValueError`. -/
structure ValueError where
  message : String

/-- What the loop finds in a part: children to visit, a text to return, or neither. -/
inductive PartFound
  | children (parts : List Json)
  | text (extracted : String)
  | nothing

/-- The loop of `get_email_body`, on the data of a body. -/
def readData : Option Json → Except ValueError PartFound
  | none | some .null => .ok .nothing
  | some (.str encoded) =>
    if encoded = "" then .ok .nothing
    else
      match decodeBase64urlText (some (.str encoded)) maxBodyBytes with
      | none => .error ⟨"invalid or oversized body data"⟩
      | some extracted => .ok (if extracted = "" then .nothing else .text extracted)
  | some _ => .error ⟨"invalid body data"⟩

/-- The loop of `get_email_body`, on the body of a part. -/
def readBody : Option Json → Except ValueError PartFound
  | none | some .null => .ok .nothing
  | some (.obj fields) => readData (Json.get? "data" (.obj fields))
  | some _ => .error ⟨"invalid body"⟩

/-- `mime_type.lower() in {"text/plain", "text/html"}`. -/
def isTextType (unicode : UnicodeData) (mimeType : String) : Bool :=
  unicode.lower mimeType = "text/plain" || unicode.lower mimeType = "text/html"

/-- The loop of `get_email_body`, on a part without children. -/
def readLeaf (unicode : UnicodeData) (part : Json) : Except ValueError PartFound :=
  match part.get? "mimeType" with
  | some (.str mimeType) =>
    if isTextType unicode mimeType then readBody (part.get? "body") else .ok .nothing
  | _ => .error ⟨"invalid MIME type"⟩

/-- The loop of `get_email_body`, on a part. -/
def readPart (unicode : UnicodeData) (part : Json) : Except ValueError PartFound :=
  if part.isDict then
    match part.get? "parts" with
    | none | some .null | some (.arr []) => readLeaf unicode part
    | some (.arr children) => .ok (.children children)
    | some _ => .error ⟨"invalid MIME parts"⟩
  else .error ⟨"invalid MIME part"⟩

/-- The loop of `get_email_body`, from a stack of iterators on. -/
def bodyLoop (unicode : UnicodeData) (visitedParts : ℕ) :
    List (List Json × ℕ) → Except ValueError String
  | [] => .ok ""
  | ([], _) :: stack => bodyLoop unicode visitedParts stack
  | (part :: siblings, depth) :: stack =>
    if maxInboundMimeParts < visitedParts + 1 then .ok ""
    else
      match readPart unicode part with
      | .error e => .error e
      | .ok (.text extracted) => .ok extracted
      | .ok .nothing => bodyLoop unicode (visitedParts + 1) ((siblings, depth) :: stack)
      | .ok (.children children) =>
        if depth < maxInboundMimePartDepth then
          bodyLoop unicode (visitedParts + 1)
            ((children, depth + 1) :: (siblings, depth) :: stack)
        else bodyLoop unicode (visitedParts + 1) ((siblings, depth) :: stack)
-- Each round visits a part, of which there is a bound, or drops an iterator.
termination_by stack => (maxInboundMimeParts + 1 - visitedParts, stack.length)
decreasing_by
  all_goals simp_wf
  all_goals omega

/-- `get_email_body`. -/
def getEmailBody (unicode : UnicodeData) (payload : Json) : Except ValueError String :=
  if payload.isDict then bodyLoop unicode 0 [([payload], 0)]
  else .error ⟨"invalid MIME part"⟩

end Onebox.Mail
