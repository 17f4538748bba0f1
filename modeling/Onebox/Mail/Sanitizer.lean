import Onebox.Python.Url

/-!
# The strict HTML sanitizer

`_StrictHtmlSanitizer` as a machine over the handler calls that `HTMLParser` makes. Everything it
does is total, but for the target of a link: outside dropped content, `_safe_href` hands it to
`urlsplit`, which raises on some network locations.
-/

namespace Onebox.Mail

open Python

/-! ## The allowlist -/

def allowedTags : List String :=
  ["a", "b", "blockquote", "br", "code", "div", "em", "h1", "h2", "h3", "h4", "h5", "h6", "i", "li",
    "ol", "p", "pre", "span", "strong", "table", "tbody", "td", "th", "thead", "tr", "ul"]

def voidTags : List String := ["br"]

def dropContentTags : List String :=
  ["form", "iframe", "math", "object", "script", "style", "svg", "template"]

def textBreakTags : List String := ["br", "div", "li", "p", "tr"]

/-! ## The machine -/

/-- A handler call of the parser. The handlers that the sanitizer does not override do nothing. -/
inductive HtmlCall
  | starttag (tag : String) (attrs : List (String × Option String))
  | startendtag (tag : String) (attrs : List (String × Option String))
  | endtag (tag : String)
  | data (data : String)

/-- `html.escape` on one character. -/
def escapeChar (quote : Bool) (c : Char) : String :=
  match c with
  | '&' => "&amp;"
  | '<' => "&lt;"
  | '>' => "&gt;"
  | '"' => if quote then "&quot;" else "\""
  | '\'' => if quote then "&#x27;" else "'"
  | c => String.singleton c

/-- `html.escape`. -/
def escape (quote : Bool) (s : String) : String := String.join (s.toList.map (escapeChar quote))

/-- `_safe_href`. -/
def safeHref (unicode : UnicodeData) (value : String) : Except UrlError (Option String) :=
  (urlsplit unicode (strip value)).map fun parsed ↦
    if parsed.scheme = "https" ∧ parsed.netloc ≠ "" then some value
    else if parsed.scheme = "mailto" ∧ parsed.path ≠ "" then some value
    else none

/-- The first `href` attribute with a value. -/
def linkTarget (unicode : UnicodeData) (attrs : List (String × Option String)) : Option String :=
  attrs.findSome? fun attr ↦
    match attr.2 with
    | some value => if unicode.lower attr.1 = "href" ∧ value ≠ "" then some value else none
    | none => none

/-- The attributes written for an allowed tag. -/
def renderedAttrs (unicode : UnicodeData) (tag : String)
    (attrs : List (String × Option String)) : Except UrlError String :=
  if tag = "a" then
    match linkTarget unicode attrs with
    | none => .ok ""
    | some href =>
      match safeHref unicode href with
      | .error e => .error e
      | .ok none => .ok ""
      | .ok (some safe) =>
        .ok (" href=\"" ++ escape true safe ++ "\" rel=\"noopener noreferrer\"")
  else .ok ""

/-- The fields of the sanitizer. The tags that are open stand innermost first. -/
structure Sanitizer where
  output : List String
  text : List String
  openTags : List String
  dropDepth : ℕ

namespace Sanitizer

variable (unicode : UnicodeData)

/-- `__init__`. -/
def new : Sanitizer := ⟨[], [], [], 0⟩

/-- `handle_starttag`. -/
def handleStarttag (s : Sanitizer) (tag : String) (attrs : List (String × Option String)) :
    Except UrlError Sanitizer :=
  let tag := unicode.lower tag
  if s.dropDepth ≠ 0 then
    if tag ∈ dropContentTags then .ok { s with dropDepth := s.dropDepth + 1 } else .ok s
  else if tag ∈ dropContentTags then .ok { s with dropDepth := 1 }
  else if tag ∉ allowedTags then .ok s
  else
    match renderedAttrs unicode tag attrs with
    | .error e => .error e
    | .ok rendered => .ok
      { s with
        output := s.output ++ ["<" ++ tag ++ rendered ++ ">"]
        openTags := if tag ∉ voidTags then tag :: s.openTags else s.openTags
        text := if tag ∈ textBreakTags then s.text ++ ["\n"] else s.text }

/-- The loop of `handle_endtag`: what is closed, and what stays open. -/
def closeTags (tag : String) : List String → List String × List String
  | [] => ([], [])
  | current :: rest =>
    if current = tag then (["</" ++ current ++ ">"], rest)
    else
      let (closed, opened) := closeTags tag rest
      (("</" ++ current ++ ">") :: closed, opened)

/-- `handle_endtag`. -/
def handleEndtag (s : Sanitizer) (tag : String) : Sanitizer :=
  let tag := unicode.lower tag
  if s.dropDepth ≠ 0 then
    if tag ∈ dropContentTags then { s with dropDepth := s.dropDepth - 1 } else s
  else if tag ∉ allowedTags ∨ tag ∈ voidTags ∨ tag ∉ s.openTags then s
  else
    { s with
      output := s.output ++ (closeTags tag s.openTags).1
      openTags := (closeTags tag s.openTags).2
      text := if tag ∈ textBreakTags then s.text ++ ["\n"] else s.text }

/-- `handle_startendtag`. The void tag is looked for as it was written. -/
def handleStartendtag (s : Sanitizer) (tag : String) (attrs : List (String × Option String)) :
    Except UrlError Sanitizer :=
  match s.handleStarttag unicode tag attrs with
  | .error e => .error e
  | .ok s => if tag ∉ voidTags then .ok (s.handleEndtag unicode tag) else .ok s

/-- `handle_data`. -/
def handleData (s : Sanitizer) (data : String) : Sanitizer :=
  if s.dropDepth ≠ 0 ∨ data = "" then s
  else { s with output := s.output ++ [escape false data], text := s.text ++ [data] }

/-- One handler call. -/
def handle (s : Sanitizer) : HtmlCall → Except UrlError Sanitizer
  | .starttag tag attrs => s.handleStarttag unicode tag attrs
  | .startendtag tag attrs => s.handleStartendtag unicode tag attrs
  | .endtag tag => .ok (s.handleEndtag unicode tag)
  | .data data => .ok (s.handleData data)

/-- The handler calls of a text, up to the first that raises. -/
def handleAll (s : Sanitizer) : List HtmlCall → Except UrlError Sanitizer
  | [] => .ok s
  | call :: rest =>
    match s.handle unicode call with
    | .error e => .error e
    | .ok s => s.handleAll rest

/-- `rendered_html`. -/
def renderedHtml (s : Sanitizer) : String :=
  String.join (s.output ++ s.openTags.map fun tag ↦ "</" ++ tag ++ ">")

/-- `rendered_text`. -/
def renderedText (s : Sanitizer) : String := strip (String.join s.text)

end Sanitizer

/-! ## The links that are looked at -/

/-- How deep in dropped content the parser is after a call. -/
def HtmlCall.depthAfter (unicode : UnicodeData) (depth : ℕ) : HtmlCall → ℕ
  | starttag tag _ => if unicode.lower tag ∈ dropContentTags then depth + 1 else depth
  | startendtag tag _ =>
    if unicode.lower tag ∈ dropContentTags ∧ tag ∈ voidTags then depth + 1 else depth
  | endtag tag => if unicode.lower tag ∈ dropContentTags then depth - 1 else depth
  | data _ => depth

/-- The target of a call that opens a link. -/
def HtmlCall.target (unicode : UnicodeData) : HtmlCall → Option String
  | starttag tag attrs | startendtag tag attrs =>
    if unicode.lower tag = "a" then linkTarget unicode attrs else none
  | endtag _ | data _ => none

/-- The targets of the links outside dropped content. -/
def visibleTargets (unicode : UnicodeData) : ℕ → List HtmlCall → List String
  | _, [] => []
  | depth, call :: rest =>
    (if depth = 0 then (call.target unicode).toList else [])
      ++ visibleTargets unicode (call.depthAfter unicode depth) rest

/-- A target whose network location is not one. -/
def BadTarget (unicode : UnicodeData) (target : String) : Prop :=
  (netlocError unicode (networkLocation (strip target))).isSome = true

section

variable {unicode : UnicodeData} {s s' : Sanitizer}

theorem safeHref_eq_error_iff {value : String} :
    (∃ e, safeHref unicode value = .error e) ↔ BadTarget unicode value := by
  rw [BadTarget, ← urlsplit_eq_error_iff, safeHref]
  cases urlsplit unicode (strip value) with
  | error e => exact ⟨fun _ ↦ ⟨e, rfl⟩, fun _ ↦ ⟨e, rfl⟩⟩
  | ok parsed => exact ⟨nofun, nofun⟩

theorem renderedAttrs_eq_error_iff {tag : String} {attrs : List (String × Option String)} :
    (∃ e, renderedAttrs unicode tag attrs = .error e)
      ↔ tag = "a" ∧ ∃ href, linkTarget unicode attrs = some href ∧ BadTarget unicode href := by
  rw [renderedAttrs]
  by_cases htag : tag = "a"
  · rw [if_pos htag]
    cases linkTarget unicode attrs with
    | none => simp [htag]
    | some href =>
      have hiff : (∃ e, safeHref unicode href = .error e) ↔ BadTarget unicode href :=
        safeHref_eq_error_iff
      simp only [htag, true_and, Option.some.injEq, exists_eq_left', ← hiff]
      cases safeHref unicode href with
      | error e => exact ⟨fun _ ↦ ⟨e, rfl⟩, fun _ ↦ ⟨e, rfl⟩⟩
      | ok safe => cases safe <;> simp
  · rw [if_neg htag]
    simp [htag]

namespace Sanitizer

theorem handleStarttag_eq_error_iff {tag : String} {attrs : List (String × Option String)} :
    (∃ e, s.handleStarttag unicode tag attrs = .error e)
      ↔ s.dropDepth = 0 ∧ unicode.lower tag = "a" ∧
        ∃ href, linkTarget unicode attrs = some href ∧ BadTarget unicode href := by
  rw [← renderedAttrs_eq_error_iff, handleStarttag]
  split
  · rename_i hdepth
    refine ⟨?_, fun h ↦ absurd h.1 hdepth⟩
    rintro ⟨e, he⟩
    split at he
    all_goals cases he
  · rename_i hdepth
    have hdepth := not_not.mp hdepth
    split
    · rename_i hdrop
      -- An `a` is neither dropped content nor off the allowlist.
      refine ⟨nofun, ?_⟩
      rintro ⟨-, e, he⟩
      obtain ⟨ha, -⟩ := renderedAttrs_eq_error_iff.mp ⟨e, he⟩
      rw [ha] at hdrop
      exact absurd hdrop (by decide)
    · split
      · rename_i hallowed
        refine ⟨nofun, ?_⟩
        rintro ⟨-, e, he⟩
        obtain ⟨ha, -⟩ := renderedAttrs_eq_error_iff.mp ⟨e, he⟩
        rw [ha] at hallowed
        exact absurd (by decide) hallowed
      · cases renderedAttrs unicode (unicode.lower tag) attrs with
        | error e => exact ⟨fun _ ↦ ⟨hdepth, e, rfl⟩, fun _ ↦ ⟨e, rfl⟩⟩
        | ok rendered => exact ⟨nofun, nofun⟩

theorem dropDepth_of_handleStarttag {tag : String} {attrs : List (String × Option String)}
    (h : s.handleStarttag unicode tag attrs = .ok s') :
    s'.dropDepth = if unicode.lower tag ∈ dropContentTags then s.dropDepth + 1
      else s.dropDepth := by
  rw [handleStarttag] at h
  split at h
  · split at h
    · rename_i hdrop
      obtain rfl := Except.ok.inj h
      rw [if_pos hdrop]
    · rename_i hdrop
      obtain rfl := Except.ok.inj h
      rw [if_neg hdrop]
  · rename_i hdepth
    have hdepth := not_not.mp hdepth
    split at h
    · rename_i hdrop
      obtain rfl := Except.ok.inj h
      rw [if_pos hdrop, hdepth]
    · rename_i hdrop
      rw [if_neg hdrop]
      split at h
      · obtain rfl := Except.ok.inj h
        rfl
      · split at h
        · cases h
        · obtain rfl := Except.ok.inj h
          rfl

theorem dropDepth_handleEndtag (s : Sanitizer) (tag : String) :
    (s.handleEndtag unicode tag).dropDepth
      = if unicode.lower tag ∈ dropContentTags then s.dropDepth - 1 else s.dropDepth := by
  rw [handleEndtag]
  split
  · split
    · rfl
    · rfl
  · rename_i hdepth
    have hdepth := not_not.mp hdepth
    split
    · rw [hdepth, ite_self]
    · rw [hdepth, ite_self]

theorem dropDepth_handleData (s : Sanitizer) (data : String) :
    (s.handleData data).dropDepth = s.dropDepth := by
  rw [handleData]
  split
  · rfl
  · rfl

/-- A call that does not raise leads to its depth. -/
theorem dropDepth_of_handle {call : HtmlCall} (h : s.handle unicode call = .ok s') :
    s'.dropDepth = call.depthAfter unicode s.dropDepth := by
  cases call with
  | starttag tag attrs => exact dropDepth_of_handleStarttag h
  | startendtag tag attrs =>
    simp only [handle, handleStartendtag] at h
    split at h
    · cases h
    · rename_i opened hopened
      have hdepth := dropDepth_of_handleStarttag hopened
      split at h
      · rename_i hvoid
        obtain rfl := Except.ok.inj h
        rw [dropDepth_handleEndtag, hdepth, HtmlCall.depthAfter]
        by_cases hdrop : unicode.lower tag ∈ dropContentTags
        · simp [hdrop, hvoid]
        · simp [hdrop]
      · rename_i hvoid
        obtain rfl := Except.ok.inj h
        rw [hdepth, HtmlCall.depthAfter]
        simp [not_not.mp hvoid]
  | endtag tag =>
    obtain rfl := Except.ok.inj h
    exact dropDepth_handleEndtag s tag
  | data data =>
    obtain rfl := Except.ok.inj h
    exact dropDepth_handleData s data

/-- A call raises when it opens a link with a bad target outside dropped content. -/
theorem handle_eq_error_iff {call : HtmlCall} :
    (∃ e, s.handle unicode call = .error e)
      ↔ s.dropDepth = 0 ∧ ∃ href, call.target unicode = some href ∧ BadTarget unicode href := by
  have hiff : ∀ tag attrs, (∃ e, s.handleStarttag unicode tag attrs = .error e)
      ↔ s.dropDepth = 0 ∧ ∃ href, (HtmlCall.starttag tag attrs).target unicode = some href ∧
        BadTarget unicode href := by
    intro tag attrs
    rw [handleStarttag_eq_error_iff, HtmlCall.target]
    by_cases ha : unicode.lower tag = "a"
    · simp [ha]
    · simp [ha]
  cases call with
  | starttag tag attrs => exact hiff tag attrs
  | startendtag tag attrs =>
    refine Iff.trans ?_ (hiff tag attrs)
    simp only [handle, handleStartendtag]
    cases s.handleStarttag unicode tag attrs with
    | error e => exact ⟨fun _ ↦ ⟨e, rfl⟩, fun _ ↦ ⟨e, rfl⟩⟩
    | ok opened =>
      refine ⟨?_, nofun⟩
      rintro ⟨e, he⟩
      dsimp only at he
      split at he
      all_goals cases he
  | endtag tag => simp [handle, HtmlCall.target]
  | data data => simp [handle, HtmlCall.target]

/-- **The sanitizer raises on the bad targets outside dropped content, and on nothing else.** -/
theorem handleAll_eq_error_iff {calls : List HtmlCall} :
    (∃ e, s.handleAll unicode calls = .error e)
      ↔ ∃ target ∈ visibleTargets unicode s.dropDepth calls, BadTarget unicode target := by
  induction calls generalizing s with
  | nil => simp [handleAll, visibleTargets]
  | cons call rest ih =>
    have hcall : (∃ e, s.handle unicode call = .error e)
        ↔ s.dropDepth = 0 ∧ ∃ href, call.target unicode = some href ∧ BadTarget unicode href :=
      handle_eq_error_iff
    have hhead : (∃ target ∈ if s.dropDepth = 0 then (call.target unicode).toList else [],
          BadTarget unicode target)
        ↔ s.dropDepth = 0 ∧ ∃ href, call.target unicode = some href ∧ BadTarget unicode href := by
      by_cases hdepth : s.dropDepth = 0
      · simp [hdepth]
      · simp [hdepth]
    rw [handleAll, visibleTargets]
    simp only [List.mem_append, or_and_right, exists_or]
    rw [hhead, ← hcall]
    cases hhandle : s.handle unicode call with
    | error e => exact ⟨fun _ ↦ Or.inl ⟨e, rfl⟩, fun _ ↦ ⟨e, rfl⟩⟩
    | ok next =>
      rw [← dropDepth_of_handle hhandle]
      dsimp only
      rw [ih]
      exact ⟨Or.inr, fun h ↦ h.resolve_left nofun⟩

end Sanitizer

end

end Onebox.Mail
