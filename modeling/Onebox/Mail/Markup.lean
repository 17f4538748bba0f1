import Onebox.Forest.Zipper
import Onebox.Mail.Sanitizer

/-!
# The markup that the sanitizer writes

Markup is an ordered forest of the elements that may be written, each with the proof that it may.
The output of the sanitizer, with the tags that are open, is always such a forest as far as it is
built; closing the open tags makes a forest of it, which is what `rendered_html` writes.
-/

namespace Onebox.Mail

open Python Forest

/-! ## Markup -/

/-- `_safe_href` accepts the target. -/
def Accepted (unicode : UnicodeData) (value : String) : Prop :=
  safeHref unicode value = .ok (some value)

/-- An element that may be written. -/
structure Element (unicode : UnicodeData) where
  name : String
  href : Option String
  allowed : name ∈ allowedTags
  notVoid : name ∉ voidTags
  link : ∀ value ∈ href, name = "a" ∧ Accepted unicode value

/-- Text, or a tag that is never closed. -/
inductive Leaf
  | text (data : String)
  | void (tag : String) (allowed : tag ∈ allowedTags) (void : tag ∈ voidTags)

abbrev Markup (unicode : UnicodeData) := Forest (Element unicode) Leaf

/-- The attributes of a link. -/
def linkAttributes : Option String → String
  | none => ""
  | some value => " href=\"" ++ escape true value ++ "\" rel=\"noopener noreferrer\""

section

variable (unicode : UnicodeData)

def htmlReading : Reading (Element unicode) Leaf String where
  opening e := ["<" ++ e.name ++ linkAttributes e.href ++ ">"]
  closing e := ["</" ++ e.name ++ ">"]
  leaf
    | .text data => [escape false data]
    | .void tag _ _ => ["<" ++ tag ++ ">"]

/-- The HTML of a forest. -/
def Markup.render (markup : Markup unicode) : String :=
  String.join (markup.read (htmlReading unicode))

/-- A tag that is opened, or a text. -/
inductive MarkupEvent
  | tag (name : String)
  | text (data : String)

def eventReading : Reading (Element unicode) Leaf MarkupEvent where
  opening e := [.tag e.name]
  closing _ := []
  leaf
    | .text data => [.text data]
    | .void tag _ _ => [.tag tag]

/-- The tags and texts of a forest, in order. -/
def Markup.events (markup : Markup unicode) : List MarkupEvent := markup.read (eventReading unicode)

/-- What a call outside dropped content adds to the markup. -/
def HtmlCall.events : HtmlCall → List MarkupEvent
  | .starttag tag _ | .startendtag tag _ =>
    if unicode.lower tag ∈ allowedTags then [.tag (unicode.lower tag)] else []
  | .endtag _ => []
  | .data text => if text = "" then [] else [.text text]

/-- What the calls outside dropped content add. -/
def visibleEvents : ℕ → List HtmlCall → List MarkupEvent
  | _, [] => []
  | depth, call :: rest =>
    (if depth = 0 then call.events unicode else [])
      ++ visibleEvents (call.depthAfter unicode depth) rest

/-- The call opens dropped content. -/
def HtmlCall.opensDropped : HtmlCall → Bool
  | .starttag tag _ | .startendtag tag _ => unicode.lower tag ∈ dropContentTags
  | .endtag _ | .data _ => false

/-- The calls that are left when dropped content is taken out. -/
def visibleCalls : ℕ → List HtmlCall → List HtmlCall
  | _, [] => []
  | depth, call :: rest =>
    (if depth = 0 ∧ call.opensDropped unicode = false then [call] else [])
      ++ visibleCalls (call.depthAfter unicode depth) rest

end

/-! ## Escaped text -/

/-- What follows the ampersand of a reference that `html.escape` writes. -/
def references : List String := ["amp;", "lt;", "gt;", "quot;", "#x27;"]

/-- The text has no angle brackets, and each ampersand begins a reference. -/
def Escaped : List Char → Prop
  | [] => True
  | c :: rest => c ≠ '<' ∧ c ≠ '>' ∧ (c = '&' → ∃ name ∈ references, name.toList <+: rest) ∧
    Escaped rest

theorem escaped_escapeChar (quote : Bool) (c : Char) {rest : List Char} (h : Escaped rest) :
    Escaped ((escapeChar quote c).toList ++ rest) := by
  unfold escapeChar
  split
  · simpa [Escaped, references] using h
  · simpa [Escaped, references] using h
  · simpa [Escaped, references] using h
  · cases quote with
    | true => simpa [Escaped, references] using h
    | false => simpa [Escaped] using h
  · cases quote with
    | true => simpa [Escaped, references] using h
    | false => simpa [Escaped] using h
  · rename_i hamp hlt hgt _ _
    rw [String.toList_singleton]
    exact ⟨hlt, hgt, fun hc ↦ absurd hc hamp, h⟩

/-- **What is escaped has no markup of its own.** -/
theorem escaped_escape (quote : Bool) (s : String) : Escaped (escape quote s).toList := by
  rw [escape, String.toList_join]
  induction s.toList with
  | nil => trivial
  | cons c cs ih =>
    rw [List.map_cons, List.flatMap_cons]
    exact escaped_escapeChar quote c ih

/-- A quoted attribute ends where it was closed. -/
theorem quote_notMem_escape (s : String) : '"' ∉ (escape true s).toList := by
  rw [escape, String.toList_join]
  intro hmem
  simp only [List.mem_flatMap, List.mem_map] at hmem
  obtain ⟨_, ⟨c, -, rfl⟩, hmem⟩ := hmem
  unfold escapeChar at hmem
  split at hmem
  · simp at hmem
  · simp at hmem
  · simp at hmem
  · simp at hmem
  · simp at hmem
  · rename_i hquote _
    rw [String.toList_singleton, List.mem_singleton] at hmem
    exact hquote hmem.symm

/-! ## What is built -/

/-- The links that `_safe_href` accepts. -/
theorem accepted_iff {unicode : UnicodeData} {value : String} :
    Accepted unicode value ↔ ∃ parsed, urlsplit unicode (strip value) = .ok parsed ∧
      (parsed.scheme = "https" ∧ parsed.netloc ≠ "" ∨
        parsed.scheme = "mailto" ∧ parsed.path ≠ "") := by
  rw [Accepted, safeHref]
  cases urlsplit unicode (strip value) with
  | error e => exact ⟨(by rintro ⟨⟩), (by rintro ⟨_, ⟨⟩, -⟩)⟩
  | ok parsed =>
    simp only [Except.map, Except.ok.injEq, exists_eq_left']
    split
    · rename_i hhttps
      exact iff_of_true rfl (Or.inl hhttps)
    · rename_i hhttps
      split
      · rename_i hmailto
        exact iff_of_true rfl (Or.inr hmailto)
      · rename_i hmailto
        exact iff_of_false (by rintro ⟨⟩) fun h ↦ h.elim hhttps hmailto

/-- An accepted target is returned as it is. -/
theorem accepted_of_safeHref {unicode : UnicodeData} {value safe : String}
    (h : safeHref unicode value = .ok (some safe)) : Accepted unicode safe := by
  have hvalue : safe = value := by
    rw [safeHref] at h
    cases hparsed : urlsplit unicode (strip value) with
    | error e =>
      rw [hparsed] at h
      cases h
    | ok parsed =>
      rw [hparsed] at h
      have h := Except.ok.inj h
      dsimp only at h
      split at h
      · exact (Option.some.inj h).symm
      · split at h
        · exact (Option.some.inj h).symm
        · cases h
  subst hvalue
  exact h

/-- The zipper is what the sanitizer has built. -/
structure Builds (unicode : UnicodeData) (s : Sanitizer) (z : Zipper (Element unicode) Leaf) :
    Prop where
  output : s.output = z.read (htmlReading unicode)
  openTags : s.openTags = z.labels.map Element.name

section

variable {unicode : UnicodeData} {s s' : Sanitizer} {z : Zipper (Element unicode) Leaf}

/-- The attributes of an allowed tag are those of a link. -/
theorem renderedAttrs_eq_linkAttributes {tag rendered : String}
    {attrs : List (String × Option String)}
    (h : renderedAttrs unicode tag attrs = .ok rendered) :
    ∃ href, rendered = linkAttributes href ∧
      ∀ value ∈ href, tag = "a" ∧ Accepted unicode value := by
  rw [renderedAttrs] at h
  split at h
  · rename_i htag
    split at h
    · exact ⟨none, (Except.ok.inj h).symm, (by rintro _ ⟨⟩)⟩
    · split at h
      · cases h
      · exact ⟨none, (Except.ok.inj h).symm, (by rintro _ ⟨⟩)⟩
      · rename_i safe hsafe
        refine ⟨some safe, (Except.ok.inj h).symm, ?_⟩
        rintro _ ⟨⟩
        exact ⟨htag, accepted_of_safeHref hsafe⟩
  · exact ⟨none, (Except.ok.inj h).symm, (by rintro _ ⟨⟩)⟩

/-- The loop of `handle_endtag` closes the innermost elements. -/
theorem exists_zipper_closeTags (tag : String) (z : Zipper (Element unicode) Leaf) :
    ∃ z' : Zipper (Element unicode) Leaf,
      z'.read (htmlReading unicode) = z.read (htmlReading unicode)
        ++ (Sanitizer.closeTags tag (z.labels.map Element.name)).1 ∧
      z'.labels.map Element.name = (Sanitizer.closeTags tag (z.labels.map Element.name)).2 ∧
      z'.read (eventReading unicode) = z.read (eventReading unicode) := by
  -- On the elements that are open.
  generalize hlabels : z.labels = labels
  induction labels generalizing z with
  | nil =>
    refine ⟨z, (List.append_nil _).symm, ?_, rfl⟩
    rw [hlabels]
    rfl
  | cons e rest ih =>
    have hpop : z.pop.labels = rest := by rw [Zipper.labels_pop, hlabels, List.tail_cons]
    have hhtml : z.pop.read (htmlReading unicode)
        = z.read (htmlReading unicode) ++ ["</" ++ e.name ++ ">"] := Zipper.read_pop _ z hlabels
    have hevents : z.pop.read (eventReading unicode) = z.read (eventReading unicode) ++ [] :=
      Zipper.read_pop _ z hlabels
    rw [List.append_nil] at hevents
    rw [List.map_cons, Sanitizer.closeTags]
    split
    · exact ⟨z.pop, hhtml, by rw [hpop], hevents⟩
    · obtain ⟨z', hhtml', hopened, hevents'⟩ := ih z.pop hpop
      refine ⟨z', ?_, hopened, hevents'.trans hevents⟩
      rw [hhtml', hhtml, List.append_assoc]
      rfl

/-! ## One call -/

theorem not_allowed_of_drop {tag : String} (h : tag ∈ dropContentTags) : tag ∉ allowedTags :=
  (by decide : ∀ tag ∈ dropContentTags, tag ∉ allowedTags) tag h

/-- The step lemma for `handle_starttag`. -/
theorem Builds.starttag (h : Builds unicode s z) {tag : String}
    {attrs : List (String × Option String)} (hs : s.handleStarttag unicode tag attrs = .ok s') :
    ∃ z', Builds unicode s' z' ∧ z'.read (eventReading unicode) = z.read (eventReading unicode)
      ++ if s.dropDepth = 0 ∧ unicode.lower tag ∈ allowedTags then [.tag (unicode.lower tag)]
        else [] := by
  rw [Sanitizer.handleStarttag] at hs
  split at hs
  -- In dropped content.
  · rename_i hdepth
    refine ⟨z, ?_, by rw [if_neg fun hvisible ↦ hdepth hvisible.1, List.append_nil]⟩
    split at hs
    · obtain rfl := Except.ok.inj hs
      exact ⟨h.output, h.openTags⟩
    · obtain rfl := Except.ok.inj hs
      exact h
  rename_i hdepth
  split at hs
  · rename_i hdrop
    obtain rfl := Except.ok.inj hs
    exact ⟨z, ⟨h.output, h.openTags⟩,
      by rw [if_neg fun hvisible ↦ not_allowed_of_drop hdrop hvisible.2, List.append_nil]⟩
  split at hs
  · rename_i hallowed
    obtain rfl := Except.ok.inj hs
    exact ⟨z, h, by rw [if_neg fun hvisible ↦ hallowed hvisible.2, List.append_nil]⟩
  rename_i hallowed
  have hallowed := not_not.mp hallowed
  split at hs
  · cases hs
  rename_i rendered hrendered
  obtain rfl := Except.ok.inj hs
  have hvisible : s.dropDepth = 0 ∧ unicode.lower tag ∈ allowedTags :=
    ⟨not_not.mp hdepth, hallowed⟩
  rw [if_pos hvisible]
  obtain ⟨href, rfl, hlink⟩ := renderedAttrs_eq_linkAttributes hrendered
  by_cases hvoid : unicode.lower tag ∈ voidTags
  · -- A void tag is no link.
    have hhref : href = none := by
      refine Option.eq_none_iff_forall_ne_some.mpr fun value hvalue ↦ ?_
      rw [(hlink value hvalue).1] at hvoid
      exact absurd hvoid (by decide)
    refine ⟨z.addLeaf (.void (unicode.lower tag) hallowed hvoid), ⟨?_, ?_⟩, ?_⟩
    · rw [Zipper.read_addLeaf, h.output, hhref, linkAttributes, String.append_empty]
      rfl
    · rw [if_neg (not_not.mpr hvoid), Zipper.labels_addLeaf]
      exact h.openTags
    · exact Zipper.read_addLeaf _ _ _
  · refine ⟨z.push ⟨unicode.lower tag, href, hallowed, hvoid, hlink⟩, ⟨?_, ?_⟩, ?_⟩
    · rw [Zipper.read_push, h.output]
      rfl
    · rw [if_pos hvoid, Zipper.labels_push, h.openTags]
      rfl
    · exact Zipper.read_push _ _ _

/-- The step lemma for `handle_endtag`. -/
theorem Builds.endtag (h : Builds unicode s z) (tag : String) :
    ∃ z', Builds unicode (s.handleEndtag unicode tag) z' ∧
      z'.read (eventReading unicode) = z.read (eventReading unicode) := by
  rw [Sanitizer.handleEndtag]
  split
  · split
    · exact ⟨z, ⟨h.output, h.openTags⟩, rfl⟩
    · exact ⟨z, h, rfl⟩
  · split
    · exact ⟨z, h, rfl⟩
    · obtain ⟨z', hhtml, hopened, hevents⟩ := exists_zipper_closeTags (unicode.lower tag) z
      refine ⟨z', ⟨?_, ?_⟩, hevents⟩
      · rw [hhtml, ← h.output, ← h.openTags]
      · rw [hopened, ← h.openTags]

theorem Builds.data (h : Builds unicode s z) (data : String) :
    ∃ z', Builds unicode (s.handleData data) z' ∧
      z'.read (eventReading unicode) = z.read (eventReading unicode)
        ++ if s.dropDepth = 0 then (HtmlCall.data data).events unicode else [] := by
  rw [Sanitizer.handleData, HtmlCall.events]
  by_cases hdepth : s.dropDepth = 0
  · rw [if_pos hdepth]
    by_cases hempty : data = ""
    · rw [if_pos (Or.inr hempty), if_pos hempty]
      exact ⟨z, h, (List.append_nil _).symm⟩
    · rw [if_neg (not_or.mpr ⟨not_not.mpr hdepth, hempty⟩), if_neg hempty]
      refine ⟨z.addLeaf (.text data), ⟨?_, ?_⟩, Zipper.read_addLeaf _ _ _⟩
      · rw [Zipper.read_addLeaf, h.output]
        rfl
      · rw [Zipper.labels_addLeaf]
        exact h.openTags
  · rw [if_neg hdepth, if_pos (Or.inl hdepth)]
    exact ⟨z, h, (List.append_nil _).symm⟩

/-- The step lemma: a call adds to the markup what it adds outside dropped content. -/
theorem Builds.handle (h : Builds unicode s z) {call : HtmlCall}
    (hs : s.handle unicode call = .ok s') :
    ∃ z', Builds unicode s' z' ∧ z'.read (eventReading unicode) = z.read (eventReading unicode)
      ++ if s.dropDepth = 0 then call.events unicode else [] := by
  have hstart : ∀ {tag attrs opened}, s.handleStarttag unicode tag attrs = .ok opened →
      ∃ z', Builds unicode opened z' ∧
        z'.read (eventReading unicode) = z.read (eventReading unicode)
          ++ if s.dropDepth = 0 then (HtmlCall.starttag tag attrs).events unicode else [] := by
    intro tag attrs opened hopened
    obtain ⟨z', hbuilds, hevents⟩ := h.starttag hopened
    refine ⟨z', hbuilds, ?_⟩
    rw [hevents, ite_and]
    rfl
  cases call with
  | starttag tag attrs => exact hstart hs
  | startendtag tag attrs =>
    simp only [Sanitizer.handle, Sanitizer.handleStartendtag] at hs
    split at hs
    · cases hs
    · rename_i opened hopened
      obtain ⟨z', hbuilds, hevents⟩ := hstart hopened
      split at hs
      · obtain rfl := Except.ok.inj hs
        obtain ⟨z'', hbuilds', hevents'⟩ := hbuilds.endtag tag
        exact ⟨z'', hbuilds', hevents'.trans hevents⟩
      · obtain rfl := Except.ok.inj hs
        exact ⟨z', hbuilds, hevents⟩
  | endtag tag =>
    obtain rfl := Except.ok.inj hs
    obtain ⟨z', hbuilds, hevents⟩ := h.endtag tag
    exact ⟨z', hbuilds, by rw [hevents, HtmlCall.events, ite_self, List.append_nil]⟩
  | data data =>
    obtain rfl := Except.ok.inj hs
    exact h.data data

/-- The run lemma. -/
theorem Builds.handleAll {calls : List HtmlCall} (h : Builds unicode s z)
    (hs : s.handleAll unicode calls = .ok s') :
    ∃ z', Builds unicode s' z' ∧ z'.read (eventReading unicode) = z.read (eventReading unicode)
      ++ visibleEvents unicode s.dropDepth calls := by
  induction calls generalizing s z with
  | nil =>
    obtain rfl := Except.ok.inj hs
    exact ⟨z, h, (List.append_nil _).symm⟩
  | cons call rest ih =>
    rw [Sanitizer.handleAll] at hs
    split at hs
    · cases hs
    · rename_i next hnext
      obtain ⟨z', hbuilds, hevents⟩ := h.handle hnext
      obtain ⟨z'', hbuilds', hevents'⟩ := ih hbuilds hs
      refine ⟨z'', hbuilds', ?_⟩
      rw [hevents', hevents, visibleEvents, Sanitizer.dropDepth_of_handle hnext, List.append_assoc]

/-! ## Dropped content -/

/-- What is left of the sanitizer outside dropped content. -/
def Sanitizer.visible (s : Sanitizer) : Sanitizer := { s with dropDepth := 0 }

theorem Sanitizer.visible_of_depth (h : s.dropDepth = 0) : s.visible = s := by
  obtain ⟨output, text, openTags, dropDepth⟩ := s
  obtain rfl : dropDepth = 0 := h
  rfl

theorem visible_handleEndtag (h : s.dropDepth ≠ 0) (tag : String) :
    (s.handleEndtag unicode tag).visible = s.visible := by
  rw [Sanitizer.handleEndtag, if_pos h]
  split
  · rfl
  · rfl

/-- A tag that is received in dropped content, or that opens some. -/
theorem visible_handleStarttag {tag : String} {attrs : List (String × Option String)}
    (h : s.dropDepth ≠ 0 ∨ unicode.lower tag ∈ dropContentTags)
    (hs : s.handleStarttag unicode tag attrs = .ok s') :
    s'.visible = s.visible ∧ s'.dropDepth ≠ 0 := by
  rw [Sanitizer.handleStarttag] at hs
  split at hs
  · rename_i hdepth
    split at hs
    · obtain rfl := Except.ok.inj hs
      exact ⟨rfl, Nat.succ_ne_zero _⟩
    · obtain rfl := Except.ok.inj hs
      exact ⟨rfl, hdepth⟩
  · rename_i hdepth
    rw [if_pos (h.resolve_left hdepth)] at hs
    obtain rfl := Except.ok.inj hs
    exact ⟨rfl, Nat.one_ne_zero⟩

/-- A call that is received in dropped content, or that opens some, writes nothing. -/
theorem visible_handle {call : HtmlCall}
    (h : ¬(s.dropDepth = 0 ∧ call.opensDropped unicode = false))
    (hs : s.handle unicode call = .ok s') : s'.visible = s.visible := by
  rw [not_and_or, Bool.not_eq_false] at h
  cases call with
  | starttag tag attrs => exact (visible_handleStarttag (h.imp_right of_decide_eq_true) hs).1
  | startendtag tag attrs =>
    simp only [Sanitizer.handle, Sanitizer.handleStartendtag] at hs
    split at hs
    · cases hs
    · rename_i opened hopened
      obtain ⟨hvisible, hdepth⟩ := visible_handleStarttag (h.imp_right of_decide_eq_true) hopened
      split at hs
      · obtain rfl := Except.ok.inj hs
        exact (visible_handleEndtag hdepth tag).trans hvisible
      · obtain rfl := Except.ok.inj hs
        exact hvisible
  | endtag tag =>
    obtain rfl := Except.ok.inj hs
    exact visible_handleEndtag (h.resolve_right (by rintro ⟨⟩)) tag
  | data data =>
    obtain rfl := Except.ok.inj hs
    rw [Sanitizer.handleData, if_pos (Or.inl (h.resolve_right (by rintro ⟨⟩)))]

/-- A call that does not open dropped content. -/
theorem depthAfter_of_visible {call : HtmlCall} (h : call.opensDropped unicode = false) :
    call.depthAfter unicode 0 = 0 := by
  cases call with
  | starttag tag attrs => exact if_neg (of_decide_eq_false h)
  | startendtag tag attrs => exact if_neg fun hdrop ↦ of_decide_eq_false h hdrop.1
  | endtag tag => exact ite_self 0
  | data data => rfl

/-- The run lemma: dropped content may as well not be there. -/
theorem handleAll_visibleCalls {calls : List HtmlCall}
    (hs : s.handleAll unicode calls = .ok s') :
    s.visible.handleAll unicode (visibleCalls unicode s.dropDepth calls) = .ok s'.visible := by
  induction calls generalizing s with
  | nil =>
    obtain rfl := Except.ok.inj hs
    rfl
  | cons call rest ih =>
    rw [Sanitizer.handleAll] at hs
    split at hs
    · cases hs
    · rename_i next hnext
      have hrest := ih hs
      rw [Sanitizer.dropDepth_of_handle hnext] at hrest
      rw [visibleCalls]
      by_cases hvisible : s.dropDepth = 0 ∧ call.opensDropped unicode = false
      · have hdepth : next.dropDepth = 0 := by
          rw [Sanitizer.dropDepth_of_handle hnext, hvisible.1]
          exact depthAfter_of_visible hvisible.2
        rw [if_pos hvisible, List.singleton_append, Sanitizer.handleAll,
          Sanitizer.visible_of_depth hvisible.1, hnext]
        rwa [Sanitizer.visible_of_depth hdepth] at hrest
      · rw [if_neg hvisible, List.nil_append, ← visible_handle hvisible hnext]
        exact hrest

end

/-! ## What is rendered -/

/-- What holds of the sanitizer after the calls of a text. -/
structure WritesMarkup (unicode : UnicodeData) (calls : List HtmlCall) (s : Sanitizer) : Prop where
  /-- The output is the markup of the tags and texts outside dropped content. -/
  markup : ∃ markup : Markup unicode, s.renderedHtml = markup.render ∧
    markup.events = visibleEvents unicode 0 calls
  /-- Text has no markup of its own. -/
  escaped : ∀ data, Escaped (escape false data).toList
  /-- Nor has the target of a link, which does not end its attribute either. -/
  quoted : ∀ value, Escaped (escape true value).toList ∧ '"' ∉ (escape true value).toList
  /-- A target is an address of the two allowed schemes. -/
  accepted : ∀ value, Accepted unicode value → ∃ parsed,
    urlsplit unicode (strip value) = .ok parsed ∧
      (parsed.scheme = "https" ∧ parsed.netloc ≠ "" ∨
        parsed.scheme = "mailto" ∧ parsed.path ≠ "")
  /-- Nothing that is received in dropped content is written. -/
  dropped : ∃ s', Sanitizer.new.handleAll unicode (visibleCalls unicode 0 calls) = .ok s' ∧
    s'.renderedHtml = s.renderedHtml ∧ s'.renderedText = s.renderedText

/-- **The sanitizer writes well-formed allowed markup, and nothing else.** -/
theorem writesMarkup_of_handleAll {unicode : UnicodeData} {calls : List HtmlCall} {s : Sanitizer}
    (hs : Sanitizer.new.handleAll unicode calls = .ok s) : WritesMarkup unicode calls s where
  markup := by
    obtain ⟨z, hbuilds, hevents⟩ := Builds.handleAll (z := Zipper.empty) ⟨rfl, rfl⟩ hs
    have hclosing : z.labels.flatMap (htmlReading unicode).closing
        = s.openTags.map fun tag ↦ "</" ++ tag ++ ">" := by
      rw [hbuilds.openTags, List.map_map]
      exact List.map_eq_flatMap.symm
    have hnone : z.labels.flatMap (eventReading unicode).closing = [] :=
      List.flatMap_eq_nil_iff.mpr fun _ _ ↦ rfl
    refine ⟨z.close, ?_, ?_⟩
    · rw [Sanitizer.renderedHtml, Markup.render, Zipper.read_close, hbuilds.output, hclosing]
    · rw [Markup.events, Zipper.read_close, hevents, hnone, List.append_nil]
      rfl
  escaped := escaped_escape false
  quoted value := ⟨escaped_escape true value, quote_notMem_escape value⟩
  accepted value := accepted_iff.mp
  dropped := ⟨s.visible, handleAll_visibleCalls hs, rfl, rfl⟩

/-- Dropped content, an unsafe link and an unclosed paragraph. -/
def hostileCalls : List HtmlCall :=
  [.starttag "p" [("onclick", some "steal()")], .data "1 < 2",
    .starttag "a" [("href", some "https://example.test/path")], .starttag "b" [], .data "safe",
    .endtag "a", .starttag "script" [], .data "alert(1)", .endtag "script",
    .startendtag "br" [], .starttag "a" [("HREF", some "javascript:alert(1)")], .data "x"]

theorem writesMarkup_of_handleAll_hostile : ∃ s,
    Sanitizer.new.handleAll .ascii hostileCalls = .ok s ∧
      s.renderedHtml = "<p>1 &lt; 2<a href=\"https://example.test/path\" " ++
        "rel=\"noopener noreferrer\"><b>safe</b></a><br><a>x</a></p>" ∧
      WritesMarkup .ascii hostileCalls s := by
  have hrun : ∃ s, Sanitizer.new.handleAll .ascii hostileCalls = .ok s ∧
      s.renderedHtml = "<p>1 &lt; 2<a href=\"https://example.test/path\" " ++
        "rel=\"noopener noreferrer\"><b>safe</b></a><br><a>x</a></p>" := ⟨_, rfl, by decide⟩
  obtain ⟨s, hs, hhtml⟩ := hrun
  exact ⟨s, hs, hhtml, writesMarkup_of_handleAll hs⟩

end Onebox.Mail
