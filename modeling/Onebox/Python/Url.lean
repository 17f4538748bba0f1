import Mathlib.Data.Nat.Digits.Defs
import Onebox.Python.Text

/-!
# Splitting URLs

`urllib.parse.urlsplit`, with the checks on the network location that make it raise: brackets in
pairs, an IP address in them, and no delimiter that only appears under compatibility
normalization.
-/

namespace Python

/-- `s.partition(c)`, without the separator: what stands before and after its first occurrence. -/
def partition (c : Char) (s : List Char) : List Char × List Char :=
  (s.takeWhile (· ≠ c), (s.dropWhile (· ≠ c)).tail)

def isAsciiDigit (c : Char) : Bool := '0' ≤ c && c ≤ '9'

def isAsciiAlpha (c : Char) : Bool := ('a' ≤ c && c ≤ 'z') || ('A' ≤ c && c ≤ 'Z')

def isHexDigit (c : Char) : Bool :=
  isAsciiDigit c || ('a' ≤ c && c ≤ 'f') || ('A' ≤ c && c ≤ 'F')

/-! ## IP addresses -/

/-- `_parse_octet` does not raise. -/
def isOctet (octet : List Char) : Bool :=
  !octet.isEmpty && octet.all isAsciiDigit && octet.length ≤ 3
    && (octet == ['0'] || octet.head? != some '0')
    && Nat.ofDigits 10 (octet.reverse.map fun c ↦ c.toNat - '0'.toNat) ≤ 255

/-- `IPv4Address(s)` does not raise. -/
def isIPv4 (s : List Char) : Bool :=
  let octets := s.splitOn '.'
  !s.contains '/' && octets.length == 4 && octets.all isOctet

/-- `_parse_hextet` does not raise. -/
def isHextet (hextet : List Char) : Bool :=
  !hextet.isEmpty && hextet.all isHexDigit && hextet.length ≤ 4

/-- `_split_scope_id`; `none` is the error. -/
def splitScopeId (s : List Char) : Option (List Char) :=
  if s.contains '%' then
    let (address, scopeId) := partition '%' s
    if scopeId.isEmpty || scopeId.contains '%' then none else some address
  else some s

/-- The parts of an IPv6 address, an IPv4 suffix being two of them, whose digits do not matter. -/
def ipv6Parts (address : List Char) : Option (List (List Char)) :=
  let parts := address.splitOn ':'
  if parts.length < 3 then none
  else
    let last := parts.getLast?.getD []
    if last.contains '.' then
      if isIPv4 last then some (parts.dropLast ++ [['0'], ['0']]) else none
    else some parts

/-- The indices of `::`, away from the two ends. -/
def skipIndices (parts : List (List Char)) : List ℕ :=
  (List.range parts.length).filter fun i ↦
    0 < i && i + 1 < parts.length && (parts.getD i []).isEmpty

/-- `_ip_int_from_string` does not raise on these parts. -/
def validParts (parts : List (List Char)) : Bool :=
  let emptyFirst := (parts.head?.getD []).isEmpty
  let emptyLast := (parts.getLast?.getD []).isEmpty
  parts.length ≤ 9 &&
    match skipIndices parts with
    | [] => parts.length == 8 && parts.all isHextet
    | [skip] =>
      let lo := parts.length - skip - 1
      -- A leading or trailing `:` is part of `::`.
      (!emptyFirst || skip == 1) && (!emptyLast || lo == 1)
        && (if emptyFirst then 0 else skip) + (if emptyLast then 0 else lo) < 8
        && (emptyFirst || (parts.take skip).all isHextet)
        && (emptyLast || (parts.drop (skip + 1)).all isHextet)
    | _ => false

/-- `IPv6Address(s)` does not raise. -/
def isIPv6 (s : List Char) : Bool :=
  !s.contains '/' && ((splitScopeId s).bind ipv6Parts).any validParts

/-! ## The network location -/

/-- The `ValueError`s of `urlsplit`. -/
inductive UrlError
  /-- `"Invalid IPv6 URL"`. -/
  | invalidIPv6
  /-- `"IPvFuture address is invalid"`. -/
  | invalidIPvFuture
  /-- `"An IPv4 address cannot be in brackets"`. -/
  | ipv4InBrackets
  /-- `"... does not appear to be an IPv4 or IPv6 address"`. -/
  | notAnAddress
  /-- `"netloc ... contains invalid characters under NFKC normalization"`. -/
  | unsafeUnderNfkc
  deriving DecidableEq

/-- The pattern `\Av[a-fA-F0-9]+\..+\Z`, after its `v`. -/
def isIPvFuture (s : List Char) : Bool :=
  let address := (s.dropWhile isHexDigit).drop 1
  !(s.takeWhile isHexDigit).isEmpty && (s.dropWhile isHexDigit).head? == some '.'
    && !address.isEmpty && !address.contains '\n'

/-- `_check_bracketed_host`. -/
def checkBracketedHost (hostname : List Char) : Option UrlError :=
  match hostname with
  | 'v' :: rest => if isIPvFuture rest then none else some .invalidIPvFuture
  | _ =>
    if isIPv4 hostname then some .ipv4InBrackets
    else if isIPv6 hostname then none
    else some .notAnAddress

/-- `_checknetloc`. -/
def checkNetloc (unicode : UnicodeData) (netloc : List Char) : Option UrlError :=
  if netloc.all (·.toNat < 128) then none
  else
    let n := netloc.filter (· ∉ ['@', ':', '#', '?'])
    let normalized := (unicode.nfkc (String.ofList n)).toList
    if n = normalized then none
    else if ['/', '?', '#', '@', ':'].any normalized.contains then some .unsafeUnderNfkc
    else none

/-- The checks of `urlsplit` on the network location. -/
def netlocError (unicode : UnicodeData) (netloc : List Char) : Option UrlError :=
  if netloc.contains '[' != netloc.contains ']' then some .invalidIPv6
  else
    let bracketed :=
      if netloc.contains '[' then checkBracketedHost (partition ']' (partition '[' netloc).2).1
      else none
    bracketed.or (checkNetloc unicode netloc)

/-! ## `urlsplit` -/

/-- `SplitResult`. -/
structure SplitResult where
  scheme : String
  netloc : String
  path : String
  query : String
  fragment : String

/-- Leading control characters and blanks go, and tabs and line breaks everywhere. -/
def cleanUrl (url : List Char) : List Char :=
  (url.dropWhile (·.toNat ≤ 32)).filter (· ∉ ['\t', '\r', '\n'])

/-- A member of `scheme_chars`. -/
def isSchemeChar (c : Char) : Bool := isAsciiAlpha c || isAsciiDigit c || ['+', '-', '.'].contains c

/-- The scheme, lower-cased, and the rest. -/
def splitScheme (url : List Char) : List Char × List Char :=
  let (scheme, rest) := partition ':' url
  if url.contains ':' && scheme.head?.any isAsciiAlpha && scheme.all isSchemeChar then
    (scheme.map Char.toLower, rest)
  else ([], url)

/-- `_splitnetloc`, on what follows the scheme. -/
def splitNetloc (rest : List Char) : List Char × List Char :=
  match rest with
  | '/' :: '/' :: tail =>
    (tail.takeWhile (· ∉ ['/', '?', '#']), tail.dropWhile (· ∉ ['/', '?', '#']))
  | _ => ([], rest)

/-- The network location of a URL. -/
def networkLocation (url : String) : List Char :=
  (splitNetloc (splitScheme (cleanUrl url.toList)).2).1

/-- `urlsplit`. -/
def urlsplit (unicode : UnicodeData) (url : String) : Except UrlError SplitResult :=
  let (scheme, rest) := splitScheme (cleanUrl url.toList)
  let (netloc, rest) := splitNetloc rest
  match netlocError unicode netloc with
  | some e => .error e
  | none =>
    let (rest, fragment) := partition '#' rest
    let (path, query) := partition '?' rest
    .ok
      { scheme := String.ofList scheme
        netloc := String.ofList netloc
        path := String.ofList path
        query := String.ofList query
        fragment := String.ofList fragment }

/-- `urlsplit` raises on its network location only. -/
theorem urlsplit_eq_error_iff {unicode : UnicodeData} {url : String} :
    (∃ e, urlsplit unicode url = .error e)
      ↔ (netlocError unicode (networkLocation url)).isSome = true := by
  rw [urlsplit, networkLocation]
  dsimp only
  cases netlocError unicode (splitNetloc (splitScheme (cleanUrl url.toList)).2).1 with
  | none => exact ⟨nofun, nofun⟩
  | some e => exact ⟨fun _ ↦ rfl, fun _ ↦ ⟨e, rfl⟩⟩

end Python
