import ThoughtGate.Base.Text
import ThoughtGate.Proxy.Routing
import Mathlib.Data.List.Basic

/-!
# Traffic

`traffic.rs` and the entry of `proxy_service.rs`: which requests the proxy buffers and governs and which it streams
through unread. The choice is made by the method, the first `Content-Type` and the path.

`normalizePath` finds the endpoint however many slashes are written into it (`normalizePath_eq`), so a POST to it is
governed exactly when its first `Content-Type` says JSON (`endpoint_routed`).

The URI parser of the `http` crate is a parameter.
-/

namespace ThoughtGate

/-- `http::Uri`; `target` is the text of path and query. -/
structure Uri where
  scheme : Option String := none
  authority : Option String := none
  target : String
deriving DecidableEq

/-- `str::parse::<Uri>`. -/
class UriText where
  parse : String → Except String Uri

namespace Uri

/-- Whether there is a path: a request for a tunnel has an authority only. -/
def hasPath (u : Uri) : Bool := u.scheme.isSome || u.authority.isNone

/-- `Uri::path`. -/
def path (u : Uri) : String :=
  if u.hasPath then
    let text := u.target.toList.takeWhile (· ≠ '?')
    if text.isEmpty then "/" else String.ofList text
  else ""

/-- `Uri::path_and_query`. -/
def pathAndQuery (u : Uri) : Option String :=
  if u.hasPath then some (if u.target.isEmpty then "/" else u.target) else none

end Uri

/-- A header: its name in lower case and its bytes. -/
structure Header where
  name : String
  value : List UInt8
deriving DecidableEq

structure HttpRequest where
  method : String
  uri : Uri
  headers : List Header
  body : ByteArray

/-- `HeaderMap::get`: the first value of that name. -/
def HttpRequest.header (req : HttpRequest) (name : String) : Option (List UInt8) :=
  (req.headers.find? fun h => h.name == name).map (·.value)

/-- The condition of `HeaderValue::to_str`: visible ASCII, blanks and tabs. -/
def isVisibleAscii (value : List UInt8) : Bool := value.all fun b => (32 ≤ b && b < 127) || b == 9

namespace Traffic

inductive TrafficType where
  | mcp
  | http
deriving DecidableEq

/-! ### Content types -/

/-- `slice::windows`. -/
def windows {α : Type} (n : Nat) : List α → List (List α)
  | [] => []
  | x :: xs => if n ≤ (x :: xs).length then (x :: xs).take n :: windows n xs else []

/-- `u8::to_ascii_lowercase`. -/
def asciiLower (b : UInt8) : UInt8 := if 65 ≤ b && b ≤ 90 then b + 32 else b

/-- `contains_ignore_ascii_case`. -/
def containsIgnoreAsciiCase (haystack needle : List UInt8) : Bool :=
  (windows needle.length haystack).any fun window => window.map asciiLower == needle.map asciiLower

/-- The bytes of `application/json`. -/
def applicationJson : List UInt8 := "application/json".toUTF8.toList

/-! ### Paths -/

def hasDoubleSlash : List Char → Bool
  | a :: b :: rest => (a == '/' && b == '/') || hasDoubleSlash (b :: rest)
  | _ => false

def hasTrailingSlash (path : List Char) : Bool := decide (1 < path.length) && path.getLast? == some '/'

/-- The loop of `normalize_path`: of a run of slashes only the first is kept. -/
def collapse (prevSlash : Bool) : List Char → List Char
  | [] => []
  | c :: cs =>
    if c = '/' then if prevSlash then collapse true cs else '/' :: collapse true cs
    else c :: collapse false cs

/-- `normalize_path`. -/
def normalizePath (path : String) : String :=
  if !hasDoubleSlash path.toList && !hasTrailingSlash path.toList then path
  else
    let result := collapse false path.toList
    String.ofList (if hasTrailingSlash result then result.dropLast else result)

/-- `discriminate_traffic`. -/
def discriminateTraffic (req : HttpRequest) : TrafficType :=
  if req.method ≠ "POST" then .http
  else
    let contentType := ((req.header "content-type").filter fun v => isVisibleAscii v).getD []
    if !containsIgnoreAsciiCase contentType applicationJson then .http
    else
      let normalized := normalizePath req.uri.path
      if normalized = "/mcp/v1" ∨ normalized = "/" then .mcp else .http

end Traffic

/-! ### The service -/

/-- `ProxyService`: what routing reads. -/
structure ProxyService where
  upstreamUrl : Option String
  hasMcpHandler : Bool
  forwardProxyEnabled : Bool

/-- What becomes of a request: it goes to the MCP handler, or to a server as it is, or nowhere (`ProxyError::InvalidUri`). -/
inductive Handled where
  | mcp (body : ByteArray)
  | passThrough (target : Uri) (method : String) (headers : List Header) (body : ByteArray)
  | invalidUri (reason : String)

/-- `is_hop_by_hop_header`. -/
def isHopByHopHeader (name : String) : Bool :=
  ["keep-alive", "proxy-authenticate", "proxy-authorization", "te", "trailers"].contains name

/-- The headers that are copied: the first value of each name that was not seen before, but for those of the
connection. -/
def copiedHeaders (seen : List String) : List Header → List Header
  | [] => []
  | h :: rest =>
    if seen.contains h.name then copiedHeaders seen rest
    else if isHopByHopHeader h.name then copiedHeaders (h.name :: seen) rest
    else h :: copiedHeaders (h.name :: seen) rest

namespace ProxyService

variable [UriText]

/-- `trim_end_matches('/')`. -/
def trimEndSlashes (url : String) : String := String.ofList (url.toList.reverse.dropWhile (· == '/')).reverse

/-- `extract_target_uri_impl`. -/
def extractTargetUri (svc : ProxyService) (req : HttpRequest) : Except String Uri :=
  match svc.upstreamUrl with
  | some upstream =>
    match UriText.parse (trimEndSlashes upstream ++ req.uri.pathAndQuery.getD "/") with
    | .ok uri => .ok uri
    | .error e => .error ("Failed to parse upstream URI: " ++ e)
  | none =>
    if !svc.forwardProxyEnabled then
      .error ("Forward proxy mode is disabled. Use --enable-forward-proxy to allow proxying to arbitrary hosts, or set " ++
        "--upstream-url for reverse proxy mode.")
    else if req.uri.scheme.isSome then .ok req.uri
    else
      match req.header "host" with
      | none => .error "Cannot determine target URI from request"
      | some host =>
        if !isVisibleAscii host then .error "Invalid Host header"
        else
          match UriText.parse ("http://" ++ String.ofList (host.map fun b => Char.ofNat b.toNat) ++
              req.uri.pathAndQuery.getD "") with
          | .ok uri => .ok uri
          | .error e => .error ("Failed to parse URI: " ++ e)

/-- `handle_http_request`, as far as the request goes out. -/
def handleHttpRequest (svc : ProxyService) (req : HttpRequest) : Handled :=
  match svc.extractTargetUri req with
  | .error reason => .invalidUri reason
  | .ok target => .passThrough target req.method (copiedHeaders [] req.headers) req.body

/-- `handle_request`. -/
def handleRequest (svc : ProxyService) (req : HttpRequest) : Handled :=
  match Traffic.discriminateTraffic req with
  | .mcp => if svc.hasMcpHandler then .mcp req.body else svc.handleHttpRequest req
  | .http => svc.handleHttpRequest req

end ProxyService

/-! ### Normal forms of paths -/

namespace Traffic

/-- The names in a path, when `cur` of the first has been read: the non-empty texts between the slashes. -/
def names (cur : List Char) : List Char → List (List Char)
  | [] => if cur = [] then [] else [cur]
  | c :: cs =>
    if c = '/' then if cur = [] then names [] cs else cur :: names [] cs
    else names (cur ++ [c]) cs

theorem collapse_eq_nil {cs : List Char} (h : collapse true cs = []) : ∀ c ∈ cs, c = '/' := by
  induction cs with
  | nil => simp
  | cons c cs ih =>
    unfold collapse at h
    split at h
    · next hc =>
      intro d hd
      rcases List.mem_cons.mp hd with rfl | hd
      · exact hc
      · exact ih (by simpa using h) d hd
    · cases h

theorem getLast?_of_all_slashes {cs : List Char} (h : ∀ c ∈ cs, c = '/') (hne : cs ≠ []) :
    cs.getLast? = some '/' := by
  rw [List.getLast?_eq_some_getLast hne]
  exact congrArg some (h _ (List.getLast_mem hne))

theorem getLast?_cons_of_ne {c : Char} {cs : List Char} (hne : cs ≠ []) : (c :: cs).getLast? = cs.getLast? := by
  cases cs with
  | nil => exact absurd rfl hne
  | cons d ds => simp

/-- The loop does not make up a slash at the end. -/
theorem getLast?_of_collapse (b : Bool) {cs : List Char} (h : (collapse b cs).getLast? = some '/') :
    cs.getLast? = some '/' := by
  induction cs generalizing b with
  | nil => cases h
  | cons c cs ih =>
    unfold collapse at h
    split at h
    · next hc =>
      subst hc
      by_cases hall : ∀ d ∈ cs, d = '/'
      · exact getLast?_of_all_slashes (by simpa using hall) (by simp)
      · have hcs : cs ≠ [] := by
          rintro rfl
          exact hall (by simp)
        have hne : collapse true cs ≠ [] := fun hnil => hall (collapse_eq_nil hnil)
        have hlast : (collapse true cs).getLast? = some '/' := by
          split at h
          · exact h
          · rwa [getLast?_cons_of_ne hne] at h
        rw [getLast?_cons_of_ne hcs]
        exact ih true hlast
    · next hc =>
      by_cases hnil : collapse false cs = []
      · rw [hnil] at h
        simp only [List.getLast?_singleton, Option.some.injEq] at h
        exact absurd h hc
      · rw [getLast?_cons_of_ne hnil] at h
        have hcs : cs ≠ [] := by
          rintro rfl
          exact hnil rfl
        rw [getLast?_cons_of_ne hcs]
        exact ih false h

theorem collapse_of_single {cs : List Char} (h : hasDoubleSlash cs = false) : collapse false cs = cs := by
  -- after a slash the next character is not one
  have hstep : ∀ cs : List Char, (hasDoubleSlash cs = false → collapse false cs = cs) ∧
      (hasDoubleSlash ('/' :: cs) = false → collapse true cs = cs) := by
    intro cs
    induction cs with
    | nil => exact ⟨fun _ => rfl, fun _ => rfl⟩
    | cons c cs ih =>
      constructor
      · intro h
        unfold collapse
        split
        · next hc =>
          subst hc
          simp only [Bool.false_eq_true, if_false, List.cons.injEq, true_and]
          exact ih.2 h
        · simp only [List.cons.injEq, true_and]
          refine ih.1 ?_
          cases cs with
          | nil => rfl
          | cons d ds =>
            simp only [hasDoubleSlash, Bool.or_eq_false_iff] at h
            exact h.2
      · intro h
        simp only [hasDoubleSlash, beq_self_eq_true, Bool.true_and, Bool.or_eq_false_iff, beq_eq_false_iff_ne] at h
        unfold collapse
        rw [if_neg h.1]
        simp only [List.cons.injEq, true_and]
        refine ih.1 ?_
        cases cs with
        | nil => rfl
        | cons d ds =>
          have h2 := h.2
          simp only [hasDoubleSlash, Bool.or_eq_false_iff] at h2
          exact h2.2
  exact (hstep cs).1 h

/-- Both ways through `normalize_path` come to the same. -/
theorem normalizePath_slow (path : String) :
    (normalizePath path).toList =
      if hasTrailingSlash (collapse false path.toList) then (collapse false path.toList).dropLast
      else collapse false path.toList := by
  unfold normalizePath
  split
  · next h =>
    simp only [Bool.and_eq_true, Bool.not_eq_true'] at h
    rw [collapse_of_single h.1, h.2]
    simp
  · simp

theorem names_eq_nil {cs : List Char} (h : names [] cs = []) : ∀ c ∈ cs, c = '/' := by
  have hcur : ∀ (cs cur : List Char), cur ≠ [] → names cur cs ≠ [] := by
    intro cs
    induction cs with
    | nil =>
      intro cur hne
      simp [names, hne]
    | cons c cs ih =>
      intro cur hne
      unfold names
      split
      · simp
      · exact ih _ (by simp)
  induction cs with
  | nil => simp
  | cons c cs ih =>
    unfold names at h
    split at h
    · next hc =>
      intro d hd
      rcases List.mem_cons.mp hd with rfl | hd
      · exact hc
      · exact ih (by simpa using h) d hd
    · exact absurd h (hcur cs ([] ++ [c]) (by simp))

theorem intercalate_cons_of_ne {α : Type} (sep x : List α) {xs : List (List α)} (hne : xs ≠ []) :
    List.intercalate sep (x :: xs) = x ++ sep ++ List.intercalate sep xs := by
  cases xs with
  | nil => exact absurd rfl hne
  | cons y ys => simp [List.intercalate, List.intersperse]

/-- What the loop makes of a path: its names with one slash between them, and one at the end if the path has one. -/
theorem collapse_eq_names (cs cur : List Char) :
    cur ++ collapse cur.isEmpty cs = List.intercalate ['/'] (names cur cs) ++
      if names cur cs ≠ [] ∧ cs.getLast? = some '/' then ['/'] else [] := by
  induction cs generalizing cur with
  | nil =>
    unfold names collapse
    by_cases h : cur = []
    · simp [h]
    · simp [h]
  | cons c cs ih =>
    unfold names collapse
    by_cases hc : c = '/'
    · subst hc
      simp only [if_true]
      have htail : cs ≠ [] → ('/' :: cs).getLast? = cs.getLast? := getLast?_cons_of_ne
      by_cases hcur : cur = []
      · subst hcur
        simp only [List.isEmpty_nil, if_true, List.nil_append]
        rw [show collapse true cs = [] ++ collapse ([] : List Char).isEmpty cs from rfl, ih []]
        by_cases hnames : names [] cs = []
        · simp [hnames]
        · have hcs : cs ≠ [] := by
            rintro rfl
            exact hnames rfl
          rw [htail hcs]
      · have hempty : cur.isEmpty = false := by simpa using hcur
        simp only [hempty, Bool.false_eq_true, if_false, hcur]
        rw [show collapse true cs = [] ++ collapse ([] : List Char).isEmpty cs from rfl, ih []]
        by_cases hnames : names [] cs = []
        · -- nothing but slashes follows
          have hlast : ('/' :: cs).getLast? = some '/' :=
            getLast?_of_all_slashes (by simpa using names_eq_nil hnames) (by simp)
          simp [hnames, hlast]
        · have hcs : cs ≠ [] := by
            rintro rfl
            exact hnames rfl
          rw [htail hcs, intercalate_cons_of_ne _ _ hnames]
          simp [hnames]
    · simp only [if_neg hc]
      have hempty : (cur ++ [c]).isEmpty = false := by cases cur <;> rfl
      have hassoc : cur ++ c :: collapse false cs = (cur ++ [c]) ++ collapse (cur ++ [c]).isEmpty cs := by
        rw [hempty]
        simp
      rw [hassoc, ih (cur ++ [c])]
      by_cases hcs : cs = []
      · subst hcs
        simp [names, hc]
      · rw [getLast?_cons_of_ne hcs]

/-- A path is normalised to its names, each after one slash. -/
theorem normalizePath_eq {path : String} {cs : List Char} (hpath : path.toList = '/' :: cs) :
    (normalizePath path).toList = '/' :: List.intercalate ['/'] (names [] cs) := by
  rw [normalizePath_slow, hpath]
  have hloop : collapse false ('/' :: cs) = '/' :: collapse true cs := rfl
  have hbody := collapse_eq_names cs []
  simp only [List.nil_append, List.isEmpty_nil] at hbody
  rw [hloop]
  by_cases hend : names [] cs ≠ [] ∧ cs.getLast? = some '/'
  · rw [if_pos hend] at hbody
    have hslash : hasTrailingSlash ('/' :: collapse true cs) = true := by
      rw [hbody, ← List.cons_append]
      unfold hasTrailingSlash
      rw [List.getLast?_concat]
      simp
    rw [if_pos hslash, hbody, ← List.cons_append, List.dropLast_concat]
  · rw [if_neg hend, List.append_nil] at hbody
    have hslash : hasTrailingSlash ('/' :: collapse true cs) = false := by
      by_cases hnil : collapse true cs = []
      · simp [hnil, hasTrailingSlash]
      · have hnames : names [] cs ≠ [] := by
          intro hnames
          rw [hnames] at hbody
          exact hnil hbody
        have hlast : ¬ (collapse true cs).getLast? = some '/' :=
          fun h => hend ⟨hnames, getLast?_of_collapse true h⟩
        simp only [hasTrailingSlash, getLast?_cons_of_ne hnil, Bool.and_eq_false_iff, beq_eq_false_iff_ne]
        exact .inr hlast
    rw [hslash, hbody]
    simp

/-! ### Windows -/

theorem mem_windows {α : Type} {n : Nat} (hn : 0 < n) {xs w : List α} :
    w ∈ windows n xs ↔ w.length = n ∧ ∃ before after, xs = before ++ w ++ after := by
  induction xs with
  | nil =>
    simp only [windows, List.not_mem_nil, false_iff]
    rintro ⟨hlen, before, after, h⟩
    have hnil : w = [] := (List.append_eq_nil_iff.mp (List.append_eq_nil_iff.mp h.symm).1).2
    rw [hnil] at hlen
    simp at hlen
    omega
  | cons x xs ih =>
    unfold windows
    split
    · next hle =>
      rw [List.mem_cons, ih]
      constructor
      · rintro (rfl | ⟨hlen, before, after, rfl⟩)
        · exact ⟨by simpa using hle, [], (x :: xs).drop n, by simp⟩
        · exact ⟨hlen, x :: before, after, by simp⟩
      · rintro ⟨hlen, before, after, h⟩
        cases before with
        | nil =>
          left
          rw [h]
          simp [← hlen]
        | cons b before =>
          right
          simp only [List.cons_append, List.cons.injEq] at h
          exact ⟨hlen, before, after, by simpa using h.2⟩
    · next hlt =>
      simp only [List.not_mem_nil, false_iff]
      rintro ⟨hlen, before, after, h⟩
      have hlength := congrArg List.length h
      simp only [List.length_append] at hlength
      omega

/-- The media type occurs in the value, in whatever case it is written. -/
theorem containsIgnoreAsciiCase_iff {haystack needle : List UInt8} (hne : needle ≠ []) :
    containsIgnoreAsciiCase haystack needle = true ↔
      ∃ before found after, haystack = before ++ found ++ after ∧ found.map asciiLower = needle.map asciiLower := by
  have hpos : 0 < needle.length := List.length_pos_iff.mpr hne
  unfold containsIgnoreAsciiCase
  rw [List.any_eq_true]
  constructor
  · rintro ⟨window, hwindow, heq⟩
    obtain ⟨-, before, after, rfl⟩ := (mem_windows hpos).mp hwindow
    exact ⟨before, window, after, rfl, by simpa using heq⟩
  · rintro ⟨before, found, after, rfl, heq⟩
    have hlen : found.length = needle.length := by simpa using congrArg List.length heq
    exact ⟨found, (mem_windows hpos).mpr ⟨hlen, before, after, rfl⟩, by simpa using heq⟩

end Traffic

/-! ### The endpoint -/

/-- The path names the endpoint, however many slashes it is written with: `/mcp/v1`, or the root. -/
def EndpointPath (path : String) : Prop :=
  ∃ cs, path.toList = '/' :: cs ∧
    (Traffic.names [] cs = [] ∨ Traffic.names [] cs = ["mcp".toList, "v1".toList])

/-- The first `Content-Type` is a readable text in which `application/json` occurs, in any case. -/
def HttpRequest.SaysJson (req : HttpRequest) : Prop :=
  ∃ before found after, req.header "content-type" = some (before ++ found ++ after) ∧
    isVisibleAscii (before ++ found ++ after) = true ∧ found.map Traffic.asciiLower = Traffic.applicationJson

theorem normalizePath_of_endpoint {path : String} (h : EndpointPath path) :
    Traffic.normalizePath path = "/mcp/v1" ∨ Traffic.normalizePath path = "/" := by
  obtain ⟨cs, hpath, hnames⟩ := h
  have heq := Traffic.normalizePath_eq hpath
  rcases hnames with hnames | hnames
  · right
    rw [hnames] at heq
    exact String.toList_injective heq
  · left
    rw [hnames] at heq
    exact String.toList_injective heq

theorem contentType_iff (req : HttpRequest) :
    Traffic.containsIgnoreAsciiCase (((req.header "content-type").filter fun v => isVisibleAscii v).getD [])
      Traffic.applicationJson = true ↔ req.SaysJson := by
  have hne : Traffic.applicationJson ≠ [] := by
    rw [Traffic.applicationJson, Text.toList_eq_data]
    decide
  have hlower : Traffic.applicationJson.map Traffic.asciiLower = Traffic.applicationJson := by
    rw [Traffic.applicationJson, Text.toList_eq_data]
    rfl
  rw [Traffic.containsIgnoreAsciiCase_iff hne, hlower]
  unfold HttpRequest.SaysJson
  have hempty : ∀ before found after : List UInt8, found.map Traffic.asciiLower = Traffic.applicationJson →
      ¬ [] = before ++ found ++ after := by
    intro before found after heq h
    have hfound : found = [] := (List.append_eq_nil_iff.mp (List.append_eq_nil_iff.mp h.symm).1).2
    rw [hfound] at heq
    exact hne heq.symm
  cases hget : req.header "content-type" with
  | none =>
    simp only [Option.filter_none, Option.getD_none, reduceCtorEq, false_and, exists_false, iff_false]
    rintro ⟨before, found, after, h, heq⟩
    exact hempty before found after heq h
  | some value =>
    by_cases hvis : isVisibleAscii value = true
    · simp only [Option.filter_some, hvis, if_true, Option.getD_some, Option.some.injEq]
      constructor
      · rintro ⟨before, found, after, rfl, heq⟩
        exact ⟨before, found, after, rfl, hvis, heq⟩
      · rintro ⟨before, found, after, rfl, -, heq⟩
        exact ⟨before, found, after, rfl, heq⟩
    · simp only [Option.filter_some, hvis, Bool.false_eq_true, if_false, Option.getD_none, Option.some.injEq]
      constructor
      · rintro ⟨before, found, after, h, heq⟩
        exact absurd h (hempty before found after heq)
      · rintro ⟨before, found, after, rfl, hvis', -⟩
        exact absurd hvis' hvis

section

variable [UriText]

/-- A POST to the endpoint goes to the MCP handler if its first `Content-Type` says JSON, whatever its other headers and
its body are; if not, it is passed through. -/
theorem endpoint_routed (svc : ProxyService) (req : HttpRequest) (hhandler : svc.hasMcpHandler = true)
    (hpost : req.method = "POST") (hpath : EndpointPath req.uri.path) :
    (req.SaysJson → svc.handleRequest req = .mcp req.body) ∧
      (¬ req.SaysJson → svc.handleRequest req = svc.handleHttpRequest req) := by
  have hnormal := normalizePath_of_endpoint hpath
  unfold ProxyService.handleRequest Traffic.discriminateTraffic
  rw [if_neg (by simpa using hpost)]
  constructor
  · intro hjson
    simp [(contentType_iff req).mpr hjson, hnormal, hhandler]
  · intro hjson
    have hno : Traffic.containsIgnoreAsciiCase (((req.header "content-type").filter fun v => isVisibleAscii v).getD [])
        Traffic.applicationJson = false := by
      rw [← Bool.not_eq_true]
      exact fun h => hjson ((contentType_iff req).mp h)
    simp [hno]

end

namespace Sample

/-- Absolute URIs of the one server. -/
@[reducible] def uriText : UriText where
  parse text :=
    if "http://server:3000".toList.isPrefixOf text.toList then
      .ok ⟨some "http", some "server:3000", String.ofList (text.toList.drop "http://server:3000".length)⟩
    else .error "invalid uri character"

def reverseProxy : ProxyService where
  upstreamUrl := some "http://server:3000/"
  hasMcpHandler := true
  forwardProxyEnabled := false

/-- A call of a tool. -/
def callMessage : Value :=
  .object [("jsonrpc", .string "2.0"), ("id", .number (.posInt 1)), ("method", .string "tools/call"),
    ("params", .object [("name", .string "delete")])]

/-- The call as a POST to the given path, with these headers. -/
def post [F64.Fmt] (path : String) (headers : List Header) : HttpRequest where
  method := "POST"
  uri := { target := path }
  headers
  body := callMessage.toJson.toUTF8

def jsonHeader : Header := ⟨"content-type", "Application/JSON; charset=utf-8".toUTF8.toList⟩

end Sample

section

attribute [local instance] Sample.f64Fmt Sample.serde Sample.uriText

theorem endpoint_routed_sample :
    Sample.reverseProxy.handleRequest (Sample.post "//mcp///v1/" [Sample.jsonHeader]) =
      .mcp (Sample.post "//mcp///v1/" [Sample.jsonHeader]).body := by
  have hpath : EndpointPath (Sample.post "//mcp///v1/" [Sample.jsonHeader]).uri.path :=
    ⟨"/mcp///v1/".toList, by decide, .inr (by decide)⟩
  have hjson : (Sample.post "//mcp///v1/" [Sample.jsonHeader]).SaysJson := by
    refine ⟨[], "Application/JSON".toUTF8.toList, "; charset=utf-8".toUTF8.toList, ?_, ?_, ?_⟩
    · show some "Application/JSON; charset=utf-8".toUTF8.toList = _
      simp only [Text.toList_eq_data]
      rfl
    · simp only [Text.toList_eq_data]
      decide
    · rw [Traffic.applicationJson, Text.toList_eq_data, Text.toList_eq_data]
      rfl
  exact (endpoint_routed Sample.reverseProxy (Sample.post "//mcp///v1/" [Sample.jsonHeader]) rfl rfl hpath).1 hjson

/-- A tool call that is posted to the endpoint without a `Content-Type` goes to the server unread. -/
theorem endpoint_passed_through :
    (@parseJsonrpc (Sample.jsonTextOf [Sample.callMessage]) _ (Sample.post "/mcp/v1" []).body).toOption.isSome = true ∧
      Sample.reverseProxy.hasMcpHandler = true ∧ (Sample.post "/mcp/v1" []).method = "POST" ∧
      EndpointPath (Sample.post "/mcp/v1" []).uri.path ∧
      Sample.reverseProxy.handleRequest (Sample.post "/mcp/v1" []) =
        .passThrough ⟨some "http", some "server:3000", "/mcp/v1"⟩ "POST" [] (Sample.post "/mcp/v1" []).body := by
  have hpath : EndpointPath (Sample.post "/mcp/v1" []).uri.path :=
    ⟨"mcp/v1".toList, by decide, .inr (by decide)⟩
  refine ⟨?_, rfl, rfl, hpath, ?_⟩
  · unfold parseJsonrpc
    rw [Text.toList_eq_data]
    decide
  have huri : Sample.reverseProxy.extractTargetUri (Sample.post "/mcp/v1" []) =
      .ok ⟨some "http", some "server:3000", "/mcp/v1"⟩ := by decide
  have htype : Traffic.discriminateTraffic (Sample.post "/mcp/v1" []) = .http := by decide
  unfold ProxyService.handleRequest ProxyService.handleHttpRequest
  rw [htype, huri]
  rfl

end

end ThoughtGate
