import ThoughtGate.Proxy.Traffic
import ThoughtGate.Lib.Multimap

/-!
# Headers of a request that is passed through

`handle_http_request` of `proxy_service.rs` takes the header map of the request apart and writes it anew for the server,
without the headers of the connection. Taking a `HeaderMap` apart gives a name with the first of its values only, and the
loop has no use for a value without a name: of a header that is repeated the server sees the first value
(`headers_transparent_iff`).
-/

namespace ThoughtGate

/-- `http::HeaderMap`. -/
abbrev HeaderMap := Multimap String (List UInt8)

/-- The headers of a request as the server's side of the connection has gathered them. -/
def HttpRequest.headerMap (req : HttpRequest) : HeaderMap :=
  Multimap.ofItems (req.headers.map fun h => (h.name, h.value))

namespace HeaderMap

def ofItem (item : String × List UInt8) : Header := ⟨item.1, item.2⟩

/-- The headers that are not for the connection, with all of their values. -/
def endToEnd (m : HeaderMap) : List Header := (m.items.filter fun item => !isHopByHopHeader item.1).map ofItem

/-- The loop of `handle_http_request` over the owned map. -/
def copyHeaders (headers : HeaderMap) : List (Option String × List UInt8) → HeaderMap
  | [] => headers
  | (nameOpt, value) :: rest =>
    match nameOpt with
    | some name =>
      if !isHopByHopHeader name then copyHeaders (headers.insert name value) rest else copyHeaders headers rest
    | none => copyHeaders headers rest

/-- The headers of the request to the server. -/
def upstreamHeaders (m : HeaderMap) : HeaderMap := copyHeaders Multimap.empty m.intoIter

/-! ### What is copied -/

theorem copyHeaders_nameless (headers : HeaderMap) (values : List (List UInt8))
    (rest : List (Option String × List UInt8)) :
    copyHeaders headers (values.map (fun v => (none, v)) ++ rest) = copyHeaders headers rest := by
  induction values with
  | nil => rfl
  | cons v values ih => exact ih

/-- Of each name that stays its first value is copied. -/
theorem items_copyHeaders {bs : List (Bucket String (List UInt8))} {headers : HeaderMap}
    (h : (headers.keys ++ bs.map Bucket.key).Nodup) :
    (copyHeaders headers (bs.flatMap Bucket.intoIter)).items =
      headers.items ++ (bs.map Bucket.head).filter fun item => !isHopByHopHeader item.1 := by
  induction bs generalizing headers with
  | nil => simp [copyHeaders]
  | cons b bs ih =>
    have hnew : b.key ∉ headers.keys := fun hmem => List.disjoint_of_nodup_append h hmem (by simp)
    have hbuckets := Multimap.buckets_insert_of_notMem hnew b.value
    rw [List.flatMap_cons, Bucket.intoIter, List.cons_append, copyHeaders,
      Multimap.heads_filter_cons fun name => !isHopByHopHeader name]
    split
    · rename_i hstays
      rw [copyHeaders_nameless, ih]
      · simp only [Multimap.items, hbuckets, List.flatMap_append, List.append_assoc]
        rfl
      · rw [Multimap.keys, hbuckets, List.map_append, List.append_assoc]
        exact h
    · rw [copyHeaders_nameless, ih, List.nil_append]
      exact h.sublist (List.Sublist.append_left (List.sublist_cons_self _ _) _)

theorem items_upstreamHeaders (m : HeaderMap) :
    (upstreamHeaders m).items = m.heads.filter fun item => !isHopByHopHeader item.1 :=
  items_copyHeaders m.nodup

/-- The values of a name that stays are cut down to the first. -/
theorem copiedHeaders_append {hs : List Header} {seen : List String} {m : HeaderMap} (hseen : ∀ n, n ∈ seen ↔ n ∈ m.keys) :
    ((m.appendAll (hs.map fun h => (h.name, h.value))).heads.filter fun item => !isHopByHopHeader item.1).map ofItem =
      (m.heads.filter fun item => !isHopByHopHeader item.1).map ofItem ++ copiedHeaders seen hs := by
  induction hs generalizing seen m with
  | nil => simp [copiedHeaders]
  | cons h hs ih =>
    rw [copiedHeaders]
    have hheads := Multimap.heads_append m h.name h.value
    have hkeys := Multimap.keys_append m h.name h.value
    split
    · rename_i hold
      have hmem : h.name ∈ m.keys := (hseen _).mp (List.contains_iff_mem.mp hold)
      rw [if_pos hmem] at hheads hkeys
      have hseen' : ∀ n, n ∈ seen ↔ n ∈ (m.append h.name h.value).keys := by rwa [hkeys]
      have hrest := ih hseen'
      rwa [hheads] at hrest
    · rename_i hnew
      have hmem : h.name ∉ m.keys := fun hmem => hnew (List.contains_iff_mem.mpr ((hseen _).mpr hmem))
      rw [if_neg hmem] at hheads hkeys
      have hseen' : ∀ n, n ∈ h.name :: seen ↔ n ∈ (m.append h.name h.value).keys := by
        intro n
        rw [hkeys, List.mem_cons, List.mem_append, List.mem_singleton, hseen, or_comm]
      have hrest := ih hseen'
      rw [hheads, List.filter_append, List.map_append, List.append_assoc] at hrest
      split
      · rename_i hhop
        simpa [hhop] using hrest
      · rename_i hhop
        simpa [hhop, ofItem] using hrest

/-- The headers that routing passes through are those of the loop. -/
theorem copiedHeaders_eq (req : HttpRequest) :
    copiedHeaders [] req.headers = (upstreamHeaders req.headerMap).items.map ofItem := by
  rw [items_upstreamHeaders]
  exact (copiedHeaders_append (m := Multimap.empty) fun _ => Iff.rfl).symm

/-- Every header map is that of a request. -/
theorem headerMap_items (m : HeaderMap) (req : HttpRequest) : { req with headers := m.items.map ofItem }.headerMap = m := by
  have h := Multimap.ofItems_items m
  simpa [HttpRequest.headerMap, ofItem, Function.comp_def] using h

end HeaderMap

/-- The server gets the headers that are not for the connection, each with all of its values, exactly if each of them has
one value. -/
theorem ProxyService.headers_transparent_iff [UriText] (svc : ProxyService) (req : HttpRequest) {target : Uri}
    (htarget : svc.extractTargetUri req = .ok target) :
    svc.handleHttpRequest req = .passThrough target req.method req.headerMap.endToEnd req.body ↔
      ∀ name, isHopByHopHeader name = false → (req.headerMap.getAll name).length ≤ 1 := by
  have hcount := Multimap.length_getAll_le_one_iff (fun name => !isHopByHopHeader name) req.headerMap
  simp only [Bool.not_eq_true'] at hcount
  have hheads := Multimap.heads_filter_eq_iff (fun name => !isHopByHopHeader name) req.headerMap
  simp only [Bool.not_eq_true'] at hheads
  rw [hcount, ← hheads, ProxyService.handleHttpRequest, htarget, HeaderMap.copiedHeaders_eq, HeaderMap.items_upstreamHeaders]
  have hinjective : Function.Injective HeaderMap.ofItem := by
    rintro ⟨name, value⟩ ⟨name', value'⟩ heq
    cases heq
    rfl
  constructor
  · intro h
    injection h with _ _ hheaders _
    exact hinjective.list_map hheaders
  · intro h
    rw [h]
    rfl

namespace Sample

/-- A request with two cookies. -/
def twoCookies : HttpRequest where
  method := "GET"
  uri := { target := "/account" }
  headers := [⟨"cookie", "session=1".toUTF8.toList⟩, ⟨"cookie", "theme=dark".toUTF8.toList⟩]
  body := ByteArray.empty

end Sample

section

attribute [local instance] Sample.f64Fmt Sample.uriText

/-- A request whose headers all have one value. -/
theorem headers_transparent_sample :
    Sample.reverseProxy.handleHttpRequest (Sample.post "/account" [Sample.jsonHeader]) =
        .passThrough ⟨some "http", some "server:3000", "/account"⟩ "POST"
          (Sample.post "/account" [Sample.jsonHeader]).headerMap.endToEnd (Sample.post "/account" [Sample.jsonHeader]).body ↔
      ∀ name, isHopByHopHeader name = false →
        ((Sample.post "/account" [Sample.jsonHeader]).headerMap.getAll name).length ≤ 1 :=
  Sample.reverseProxy.headers_transparent_iff (Sample.post "/account" [Sample.jsonHeader]) (by decide)

/-- Of the two cookies the server gets one. -/
theorem second_cookie_dropped : ¬ ∀ (_ : UriText) (svc : ProxyService) (req : HttpRequest) (target : Uri),
    svc.extractTargetUri req = .ok target →
    svc.handleHttpRequest req = .passThrough target req.method req.headerMap.endToEnd req.body := by
  intro h
  have htarget : Sample.reverseProxy.extractTargetUri Sample.twoCookies =
      .ok ⟨some "http", some "server:3000", "/account"⟩ := by decide
  have hall := h Sample.uriText Sample.reverseProxy Sample.twoCookies _ htarget
  rw [ProxyService.handleHttpRequest, htarget] at hall
  injection hall with _ _ hheaders _
  exact absurd (congrArg List.length hheaders) (by decide)

end

end ThoughtGate
