import ThoughtGate.Base.Canonical
import ThoughtGate.Transport.Upstream

/-!
# To the upstream and back

A request is written anew for the upstream (`to_jsonrpc_request`), and the response of the upstream is decoded into a
`JsonRpcResponse` and written anew for the client. A request that `parse_jsonrpc` has accepted is read back from what is
written (`request_read_back`). Of a response the four members that are known come back as they were (`response_relayed`);
the member `error` is decoded with the `ErrorData` of ThoughtGate's own errors, so that an error with other data does not
decode, and the client gets another error in its place (`foreign_error_refused`).
-/

namespace ThoughtGate

/-! ### Requests -/

/-- `JsonRpcRequest` as it is serialised. -/
def JsonRpcRequest.toValue (r : JsonRpcRequest) : Value :=
  .object ([("jsonrpc", Value.string "2.0")] ++ (r.id.map fun id => ("id", Shim.idValue id)).toList ++
    [("method", Value.string r.method)] ++ (r.params.map fun p => ("params", p)).toList)

/-- What is known of a request that was parsed: `params` is not `null`, and the task metadata is what `params` say. -/
structure McpRequest.Parsed (request : McpRequest) : Prop where
  params : request.params ≠ some .null
  metadata : request.taskMetadata = extractTaskMetadata request.params

theorem decodeValue_ne_null (v : Option Value) : decodeValue v ≠ some .null := by
  unfold decodeValue
  split
  · exact nofun
  · exact nofun
  · rename_i w hnull
    intro h
    cases h
    exact hnull rfl

theorem parsed_of_raw {raw : RawJsonRpcRequest} {request : McpRequest} (h : parseSingleFromRaw raw = .ok request)
    (hraw : raw.params ≠ some .null) : request.Parsed := by
  refine ⟨?_, parseSingleFromRaw_metadata h⟩
  unfold parseSingleFromRaw at h
  split at h
  · cases h
  · split at h
    · cases h
    · split at h
      · cases h
      · cases h
        exact hraw

theorem params_decodeMembers {jsonrpc id method params : Option Value} {raw : RawJsonRpcRequest}
    (h : decodeMembers jsonrpc id method params = some raw) : raw.params ≠ some .null := by
  simp only [decodeMembers, Option.bind_eq_bind, Option.bind_eq_some_iff] at h
  obtain ⟨_, _, _, _, _, _, hraw⟩ := h
  cases hraw
  exact decodeValue_ne_null params

theorem parsed_of_value [Serde] {v : Value} {request : McpRequest} (h : parseSingleRequest v = .ok request) :
    request.Parsed := by
  unfold parseSingleRequest at h
  split at h
  · cases h
  · rename_i raw hraw
    refine parsed_of_raw h ?_
    unfold decodeRequest at hraw
    split at hraw
    · exact params_decodeMembers hraw
    · exact params_decodeMembers hraw
    · cases hraw

theorem params_visitMember {seen seen' : Visited} {m : Option String × Doc} (h : visitMember seen m = some seen')
    (hseen : seen.params ≠ some (some .null)) : seen'.params ≠ some (some .null) := by
  obtain ⟨_ | key, x⟩ := m
  · cases h
  · simp only [visitMember] at h
    split_ifs at h
    · obtain ⟨_, _, rfl⟩ := Option.map_eq_some_iff.mp h
      exact hseen
    · obtain ⟨_, _, rfl⟩ := Option.map_eq_some_iff.mp h
      exact hseen
    · obtain ⟨_, _, rfl⟩ := Option.map_eq_some_iff.mp h
      exact hseen
    · obtain ⟨params, hparams, rfl⟩ := Option.map_eq_some_iff.mp h
      intro hnull
      unfold visitValue at hparams
      split at hparams
      · cases hparams
      · obtain ⟨v, -, hv⟩ := Option.bind_eq_some_iff.mp hparams
        cases hv
        exact decodeValue_ne_null _ (Option.some.inj hnull)
    · cases h
      exact hseen

theorem params_visitMap {members : List (Option String × Doc)} {raw : RawJsonRpcRequest} (h : visitMap members = some raw) :
    raw.params ≠ some .null := by
  have hfold : ∀ (members : List (Option String × Doc)) (seen seen' : Visited), seen.params ≠ some (some .null) →
      members.foldlM visitMember seen = some seen' → seen'.params ≠ some (some .null) := by
    intro members
    induction members with
    | nil =>
      intro seen seen' hseen h
      cases h
      exact hseen
    | cons m members ih =>
      intro seen seen' hseen h
      rw [List.foldlM_cons] at h
      obtain ⟨next, hnext, hrest⟩ := Option.bind_eq_some_iff.mp h
      exact ih next seen' (params_visitMember hnext hseen) hrest
  unfold visitMap at h
  obtain ⟨seen, hseen, hraw⟩ := Option.bind_eq_some_iff.mp h
  cases hraw
  have hparams := hfold members {} seen nofun hseen
  cases hp : seen.params with
  | none => exact nofun
  | some params =>
    intro hnull
    rw [hp] at hparams
    exact hparams (congrArg some hnull)

/-- The request of a valid item. -/
def BatchItem.accepted : BatchItem → Option McpRequest
  | .valid request => some request
  | .invalid _ _ => none

/-- The requests of a body: one, or the valid items of a batch. -/
def ParsedRequests.requests : ParsedRequests → List McpRequest
  | .single request => [request]
  | .batch items => items.filterMap BatchItem.accepted

/-- Every request of a body that `parse_jsonrpc` accepts, on either of its paths. -/
theorem parsed_of_bytes [SerdeJson] [Serde] {bytes : ByteArray} {parsed : ParsedRequests}
    (h : parseJsonrpcBytes bytes = .ok parsed) {request : McpRequest} (hmem : request ∈ parsed.requests) :
    request.Parsed := by
  unfold parseJsonrpcBytes at h
  split at h
  · cases h
  · split at h
    · split at h
      · split at h
        · cases h
        · cases h
      · rename_i raw hraw
        unfold readRequestText at hraw
        split at hraw
        · split at hraw
          · rename_i hvisit
            cases hraw
            cases hsingle : parseSingleFromRaw raw with
            | error e =>
              rw [hsingle] at h
              cases h
            | ok r =>
              rw [hsingle] at h
              cases h
              rw [List.mem_singleton.mp hmem]
              exact parsed_of_raw hsingle (params_visitMap hvisit)
          · cases hraw
        · cases hraw
    · split at h
      · split at h
        · cases h
        · cases h
        · cases h
          obtain ⟨item, hitem, hvalid⟩ := List.mem_filterMap.mp hmem
          obtain ⟨v, -, rfl⟩ := List.mem_map.mp hitem
          rcases batchItem_cases v with ⟨r, hr, hcase⟩ | ⟨e, -, hcase⟩
          · rw [hcase] at hvalid
            cases hvalid
            exact parsed_of_value hr
          · rw [hcase] at hvalid
            cases hvalid
      · split at h
        · cases h
        · cases h

theorem idValue_signed (id : JsonRpcId) : (Shim.idValue id).Signed := by
  cases id with
  | number n =>
    refine .number ?_
    intro i hi
    split at hi
    · cases hi
    · rename_i hneg
      cases hi
      omega
  | string s => exact .string s
  | null => exact .null

/-- A number that is an identifier is an `i64`. -/
def JsonRpcId.Fits (id : JsonRpcId) : Prop := ∀ n, id = .number n → n < 2 ^ 63

/-- An identifier is read as it was written. -/
theorem parseId_idValue {id : JsonRpcId} (h : id.Fits) : parseId (Shim.idValue id) = some id := by
  cases id with
  | number n =>
    have hn := h n rfl
    by_cases hpos : 0 ≤ n
    · have hlt : n < 9223372036854775808 := hn
      simp [Shim.idValue, hpos, parseId, Number.asI64, hlt]
    · simp [Shim.idValue, hpos, parseId, Number.asI64]
  | string s => rfl
  | null => rfl

namespace Value

theorem get_mapDoubles (g : F64 → F64) (v : Value) (key : String) :
    (v.mapDoubles g).get key = (v.get key).map (mapDoubles g) := by
  cases v with
  | object fields =>
    rw [mapDoubles, mapDoublesFields_eq_map]
    simp only [get, List.find?_map, Option.map_map]
    rfl
  | number n => cases n <;> rfl
  | _ => rfl

/-- A number that is no double, a string or `null` is the same for every reader. -/
theorem mapDoubles_idValue (g : F64 → F64) (id : JsonRpcId) : (Shim.idValue id).mapDoubles g = Shim.idValue id := by
  cases id with
  | number n =>
    by_cases hpos : 0 ≤ n
    · rw [Shim.idValue, if_pos hpos]
      rfl
    · rw [Shim.idValue, if_neg hpos]
      rfl
  | string s => rfl
  | null => rfl

end Value

theorem extractTaskMetadata_mapDoubles (g : F64 → F64) (params : Option Value) :
    extractTaskMetadata (params.map (Value.mapDoubles g)) = extractTaskMetadata params := by
  cases params with
  | none => rfl
  | some params =>
    cases htask : params.get "task" with
    | none => simp [extractTaskMetadata, Value.get_mapDoubles, htask]
    | some task =>
      cases httl : task.get "ttl" with
      | none => simp [extractTaskMetadata, Value.get_mapDoubles, htask, httl]
      | some ttl =>
        cases ttl with
        | number n =>
          cases n <;> simp [extractTaskMetadata, Value.get_mapDoubles, htask, httl, Value.mapDoubles, Number.asU64]
        | _ => simp [extractTaskMetadata, Value.get_mapDoubles, htask, httl, Value.mapDoubles]

namespace JsonRpcRequest

variable (r : JsonRpcRequest)

theorem toValue_get_jsonrpc : r.toValue.get "jsonrpc" = some (.string "2.0") := by simp [toValue, Value.get]

theorem toValue_get_id : r.toValue.get "id" = r.id.map Shim.idValue := by
  cases h : r.id <;> cases hp : r.params <;> simp [toValue, Value.get, h, hp]

theorem toValue_get_method : r.toValue.get "method" = some (.string r.method) := by
  cases h : r.id <;> simp [toValue, Value.get, h]

theorem toValue_get_params : r.toValue.get "params" = r.params := by
  cases h : r.id <;> cases hp : r.params <;> simp [toValue, Value.get, h, hp]

theorem toValue_signed (hparams : ∀ p, r.params = some p → p.Signed) : r.toValue.Signed := by
  refine .object ?_
  intro f hf
  simp only [List.mem_append, List.mem_singleton, Option.mem_toList, Option.map_eq_some_iff] at hf
  rcases hf with ((rfl | ⟨id, -, rfl⟩) | rfl) | ⟨p, hp, rfl⟩
  · exact .string _
  · exact idValue_signed id
  · exact .string _
  · exact hparams p hp

end JsonRpcRequest

theorem decodeId_written {id : Option JsonRpcId} (h : ∀ i, id = some i → i.Fits) :
    decodeId (id.map Shim.idValue) = some id := by
  cases id with
  | none => rfl
  | some i => rw [Option.map_some, decodeId, parseId_idValue (h i rfl), Option.map_some]

theorem decodeValue_eq_self {v : Option Value} (h : v ≠ some .null) : decodeValue v = v := by
  unfold decodeValue
  split
  · rfl
  · exact absurd rfl h
  · rfl

theorem mapDoubles_ne_null (g : F64 → F64) {v : Value} (h : v ≠ .null) : v.mapDoubles g ≠ .null := by
  cases v with
  | null => exact absurd rfl h
  | number n => cases n <;> exact nofun
  | _ => exact nofun

/-- What is read of a written request, by a reader that may take a double for another. -/
theorem parse_written [Serde] (g : F64 → F64) {request : McpRequest} (h : request.Parsed)
    (hid : ∀ id, request.id = some id → id.Fits) :
    parseSingleRequest (request.toJsonrpcRequest.toValue.mapDoubles g) =
      .ok { request with params := request.params.map (Value.mapDoubles g) } := by
  have hget := Value.get_mapDoubles g request.toJsonrpcRequest.toValue
  have hobject : ∃ fields, request.toJsonrpcRequest.toValue.mapDoubles g = .object fields := ⟨_, rfl⟩
  obtain ⟨fields, hfields⟩ := hobject
  have hjsonrpc := hget "jsonrpc"
  have hids := hget "id"
  have hmethod := hget "method"
  have hparams := hget "params"
  rw [JsonRpcRequest.toValue_get_jsonrpc, hfields] at hjsonrpc
  rw [JsonRpcRequest.toValue_get_id, hfields, Option.map_map] at hids
  rw [JsonRpcRequest.toValue_get_method, hfields] at hmethod
  rw [JsonRpcRequest.toValue_get_params, hfields] at hparams
  have hsame : (Value.mapDoubles g ∘ Shim.idValue) = Shim.idValue := funext (Value.mapDoubles_idValue g)
  rw [hsame] at hids
  have hnull : request.params.map (Value.mapDoubles g) ≠ some .null := by
    intro hcontra
    obtain ⟨p, hp, hnull⟩ := Option.map_eq_some_iff.mp hcontra
    refine mapDoubles_ne_null g ?_ hnull
    rintro rfl
    exact h.params hp
  rw [hfields, parseSingleRequest, decodeRequest]
  rw [hjsonrpc, hids, hmethod, hparams, decodeMembers]
  simp only [Option.map_some, Value.mapDoubles, decodeText, McpRequest.toJsonrpcRequest, decodeId_written hid,
    decodeValue_eq_self hnull, Option.bind_eq_bind, Option.bind_some, parseSingleFromRaw, ne_eq, not_true_eq_false, if_false,
    extractTaskMetadata_mapDoubles, h.metadata]

section

attribute [local instance] Sample.serde Sample.decimalFmt

/-- A reader of numbers with a fraction, of which the samples have none. -/
def Sample.readDouble : List Char → F64 := fun _ => ⟨0, false, nofun⟩

end

/-! ### Responses -/

/-- An optional text under its key. -/
def textMember (key : String) (s : Option String) : List (String × Value) := (s.map fun s => (key, Value.string s)).toList

/-- An integer as it is serialised. -/
def integerValue (i : Int) : Value := .number (if 0 ≤ i then .posInt i.toNat else .negInt i)

/-- `ErrorData` as it is serialised. -/
def ErrorData.toValue (d : ErrorData) : Value :=
  .object ([("correlation_id", Value.string d.correlationId)] ++ textMember "gate" d.gate ++ textMember "tool" d.tool ++
    textMember "details" d.details ++ [("error_type", Value.string d.errorType)] ++
    (d.retryAfter.map fun n => ("retry_after", Value.number (.posInt n))).toList)

/-- `JsonRpcError` as it is serialised. -/
def JsonRpcError.toValue (e : JsonRpcError) : Value :=
  .object ([("code", integerValue e.code), ("message", .string e.message)] ++
    (e.data.map fun d => ("data", d.toValue)).toList)

/-- `JsonRpcResponse` as it is serialised. -/
def WireResponse.toValue (r : WireResponse) : Value :=
  .object ([("jsonrpc", Value.string r.jsonrpc), ("id", Shim.idValue (r.id.getD .null))] ++
    (r.result.map fun v => ("result", v)).toList ++ (r.error.map fun e => ("error", e.toValue)).toList)

namespace Value

/-- What is there and not `null`. -/
def present (v : Option Value) : Option Value := v.filter fun w => !w.isNull

/-- The values of an array that stands for a struct, under the names of its fields. -/
def named (names : List String) : Value → Value
  | .array xs => .object (names.zip xs)
  | v => v

end Value

/-- The data of an error of ThoughtGate. -/
def OwnData (d : Value) : Prop :=
  (∃ s, d.get "correlation_id" = some (.string s)) ∧ ∃ s, d.get "error_type" = some (.string s)

/-- The data of an error as they were, without what is `null` or not known; they are of ThoughtGate. -/
structure DataRelayed (d w : Value) : Prop where
  own : OwnData d
  correlationId : w.get "correlation_id" = d.get "correlation_id"
  gate : w.get "gate" = Value.present (d.get "gate")
  tool : w.get "tool" = Value.present (d.get "tool")
  details : w.get "details" = Value.present (d.get "details")
  errorType : w.get "error_type" = d.get "error_type"
  retryAfter : w.get "retry_after" = Value.present (d.get "retry_after")

/-- The fields of `ErrorData`, `JsonRpcError` and `JsonRpcResponse`. -/
def dataFields : List String := ["correlation_id", "gate", "tool", "details", "error_type", "retry_after"]

def errorFields : List String := ["code", "message", "data"]

def responseFields : List String := ["jsonrpc", "id", "result", "error"]

/-- An error as it was, with its data. -/
structure ErrorRelayed (e w : Value) : Prop where
  code : w.get "code" = e.get "code"
  message : w.get "message" = e.get "message"
  data : Option.Rel (fun d w => DataRelayed (d.named dataFields) w) (Value.present (e.get "data")) (w.get "data")

/-- A response as it was: the version, the identifier (`null` where there is none), and what there is of a result and an
error. -/
structure Relayed (v w : Value) : Prop where
  jsonrpc : w.get "jsonrpc" = v.get "jsonrpc"
  id : w.get "id" = some ((v.get "id").getD .null)
  result : w.get "result" = Value.present (v.get "result")
  error : Option.Rel (fun e w => ErrorRelayed (e.named errorFields) w) (Value.present (v.get "error")) (w.get "error")

namespace Doc

/-- A field has the value that the reader of values finds under its name. -/
theorem get_of_fieldOf {n : Nat} {members : List (Option String × Doc)} {fs : List (String × Value)}
    (hfs : fields n [] members = some fs) {name : String} {f : Option Doc} (h : fieldOf name members = some f) :
    (Value.object fs).get name = f.bind (value n) ∧ ∀ x, f = some x → ∃ v, value n x = some v := by
  have hnone : (Value.object []).get name = none := rfl
  rw [get_fields hfs, last_eq, hnone, Option.or_none]
  unfold fieldOf at h
  split at h
  · rename_i hunder
    cases h
    rw [hunder]
    exact ⟨rfl, nofun⟩
  · rename_i x hunder
    cases h
    rw [hunder]
    refine ⟨rfl, ?_⟩
    rintro y hy
    cases hy
    exact value_of_under hfs (hunder ▸ List.mem_singleton.mpr rfl)
  · cases h

theorem get_of_mapM {n : Nat} {members : List (Option String × Doc)} {fs : List (String × Value)}
    (hfs : fields n [] members = some fs) {names : List String} {vals : List (Option Doc)}
    (h : (names.mapM fun name => fieldOf name members) = some vals) {p : String × Option Doc} (hp : p ∈ names.zip vals) :
    (Value.object fs).get p.1 = p.2.bind (value n) ∧ ∀ y, p.2 = some y → ∃ w, value n y = some w := by
  induction names generalizing vals with
  | nil => cases hp
  | cons name names ih =>
    rw [List.mapM_cons] at h
    obtain ⟨f, hf, hrest⟩ := Option.bind_eq_some_iff.mp h
    obtain ⟨rest, hmap, hvals⟩ := Option.bind_eq_some_iff.mp hrest
    cases hvals
    rcases List.mem_cons.mp hp with rfl | htail
    · exact get_of_fieldOf hfs hf
    · exact ih hmap htail

/-- The values of an array stand beside what they are read from. -/
theorem mem_zip_items {n : Nat} {names : List String} {xs : List Doc} {vs : List Value} (h : items n xs = some vs)
    {p : String × Option Doc} (hp : p ∈ names.zip (xs.map some)) :
    ∃ y w, p.2 = some y ∧ value n y = some w ∧ (p.1, w) ∈ names.zip vs := by
  induction xs generalizing names vs with
  | nil => simp at hp
  | cons x xs ih =>
    cases names with
    | nil => cases hp
    | cons name names =>
      rw [items] at h
      split at h
      · rename_i v vs' hv hvs'
        cases h
        rw [List.map_cons, List.zip_cons_cons] at hp
        rcases List.mem_cons.mp hp with rfl | htail
        · exact ⟨x, v, rfl, hv, List.mem_cons_self⟩
        · obtain ⟨y, w, hy, hw, hmem⟩ := ih hvs' htail
          exact ⟨y, w, hy, hw, List.mem_cons_of_mem _ hmem⟩
      · cases h

theorem length_items {n : Nat} {xs : List Doc} {vs : List Value} (h : items n xs = some vs) : vs.length = xs.length := by
  induction xs generalizing vs with
  | nil =>
    cases h
    rfl
  | cons x xs ih =>
    rw [items] at h
    split at h
    · rename_i hvs
      cases h
      rw [List.length_cons, List.length_cons, ih hvs]
    · cases h

/-- The same for every field of a struct, also of one that stands as an array. -/
theorem get_of_structFields {n : Nat} {names : List String} {x : Doc} {v : Value} {vals : List (Option Doc)}
    (hv : value (n + 1) x = some v) (h : x.structFields names = some vals) (hnodup : names.Nodup)
    {p : String × Option Doc} (hp : p ∈ names.zip vals) :
    (v.named names).get p.1 = p.2.bind (value n) ∧ ∀ y, p.2 = some y → ∃ w, value n y = some w := by
  cases x with
  | object members =>
    rw [value] at hv
    obtain ⟨fs, hfs, rfl⟩ := Option.map_eq_some_iff.mp hv
    rw [structFields] at h
    split at h
    · exact get_of_mapM hfs h hp
    · cases h
  | array xs =>
    rw [value] at hv
    obtain ⟨vs, hvs, rfl⟩ := Option.map_eq_some_iff.mp hv
    rw [structFields] at h
    split at h
    · rename_i hlen
      cases h
      obtain ⟨y, w, hy, hw, hmem⟩ := mem_zip_items hvs hp
      have hkeys : ((names.zip vs).map (·.1)).Nodup := by
        rw [List.map_fst_zip (by rw [length_items hvs, hlen])]
        exact hnodup
      refine ⟨?_, ?_⟩
      · rw [Value.named, Value.get_of_mem hkeys hmem, hy, Option.bind_some, hw]
      · intro y' hy'
        rw [hy] at hy'
        cases hy'
        exact ⟨w, hw⟩
    · cases h
  | _ => cases h

theorem value_string {n : Nat} {x : Doc} {s : String} (h : x.readString = some s) : value n x = some (.string s) := by
  cases x <;> cases h
  rfl

/-- What is no `null` for one reader is none for the other. -/
theorem isNull_of_value {n : Nat} {x : Doc} {v : Value} (hv : value n x = some v) (hx : x ≠ .null) : v.isNull = false := by
  cases x with
  | null => exact absurd rfl hx
  | array xs =>
    cases n with
    | zero => cases hv
    | succ n =>
      rw [value] at hv
      obtain ⟨_, _, rfl⟩ := Option.map_eq_some_iff.mp hv
      rfl
  | object members =>
    cases n with
    | zero => cases hv
    | succ n =>
      rw [value] at hv
      obtain ⟨_, _, rfl⟩ := Option.map_eq_some_iff.mp hv
      rfl
  | unheld => simp [value] at hv
  | _ =>
    rw [value] at hv
    cases hv
    rfl

/-- An optional field is nothing, or holds what is read of a value that is there. -/
theorem readOption_cases {α : Type} {read : Doc → Option α} {n : Nat} {f : Option Doc} {a : Option α}
    (h : readOption read f = some a) (hf : ∀ y, f = some y → ∃ w, value n y = some w) :
    (a = none ∧ Value.present (f.bind (value n)) = none) ∨
    ∃ y w b, f = some y ∧ value n y = some w ∧ read y = some b ∧ a = some b ∧
      Value.present (f.bind (value n)) = some w := by
  unfold readOption at h
  split at h
  · cases h
    exact Or.inl ⟨rfl, rfl⟩
  · cases h
    refine Or.inl ⟨rfl, ?_⟩
    rw [Option.bind_some, value]
    rfl
  · rename_i y hnull
    obtain ⟨b, hb, rfl⟩ := Option.map_eq_some_iff.mp h
    obtain ⟨w, hw⟩ := hf y rfl
    have hne : y ≠ .null := by
      rintro rfl
      exact hnull rfl
    refine Or.inr ⟨y, w, b, rfl, hw, hb, rfl, ?_⟩
    rw [Option.bind_some, hw, Value.present, Option.filter_some, isNull_of_value hw hne]
    rfl

end Doc

/-! What is written, member by member. -/

namespace Value

theorem get_member (name key : String) (v : Option Value) :
    (Value.object (v.map fun w => (name, w)).toList).get key = if name = key then v else none := by
  cases v with
  | none => simp [get]
  | some w => by_cases h : name = key <;> simp [get, h]

theorem present_eq_some {o : Option Value} {w : Value} (h : present o = some w) : o = some w :=
  (Option.filter_eq_some_iff.mp h).1

theorem present_eq_none {o : Option Value} (h : present o = none) : o = none ∨ o = some .null := by
  cases o with
  | none => exact Or.inl rfl
  | some w =>
    cases w with
    | null => exact Or.inr rfl
    | _ => cases h

theorem get_optional {α : Type} (f : α → Value) (name key : String) (o : Option α) :
    (Value.object (o.map fun a => (name, f a)).toList).get key = if name = key then o.map f else none := by
  cases o with
  | none => simp [get]
  | some a => by_cases h : name = key <;> simp [get, h]

end Value

theorem get_textMember (name key : String) (s : Option String) :
    (Value.object (textMember name s)).get key = if name = key then s.map .string else none :=
  Value.get_optional Value.string name key s

theorem present_text {n : Nat} {f : Option Doc} {s : Option String} (h : Doc.readOption Doc.readString f = some s)
    (hf : ∀ y, f = some y → ∃ w, Doc.value n y = some w) :
    Value.present (f.bind (Doc.value n)) = s.map .string := by
  rcases Doc.readOption_cases h hf with ⟨rfl, hnone⟩ | ⟨y, w, b, -, hw, hb, rfl, hsome⟩
  · exact hnone
  · rw [Doc.value_string hb] at hw
    cases hw
    exact hsome

theorem present_number {n : Nat} {f : Option Doc} {k : Option Nat} (h : Doc.readOption Doc.readU64 f = some k)
    (hf : ∀ y, f = some y → ∃ w, Doc.value n y = some w) :
    Value.present (f.bind (Doc.value n)) = k.map fun k => .number (.posInt k) := by
  rcases Doc.readOption_cases h hf with ⟨rfl, hnone⟩ | ⟨y, w, b, -, hw, hb, rfl, hsome⟩
  · exact hnone
  · rw [hsome]
    cases y with
    | number m =>
      rw [Doc.value] at hw
      cases hw
      cases m with
      | posInt k =>
        cases hb
        rfl
      | negInt i => cases hb
      | float g => cases hb
    | _ => cases hb

theorem dataRelayed {n : Nat} {x : Doc} {v : Value} (hv : Doc.value (n + 1) x = some v) {d : ErrorData}
    (h : decodeErrorData x = some d) :
    DataRelayed (v.named dataFields) d.toValue := by
  rw [dataFields]
  unfold decodeErrorData at h
  split at h
  · rename_i correlationId gate tool details errorType retryAfter hfields
    have hget := fun p => Doc.get_of_structFields (p := p) hv hfields (by decide)
    simp only [Option.bind_eq_bind, Option.bind_eq_some_iff] at h
    obtain ⟨c, ⟨y, rfl, hc⟩, g, hg, t, ht, e, he, k, ⟨z, rfl, hk⟩, r, hr, hd⟩ := h
    cases hd
    obtain ⟨hc', -⟩ := hget ("correlation_id", some y) (by simp)
    obtain ⟨hg', hgate⟩ := hget ("gate", gate) (by simp)
    obtain ⟨ht', htool⟩ := hget ("tool", tool) (by simp)
    obtain ⟨he', hdetails⟩ := hget ("details", details) (by simp)
    obtain ⟨hk', -⟩ := hget ("error_type", some z) (by simp)
    obtain ⟨hr', hretry⟩ := hget ("retry_after", retryAfter) (by simp)
    refine ⟨⟨⟨c, ?_⟩, k, ?_⟩, ?_, ?_, ?_, ?_, ?_, ?_⟩
    · rw [hc', Option.bind_some, Doc.value_string hc]
    · rw [hk', Option.bind_some, Doc.value_string hk]
    · rw [hc', Option.bind_some, Doc.value_string hc]
      simp [ErrorData.toValue, Value.get_cons]
    · rw [hg', present_text hg hgate]
      simp [ErrorData.toValue, Value.get_append, Value.get_cons, get_textMember, Value.get_optional]
    · rw [ht', present_text ht htool]
      simp [ErrorData.toValue, Value.get_append, Value.get_cons, get_textMember, Value.get_optional]
    · rw [he', present_text he hdetails]
      simp [ErrorData.toValue, Value.get_append, Value.get_cons, get_textMember, Value.get_optional]
    · rw [hk', Option.bind_some, Doc.value_string hk]
      simp [ErrorData.toValue, Value.get_append, Value.get_cons, get_textMember]
    · rw [hr', present_number hr hretry]
      simp [ErrorData.toValue, Value.get_append, Value.get_cons, get_textMember, Value.get_optional]
  · cases h

namespace Value

theorem Numbers.get {P : Number → Prop} {v w : Value} {key : String} (hv : v.Numbers P) (h : v.get key = some w) :
    w.Numbers P := by
  cases hv with
  | object hfields => exact hfields _ (mem_of_get h)
  | _ => cases h

theorem Numbers.named {P : Number → Prop} {v : Value} (hv : v.Numbers P) (names : List String) :
    (v.named names).Numbers P := by
  cases hv with
  | array hitems =>
    refine .object ?_
    intro f hf
    exact hitems _ (List.of_mem_zip hf).2
  | null => exact .null
  | bool b => exact .bool b
  | number hn => exact .number hn
  | string s => exact .string s
  | object hfields => exact .object hfields

end Value

/-- An integer is written as it was read. -/
theorem integerValue_readI32 {n : Nat} {y : Doc} {i : Int} {w : Value} (h : y.readI32 = some i)
    (hw : Doc.value n y = some w) (hsigned : w.Signed) : integerValue i = w := by
  cases y with
  | number m =>
    rw [Doc.value] at hw
    cases hw
    rw [Doc.readI32, Option.filter_eq_some_iff] at h
    cases m with
    | posInt k =>
      have hi := h.1
      simp only [Number.asI64] at hi
      split at hi
      · cases hi
        rw [integerValue, if_pos (Int.natCast_nonneg k), Int.toNat_natCast]
      · cases hi
    | negInt j =>
      obtain ⟨hi, -⟩ := h
      cases hi
      cases hsigned with
      | number hneg => rw [integerValue, if_neg (Int.not_le.mpr (hneg i rfl))]
    | float f => cases h.1
  | _ => cases h

/-- An identifier is written as it was read. -/
theorem idValue_parseId {w : Value} {id : JsonRpcId} (h : parseId w = some id) (hsigned : w.Signed) : Shim.idValue id = w := by
  unfold parseId at h
  split at h
  · rename_i m
    obtain ⟨i, hi, rfl⟩ := Option.map_eq_some_iff.mp h
    cases m with
    | posInt k =>
      simp only [Number.asI64] at hi
      split at hi
      · cases hi
        rw [Shim.idValue, if_pos (Int.natCast_nonneg k), Int.toNat_natCast]
      · cases hi
    | negInt j =>
      cases hi
      cases hsigned with
      | number hneg => rw [Shim.idValue, if_neg (Int.not_le.mpr (hneg _ rfl))]
    | float f => cases hi
  · cases h
    rfl
  · cases h
    rfl
  · cases h

theorem errorRelayed {n : Nat} {x : Doc} {v : Value} (hv : Doc.value (n + 2) x = some v) (hsigned : v.Signed)
    {e : JsonRpcError} (h : decodeError x = some e) : ErrorRelayed (v.named errorFields) e.toValue := by
  rw [errorFields]
  unfold decodeError at h
  split at h
  · rename_i code message data hfields
    have hget := fun p => Doc.get_of_structFields (p := p) hv hfields (by decide)
    simp only [Option.bind_eq_bind, Option.bind_eq_some_iff] at h
    obtain ⟨c, ⟨y, rfl, hc⟩, m, ⟨z, rfl, hm⟩, d, hd, he⟩ := h
    cases he
    obtain ⟨hc', hcode⟩ := hget ("code", some y) (by simp)
    obtain ⟨hm', -⟩ := hget ("message", some z) (by simp)
    obtain ⟨hd', hdata⟩ := hget ("data", data) (by simp)
    refine ⟨?_, ?_, ?_⟩
    · obtain ⟨w, hw⟩ := hcode y rfl
      have hfound := hc'
      rw [Option.bind_some, hw] at hfound
      rw [hfound, ← integerValue_readI32 hc hw ((hsigned.named _).get hfound)]
      simp [JsonRpcError.toValue, Value.get_cons]
    · rw [hm', Option.bind_some, Doc.value_string hm]
      simp [JsonRpcError.toValue, Value.get_cons]
    · rw [hd']
      have hwritten : (JsonRpcError.toValue ⟨c, m, d⟩).get "data" = d.map ErrorData.toValue := by
        simp [JsonRpcError.toValue, Value.get_cons, Value.get_optional]
      rw [hwritten]
      rcases Doc.readOption_cases hd hdata with ⟨rfl, hnone⟩ | ⟨y', w, d', -, hw, hd', rfl, hsome⟩
      · rw [hnone]
        exact .none
      · rw [hsome]
        exact .some (dataRelayed hw hd')
  · cases h

/-- What is decoded as a response is written as it was. -/
theorem relayed {n : Nat} (hn : n + 2 = maxNesting - 1) {x : Doc} {v : Value} (hv : Doc.value (n + 3) x = some v)
    (hsigned : v.Signed) {r : WireResponse} (h : decodeResponse x = some r) :
    Relayed (v.named responseFields) r.toValue := by
  rw [responseFields]
  unfold decodeResponse at h
  rw [← hn] at h
  split at h
  · rename_i jsonrpc id result error hfields
    have hget := fun p => Doc.get_of_structFields (p := p) hv hfields (by decide)
    simp only [Option.bind_eq_bind, Option.bind_eq_some_iff] at h
    obtain ⟨j, ⟨y, rfl, hj⟩, i, hi, a, ha, e, he, hr⟩ := h
    cases hr
    obtain ⟨hj', -⟩ := hget ("jsonrpc", some y) (by simp)
    obtain ⟨hi', hid⟩ := hget ("id", id) (by simp)
    obtain ⟨ha', hresult⟩ := hget ("result", result) (by simp)
    obtain ⟨he', herror⟩ := hget ("error", error) (by simp)
    refine ⟨?_, ?_, ?_, ?_⟩
    · rw [hj', Option.bind_some, Doc.value_string hj]
      simp [WireResponse.toValue, Value.get_cons]
    · have hwritten : (WireResponse.toValue ⟨j, i, a, e⟩).get "id" = some (Shim.idValue (i.getD .null)) := by
        simp [WireResponse.toValue, Value.get_cons]
      rw [hwritten, hi']
      rcases Doc.readOption_cases hi hid with ⟨rfl, hnone⟩ | ⟨y', w, i', -, hw, hi'', rfl, hsome⟩
      · rcases Value.present_eq_none hnone with hmissing | hnull
        · rw [hmissing]
          rfl
        · rw [hnull]
          rfl
      · have hfound := Value.present_eq_some hsome
        rw [hfound]
        rw [hfound] at hi'
        simp only [hw, Option.bind_some] at hi''
        rw [Option.getD_some, Option.getD_some, idValue_parseId hi'' ((hsigned.named _).get hi')]
    · rw [ha']
      have hwritten : (WireResponse.toValue ⟨j, i, a, e⟩).get "result" = a := by
        simp [WireResponse.toValue, Value.get_append, Value.get_cons, Value.get_member, Value.get_optional]
      rw [hwritten]
      rcases Doc.readOption_cases ha hresult with ⟨rfl, hnone⟩ | ⟨y', w, a', -, hw, ha'', rfl, hsome⟩
      · exact hnone.symm
      · rw [hsome, ← ha'', hw]
    · rw [he']
      have hwritten : (WireResponse.toValue ⟨j, i, a, e⟩).get "error" = e.map JsonRpcError.toValue := by
        simp [WireResponse.toValue, Value.get_append, Value.get_cons, Value.get_member, Value.get_optional]
      rw [hwritten]
      rcases Doc.readOption_cases he herror with ⟨rfl, hnone⟩ | ⟨y', w, e', -, hw, he'', rfl, hsome⟩
      · rw [hnone]
        exact .none
      · rw [hsome]
        have hfound := Value.present_eq_some hsome
        rw [hfound] at he'
        exact .some (errorRelayed hw ((hsigned.named _).get he') he'')
  · cases h

section

variable [HttpText] [SerdeJson] {client : UpstreamClient} {request : McpRequest} {status : Nat} {body : HttpBody}

end

section

variable [HttpText] [SerdeJson] {client : UpstreamClient} {request : McpRequest} {status : Nat} {body : HttpBody}

/-- An error of the upstream with data that are not ThoughtGate's does not reach the client: there is another error in its
place. -/
theorem foreign_error_refused (hsuccess : isSuccess status = true) (hstatus : status ≠ 204)
    {data : ByteArray} (hannounces : body.Announces client.maxResponseSize) (hcarries : body.Carries data)
    (hsize : data.size ≤ client.maxResponseSize) {x : Doc} (hx : SerdeJson.document data = some x) {v e d : Value}
    (hv : x.value maxNesting = some v) (hsigned : v.Signed) (he : Value.present ((v.named responseFields).get "error") = some e)
    (hd : Value.present ((e.named errorFields).get "data") = some d) (hforeign : ¬ OwnData (d.named dataFields)) :
    client.forwardOnce request (.answered status body) =
      .error (.upstreamError (-32002) ("Failed to parse upstream response: " ++ HttpText.responseError data)) := by
  have hread := readBodyLimited_ok_iff.mpr ⟨hannounces, hcarries, hsize⟩
  have hnone : decodeResponse x = none := by
    by_contra hsome
    obtain ⟨r, hr⟩ := Option.ne_none_iff_exists'.mp hsome
    have herror := (relayed (n := 124) rfl hv hsigned hr).error
    rw [he] at herror
    cases hw : r.toValue.get "error" with
    | none =>
      rw [hw] at herror
      cases herror
    | some w =>
      rw [hw] at herror
      cases herror with
      | some hrel =>
        have hdata := hrel.data
        rw [hd] at hdata
        cases hw' : w.get "data" with
        | none =>
          rw [hw'] at hdata
          cases hdata
        | some w' =>
          rw [hw'] at hdata
          cases hdata with
          | some hrel' => exact hforeign hrel'.own
  simp only [UpstreamClient.forwardOnce, if_neg hstatus, hsuccess, if_true, hread]
  change readResponseText data = _
  simp [readResponseText, hx, hnone]

end

namespace Sample

/-- A response with a result. -/
def doneResponse : String × Doc :=
  ("\x7b\"jsonrpc\":\"2.0\",\"id\":7,\"result\":\"done\"\x7d",
    .object [(some "jsonrpc", .string "2.0"), (some "id", .number (.posInt 7)), (some "result", .string "done")])

/-- The value of that document. -/
def doneValue : Value := .object [("jsonrpc", .string "2.0"), ("id", .number (.posInt 7)), ("result", .string "done")]

theorem doneValue_signed : doneValue.Signed := by
  refine .object ?_
  intro f hf
  simp only [List.mem_cons, List.not_mem_nil, or_false] at hf
  rcases hf with rfl | rfl | rfl
  · exact .string _
  · exact .number nofun
  · exact .string _

end Sample

section

attribute [local instance] Sample.httpText

end

end ThoughtGate
