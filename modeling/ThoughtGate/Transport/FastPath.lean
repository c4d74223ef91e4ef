import ThoughtGate.Base.Document
import ThoughtGate.Base.Text
import ThoughtGate.Transport.JsonRpc

/-!
# A request by itself and a batch of one

`parse_jsonrpc` reads a body that is one object straight into a `RawJsonRpcRequest`, and a batch into a list of `Value`s
first. The two readers of `serde_json` differ:

* the derived reader of the struct refuses a member that comes twice, and skips the members it does not know without
  looking at their values; the reader of a `Value` keeps the last of the members with one key, and has to hold them all
  (a number beyond the doubles, or a nesting beyond the limit, is an error);
* the derived reader also takes an array with the four values in their order, which as a body of its own is a batch.

So a text and the batch of that one text are not always read alike (`paths_disagree`); `paths_agree_iff` says exactly when
they are. The texts and their documents are `serde_json`'s (`SerdeJson`), and `Doc` is a document as both readers see it.
-/

namespace ThoughtGate

/-! ### Documents -/

/-- The value of a text with all its members, and with what can be skipped but not held: a number beyond the doubles, a
string or (`none`) a key with an unpaired surrogate. -/
inductive Doc where
  | null
  | bool (b : Bool)
  | number (n : Number)
  | string (s : String)
  | unheld
  | array (xs : List Doc)
  | object (members : List (Option String × Doc))

namespace Doc

mutual

/-- `Value::deserialize` where `n` more levels may be opened; of the members with one key the last one stays. -/
def value : Nat → Doc → Option Value
  | _, .null => some .null
  | _, .bool b => some (.bool b)
  | _, .number n => some (.number n)
  | _, .string s => some (.string s)
  | _, .unheld => none
  | 0, .array _ => none
  | n + 1, .array xs => (items n xs).map .array
  | 0, .object _ => none
  | n + 1, .object members => (fields n [] members).map .object

def items : Nat → List Doc → Option (List Value)
  | _, [] => some []
  | n, x :: xs =>
    match value n x, items n xs with
    | some v, some vs => some (v :: vs)
    | _, _ => none

def fields : Nat → List (String × Value) → List (Option String × Doc) → Option (List (String × Value))
  | _, kept, [] => some kept
  | _, _, (none, _) :: _ => none
  | n, kept, (some key, x) :: members =>
    match value n x with
    | some v => fields n (Value.insertField key v kept) members
    | none => none

end

/-- The last member with this key. -/
def last (key : String) : List (Option String × Doc) → Option Doc
  | [] => none
  | (k, x) :: members => (last key members).or (if k = some key then some x else none)

end Doc

/-! ### The two readers -/

/-- The levels that `serde_json` opens. -/
def maxNesting : Nat := 127

/-- The first byte that is no white space, which the path goes by. -/
def firstByte (bytes : ByteArray) : Option UInt8 := bytes.toList.find? fun b => !isAsciiWhitespace b

/-- What the derived reader has seen of the members so far. -/
structure Visited where
  jsonrpc : Option (Option String) := none
  id : Option (Option JsonRpcId) := none
  method : Option (Option String) := none
  params : Option (Option Value) := none

/-- Every value decodes for `params`. -/
def decodeParams (v : Option Value) : Option (Option Value) := some (decodeValue v)

/-- The value of a member that must not have come before. -/
def visitValue {α : Type} (seen : Option α) (decode : Option Value → Option α) (x : Doc) : Option α :=
  match seen with
  | some _ => none
  | none => (x.value (maxNesting - 1)).bind fun v => decode (some v)

/-- One round of the derived `visit_map`: a member twice is an error, another member is skipped. -/
def visitMember (seen : Visited) : Option String × Doc → Option Visited
  | (none, _) => none
  | (some key, x) =>
    if key = "jsonrpc" then (visitValue seen.jsonrpc decodeText x).map fun jsonrpc => { seen with jsonrpc := some jsonrpc }
    else if key = "id" then (visitValue seen.id decodeId x).map fun id => { seen with id := some id }
    else if key = "method" then (visitValue seen.method decodeText x).map fun method => { seen with method := some method }
    else if key = "params" then
      (visitValue seen.params decodeParams x).map fun params => { seen with params := some params }
    else some seen

/-- The derived `visit_map`; a member that is missing is nothing. -/
def visitMap (members : List (Option String × Doc)) : Option RawJsonRpcRequest := do
  let seen ← members.foldlM visitMember {}
  some {
    jsonrpc := seen.jsonrpc.getD none
    id := seen.id.getD none
    method := seen.method.getD none
    params := seen.params.getD none }

/-- `serde_json`: the document of a text, and what it says of a text that it cannot read, as a `Value` or a list of them
and as a request (with whether that is an error of syntax). -/
class SerdeJson where
  document : ByteArray → Option Doc
  valueError : ByteArray → String
  requestError : ByteArray → Bool × String

section

variable [SerdeJson]

/-- `from_slice::<Value>`. -/
def readValueText (bytes : ByteArray) : Except String Value :=
  match (SerdeJson.document bytes).bind (Doc.value maxNesting) with
  | some v => .ok v
  | none => .error (SerdeJson.valueError bytes)

/-- `from_slice::<Vec<Value>>`. -/
def readItemsText (bytes : ByteArray) : Except String (List Value) :=
  match SerdeJson.document bytes with
  | some (.array xs) =>
    match Doc.items (maxNesting - 1) xs with
    | some items => .ok items
    | none => .error (SerdeJson.valueError bytes)
  | _ => .error (SerdeJson.valueError bytes)

/-- `from_slice::<RawJsonRpcRequest>` of a text that begins with a brace. -/
def readRequestText (bytes : ByteArray) : Except (Bool × String) RawJsonRpcRequest :=
  match SerdeJson.document bytes with
  | some (.object members) =>
    match visitMap members with
    | some raw => .ok raw
    | none => .error (SerdeJson.requestError bytes)
  | _ => .error (SerdeJson.requestError bytes)

variable [Serde]

/-- `parse_jsonrpc`, with its two paths. -/
def parseJsonrpcBytes (bytes : ByteArray) : Except ThoughtGateError ParsedRequests :=
  match firstByte bytes with
  | none => .error (.parseError "Invalid JSON: empty input")
  | some first =>
    if first = 0x7b then
      match readRequestText bytes with
      | .error (isSyntax, e) =>
        if isSyntax then .error (.parseError ("Invalid JSON: " ++ e))
        else .error (.invalidRequest ("Invalid JSON-RPC structure: " ++ e))
      | .ok raw => (parseSingleFromRaw raw).map .single
    else if first = 0x5b then
      match readItemsText bytes with
      | .error e => .error (.parseError ("Invalid JSON: " ++ e))
      | .ok [] => .error (.invalidRequest "Empty batch is not allowed")
      | .ok (item :: items) => .ok (.batch ((item :: items).map batchItem))
    else
      match readValueText bytes with
      | .error e => .error (.parseError ("Invalid JSON: " ++ e))
      | .ok _ => .error (.invalidRequest "Request must be an object or array")

end

/-! ### What is read as a value -/

namespace Doc

mutual

/-- One more level does no harm. -/
theorem value_succ : ∀ (x : Doc) (n : Nat) (v : Value), value n x = some v → value (n + 1) x = some v
  | .null, _, _, h => by simpa [value] using h
  | .bool _, _, _, h => by simpa [value] using h
  | .number _, _, _, h => by simpa [value] using h
  | .string _, _, _, h => by simpa [value] using h
  | .unheld, _, _, h => by simp [value] at h
  | .array _, 0, _, h => by simp [value] at h
  | .array xs, n + 1, v, h => by
    rw [value] at h ⊢
    obtain ⟨vs, hvs, rfl⟩ := Option.map_eq_some_iff.mp h
    rw [items_succ xs n vs hvs]
    rfl
  | .object _, 0, _, h => by simp [value] at h
  | .object members, n + 1, v, h => by
    rw [value] at h ⊢
    obtain ⟨fs, hfs, rfl⟩ := Option.map_eq_some_iff.mp h
    rw [fields_succ members n [] fs hfs]
    rfl

theorem items_succ : ∀ (xs : List Doc) (n : Nat) (vs : List Value), items n xs = some vs → items (n + 1) xs = some vs
  | [], _, _, h => by simpa [items] using h
  | x :: xs, n, vs, h => by
    rw [items] at h ⊢
    split at h
    · rename_i v ws hv hws
      rw [value_succ x n v hv, items_succ xs n ws hws]
      exact h
    · cases h

theorem fields_succ : ∀ (members : List (Option String × Doc)) (n : Nat) (kept fs : List (String × Value)),
    fields n kept members = some fs → fields (n + 1) kept members = some fs
  | [], _, _, _, h => by simpa [fields] using h
  | (none, _) :: _, _, _, _, h => by simp [fields] at h
  | (some _, x) :: members, n, kept, fs, h => by
    rw [fields] at h ⊢
    split at h
    · rename_i v hv
      rw [value_succ x n v hv]
      exact fields_succ members n _ fs h
    · cases h

end

theorem value_mono {x : Doc} {n m : Nat} (hle : n ≤ m) {v : Value} (h : value n x = some v) : value m x = some v := by
  induction hle with
  | refl => exact h
  | step _ ih => exact value_succ x _ v ih

/-- The values of the members with one key, in their order. -/
def under (key : String) (members : List (Option String × Doc)) : List Doc :=
  (members.filter (·.1 == some key)).map (·.2)

theorem under_cons (key : String) (k : Option String) (x : Doc) (members : List (Option String × Doc)) :
    under key ((k, x) :: members) = if k = some key then x :: under key members else under key members := by
  by_cases h : k = some key
  · simp [under, h]
  · simp [under, h]

theorem last_eq (key : String) (members : List (Option String × Doc)) :
    last key members = (under key members).getLast? := by
  induction members with
  | nil => rfl
  | cons m members ih =>
    obtain ⟨k, x⟩ := m
    rw [last, under_cons, ih]
    by_cases h : k = some key
    · rw [if_pos h, if_pos h]
      cases under key members with
      | nil => rfl
      | cons y ys =>
        rw [List.getLast?_cons_cons, List.getLast?_cons]
        rfl
    · rw [if_neg h, if_neg h, Option.or_none]

/-- A value is read from all its members. -/
theorem held_of_mem {n : Nat} {kept fs : List (String × Value)} {members : List (Option String × Doc)}
    (h : fields n kept members = some fs) {m : Option String × Doc} (hm : m ∈ members) :
    m.1.isSome = true ∧ ∃ v, value n m.2 = some v := by
  induction members generalizing kept with
  | nil => cases hm
  | cons m' members ih =>
    obtain ⟨_ | key, x⟩ := m'
    · simp [fields] at h
    · rw [fields] at h
      split at h
      · rename_i v hv
        rcases List.mem_cons.mp hm with rfl | hrest
        · exact ⟨rfl, v, hv⟩
        · exact ih h hrest
      · cases h

theorem value_of_under {n : Nat} {kept fs : List (String × Value)} {members : List (Option String × Doc)} {key : String}
    (h : fields n kept members = some fs) {x : Doc} (hx : x ∈ under key members) : ∃ v, value n x = some v := by
  obtain ⟨m, hm, rfl⟩ := List.mem_map.mp hx
  exact (held_of_mem h (List.mem_of_mem_filter hm)).2

/-- Of the members with one key the last one is kept. -/
theorem get_fields {n : Nat} {kept fs : List (String × Value)} {members : List (Option String × Doc)}
    (h : fields n kept members = some fs) (key : String) :
    (Value.object fs).get key = ((last key members).bind (value n)).or ((Value.object kept).get key) := by
  induction members generalizing kept with
  | nil =>
    rw [fields] at h
    cases h
    rfl
  | cons m members ih =>
    obtain ⟨_ | k, x⟩ := m
    · simp [fields] at h
    · rw [fields] at h
      split at h
      · rename_i v hv
        rw [ih h, last]
        cases hlast : last key members with
        | some y =>
          have hy : y ∈ under key members := by
            rw [last_eq] at hlast
            exact List.mem_of_getLast? hlast
          obtain ⟨w, hw⟩ := value_of_under h hy
          simp [hw]
        | none =>
          by_cases hk : k = key
          · subst hk
            simp [hv, Value.get_insertField_self]
          · simp [hk, Value.get_insertField_ne (Ne.symm hk)]
      · cases h

end Doc

/-! ### What the derived reader makes of the members -/

/-- The members with one key, one after the other. -/
def visitUnder {α : Type} (decode : Option Value → Option α) : Option α → List Doc → Option (Option α)
  | seen, [] => some seen
  | seen, x :: xs => (visitValue seen decode x).bind fun a => visitUnder decode (some a) xs

/-- Each of the four members is visited by itself, and every key has to be held. -/
theorem foldlM_visitMember (members : List (Option String × Doc)) (seen seen' : Visited) :
    members.foldlM visitMember seen = some seen' ↔
      (∀ m ∈ members, m.1.isSome = true) ∧
      visitUnder decodeText seen.jsonrpc (Doc.under "jsonrpc" members) = some seen'.jsonrpc ∧
      visitUnder decodeId seen.id (Doc.under "id" members) = some seen'.id ∧
      visitUnder decodeText seen.method (Doc.under "method" members) = some seen'.method ∧
      visitUnder decodeParams seen.params (Doc.under "params" members) = some seen'.params := by
  induction members generalizing seen with
  | nil =>
    obtain ⟨j, i, m, q⟩ := seen
    obtain ⟨j', i', m', q'⟩ := seen'
    simp [Doc.under, visitUnder]
  | cons m members ih =>
    obtain ⟨k, x⟩ := m
    cases k with
    | none => simp [visitMember]
    | some key =>
      simp only [List.foldlM_cons, Doc.under_cons, Option.bind_eq_bind, List.forall_mem_cons, Option.isSome_some,
        true_and, Option.some.injEq]
      by_cases hj : key = "jsonrpc"
      · subst hj
        cases hv : visitValue seen.jsonrpc decodeText x with
        | none => simp [visitMember, visitUnder, hv]
        | some a => simp [visitMember, visitUnder, hv, ih]
      · by_cases hi : key = "id"
        · subst hi
          cases hv : visitValue seen.id decodeId x with
          | none => simp [visitMember, visitUnder, hv]
          | some a => simp [visitMember, visitUnder, hv, ih]
        · by_cases hm : key = "method"
          · subst hm
            cases hv : visitValue seen.method decodeText x with
            | none => simp [visitMember, visitUnder, hv]
            | some a => simp [visitMember, visitUnder, hv, ih]
          · by_cases hq : key = "params"
            · subst hq
              cases hv : visitValue seen.params decodeParams x with
              | none => simp [visitMember, visitUnder, hv]
              | some a => simp [visitMember, visitUnder, hv, ih]
            · simp [visitMember, hj, hi, hm, hq, ih]

/-- A member that comes twice is refused. -/
theorem length_of_visitUnder {α : Type} {decode : Option Value → Option α} {xs : List Doc} {r : Option α}
    (h : visitUnder decode none xs = some r) : xs.length ≤ 1 := by
  cases xs with
  | nil => simp
  | cons x xs =>
    rw [visitUnder] at h
    obtain ⟨a, -, hrest⟩ := Option.bind_eq_some_iff.mp h
    cases xs with
    | nil => simp
    | cons y ys =>
      rw [visitUnder] at hrest
      cases hrest

/-- A member of a value, where there is one. -/
def readMember {α : Type} (decode : Option Value → Option α) : Option Value → Option (Option α)
  | none => some none
  | some v => (decode (some v)).map some

/-- A member that is missing is as good as its default. -/
theorem readMember_iff {α : Type} {decode : Option Value → Option α} {d a : α} (hnone : decode none = some d)
    (o : Option Value) : (∃ r, readMember decode o = some r ∧ r.getD d = a) ↔ decode o = some a := by
  cases o with
  | none => simp [readMember, hnone]
  | some v =>
    cases hdecode : decode (some v) with
    | none => simp [readMember, hdecode]
    | some b => simp [readMember, hdecode]

/-- A member that comes once is read as it stands in the value. -/
theorem visitUnder_eq {α : Type} {decode : Option Value → Option α} {members : List (Option String × Doc)} {n : Nat}
    (hn : n ≤ maxNesting - 1) {fs : List (String × Value)} (hfs : Doc.fields n [] members = some fs) {key : String}
    (hone : (Doc.under key members).length ≤ 1) :
    visitUnder decode none (Doc.under key members) = readMember decode ((Value.object fs).get key) := by
  have hget := Doc.get_fields hfs key
  rw [Doc.last_eq] at hget
  cases hunder : Doc.under key members with
  | nil =>
    rw [hunder] at hget
    rw [hget]
    rfl
  | cons x xs =>
    rw [hunder] at hone
    have hnil : xs = [] := by
      cases xs with
      | nil => rfl
      | cons y ys => simp at hone
    subst hnil
    have hx : x ∈ Doc.under key members := by
      rw [hunder]
      exact List.mem_singleton_self x
    obtain ⟨v, hv⟩ := Doc.value_of_under hfs hx
    rw [hunder] at hget
    have hread : x.value (maxNesting - 1) = some v := Doc.value_mono hn hv
    have hfound : (Value.object fs).get key = some v := by
      rw [hget]
      simp [hv]
    rw [hfound]
    cases hdecode : decode (some v) with
    | none => simp [visitUnder, visitValue, readMember, hread, hdecode]
    | some a => simp [visitUnder, visitValue, readMember, hread, hdecode]

/-- The members that the derived reader knows. -/
def requestKeys : List String := ["jsonrpc", "id", "method", "params"]

/-- No member that the derived reader knows comes twice. -/
def Unrepeated (members : List (Option String × Doc)) : Prop := ∀ key ∈ requestKeys, (Doc.under key members).length ≤ 1

theorem unrepeated_of_visitMap {members : List (Option String × Doc)} {raw : RawJsonRpcRequest}
    (h : visitMap members = some raw) : Unrepeated members := by
  unfold visitMap at h
  obtain ⟨seen, hseen, -⟩ := Option.bind_eq_some_iff.mp h
  obtain ⟨-, hj, hi, hm, hq⟩ := (foldlM_visitMember members {} seen).mp hseen
  intro key hkey
  simp only [requestKeys, List.mem_cons, List.not_mem_nil, or_false] at hkey
  rcases hkey with rfl | rfl | rfl | rfl
  · exact length_of_visitUnder hj
  · exact length_of_visitUnder hi
  · exact length_of_visitUnder hm
  · exact length_of_visitUnder hq

/-- Where no known member comes twice and all members can be held, the derived reader sees what stands in the value. -/
theorem visitMap_eq {members : List (Option String × Doc)} {n : Nat} (hn : n ≤ maxNesting - 1) {fs : List (String × Value)}
    (hfs : Doc.fields n [] members = some fs) (hone : Unrepeated members) :
    visitMap members = decodeRequest (.object fs) := by
  have hj := @visitUnder_eq _ decodeText _ _ hn _ hfs "jsonrpc" (hone _ (by simp [requestKeys]))
  have hi := @visitUnder_eq _ decodeId _ _ hn _ hfs "id" (hone _ (by simp [requestKeys]))
  have hm := @visitUnder_eq _ decodeText _ _ hn _ hfs "method" (hone _ (by simp [requestKeys]))
  have hq := @visitUnder_eq _ decodeParams _ _ hn _ hfs "params" (hone _ (by simp [requestKeys]))
  have hkeys : ∀ m ∈ members, m.1.isSome = true := fun m hm => (Doc.held_of_mem hfs hm).1
  apply Option.ext
  intro raw
  simp only [visitMap, decodeRequest, decodeMembers, Option.bind_eq_bind, Option.bind_eq_some_iff, foldlM_visitMember,
    hj, hi, hm, hq]
  have htext : decodeText none = some none := rfl
  have hid : decodeId none = some none := rfl
  have hvalue : decodeParams none = some none := rfl
  constructor
  · rintro ⟨seen, ⟨-, hj, hi, hm, hq⟩, hraw⟩
    refine ⟨_, (readMember_iff htext _).mp ⟨_, hj, rfl⟩, _, (readMember_iff hid _).mp ⟨_, hi, rfl⟩,
      _, (readMember_iff htext _).mp ⟨_, hm, rfl⟩, ?_⟩
    rw [← hraw, Option.some.inj ((readMember_iff hvalue _).mp ⟨_, hq, rfl⟩)]
  · rintro ⟨jsonrpc, hj, id, hi, method, hm, hraw⟩
    obtain ⟨rj, hrj, rfl⟩ := (readMember_iff htext _).mpr hj
    obtain ⟨ri, hri, rfl⟩ := (readMember_iff hid _).mpr hi
    obtain ⟨rm, hrm, rfl⟩ := (readMember_iff htext _).mpr hm
    obtain ⟨rq, hrq, hparams⟩ := (readMember_iff hvalue ((Value.object fs).get "params")).mpr rfl
    refine ⟨⟨rj, ri, rm, rq⟩, ⟨hkeys, hrj, hri, hrm, hrq⟩, ?_⟩
    rw [← hraw, ← hparams]

/-! ### The requests that are accepted -/

/-- The value is a request: by its members, or with its four values in their order. -/
def Value.IsCall : Value → Prop
  | .object fields =>
    (Value.object fields).get "jsonrpc" = some (.string "2.0") ∧
      (∃ method, (Value.object fields).get "method" = some (.string method)) ∧
      ∀ x, (Value.object fields).get "id" = some x → (parseId x).isSome
  | .array [jsonrpc, id, method, _] =>
    jsonrpc = .string "2.0" ∧ (∃ name, method = .string name) ∧ (parseId id).isSome
  | _ => False

theorem decodeId_isSome {o : Option Value} : (decodeId o).isSome ↔ ∀ x, o = some x → (parseId x).isSome := by
  cases o with
  | none => simp [decodeId]
  | some x => simp [decodeId]

theorem decodeText_iff {o : Option Value} {text : String} :
    decodeText o = some (some text) ↔ o = some (.string text) := by
  constructor
  · exact decodeText_eq_some
  · rintro rfl
    rfl

theorem parseSingleFromRaw_isOk {raw : RawJsonRpcRequest} :
    (∃ r, parseSingleFromRaw raw = .ok r) ↔ raw.jsonrpc = some "2.0" ∧ ∃ method, raw.method = some method := by
  unfold parseSingleFromRaw
  cases hversion : raw.jsonrpc with
  | none => simp
  | some version =>
    by_cases h : version = "2.0"
    · cases hmethod : raw.method with
      | none => simp [h]
      | some method => simp [h]
    · simp [h]

/-- Four values that decode to an accepted request. -/
theorem decodeMembers_isOk {jsonrpc id method params : Option Value} :
    (∃ raw r, decodeMembers jsonrpc id method params = some raw ∧ parseSingleFromRaw raw = .ok r) ↔
      jsonrpc = some (.string "2.0") ∧ (∃ name, method = some (.string name)) ∧
        ∀ x, id = some x → (parseId x).isSome := by
  rw [← decodeId_isSome, Option.isSome_iff_exists]
  constructor
  · rintro ⟨raw, r, hraw, hr⟩
    simp only [decodeMembers, Option.bind_eq_bind, Option.bind_eq_some_iff] at hraw
    obtain ⟨j, hj, i, hi, m, hm, hmade⟩ := hraw
    cases hmade
    obtain ⟨hversion, name, hname⟩ := parseSingleFromRaw_isOk.mp ⟨r, hr⟩
    dsimp only at hversion hname
    subst hversion hname
    exact ⟨decodeText_iff.mp hj, ⟨name, decodeText_iff.mp hm⟩, i, hi⟩
  · rintro ⟨rfl, ⟨name, rfl⟩, i, hi⟩
    let raw : RawJsonRpcRequest := ⟨some "2.0", i, some name, decodeValue params⟩
    have hraw : decodeMembers (some (.string "2.0")) id (some (.string name)) params = some raw := by
      simp [raw, decodeMembers, decodeText, hi]
    have hok : ∃ r, parseSingleFromRaw raw = .ok r := parseSingleFromRaw_isOk.mpr ⟨rfl, name, rfl⟩
    obtain ⟨r, hr⟩ := hok
    exact ⟨raw, r, hraw, hr⟩

theorem parseSingleRequest_isOk [Serde] (v : Value) : (∃ r, parseSingleRequest v = .ok r) ↔ v.IsCall := by
  have hdecode : (∃ r, parseSingleRequest v = .ok r) ↔ ∃ raw r, decodeRequest v = some raw ∧
      parseSingleFromRaw raw = .ok r := by
    unfold parseSingleRequest
    cases decodeRequest v with
    | none => simp
    | some raw => simp
  rw [hdecode]
  unfold decodeRequest Value.IsCall
  split
  · exact decodeMembers_isOk
  · rw [decodeMembers_isOk]
    simp
  · simp

/-! ### The two paths -/

/-- The batch of one text. -/
def batchOf (t : ByteArray) : ByteArray := ⟨#[0x5b] ++ t.data ++ #[0x5d]⟩

theorem firstByte_batchOf (t : ByteArray) : firstByte (batchOf t) = some 0x5b := by
  rw [firstByte, Text.toList_eq_data]
  simp [batchOf, isAsciiWhitespace]

namespace Doc

def isObject : Doc → Bool
  | .object _ => true
  | _ => false

def isArray : Doc → Bool
  | .array _ => true
  | _ => false

/-- The identifier of an object, if it has a valid one. -/
def callId : Doc → Option JsonRpcId
  | .object members => ((last "id" members).bind (value maxNesting)).bind parseId
  | _ => none

end Doc

section

variable [SerdeJson] [Serde] {t : ByteArray} {d : Doc}

/-- The text of one JSON value, as `serde_json` sees it: by itself, in a batch of one, and its first byte. -/
structure TextOf [SerdeJson] (t : ByteArray) (d : Doc) : Prop where
  alone : SerdeJson.document t = some d
  batched : SerdeJson.document (batchOf t) = some (.array [d])
  first : ∃ b, firstByte t = some b ∧ (b = 0x7b ↔ d.isObject = true) ∧ (b = 0x5b ↔ d.isArray = true)

/-- A text by itself and in a batch of one: accepted alike, and what is no request by itself is an invalid item with its
identifier. -/
structure PathsAgree [SerdeJson] [Serde] (t : ByteArray) (d : Doc) : Prop where
  accepted : ∀ r, parseJsonrpcBytes t = .ok (.single r) ↔ parseJsonrpcBytes (batchOf t) = .ok (.batch [.valid r])
  rejected : d.isObject = true → ∀ e, parseJsonrpcBytes t = .error e → ∃ id e',
    parseJsonrpcBytes (batchOf t) = .ok (.batch [.invalid id e']) ∧ ∀ i, d.callId = some i → id = some i

/-- The two paths read the document in one way: the members of an object can all be held, and if it is a request none of
the members that count comes twice; an array is not a request by position. -/
def Doc.OneReading : Doc → Prop
  | .object members =>
    ∃ v, Doc.value (maxNesting - 1) (.object members) = some v ∧ (v.IsCall → Unrepeated members)
  | .array xs => ∀ v, Doc.value (maxNesting - 1) (.array xs) = some v → ¬ v.IsCall
  | _ => True

theorem parse_batchOf (h : TextOf t d) : parseJsonrpcBytes (batchOf t) =
    match d.value (maxNesting - 1) with
    | some v => .ok (.batch [batchItem v])
    | none => .error (.parseError ("Invalid JSON: " ++ SerdeJson.valueError (batchOf t))) := by
  unfold parseJsonrpcBytes readItemsText
  rw [firstByte_batchOf, h.batched]
  cases hv : d.value (maxNesting - 1) with
  | none => simp [Doc.items, hv]
  | some v => simp [Doc.items, hv]

theorem parse_object {members : List (Option String × Doc)} (h : TextOf t (.object members)) :
    (∃ e, visitMap members = none ∧ parseJsonrpcBytes t = .error e) ∨
    ∃ raw, visitMap members = some raw ∧ parseJsonrpcBytes t = (parseSingleFromRaw raw).map .single := by
  obtain ⟨b, hfirst, hobject, -⟩ := h.first
  have hb : b = 0x7b := hobject.mpr rfl
  subst hb
  unfold parseJsonrpcBytes readRequestText
  rw [hfirst, h.alone]
  cases hvisit : visitMap members with
  | none =>
    left
    cases hsyntax : (SerdeJson.requestError t).1 with
    | true => simp [hvisit, hsyntax]
    | false => simp [hvisit, hsyntax]
  | some raw => simp [hvisit]

/-- Only an object is read as a single request. -/
theorem not_single (h : TextOf t d) (hd : d.isObject = false) (r : McpRequest) :
    parseJsonrpcBytes t ≠ .ok (.single r) := by
  obtain ⟨b, hfirst, hobject, -⟩ := h.first
  have hb : b ≠ 0x7b := by
    intro hb
    rw [hobject.mp hb] at hd
    cases hd
  unfold parseJsonrpcBytes
  rw [hfirst]
  dsimp only
  rw [if_neg hb]
  intro hok
  split at hok
  · split at hok
    · cases hok
    · cases hok
    · cases hok
  · split at hok
    · cases hok
    · cases hok

omit [SerdeJson] in
/-- The batch of one holds an accepted item, or a malformed one with what stands under its `id`. -/
theorem batchItem_cases (v : Value) :
    (∃ r, parseSingleRequest v = .ok r ∧ batchItem v = .valid r) ∨
    ∃ e, parseSingleRequest v = .error e ∧ batchItem v = .invalid ((v.get "id").bind parseId) e := by
  unfold batchItem
  cases hv : parseSingleRequest v with
  | ok r => exact Or.inl ⟨r, rfl, rfl⟩
  | error e => exact Or.inr ⟨e, rfl, rfl⟩

/-- A text that is no single request: the batch must not accept it either. -/
theorem accepted_iff_of_not_single (h : TextOf t d) (hno : ∀ r, parseJsonrpcBytes t ≠ .ok (.single r)) :
    (∀ r, parseJsonrpcBytes t = .ok (.single r) ↔ parseJsonrpcBytes (batchOf t) = .ok (.batch [.valid r])) ↔
      ∀ v, d.value (maxNesting - 1) = some v → ¬ v.IsCall := by
  rw [parse_batchOf h]
  constructor
  · intro haccepted v hv hcall
    obtain ⟨r, hr⟩ := (parseSingleRequest_isOk v).mpr hcall
    refine hno r ((haccepted r).mpr ?_)
    simp only [hv, batchItem, hr]
  · intro hcalls r
    constructor
    · intro hsingle
      exact absurd hsingle (hno r)
    · intro hbatch
      cases hv : d.value (maxNesting - 1) with
      | none =>
        simp only [hv] at hbatch
        cases hbatch
      | some v =>
        simp only [hv] at hbatch
        rcases batchItem_cases v with ⟨r', hr', -⟩ | ⟨e, -, hitem⟩
        · exact absurd ((parseSingleRequest_isOk v).mp ⟨r', hr'⟩) (hcalls v hv)
        · rw [hitem] at hbatch
          cases hbatch

omit [SerdeJson] [Serde] in
/-- The identifier of an object stands in its value. -/
theorem callId_of_value {members : List (Option String × Doc)} {fs : List (String × Value)}
    (hfs : Doc.fields (maxNesting - 2) [] members = some fs) :
    (Doc.object members).callId = ((Value.object fs).get "id").bind parseId := by
  rw [Doc.get_fields hfs "id", Doc.callId]
  cases hlast : Doc.last "id" members with
  | none => rfl
  | some x =>
    have hx : x ∈ Doc.under "id" members := by
      rw [Doc.last_eq] at hlast
      exact List.mem_of_getLast? hlast
    obtain ⟨v, hv⟩ := Doc.value_of_under hfs hx
    have hmore : x.value maxNesting = some v := Doc.value_mono (by decide) hv
    simp [hv, hmore]

omit [SerdeJson] [Serde] in
theorem value_object {members : List (Option String × Doc)} {v : Value}
    (h : Doc.value (maxNesting - 1) (.object members) = some v) :
    ∃ fs, Doc.fields (maxNesting - 2) [] members = some fs ∧ v = .object fs := by
  have hvalue : Doc.value (maxNesting - 1) (.object members) =
      (Doc.fields (maxNesting - 2) [] members).map .object := by
    show Doc.value (125 + 1) (.object members) = _
    rw [Doc.value]
    rfl
  rw [hvalue] at h
  obtain ⟨fs, hfs, rfl⟩ := Option.map_eq_some_iff.mp h
  exact ⟨fs, hfs, rfl⟩

/-- An object that is held but not accepted is an invalid item of the batch, with its identifier. -/
theorem invalid_of_error {members : List (Option String × Doc)} (h : TextOf t (.object members)) {v : Value}
    (hv : Doc.value (maxNesting - 1) (.object members) = some v) {e : ThoughtGateError}
    (he : parseSingleRequest v = .error e) : ∃ id e', parseJsonrpcBytes (batchOf t) = .ok (.batch [.invalid id e']) ∧
      ∀ i, (Doc.object members).callId = some i → id = some i := by
  obtain ⟨fs, hfs, rfl⟩ := value_object hv
  have hbatch := parse_batchOf h
  simp only [hv, batchItem, he] at hbatch
  refine ⟨_, e, hbatch, ?_⟩
  intro i hi
  rw [← callId_of_value hfs]
  exact hi

/-- Where the members can be held and none that counts comes twice, the two paths see the same request. -/
theorem agree_of_unrepeated {members : List (Option String × Doc)} (h : TextOf t (.object members)) {v : Value}
    (hv : Doc.value (maxNesting - 1) (.object members) = some v) (hone : Unrepeated members) :
    PathsAgree t (.object members) := by
  obtain ⟨fs, hfs, rfl⟩ := value_object hv
  have hbatch := parse_batchOf h
  simp only [hv] at hbatch
  have hvisit := visitMap_eq (by decide) hfs hone
  have hsingle : ∀ r, parseJsonrpcBytes t = .ok (.single r) ↔ parseSingleRequest (.object fs) = .ok r := by
    intro r
    unfold parseSingleRequest
    rcases parse_object h with ⟨e, hnone, herror⟩ | ⟨raw, hraw, hparse⟩
    · rw [herror, ← hvisit, hnone]
      simp
    · rw [hparse, ← hvisit, hraw]
      cases hr : parseSingleFromRaw raw with
      | error e => simp [Except.map, hr]
      | ok r' => simp [Except.map, hr]
  rcases batchItem_cases (.object fs) with ⟨r', hr', hitem⟩ | ⟨e', he', hitem⟩
  · refine ⟨?_, ?_⟩
    · intro r
      rw [hsingle, hbatch, hitem, hr']
      simp
    · intro _ e herror
      rw [(hsingle r').mpr hr'] at herror
      cases herror
  · refine ⟨?_, fun _ _ _ => invalid_of_error h hv he'⟩
    intro r
    rw [hsingle, hbatch, hitem, he']
    simp

/-- Where a member that counts comes twice, the object is no single request. -/
theorem not_single_of_repeated {members : List (Option String × Doc)} (h : TextOf t (.object members))
    (hrepeated : ¬ Unrepeated members) (r : McpRequest) : parseJsonrpcBytes t ≠ .ok (.single r) := by
  rcases parse_object h with ⟨e, -, herror⟩ | ⟨raw, hraw, -⟩
  · rw [herror]
    intro hok
    cases hok
  · exact absurd (unrepeated_of_visitMap hraw) hrepeated

/-- Where a member that counts comes twice, the two paths agree to accept nothing. -/
theorem agree_of_not_call {members : List (Option String × Doc)} (h : TextOf t (.object members)) {v : Value}
    (hv : Doc.value (maxNesting - 1) (.object members) = some v) (hrepeated : ¬ Unrepeated members)
    (hcall : ¬ v.IsCall) : PathsAgree t (.object members) := by
  refine ⟨(accepted_iff_of_not_single h (not_single_of_repeated h hrepeated)).mpr ?_, ?_⟩
  · intro w hw
    rw [hv] at hw
    cases hw
    exact hcall
  · intro _ _ _
    rcases batchItem_cases v with ⟨r, hr, -⟩ | ⟨e, he, -⟩
    · exact absurd ((parseSingleRequest_isOk v).mp ⟨r, hr⟩) hcall
    · exact invalid_of_error h hv he

/-- An object that is read alike can be held: else the batch is an error, and the object by itself is a request or
rejected. -/
theorem held_of_agree {members : List (Option String × Doc)} (h : TextOf t (.object members))
    (hagree : PathsAgree t (.object members)) : ∃ v, Doc.value (maxNesting - 1) (.object members) = some v := by
  cases hv : Doc.value (maxNesting - 1) (.object members) with
  | some v => exact ⟨v, rfl⟩
  | none =>
    exfalso
    have hbatch := parse_batchOf h
    simp only [hv] at hbatch
    have hrejected : ∀ e, parseJsonrpcBytes t ≠ .error e := by
      intro e hparse
      obtain ⟨id, e', hitem, -⟩ := hagree.rejected rfl e hparse
      rw [hbatch] at hitem
      cases hitem
    rcases parse_object h with ⟨e, -, herror⟩ | ⟨raw, -, hraw⟩
    · exact hrejected e herror
    · cases hr : parseSingleFromRaw raw with
      | error e =>
        rw [hr] at hraw
        exact hrejected e hraw
      | ok r =>
        rw [hr] at hraw
        have hvalid := (hagree.accepted r).mp hraw
        rw [hbatch] at hvalid
        cases hvalid

/-- A text is read alike by itself and in a batch of one exactly when the two paths read its document in one way. -/
theorem paths_agree_iff (h : TextOf t d) : PathsAgree t d ↔ d.OneReading := by
  have hother : d.isObject = false → (PathsAgree t d ↔ ∀ v, d.value (maxNesting - 1) = some v → ¬ v.IsCall) := by
    intro hd
    rw [← accepted_iff_of_not_single h (not_single h hd)]
    constructor
    · exact fun hagree => hagree.accepted
    · intro haccepted
      refine ⟨haccepted, ?_⟩
      intro hobject
      rw [hd] at hobject
      cases hobject
  cases d with
  | array xs => exact hother rfl
  | object members =>
    constructor
    · intro hagree
      obtain ⟨v, hv⟩ := held_of_agree h hagree
      refine ⟨v, hv, ?_⟩
      intro hcall
      by_contra hrepeated
      have hno := not_single_of_repeated h hrepeated
      exact (accepted_iff_of_not_single h hno).mp hagree.accepted v hv hcall
    · rintro ⟨v, hv, hcalls⟩
      by_cases hone : Unrepeated members
      · exact agree_of_unrepeated h hv hone
      · exact agree_of_not_call h hv hone fun hcall => hone (hcalls hcall)
  | unheld =>
    refine (hother rfl).trans ⟨fun _ => trivial, ?_⟩
    intro _ v hv _
    rw [Doc.value] at hv
    cases hv
  | null | bool | number | string =>
    refine (hother rfl).trans ⟨fun _ => trivial, ?_⟩
    intro _ v hv hcall
    rw [Doc.value] at hv
    cases hv
    exact hcall

omit [Serde] in
/-- The parser that reads every text as a `Value`. -/
@[reducible] def textOfDocuments : JsonText where
  parse := readValueText

/-- With no member twice that counts, the fast path accepts what the way over a `Value` accepts. -/
theorem parseJsonrpc_ok_iff (h : TextOf t d)
    (hd : ∀ members, d = .object members →
      Unrepeated members ∧ ∃ fs, Doc.fields (maxNesting - 1) [] members = some fs) (parsed : ParsedRequests) :
    @parseJsonrpc textOfDocuments _ t = .ok parsed ↔ parseJsonrpcBytes t = .ok parsed := by
  have halone := h.alone
  have hread : @JsonText.parse textOfDocuments t = readValueText t := rfl
  cases d with
  | object members =>
    obtain ⟨hone, fs, hfs⟩ := hd members rfl
    have hv : Doc.value maxNesting (.object members) = some (.object fs) := by
      show Doc.value (126 + 1) (.object members) = _
      rw [Doc.value]
      exact congrArg (Option.map Value.object) hfs
    have hvalue : readValueText t = .ok (.object fs) := by
      simp [readValueText, halone, hv]
    have hvisit := visitMap_eq (Nat.le_refl _) hfs hone
    have hvalued : @parseJsonrpc textOfDocuments _ t = (parseSingleRequest (.object fs)).map .single := by
      obtain ⟨b, hfirst, hobject, -⟩ := h.first
      have hb : b = 0x7b := hobject.mpr rfl
      subst hb
      unfold firstByte at hfirst
      unfold parseJsonrpc
      rw [hfirst, hread, hvalue]
      simp
    rw [hvalued]
    unfold parseSingleRequest
    rcases parse_object h with ⟨e, hnone, herror⟩ | ⟨raw, hraw, hparse⟩
    · rw [herror, ← hvisit, hnone]
      simp [Except.map]
    · rw [hparse, ← hvisit, hraw]
  | array xs =>
    obtain ⟨b, hfirst, -, harray⟩ := h.first
    have hb : b = 0x5b := harray.mpr rfl
    subst hb
    have hv : Doc.value maxNesting (.array xs) = (Doc.items (maxNesting - 1) xs).map .array := by
      show Doc.value (126 + 1) (.array xs) = _
      rw [Doc.value]
      rfl
    unfold parseJsonrpc parseJsonrpcBytes
    rw [hfirst, hread]
    unfold firstByte at hfirst
    rw [hfirst]
    cases hitems : Doc.items (maxNesting - 1) xs with
    | none => simp [readValueText, readItemsText, halone, hv, hitems]
    | some vs =>
      cases vs with
      | nil => simp [readValueText, readItemsText, halone, hv, hitems]
      | cons v vs => simp [readValueText, readItemsText, halone, hv, hitems]
  | null | bool | number | string | unheld =>
    -- neither a brace nor a bracket comes first, and both ways end in an error
    obtain ⟨b, hfirst, hobject, harray⟩ := h.first
    have hb : b ≠ 0x7b := fun hb => by simpa [Doc.isObject] using hobject.mp hb
    have hb' : b ≠ 0x5b := fun hb => by simpa [Doc.isArray] using harray.mp hb
    unfold parseJsonrpc parseJsonrpcBytes
    rw [hfirst, hread]
    unfold firstByte at hfirst
    rw [hfirst]
    simp [readValueText, halone, Doc.value, hb, hb']

end

namespace Sample

/-- Knows one text, by itself and in a batch. -/
@[reducible] def serdeJsonOf (text : String × Doc) : SerdeJson where
  document bytes :=
    if bytes.data.toList = text.1.toUTF8.data.toList then some text.2
    else if bytes.data.toList = (batchOf text.1.toUTF8).data.toList then some (.array [text.2])
    else none
  valueError _ := "number out of range"
  requestError _ := (false, "duplicate field")

theorem textOf (text : String × Doc) {b : UInt8}
    (hfirst : (text.1.toUTF8.data.toList.find? fun b => !isAsciiWhitespace b) = some b)
    (hobject : b = 0x7b ↔ text.2.isObject = true) (harray : b = 0x5b ↔ text.2.isArray = true) :
    @TextOf (serdeJsonOf text) text.1.toUTF8 text.2 := by
  have hlonger : (batchOf text.1.toUTF8).data.toList ≠ text.1.toUTF8.data.toList := by
    intro heq
    have hlength := congrArg List.length heq
    simp only [batchOf, Array.toList_append, List.length_append, List.length_cons, List.length_nil] at hlength
    omega
  let _ := serdeJsonOf text
  refine ⟨?_, ?_, b, ?_, hobject, harray⟩
  · show (if _ then _ else _) = _
    rw [if_pos rfl]
  · show (if _ then _ else _) = _
    rw [if_neg hlonger, if_pos rfl]
  · rw [firstByte, Text.toList_eq_data, hfirst]

def ping : String × Doc :=
  ("\x7b\"jsonrpc\":\"2.0\",\"id\":1,\"method\":\"ping\"\x7d",
    .object [(some "jsonrpc", .string "2.0"), (some "id", .number (.posInt 1)), (some "method", .string "ping")])

/-- The same identifier twice. -/
def repeatedId : String × Doc :=
  ("\x7b\"jsonrpc\":\"2.0\",\"id\":1,\"id\":1,\"method\":\"ping\"\x7d",
    .object [(some "jsonrpc", .string "2.0"), (some "id", .number (.posInt 1)), (some "id", .number (.posInt 1)),
      (some "method", .string "ping")])

/-- A member that nobody reads, with a number beyond the doubles. -/
def unheldMember : String × Doc :=
  ("\x7b\"jsonrpc\":\"2.0\",\"id\":1,\"method\":\"ping\",\"x\":1e999\x7d",
    .object [(some "jsonrpc", .string "2.0"), (some "id", .number (.posInt 1)), (some "method", .string "ping"),
      (some "x", .unheld)])

/-- No object, but the four values in their order. -/
def byPosition : String × Doc :=
  ("[\"2.0\",1,\"ping\",null]", .array [.string "2.0", .number (.posInt 1), .string "ping", .null])

/-- The text by itself and the batch of it are read in two ways. -/
def ReadApart (text : String × Doc) : Prop :=
  @TextOf (serdeJsonOf text) text.1.toUTF8 text.2 ∧ ¬ @PathsAgree (serdeJsonOf text) serde text.1.toUTF8 text.2

end Sample

section

attribute [local instance] Sample.serde

theorem paths_agree_iff_sample :
    @TextOf (Sample.serdeJsonOf Sample.ping) Sample.ping.1.toUTF8 Sample.ping.2 ∧
      @PathsAgree (Sample.serdeJsonOf Sample.ping) _ Sample.ping.1.toUTF8 Sample.ping.2 := by
  let _ := Sample.serdeJsonOf Sample.ping
  have htext : TextOf Sample.ping.1.toUTF8 Sample.ping.2 :=
    Sample.textOf Sample.ping (b := 0x7b) (by decide) (by decide) (by decide)
  refine ⟨htext, (paths_agree_iff htext).mpr ?_⟩
  refine ⟨_, rfl, fun _ => ?_⟩
  intro key hkey
  simp only [requestKeys, List.mem_cons, List.not_mem_nil, or_false] at hkey
  rcases hkey with rfl | rfl | rfl | rfl
  · decide
  · decide
  · decide
  · decide

/-- A member twice is refused by itself and accepted in a batch; a member that cannot be held is skipped in the one and
an error in the other; four values in their order are a request in a batch only. -/
theorem paths_disagree :
    Sample.ReadApart Sample.repeatedId ∧ Sample.ReadApart Sample.unheldMember ∧ Sample.ReadApart Sample.byPosition := by
  refine ⟨?_, ?_, ?_⟩
  · let _ := Sample.serdeJsonOf Sample.repeatedId
    have htext := Sample.textOf Sample.repeatedId (b := 0x7b) (by decide) (by decide) (by decide)
    refine ⟨htext, ?_⟩
    intro hagree
    have hbatch : ∃ r, parseJsonrpcBytes (batchOf Sample.repeatedId.1.toUTF8) = .ok (.batch [.valid r]) := by
      rw [parse_batchOf htext]
      exact ⟨_, rfl⟩
    obtain ⟨r, hr⟩ := hbatch
    have hsingle := (hagree.accepted r).mpr hr
    rcases parse_object htext with ⟨e, -, herror⟩ | ⟨raw, hraw, -⟩
    · rw [herror] at hsingle
      cases hsingle
    · cases hraw
  · let _ := Sample.serdeJsonOf Sample.unheldMember
    have htext := Sample.textOf Sample.unheldMember (b := 0x7b) (by decide) (by decide) (by decide)
    refine ⟨htext, ?_⟩
    intro hagree
    have hsingle : ∃ r, parseJsonrpcBytes Sample.unheldMember.1.toUTF8 = .ok (.single r) := by
      rcases parse_object htext with ⟨e, hnone, -⟩ | ⟨raw, hraw, hparse⟩
      · cases hnone
      · rw [hparse]
        cases hraw
        exact ⟨_, rfl⟩
    obtain ⟨r, hr⟩ := hsingle
    have hbatch := (hagree.accepted r).mp hr
    rw [parse_batchOf htext] at hbatch
    cases hbatch
  · let _ := Sample.serdeJsonOf Sample.byPosition
    have htext := Sample.textOf Sample.byPosition (b := 0x5b) (by decide) (by decide) (by decide)
    refine ⟨htext, ?_⟩
    intro hagree
    have hbatch : ∃ r, parseJsonrpcBytes (batchOf Sample.byPosition.1.toUTF8) = .ok (.batch [.valid r]) := by
      rw [parse_batchOf htext]
      exact ⟨_, rfl⟩
    obtain ⟨r, hr⟩ := hbatch
    exact not_single htext rfl r ((hagree.accepted r).mpr hr)

end

end ThoughtGate
