import Gally.Indexer.Handlers
import Gally.Library.ReadThrough

/-!
# The object proxy (`sui_client/mod.rs`)

The explorer reads objects of the chain through the indexer, which keeps what the node said for
`OBJECT_CACHE_TTL_SECS`. What a route answers is a function of what the node said, so what the node
says of a key is what the proxy makes of it (`ObjectProxy.shape`), and the proxy is a read-through
cache. So is the chain tip of `/health`.

## Key results

- `proxy_answered`: how old an answer of the proxy can be
- `node_spared`: how often the node is asked
-/

namespace Gally

namespace Indexer

open ReadThrough

/-- A `serde_json` value; numbers are whole. -/
inductive Value where
  | null
  | boolean (b : Bool)
  | number (n : ℤ)
  | string (s : String)
  | array (items : List Value)
  | object (fields : List (String × Value))

namespace Value

def get (v : Value) (key : String) : Option Value :=
  match v with
  | .object fields => fields.lookup key
  | _ => none

/-- `pointer`, through objects. -/
def pointer (v : Value) (path : List String) : Option Value := path.foldlM get v

def asStr? : Value → Option String
  | .string s => some s
  | _ => none

def asArray? : Value → Option (List Value)
  | .array items => some items
  | _ => none

def asU64? : Value → Option ℕ
  | .number n => if 0 ≤ n ∧ n < 2 ^ 64 then some n.toNat else none
  | _ => none

def isNull : Value → Bool
  | .null => true
  | _ => false

end Value

/-! ## What the node says -/

/-- A missing object is a result without `data`. -/
def objectPresent (result : Value) : Bool := ((result.get "data").map fun d => !d.isNull).getD false

/-- The text between the first `<` and the last `>`. -/
def extractTypeParam (typeStr : String) : Option String := do
  let start ← typeStr.toList.idxOf? '<'
  let fromEnd ← typeStr.toList.reverse.idxOf? '>'
  let stop := typeStr.toList.length - 1 - fromEnd
  if start + 1 < stop then some (String.ofList ((typeStr.toList.take stop).drop (start + 1)))
  else none

/-- Text or bytes as text. -/
def hexify : Option Value → Value
  | some (.string s) => .string s
  | some (.array items) =>
    .string (hexEncode ((items.filterMap Value.asU64?).map fun n => UInt8.ofNat n))
  | _ => .null

def extractWalrusRefs (result : Value) : List Value :=
  match (result.pointer ["data", "content", "fields", "value"]).bind Value.asArray? with
  | none => []
  | some items => items.map fun item =>
    let f := (item.get "fields").getD item
    .object [("blob_id", hexify (f.get "blob_id")), ("sha256", hexify (f.get "sha256")),
      ("attested_by", (f.get "attested_by").getD .null)]

/-- The coin type of an accumulator's object. -/
def coinType (object : Value) : Option String :=
  ((object.pointer ["data", "type"]).bind Value.asStr?).bind extractTypeParam

/-- The metadata in `{ data }` or as it is. -/
def tokenMetadata (coinType : String) (raw : Value) : Value :=
  let fields := (raw.get "data").getD raw
  .object [("coin_type", .string coinType), ("symbol", (fields.get "symbol").getD .null),
    ("name", (fields.get "name").getD .null), ("decimals", (fields.get "decimals").getD .null)]

/-! ## The proxy -/

/-- A key of the cache, which is what the node is asked. -/
inductive Query where
  | object (id : String)
  | legalDocs (assetId : String)
  | coinMetadata (coinType : String)
  deriving DecidableEq

/-- A route of `api/routes/proxy.rs`. -/
inductive ProxyRequest where
  | object (id : String)
  | legalDocs (assetId : String)
  | tokenMetadata (accumulatorId : String)
  deriving DecidableEq

namespace ObjectProxy

/-- What is stored of what the node said. -/
def shape : Query → Value → Option Value
  | .object _, raw => if objectPresent raw then some raw else none
  | .legalDocs _, raw => if objectPresent raw then some (.array (extractWalrusRefs raw)) else none
  | .coinMetadata coinType, raw => some (tokenMetadata coinType raw)

def first : ProxyRequest → Query
  | .object id => .object id
  | .legalDocs assetId => .legalDocs assetId
  | .tokenMetadata accumulatorId => .object accumulatorId

/-- The metadata needs the object of the accumulator first. -/
def next : ProxyRequest → Query → Value → Next Query Value
  | .tokenMetadata _, .object _, object =>
    match coinType object with
    | none => .missing
    | some t => .goOn (.coinMetadata t)
  | _, _, v => .answer v

end ObjectProxy

/-- `ObjectProxy` over a node; `node` is what it says at a time. -/
def objectProxy (node : ℕ → Query → Except Unit Value) (ttl timeout : ℕ) :
    Api ProxyRequest Query Value where
  first := ObjectProxy.first
  next := ObjectProxy.next
  source read q := (node read q).map (ObjectProxy.shape q)
  ttl := ttl
  timeout := timeout

/-- `ChainTip` over a node. -/
def chainTip (node : ℕ → Except Unit ℕ) (ttl timeout : ℕ) : Api Unit Unit ℕ where
  first _ := ()
  next _ _ tip := .answer tip
  source read _ := (node read).map some
  ttl := ttl
  timeout := timeout

variable {node : ℕ → Query → Except Unit Value} {ttl timeout : ℕ}

/-- The node said so at most `ttl + timeout` before the request came. -/
def HeardRecently (node : ℕ → Query → Except Unit Value) (ttl timeout started finished : ℕ)
    (q : Query) (raw : Value) : Prop :=
  ∃ read ≤ finished, started ≤ read + ttl + timeout ∧ node read q = .ok raw

/-- The node said so while the request was under way. -/
def Heard (node : ℕ → Query → Except Unit Value) (started finished : ℕ) (q : Query)
    (said : Except Unit Value) : Prop :=
  ∃ read ≤ finished, started ≤ read ∧ node read q = said

/-- What an answer of the proxy says of the node. -/
def Faithful (node : ℕ → Query → Except Unit Value) (ttl timeout : ℕ) :
    Answer ProxyRequest Value → Prop
  | ⟨.object id, started, finished, .found v⟩ =>
    HeardRecently node ttl timeout started finished (.object id) v ∧ objectPresent v = true
  | ⟨.legalDocs id, started, finished, .found v⟩ =>
    ∃ raw, HeardRecently node ttl timeout started finished (.legalDocs id) raw ∧
      objectPresent raw = true ∧ v = .array (extractWalrusRefs raw)
  | ⟨.tokenMetadata id, started, finished, .found v⟩ =>
    ∃ object t raw, HeardRecently node ttl timeout started finished (.object id) object ∧
      objectPresent object = true ∧ coinType object = some t ∧
      HeardRecently node ttl timeout started finished (.coinMetadata t) raw ∧
      v = tokenMetadata t raw
  | ⟨.object id, started, finished, .missing⟩ =>
    ∃ raw, Heard node started finished (.object id) (.ok raw) ∧ objectPresent raw = false
  | ⟨.legalDocs id, started, finished, .missing⟩ =>
    ∃ raw, Heard node started finished (.legalDocs id) (.ok raw) ∧ objectPresent raw = false
  | ⟨.tokenMetadata id, started, finished, .missing⟩ =>
    (∃ raw, Heard node started finished (.object id) (.ok raw) ∧ objectPresent raw = false) ∨
    ∃ object, HeardRecently node ttl timeout started finished (.object id) object ∧
      objectPresent object = true ∧ coinType object = none
  | ⟨_, started, finished, .failed⟩ => ∃ q, Heard node started finished q (.error ())

/-! ## What a value comes from -/

variable {request : ProxyRequest} {started finished : ℕ} {q : Query} {v w raw : Value}

/-- What the proxy takes from the node. -/
theorem source_eq_ok {read : ℕ} {found : Option Value} :
    (objectProxy node ttl timeout).source read q = .ok found ↔
      ∃ raw, node read q = .ok raw ∧ ObjectProxy.shape q raw = found := by
  simp only [objectProxy]
  cases node read q with
  | error e => simp [Except.map]
  | ok raw => simp [Except.map]

/-- A read of the proxy fails exactly when the node does. -/
theorem source_eq_error {read : ℕ} :
    (objectProxy node ttl timeout).source read q = .error () ↔ node read q = .error () := by
  simp only [objectProxy]
  cases node read q with
  | error e => simp [Except.map]
  | ok raw => simp [Except.map]

/-- A recent value is the shape of something the node said recently. -/
theorem heardRecently_of_recent (h : (objectProxy node ttl timeout).Recent started finished q v) :
    ∃ raw, HeardRecently node ttl timeout started finished q raw ∧
      ObjectProxy.shape q raw = some v := by
  obtain ⟨read, hread, hstarted, hsource⟩ := h
  obtain ⟨raw, hnode, hshape⟩ := source_eq_ok.mp hsource
  exact ⟨raw, ⟨read, hread, hstarted, hnode⟩, hshape⟩

/-- The shape of an object is the object, if it is present. -/
theorem shape_object_eq_some {id : String} :
    ObjectProxy.shape (.object id) raw = some v ↔ objectPresent raw = true ∧ raw = v := by
  simp [ObjectProxy.shape]

/-- There is no shape exactly of an object that is absent. -/
theorem shape_eq_none : ObjectProxy.shape q raw = none ↔
    (∀ t, q ≠ .coinMetadata t) ∧ objectPresent raw = false := by
  cases q <;> simp [ObjectProxy.shape]

/-- A request goes on exactly from an accumulator to the metadata of its token. -/
theorem next_eq_goOn {q' : Query} : ObjectProxy.next request q v = .goOn q' ↔
    ∃ id id' t, request = .tokenMetadata id ∧ q = .object id' ∧ coinType v = some t ∧
      q' = .coinMetadata t := by
  cases request with
  | tokenMetadata id =>
    cases q with
    | object id' => cases h : coinType v <;> simp [ObjectProxy.next, h, eq_comm]
    | _ => simp [ObjectProxy.next]
  | _ => simp [ObjectProxy.next]

/-- A value answers 404 exactly where an accumulator names no token. -/
theorem next_eq_missing : ObjectProxy.next request q v = .missing ↔
    ∃ id id', request = .tokenMetadata id ∧ q = .object id' ∧ coinType v = none := by
  cases request with
  | tokenMetadata id =>
    cases q with
    | object id' => cases h : coinType v <;> simp [ObjectProxy.next, h]
    | _ => simp [ObjectProxy.next]
  | _ => simp [ObjectProxy.next]

/-- A value answers a request exactly where it is not the accumulator of a token request. -/
theorem next_eq_answer : ObjectProxy.next request q v = .answer w ↔
    v = w ∧ ∀ id id', request = .tokenMetadata id → q ≠ .object id' := by
  cases request with
  | tokenMetadata id =>
    cases q with
    | object id' => cases h : coinType v <;> simp [ObjectProxy.next, h]
    | _ => simp [ObjectProxy.next]
  | _ => simp [ObjectProxy.next]

/-- The keys a request can come to. -/
theorem needs_cases (h : (objectProxy node ttl timeout).Needs request started finished q) :
    q = ObjectProxy.first request ∨ ∃ id object t, request = .tokenMetadata id ∧
      HeardRecently node ttl timeout started finished (.object id) object ∧
      objectPresent object = true ∧ coinType object = some t ∧ q = .coinMetadata t := by
  induction h with
  | refl => exact .inl rfl
  -- only a token request needs a second key, the metadata of the token its accumulator names
  | tail hneeds hleads ih =>
    obtain ⟨v, hrecent, hnext⟩ := hleads
    obtain ⟨id, id', t, rfl, rfl, htype, rfl⟩ := next_eq_goOn.mp hnext
    obtain ⟨raw, hheard, hshape⟩ := heardRecently_of_recent hrecent
    obtain ⟨hpresent, rfl⟩ := shape_object_eq_some.mp hshape
    obtain hfirst | ⟨_, _, _, _, _, _, _, hmetadata⟩ := ih
    · obtain rfl := Query.object.inj hfirst
      exact .inr ⟨id', raw, t, rfl, hheard, hpresent, htype, rfl⟩
    · cases hmetadata

/-- A request for an object or for documents comes to its own key only. -/
theorem needs_first (h : (objectProxy node ttl timeout).Needs request started finished q)
    (hrequest : ∀ id, request ≠ .tokenMetadata id) : q = ObjectProxy.first request := by
  obtain hfirst | ⟨id, _, _, htoken, _⟩ := needs_cases h
  · exact hfirst
  · exact absurd htoken (hrequest id)

/-! ## Runs -/

/-- An answer is what the node said recently of the key the request is about. -/
theorem faithful_found (hneeds : (objectProxy node ttl timeout).Needs request started finished q)
    (hrecent : (objectProxy node ttl timeout).Recent started finished q v)
    (hnext : ObjectProxy.next request q v = .answer w) :
    Faithful node ttl timeout ⟨request, started, finished, .found w⟩ := by
  obtain ⟨raw, hheard, hshape⟩ := heardRecently_of_recent hrecent
  obtain ⟨rfl, hkey⟩ := next_eq_answer.mp hnext
  cases request with
  | object id =>
    obtain rfl := needs_first hneeds (by simp)
    obtain ⟨hpresent, rfl⟩ := shape_object_eq_some.mp hshape
    exact ⟨hheard, hpresent⟩
  | legalDocs id =>
    obtain rfl := needs_first hneeds (by simp)
    simp only [ObjectProxy.first, ObjectProxy.shape, Option.ite_none_right_eq_some,
      Option.some.injEq] at hshape
    exact ⟨raw, hheard, hshape.1, hshape.2.symm⟩
  -- the value is the metadata, and the accumulator was read before it
  | tokenMetadata id =>
    obtain rfl | ⟨id', object, t, hrequest, hobject, hpresent, htype, rfl⟩ := needs_cases hneeds
    · exact absurd rfl (hkey id id rfl)
    · obtain rfl := ProxyRequest.tokenMetadata.inj hrequest
      obtain rfl := Option.some.inj hshape
      exact ⟨object, t, raw, hobject, hpresent, htype, hheard, rfl⟩

/-- A 404 means that the node knew nothing, or that the accumulator names no token. -/
theorem faithful_missing (hneeds : (objectProxy node ttl timeout).Needs request started finished q)
    (hmissing : (objectProxy node ttl timeout).Said started finished q (.ok none) ∨
      ∃ v, (objectProxy node ttl timeout).Recent started finished q v ∧
        ObjectProxy.next request q v = .missing) :
    Faithful node ttl timeout ⟨request, started, finished, .missing⟩ := by
  obtain ⟨read, hread, hstarted, hsource⟩ | ⟨v, hrecent, hnext⟩ := hmissing
  · -- the node knows nothing of the key
    obtain ⟨raw, hnode, hshape⟩ := source_eq_ok.mp hsource
    obtain ⟨hmetadata, habsent⟩ := shape_eq_none.mp hshape
    have hheard : Heard node started finished q (.ok raw) := ⟨read, hread, hstarted, hnode⟩
    obtain rfl | ⟨_, _, t, _, _, _, _, rfl⟩ := needs_cases hneeds
    · cases request with
      | object id => exact ⟨raw, hheard, habsent⟩
      | legalDocs id => exact ⟨raw, hheard, habsent⟩
      | tokenMetadata id => exact .inl ⟨raw, hheard, habsent⟩
    · exact absurd rfl (hmetadata t)
  · -- the accumulator's type has no parameter
    obtain ⟨id, id', rfl, rfl, htype⟩ := next_eq_missing.mp hnext
    obtain ⟨raw, hheard, hshape⟩ := heardRecently_of_recent hrecent
    obtain ⟨hpresent, rfl⟩ := shape_object_eq_some.mp hshape
    obtain hfirst | ⟨_, _, _, _, _, _, _, hmetadata⟩ := needs_cases hneeds
    · obtain rfl := Query.object.inj hfirst
      exact .inr ⟨raw, hheard, hpresent, htype⟩
    · cases hmetadata

/-- In every run of the proxy, whatever the node says and however the requests are interleaved,
    an object that is answered is one the node returned at most `ttl + timeout` before the request
    came; token metadata is that of the type of such an object; and that there is no object, or
    that the node failed, the node said while the request was under way. Only that an object has no
    coin type can be as old as an object that is answered. -/
theorem proxy_answered {acts : List (Act ProxyRequest)} {a : Answer ProxyRequest Value}
    (ha : a ∈ (Cache.run (objectProxy node ttl timeout) acts).answers) :
    Faithful node ttl timeout a := by
  obtain ⟨q, hneeds, hright⟩ := Cache.answered ha
  obtain ⟨request, started, finished, outcome⟩ := a
  cases outcome with
  | found w =>
    obtain ⟨v, hrecent, hnext⟩ := hright
    -- found, missing and failed, each by its own lemma
    exact faithful_found hneeds hrecent hnext
  | missing => exact faithful_missing hneeds hright
  | failed =>
    obtain ⟨read, hread, hstarted, hsource⟩ := hright
    have hfailed : Heard node started finished q (.error ()) :=
      ⟨read, hread, hstarted, source_eq_error.mp hsource⟩
    cases request <;> exact ⟨q, hfailed⟩

namespace Sample

/-- An accumulator, and the metadata of its coin; the node is down for a while. -/
def fullnode (read : ℕ) : Query → Except Unit Value
  | .object _ =>
    if read < 100 then .ok (.object [("data", .object [("type", .string "A<B>")])])
    else .error ()
  | .coinMetadata _ => .ok (.object [("symbol", .string "B")])
  | .legalDocs _ => .ok (.object [("data", .null)])

/-- Somebody asks for the metadata; another one asks again while the node is down. -/
def asking : List (Act ProxyRequest) :=
  [.request (.tokenMetadata "a"), .advance 0, .advance 0, .wait 10, .advance 0, .wait 10,
    .advance 0, .advance 0, .advance 0, .advance 0, .advance 0, .wait 100,
    .request (.tokenMetadata "a"), .advance 1, .advance 1, .advance 1, .advance 1]

end Sample

/-- A request at 120 that is answered from what was read at 0. -/
theorem proxy_answered_asking : ∃ a ∈ (Cache.run (objectProxy Sample.fullnode 500 1000)
    Sample.asking).answers, a.started = 120 ∧ Faithful Sample.fullnode 500 1000 a := by
  have hlate : (Cache.run (objectProxy Sample.fullnode 500 1000) Sample.asking).answers.any
      (fun a => decide (a.started = 120)) = true := by
    decide +kernel
  obtain ⟨a, ha, hstarted⟩ := List.any_eq_true.mp hlate
  exact ⟨a, ha, of_decide_eq_true hstarted, proxy_answered ha⟩

/-- The node is not asked for what was stored less than `ttl` ago when the request came. -/
theorem node_spared {acts : List (Act ProxyRequest)} {q : Query} {started read since : ℕ}
    (hread : (q, started, read) ∈ (Cache.run (objectProxy node ttl timeout) acts).reads)
    (hstored : (q, since) ∈ (Cache.run (objectProxy node ttl timeout) acts).stores)
    (hlt : since < started) : since + ttl ≤ read := Cache.spared hread hstored hlt

/-! ## The chain tip -/

/-- What `GET /health` reports. -/
inductive Health where
  | ok
  | lagging
  | error
  deriving DecidableEq, Repr

/-- How many checkpoints the cursor is behind the tip. The difference is one of `i64`s, which wraps
    as the cast of the tip does. -/
def lag (tip : ℕ) (cursor : ℤ) : ℤ := max (Int.bmod (asI64 tip - cursor) (2 ^ 64)) 0

/-- `health`; `cursor` is the checkpoint the indexer has come to. -/
def health (cursor lagAlertCheckpoints : ℤ) : Outcome ℕ → Health
  | .found tip => if lag tip cursor > lagAlertCheckpoints then .lagging else .ok
  | .missing | .failed => .error

/-- The tip the cache has, or that the node failed. -/
theorem tip_answered {tip : ℕ → Except Unit ℕ} {acts : List (Act Unit)} {a : Answer Unit ℕ}
    (ha : a ∈ (Cache.run (chainTip tip ttl timeout) acts).answers) :
    (∃ read ≤ a.finished, ∃ latest, a.started ≤ read + ttl + timeout ∧ tip read = .ok latest ∧
      a.outcome = .found latest) ∨
    ∃ read ≤ a.finished, a.started ≤ read ∧ tip read = .error () ∧ a.outcome = .failed := by
  obtain ⟨k, -, hright⟩ := Cache.answered ha
  obtain ⟨request, started, finished, outcome⟩ := a
  cases outcome with
  -- a cached tip was read within the lifetime and the timeout
  | found latest =>
    obtain ⟨v, ⟨read, hread, hstarted, hsource⟩, hnext⟩ := hright
    obtain rfl := Next.answer.inj hnext
    left
    cases htip : tip read with
    | error e => simp [chainTip, htip, Except.map] at hsource
    | ok latest =>
      simp only [chainTip, htip, Except.map, Except.ok.injEq, Option.some.injEq] at hsource
      exact ⟨read, hread, latest, hstarted, htip, by rw [hsource]⟩
  -- the tip is never absent
  | missing =>
    obtain ⟨read, -, -, hsource⟩ | ⟨v, -, hnext⟩ := hright
    · cases htip : tip read <;> simp [chainTip, htip, Except.map] at hsource
    · cases hnext
  | failed =>
    obtain ⟨read, hread, hstarted, hsource⟩ := hright
    right
    cases htip : tip read with
    | error e => exact ⟨read, hread, hstarted, htip, rfl⟩
    | ok latest => simp [chainTip, htip, Except.map] at hsource

/-- In every run of the probes the reported status is that of a tip the node returned at most
    `ttl + timeout` before the probe came, or the node failed while the probe was under way; and no
    probe asks the node less than `ttl` after a tip was stored that the probe could have used. -/
theorem health_answered (tip : ℕ → Except Unit ℕ) (ttl timeout : ℕ) (acts : List (Act Unit))
    (cursor lagAlertCheckpoints : ℤ) :
    (∀ a ∈ (Cache.run (chainTip tip ttl timeout) acts).answers,
      (∃ read ≤ a.finished, ∃ latest, a.started ≤ read + ttl + timeout ∧ tip read = .ok latest ∧
        health cursor lagAlertCheckpoints a.outcome =
          if lag latest cursor > lagAlertCheckpoints then .lagging else .ok) ∨
      ∃ read ≤ a.finished, a.started ≤ read ∧ tip read = .error () ∧
        health cursor lagAlertCheckpoints a.outcome = .error) ∧
    ∀ p ∈ (Cache.run (chainTip tip ttl timeout) acts).reads,
      ∀ s ∈ (Cache.run (chainTip tip ttl timeout) acts).stores,
        s.2 < p.2.1 → s.2 + ttl ≤ p.2.2 := by
  constructor
  · intro a ha
    -- a tip that was read decides between the two states, a failed read is an error
    obtain ⟨read, hread, latest, hstarted, htip, houtcome⟩ | ⟨read, hread, hstarted, htip,
      houtcome⟩ := tip_answered ha
    · left
      exact ⟨read, hread, latest, hstarted, htip, by rw [houtcome, health]⟩
    · right
      exact ⟨read, hread, hstarted, htip, by rw [houtcome, health]⟩
  · intro p hp s hs hlt
    exact Cache.spared hp hs hlt

end Indexer

end Gally
