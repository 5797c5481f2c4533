/-
Sentinel-backed connections (`create_sentinel_inner` and `SentinelConn::rediscover` in `connection.rs`).

Both functions walk the list of sentinels: they connect to a sentinel, ask it for the master or the replicas of the
service, and connect to the address it gives. What a walk meets at the sentinel of a given number (its answers and those
of the addresses it gives) is a `SentinelAnswer`, so any pattern of failures is a function from numbers to answers.

`SentinelAnswer.reported` is what a sentinel that can be asked reports; `pick` (Lib.Fallback) is the walk of both functions.

Results:
- `createSentinelInner_spec`, `rediscover_spec`: both commit to the first address of the first sentinel that reports one;
- `rediscover_agrees`: `rediscover` changes the connection only if it succeeds, and then to what `create_sentinel_inner`
  would connect to, and it succeeds exactly where that does;
- `discovery_complete_iff`: both walks are complete exactly where the first address they are given accepts a connection,
  or none does.
Witness (`stale_master_stops_discovery`): the first sentinel still reports a dead master, and the second is not asked.
-/
import RedisRsPy.Lib.Fallback
import RedisRsPy.Lib.Fallible
import RedisRsPy.Errors
import Mathlib.Data.List.Infix

namespace RedisRsPy.Connection

open Lib.Fallback Lib.Fallible

/-! ## URLs and options -/

/-- `TlsOpts` -/
structure TlsOpts where
  rootCert : Option Bytes
  clientCert : Option Bytes
  clientKey : Option Bytes
deriving DecidableEq, Repr

/-- `ClientCacheOpts` -/
structure ClientCacheOpts where
  maxSize : ℕ
  ttlSecs : ℕ
deriving DecidableEq, Repr

/-- `ConnectionManagerConfig`, by what the two constructors below set; the response timeout is in seconds -/
structure ConnectionManagerConfig where
  pipelineBufferSize : ℕ
  responseTimeout : Option ℕ
  cache : Option ClientCacheOpts
deriving DecidableEq, Repr

/-- `conn_manager_config`; a cache of size 0 is made one of size 1 (`NonZeroUsize::MIN`) -/
def connManagerConfig (cache : Option ClientCacheOpts) : ConnectionManagerConfig :=
  ⟨1000, some 30, cache.map fun opts => { opts with maxSize := max opts.maxSize 1 }⟩

/-- `blocking_conn_manager_config` -/
def blockingConnManagerConfig : ConnectionManagerConfig := ⟨1000, none, none⟩

/-- `str::contains` -/
def contains (s part : String) : Bool := decide (part.toList <:+: s.toList)

/-- `url_with_resp3` -/
def urlWithResp3 (url : String) : String :=
  if contains url "protocol=" then url
  else
    let base := url.toList.takeWhile (· ≠ '#')
    let fragment := url.toList.dropWhile (· ≠ '#')
    let sep := if '?' ∈ base then '&' else '?'
    String.ofList (base ++ [sep] ++ "protocol=resp3".toList ++ fragment)

/-- a host and a port, as a sentinel gives them -/
abbrev Addr := String × String

/-- the URL of a discovered address -/
def targetUrl (tlsOpts : Option TlsOpts) (db : ℤ) (addr : Addr) : String :=
  let scheme := if tlsOpts.isSome then "rediss" else "redis"
  urlWithResp3 (scheme ++ "://" ++ addr.1 ++ ":" ++ addr.2 ++ "/" ++ toString db)

/-- a `ConnectionManager`, by what it was made from -/
structure ConnectionManager where
  url : String
  tlsOpts : Option TlsOpts
  config : ConnectionManagerConfig
deriving DecidableEq, Repr

/-! ## What a sentinel answers -/

/-- a row of `SENTINEL slaves`: fields with their values -/
abbrev Row := List (String × String)

/-- `map.get(field)` on the `HashMap` of a row, where the last of two fields of one name counts -/
def Row.get (row : Row) (field : String) : Option String := (row.reverse.find? fun kv => kv.1 = field).map (·.2)

/-- `map.get("flags").cloned().unwrap_or_default()` -/
def Row.flags (row : Row) : String := (row.get "flags").getD ""

/-- the closure of `filter_map`: the address of a row that is not flagged -/
def Row.target (row : Row) : Option Addr :=
  if contains row.flags "disconnected" || contains row.flags "s_down" then none
  else
    match row.get "ip", row.get "port" with
    | some ip, some port => some (ip, port)
    | _, _ => none

/-- what a walk meets at one sentinel -/
structure SentinelAnswer where
  /-- `create_client` on its URL -/
  client : RedisResult Unit
  /-- `ConnectionManager::new_with_config` to it -/
  conn : RedisResult Unit
  /-- `SENTINEL get-master-addr-by-name` -/
  master : RedisResult (List String)
  /-- `SENTINEL slaves` -/
  slaves : RedisResult (List Row)
  /-- `create_client` on the URL of an address it gives -/
  targetClient : String → RedisResult Unit
  /-- `ConnectionManager::new_with_config` to that address -/
  targetConn : ConnectionManager → RedisResult Unit

/-- the addresses the reply holds -/
def SentinelAnswer.addrs (a : SentinelAnswer) (isSlave : Bool) : List Addr :=
  if isSlave then
    match a.slaves with
    | .ok rows => rows.filterMap Row.target
    | .error _ => []
  else
    match a.master with
    | .ok [host, port] => [(host, port)]
    | _ => []

/-- `target_addr` -/
def SentinelAnswer.targetAddr (a : SentinelAnswer) (isSlave : Bool) : Option Addr := (a.addrs isSlave).head?

/-- what `last_err` becomes when the sentinel answered and gave no address -/
def SentinelAnswer.lastErr (a : SentinelAnswer) (isSlave : Bool) (url last : String) : String :=
  match isSlave, a.slaves, a.master with
  | true, .error e, _ => "Sentinel " ++ url ++ ": " ++ e.text
  | true, .ok _, _ => last
  | false, _, .error e => "Sentinel " ++ url ++ ": " ++ e.text
  | false, _, .ok _ => "Sentinel " ++ url ++ ": unexpected response"

/-- the connection to an address: both steps can fail -/
def SentinelAnswer.connect (a : SentinelAnswer) (mgr : ConnectionManager) : RedisResult ConnectionManager := do
  a.targetClient mgr.url
  a.targetConn mgr
  return mgr

/-- the sentinels of a list with what a walk meets at each of them -/
def meet (urls : List String) (answers : ℕ → SentinelAnswer) : List (String × SentinelAnswer) :=
  urls.zipIdx.map fun (url, i) => (url, answers i)

/-! ## The two walks -/

/-- `redis::RedisError::from((redis::ErrorKind::Io, desc))` -/
def ioError (desc : String) : RedisError := ⟨.io, none, false, false, false, desc⟩

/-- `SentinelConn` -/
structure SentinelConn where
  inner : ConnectionManager
  sentinelUrls : List String
  serviceName : String
  db : ℤ
  isBlocking : Bool
  cacheOpts : Option ClientCacheOpts
  tlsOpts : Option TlsOpts
  isSlave : Bool
deriving DecidableEq, Repr

/-- `SentinelConn::conn_config` -/
def SentinelConn.connConfig (s : SentinelConn) : ConnectionManagerConfig :=
  if s.isBlocking then blockingConnManagerConfig else connManagerConfig s.cacheOpts

/-- the arguments of `create_sentinel_inner` -/
structure SentinelParams where
  sentinelUrls : List String
  serviceName : String
  db : ℤ
  isBlocking : Bool
  isSlave : Bool
  cacheOpts : Option ClientCacheOpts
  tlsOpts : Option TlsOpts
deriving DecidableEq, Repr

/-- the loop of `create_sentinel_inner` -/
def createSentinelLoop (p : SentinelParams) (config : ConnectionManagerConfig) :
    List (String × SentinelAnswer) → String → RedisResult SentinelConn
  | [], lastErr => .error (.fromParts .io "Failed to discover master from any sentinel" lastErr)
  | (url, a) :: rest, lastErr =>
    match a.client, a.conn with
    | .error e, _ => createSentinelLoop p config rest ("Sentinel " ++ url ++ ": " ++ e.text)
    | .ok (), .error e => createSentinelLoop p config rest ("Sentinel " ++ url ++ ": " ++ e.text)
    | .ok (), .ok () =>
      match a.targetAddr p.isSlave with
      | none => createSentinelLoop p config rest (a.lastErr p.isSlave url lastErr)
      | some addr => do
        -- `?`: an address that cannot be used ends the walk
        let mgr ← a.connect ⟨targetUrl p.tlsOpts p.db addr, p.tlsOpts, config⟩
        return ⟨mgr, p.sentinelUrls, p.serviceName, p.db, p.isBlocking, p.cacheOpts, p.tlsOpts, p.isSlave⟩

/-- `create_sentinel_inner` -/
def createSentinelInner (p : SentinelParams) (answers : ℕ → SentinelAnswer) : RedisResult SentinelConn :=
  let config := if p.isBlocking then blockingConnManagerConfig else connManagerConfig p.cacheOpts
  createSentinelLoop p config (meet p.sentinelUrls answers) "No sentinels provided"

/-- the error of a rediscovery that no sentinel has given an address -/
def noneRediscovered : RedisError := ioError "Failed to rediscover master from any sentinel"

/-- the loop of `SentinelConn::rediscover` -/
def SentinelConn.rediscoverLoop (s : SentinelConn) : List (String × SentinelAnswer) → RedisResult Unit × SentinelConn
  | [] => (.error noneRediscovered, s)
  | (_, a) :: rest =>
    match a.client, a.conn with
    | .error _, _ => s.rediscoverLoop rest
    | .ok (), .error _ => s.rediscoverLoop rest
    | .ok (), .ok () =>
      match a.targetAddr s.isSlave with
      | none => s.rediscoverLoop rest
      | some addr =>
        match a.connect ⟨targetUrl s.tlsOpts s.db addr, s.tlsOpts, s.connConfig⟩ with
        | .error e => (.error e, s)
        | .ok newMgr => (.ok (), { s with inner := newMgr })

/-- `SentinelConn::rediscover` -/
def SentinelConn.rediscover (s : SentinelConn) (answers : ℕ → SentinelAnswer) : RedisResult Unit × SentinelConn :=
  s.rediscoverLoop (meet s.sentinelUrls answers)

/-- the arguments that made this connection -/
def SentinelConn.params (s : SentinelConn) : SentinelParams :=
  ⟨s.sentinelUrls, s.serviceName, s.db, s.isBlocking, s.isSlave, s.cacheOpts, s.tlsOpts⟩

/-! ## What both commit to -/

/-- the addresses a walk learns at one sentinel, each with the answers it was learned with -/
def reported (isSlave : Bool) (x : String × SentinelAnswer) : List (SentinelAnswer × Addr) :=
  match x.2.client, x.2.conn with
  | .ok (), .ok () => (x.2.addrs isSlave).map fun addr => (x.2, addr)
  | _, _ => []

/-- the configuration of the connection to the target -/
def SentinelParams.connConfig (p : SentinelParams) : ConnectionManagerConfig :=
  if p.isBlocking then blockingConnManagerConfig else connManagerConfig p.cacheOpts

/-- the connection to a reported address -/
def SentinelParams.manager (p : SentinelParams) (addr : Addr) : ConnectionManager :=
  ⟨targetUrl p.tlsOpts p.db addr, p.tlsOpts, p.connConfig⟩

def SentinelParams.sentinelConn (p : SentinelParams) (mgr : ConnectionManager) : SentinelConn :=
  ⟨mgr, p.sentinelUrls, p.serviceName, p.db, p.isBlocking, p.cacheOpts, p.tlsOpts, p.isSlave⟩

/-- what a walk picks -/
def SentinelParams.choice (p : SentinelParams) (answers : ℕ → SentinelAnswer) : Option (SentinelAnswer × Addr) :=
  pick (reported p.isSlave) (meet p.sentinelUrls answers)

theorem createSentinelLoop_spec (p : SentinelParams) (sentinels : List (String × SentinelAnswer)) (lastErr : String) :
    match pick (reported p.isSlave) sentinels with
    | some (a, addr) =>
      createSentinelLoop p p.connConfig sentinels lastErr = (a.connect (p.manager addr)).map p.sentinelConn
    | none => ∃ e, createSentinelLoop p p.connConfig sentinels lastErr = .error e := by
  induction sentinels generalizing lastErr with
  | nil => exact ⟨_, rfl⟩
  | cons x rest ih =>
    obtain ⟨url, a⟩ := x
    rw [pick_cons]
    cases hclient : a.client with
    | error e => simpa [reported, createSentinelLoop, hclient] using ih _
    | ok =>
      cases hconn : a.conn with
      | error e => simpa [reported, createSentinelLoop, hclient, hconn] using ih _
      | ok =>
        cases haddrs : a.addrs p.isSlave with
        | nil =>
          simpa [reported, createSentinelLoop, SentinelAnswer.targetAddr, hclient, hconn, haddrs] using ih _
        | cons addr addrs =>
          simp only [reported, createSentinelLoop, SentinelAnswer.targetAddr, hclient, hconn, haddrs, List.map_cons,
            List.head?_cons]
          cases a.connect (p.manager addr) <;> rfl

theorem createSentinelInner_spec (p : SentinelParams) (answers : ℕ → SentinelAnswer) :
    match p.choice answers with
    | some (a, addr) => createSentinelInner p answers = (a.connect (p.manager addr)).map p.sentinelConn
    | none => ∃ e, createSentinelInner p answers = .error e :=
  createSentinelLoop_spec p (meet p.sentinelUrls answers) "No sentinels provided"

theorem rediscoverLoop_spec (s : SentinelConn) (sentinels : List (String × SentinelAnswer)) :
    match pick (reported s.isSlave) sentinels with
    | some (a, addr) =>
      s.rediscoverLoop sentinels =
        match a.connect (s.params.manager addr) with
        | .ok mgr => (.ok (), s.params.sentinelConn mgr)
        | .error e => (.error e, s)
    | none => s.rediscoverLoop sentinels = (.error noneRediscovered, s) := by
  induction sentinels with
  | nil => rfl
  | cons x rest ih =>
    obtain ⟨url, a⟩ := x
    rw [pick_cons]
    cases hclient : a.client with
    | error e => simpa [reported, SentinelConn.rediscoverLoop, hclient] using ih
    | ok =>
      cases hconn : a.conn with
      | error e => simpa [reported, SentinelConn.rediscoverLoop, hclient, hconn] using ih
      | ok =>
        cases haddrs : a.addrs s.isSlave with
        | nil =>
          simpa [reported, SentinelConn.rediscoverLoop, SentinelAnswer.targetAddr, hclient, hconn, haddrs] using ih
        | cons addr addrs =>
          simp only [reported, SentinelConn.rediscoverLoop, SentinelAnswer.targetAddr, hclient, hconn, haddrs,
            List.map_cons, List.head?_cons, Option.some_or]
          have hmgr : (⟨targetUrl s.tlsOpts s.db addr, s.tlsOpts, s.connConfig⟩ : ConnectionManager) =
              s.params.manager addr := rfl
          rw [hmgr]
          cases a.connect (s.params.manager addr) <;> rfl

theorem rediscover_spec (s : SentinelConn) (answers : ℕ → SentinelAnswer) :
    match s.params.choice answers with
    | some (a, addr) =>
      s.rediscover answers =
        match a.connect (s.params.manager addr) with
        | .ok mgr => (.ok (), s.params.sentinelConn mgr)
        | .error e => (.error e, s)
    | none => s.rediscover answers = (.error noneRediscovered, s) :=
  rediscoverLoop_spec s (meet s.sentinelUrls answers)

/-! ## Rediscovery and the first connection -/

/-- the two results of a rediscovery: it has failed and changed nothing, or it holds what a first connection would hold -/
theorem rediscover_cases (s : SentinelConn) (answers : ℕ → SentinelAnswer) :
    (∃ e, s.rediscover answers = (.error e, s) ∧ ∃ e', createSentinelInner s.params answers = .error e') ∨
      ∃ c, s.rediscover answers = (.ok (), c) ∧ createSentinelInner s.params answers = .ok c := by
  have hcreate := createSentinelInner_spec s.params answers
  have hrediscover := rediscover_spec s answers
  cases hchoice : s.params.choice answers with
  | none =>
    rw [hchoice] at hcreate hrediscover
    exact .inl ⟨noneRediscovered, hrediscover, hcreate⟩
  | some choice =>
    obtain ⟨a, addr⟩ := choice
    simp only [hchoice] at hcreate hrediscover
    cases hconnect : a.connect (s.params.manager addr) with
    | error e =>
      rw [hconnect] at hcreate hrediscover
      exact .inl ⟨e, hrediscover, e, hcreate⟩
    | ok mgr =>
      rw [hconnect] at hcreate hrediscover
      exact .inr ⟨_, hrediscover, hcreate⟩

/-- **Rediscovery agrees with the first connection.** If it fails, the connection is unchanged; it succeeds exactly where
`create_sentinel_inner` does with the same answers, and then the connection is the one that would have made -/
theorem rediscover_agrees (s : SentinelConn) (answers : ℕ → SentinelAnswer) :
    (∀ e, (s.rediscover answers).1 = .error e → (s.rediscover answers).2.inner = s.inner) ∧
      ((s.rediscover answers).1 = .ok () ↔ ∃ c, createSentinelInner s.params answers = .ok c) ∧
        ∀ c, createSentinelInner s.params answers = .ok c → (s.rediscover answers).2.inner = c.inner := by
  rcases rediscover_cases s answers with ⟨e, hrediscover, e', hcreate⟩ | ⟨c, hrediscover, hcreate⟩
  · rw [hrediscover, hcreate]
    exact ⟨fun _ _ => rfl, by simp, fun _ h => (nomatch h)⟩
  · rw [hrediscover, hcreate]
    refine ⟨fun _ h => (nomatch h), by simp, fun c' hc' => ?_⟩
    rw [Except.ok.inj hc']

/-! ## Completeness -/

/-- the reported address accepts a connection -/
def SentinelParams.Accepts (p : SentinelParams) (b : SentinelAnswer × Addr) : Prop :=
  b.1.connect (p.manager b.2) = .ok (p.manager b.2)

theorem connect_ok {a : SentinelAnswer} {mgr mgr' : ConnectionManager} (h : a.connect mgr = .ok mgr') : mgr' = mgr := by
  obtain ⟨_, -, h⟩ := bind_ok_iff.1 h
  obtain ⟨_, -, h⟩ := bind_ok_iff.1 h
  exact (Except.ok.inj h).symm

/-- a discovery succeeds exactly where some sentinel reports an address that accepts a connection, and then it is
connected to such an address of the first sentinel that has one -/
structure DiscoveryComplete (p : SentinelParams) (answers : ℕ → SentinelAnswer)
    (result : RedisResult ConnectionManager) : Prop where
  succeeds : (∃ mgr, result = .ok mgr) ↔
    ∃ x ∈ meet p.sentinelUrls answers, ∃ b ∈ reported p.isSlave x, p.Accepts b
  first : ∀ mgr, result = .ok mgr →
    ∃ b, FirstWorking (reported p.isSlave) p.Accepts (meet p.sentinelUrls answers) b ∧ mgr = p.manager b.2

/-- what a discovery has connected to: the result of `create_sentinel_inner` -/
def created (p : SentinelParams) (answers : ℕ → SentinelAnswer) : RedisResult ConnectionManager :=
  (createSentinelInner p answers).map (·.inner)

/-- and that of `rediscover` -/
def SentinelConn.rediscovered (s : SentinelConn) (answers : ℕ → SentinelAnswer) : RedisResult ConnectionManager :=
  (s.rediscover answers).1.map fun _ => (s.rediscover answers).2.inner

theorem created_ok_iff {p : SentinelParams} {answers : ℕ → SentinelAnswer} {mgr : ConnectionManager} :
    created p answers = .ok mgr ↔ ∃ b, p.choice answers = some b ∧ p.Accepts b ∧ mgr = p.manager b.2 := by
  have hcreate := createSentinelInner_spec p answers
  unfold created
  cases hchoice : p.choice answers with
  | none =>
    rw [hchoice] at hcreate
    obtain ⟨e, he⟩ := hcreate
    simp [he, Except.map]
  | some choice =>
    obtain ⟨a, addr⟩ := choice
    simp only [hchoice] at hcreate
    rw [hcreate]
    cases hconnect : a.connect (p.manager addr) with
    | error e => simp [SentinelParams.Accepts, hconnect, Except.map]
    | ok mgr' =>
      obtain rfl := connect_ok hconnect
      simp [SentinelParams.Accepts, SentinelParams.sentinelConn, hconnect, Except.map, eq_comm]

theorem created_complete_iff (p : SentinelParams) (answers : ℕ → SentinelAnswer) :
    DiscoveryComplete p answers (created p answers) ↔
      (∀ x ∈ meet p.sentinelUrls answers, ∀ b ∈ reported p.isSlave x, ¬ p.Accepts b) ∨
        ∃ b, p.choice answers = some b ∧ p.Accepts b := by
  have hok : (∃ mgr, created p answers = .ok mgr) ↔ ∃ b, p.choice answers = some b ∧ p.Accepts b := by
    simp only [created_ok_iff]
    exact ⟨fun ⟨_, b, hb, hworks, _⟩ => ⟨b, hb, hworks⟩, fun ⟨b, hb, hworks⟩ => ⟨_, b, hb, hworks, rfl⟩⟩
  have hiff : (_ ↔ ∃ x ∈ meet p.sentinelUrls answers, ∃ b ∈ reported p.isSlave x, p.Accepts b) ↔ _ ∨ _ := pick_complete_iff
  constructor
  · intro h
    exact hiff.1 (hok.symm.trans h.succeeds)
  · intro h
    refine ⟨hok.trans (hiff.2 h), fun mgr hmgr => ?_⟩
    obtain ⟨b, hb, hworks, rfl⟩ := created_ok_iff.1 hmgr
    exact ⟨b, firstWorking_of_pick hb hworks, rfl⟩

theorem rediscovered_ok_iff (s : SentinelConn) {answers : ℕ → SentinelAnswer} {mgr : ConnectionManager} :
    s.rediscovered answers = .ok mgr ↔ created s.params answers = .ok mgr := by
  unfold SentinelConn.rediscovered created
  rcases rediscover_cases s answers with ⟨e, hrediscover, e', hcreate⟩ | ⟨c, hrediscover, hcreate⟩
  · rw [hrediscover, hcreate]
    exact iff_of_false (fun h => (nomatch h)) fun h => (nomatch h)
  · rw [hrediscover, hcreate]
    exact Iff.rfl

theorem DiscoveryComplete.congr {p : SentinelParams} {answers : ℕ → SentinelAnswer}
    {result result' : RedisResult ConnectionManager} (hsame : ∀ mgr, result = .ok mgr ↔ result' = .ok mgr)
    (h : DiscoveryComplete p answers result) : DiscoveryComplete p answers result' :=
  ⟨(exists_congr fun mgr => (hsame mgr).symm).trans h.succeeds, fun mgr hmgr => h.first mgr ((hsame mgr).2 hmgr)⟩

/-- **Completeness of discovery.** For any sentinels and any answers, the first connection and every rediscovery are
complete if and only if the first address of the first sentinel that reports one accepts a connection, or no reported
address does -/
theorem discovery_complete_iff (p : SentinelParams) (answers : ℕ → SentinelAnswer) (inner : ConnectionManager) :
    (DiscoveryComplete p answers (created p answers) ∧
        DiscoveryComplete p answers ((p.sentinelConn inner).rediscovered answers)) ↔
      (∀ x ∈ meet p.sentinelUrls answers, ∀ b ∈ reported p.isSlave x, ¬ p.Accepts b) ∨
        ∃ b, p.choice answers = some b ∧ p.Accepts b := by
  have hsame : ∀ mgr, created p answers = .ok mgr ↔ (p.sentinelConn inner).rediscovered answers = .ok mgr :=
    fun mgr => (rediscovered_ok_iff (p.sentinelConn inner)).symm
  rw [← created_complete_iff]
  exact ⟨And.left, fun h => ⟨h, h.congr hsame⟩⟩

/-- a sentinel that reports this master, which accepts a connection or refuses it -/
def reports (host port : String) (accepts : RedisResult Unit) : SentinelAnswer where
  client := .ok ()
  conn := .ok ()
  master := .ok [host, port]
  slaves := .ok []
  targetClient _ := .ok ()
  targetConn _ := accepts

/-- two sentinels: the first still reports the master that has died, the second reports the new one -/
def staleMaster : ℕ → SentinelAnswer
  | 0 => reports "10.0.0.1" "6379" (.error (ioError "connection refused"))
  | _ => reports "10.0.0.2" "6379" (.ok ())

def twoSentinels : SentinelParams := ⟨["redis://s1:26379", "redis://s2:26379"], "mymaster", 0, false, false, none, none⟩

theorem stale_master_stops_discovery :
    ¬ ∀ (p : SentinelParams) (answers : ℕ → SentinelAnswer) (inner : ConnectionManager),
      DiscoveryComplete p answers (created p answers) ∧
        DiscoveryComplete p answers ((p.sentinelConn inner).rediscovered answers) := by
  intro h
  have hcomplete := (h twoSentinels staleMaster ⟨"", none, connManagerConfig none⟩).1
  have hreported : ∃ x ∈ meet twoSentinels.sentinelUrls staleMaster, ∃ b ∈ reported false x, twoSentinels.Accepts b :=
    ⟨("redis://s2:26379", staleMaster 1), List.mem_cons_of_mem _ List.mem_cons_self,
      (staleMaster 1, "10.0.0.2", "6379"), List.mem_cons_self, rfl⟩
  obtain ⟨mgr, hmgr⟩ := hcomplete.succeeds.2 hreported
  have hfails : created twoSentinels staleMaster = .error (ioError "connection refused") := rfl
  rw [hfails] at hmgr
  cases hmgr

end RedisRsPy.Connection
