/-
The four connections of a client (`ValkeyConn` in `connection.rs`): the regular one, the lazy one for blocking commands,
the reserved one of a WATCH pipeline, and the client of a pub/sub bridge.

Each is built from the configuration by a function of its own, at a time of its own, and the two sentinel connections move
with every rediscovery. A `Deployment` says which server and db a URL names and which node of a cluster serves a key, so
that connections can be compared by what they talk to: the other three are compared with the regular one.

Results:
- `stands_on`: a sentinel connection is one to the address of the last discovery that could connect;
- `same_data_iff`: the four reach the same data if and only if the topology is standard; or it is a cluster whose first
  startup node serves every key; or it is a sentinel topology where the regular and the blocking connection stand on the
  same server and db, and the first sentinel URL names these too (for replicas: servers of one role).
Witness (`transaction_on_sentinel`): the reserved connection of a sentinel client is one to the sentinel.
-/
import RedisRsPy.Connection.Sentinel
import RedisRsPy.Lib.Fallible

namespace RedisRsPy.Connection

open Lib.Fallback Lib.Fallible

/-! ## Configurations -/

/-- `ConnConfig` -/
inductive ConnConfig where
  | standard (url : String) (tlsOpts : Option TlsOpts)
  | cluster (urls : List String) (tlsOpts : Option TlsOpts)
  | sentinel (sentinelUrls : List String) (serviceName : String) (db : ℤ) (isSlave : Bool) (tlsOpts : Option TlsOpts)

/-- `ValkeyConnInner`, the connection to a cluster by what it was made from -/
inductive ValkeyConnInner where
  | standard (mgr : ConnectionManager)
  | cluster (urls : List String) (tlsOpts : Option TlsOpts)
  | sentinel (s : SentinelConn)

/-- `ValkeyConn`, with its blocking connection left to `get_blocking` -/
structure ValkeyConn where
  regular : ValkeyConnInner
  config : ConnConfig

/-- a connection to one server, by what it was made from -/
structure Endpoint where
  url : String
  tlsOpts : Option TlsOpts

/-- what building a connection meets -/
structure Net where
  /-- `create_client` -/
  client : String → Option TlsOpts → RedisResult Unit
  /-- `ConnectionManager::new_with_config` -/
  manager : ConnectionManager → RedisResult Unit
  /-- `client.get_multiplexed_async_connection()` -/
  multiplexed : Endpoint → RedisResult Unit
  /-- `ClusterClient::new` or its builder -/
  clusterClient : List String → Option TlsOpts → RedisResult Unit
  /-- `client.get_async_connection()` of a cluster -/
  clusterConn : List String → Option TlsOpts → RedisResult Unit
  /-- the answers of the sentinels -/
  answers : ℕ → SentinelAnswer

/-- `map_err(|e| e.to_string())` -/
def textError {T : Type} (r : RedisResult T) : Except String T := r.mapError (·.text)

/-! ## The constructors -/

/-- `connect_standard` -/
def connectStandard (net : Net) (url : String) (cacheOpts : Option ClientCacheOpts) (tlsOpts : Option TlsOpts) :
    Except String ValkeyConn := do
  let url := urlWithResp3 url
  textError (net.client url tlsOpts)
  let mgr := ⟨url, tlsOpts, connManagerConfig cacheOpts⟩
  textError (net.manager mgr)
  return ⟨.standard mgr, .standard url tlsOpts⟩

/-- `connect_cluster` -/
def connectCluster (net : Net) (urls : List String) (tlsOpts : Option TlsOpts) : Except String ValkeyConn :=
  if urls = [] then .error "connect_cluster: at least one startup URL required"
  else do
    (net.clusterClient urls tlsOpts).mapError fun e => "Invalid cluster URLs: " ++ e.text
    (net.clusterConn urls tlsOpts).mapError fun e => "Cluster connection failed: " ++ e.text
    return ⟨.cluster urls tlsOpts, .cluster urls tlsOpts⟩

/-- `connect_sentinel` -/
def connectSentinel (net : Net) (sentinelUrls : List String) (serviceName : String) (db : ℤ) (isSlave : Bool)
    (cacheOpts : Option ClientCacheOpts) (tlsOpts : Option TlsOpts) : Except String ValkeyConn :=
  if sentinelUrls = [] then .error "connect_sentinel: at least one sentinel URL required"
  else do
    let p := ⟨sentinelUrls, serviceName, db, false, isSlave, cacheOpts, tlsOpts⟩
    let s ← textError (createSentinelInner p net.answers)
    return ⟨.sentinel s, .sentinel sentinelUrls serviceName db isSlave tlsOpts⟩

/-- `build_blocking` -/
def buildBlocking (net : Net) : ConnConfig → RedisResult ValkeyConnInner
  | .standard url tlsOpts => do
    net.client url tlsOpts
    let mgr := ⟨url, tlsOpts, blockingConnManagerConfig⟩
    net.manager mgr
    return .standard mgr
  | .cluster urls tlsOpts => do
    net.clusterClient urls tlsOpts
    net.clusterConn urls tlsOpts
    return .cluster urls tlsOpts
  | .sentinel sentinelUrls serviceName db isSlave tlsOpts => do
    let s ← createSentinelInner ⟨sentinelUrls, serviceName, db, true, isSlave, none, tlsOpts⟩ net.answers
    return .sentinel s

/-- `urls.first().map(|s| s.as_str()).unwrap_or("redis://127.0.0.1")` -/
def firstUrl (urls : List String) : String := urls.head?.getD "redis://127.0.0.1"

/-- the endpoint of the reserved connection and of the pub/sub client -/
def ConnConfig.single : ConnConfig → Endpoint
  | .standard url tlsOpts => ⟨url, tlsOpts⟩
  | .cluster urls tlsOpts => ⟨firstUrl urls, tlsOpts⟩
  | .sentinel sentinelUrls _ _ _ tlsOpts => ⟨firstUrl sentinelUrls, tlsOpts⟩

/-- `ValkeyConn::reserve_connection`, by the endpoint it is connected to -/
def ValkeyConn.reserveConnection (net : Net) (v : ValkeyConn) : Except String Endpoint := do
  textError (net.client v.config.single.url v.config.single.tlsOpts)
  textError (net.multiplexed v.config.single)
  return v.config.single

/-- `ValkeyConn::build_client_for_pubsub`, by the endpoint of the client -/
def ValkeyConn.buildClientForPubsub (net : Net) (v : ValkeyConn) : Except String Endpoint := do
  textError (net.client v.config.single.url v.config.single.tlsOpts)
  return v.config.single

/-- the arguments of the three constructors -/
inductive ConnectArgs where
  | standard (url : String) (cacheOpts : Option ClientCacheOpts) (tlsOpts : Option TlsOpts)
  | cluster (urls : List String) (tlsOpts : Option TlsOpts)
  | sentinel (sentinelUrls : List String) (serviceName : String) (db : ℤ) (isSlave : Bool)
      (cacheOpts : Option ClientCacheOpts) (tlsOpts : Option TlsOpts)

def ConnectArgs.connect (net : Net) : ConnectArgs → Except String ValkeyConn
  | .standard url cacheOpts tlsOpts => connectStandard net url cacheOpts tlsOpts
  | .cluster urls tlsOpts => connectCluster net urls tlsOpts
  | .sentinel sentinelUrls serviceName db isSlave cacheOpts tlsOpts =>
    connectSentinel net sentinelUrls serviceName db isSlave cacheOpts tlsOpts

/-- a sentinel connection after rediscoveries, each with the answers it met -/
def SentinelConn.rediscovers (s : SentinelConn) (met : List (ℕ → SentinelAnswer)) : SentinelConn :=
  met.foldl (fun s answers => (s.rediscover answers).2) s

def ValkeyConnInner.rediscovers (met : List (ℕ → SentinelAnswer)) : ValkeyConnInner → ValkeyConnInner
  | .sentinel s => .sentinel (s.rediscovers met)
  | conn => conn

/-! ## What a connection talks to -/

/-- a server and a db on it -/
abbrev Place (Node : Type) := Node × ℤ

/-- what URLs name, and where a cluster serves its keys; a cluster has db 0 only -/
structure Deployment (Node : Type) where
  names : String → Place Node
  owner : Bytes → Node

variable {Node : Type}

/-- where a command on this key goes -/
def ValkeyConnInner.place (d : Deployment Node) (key : Bytes) : ValkeyConnInner → Place Node
  | .standard mgr => d.names mgr.url
  | .cluster _ _ => (d.owner key, 0)
  | .sentinel s => d.names s.inner.url

/-- a place where the client's data is, for a command on this key: the server of the URL; the node that serves the key;
or a server the sentinels have reported for the service and the role, with the client's db -/
def ConnConfig.Serves (d : Deployment Node) (met : List (ℕ → SentinelAnswer)) (key : Bytes) (place : Place Node) :
    ConnConfig → Prop
  | .standard url _ => place = d.names url
  | .cluster _ _ => place = (d.owner key, 0)
  | .sentinel sentinelUrls _ db isSlave tlsOpts => ∃ answers ∈ met, ∃ x ∈ meet sentinelUrls answers,
    ∃ b ∈ reported isSlave x, place = d.names (targetUrl tlsOpts db b.2)

/-- two places are the same to a client: one server with one db; to a client of replicas, servers of one role with one
db -/
def SamePlace {Role : Type} (role : Node → Role) (isSlave : Bool) (p q : Place Node) : Prop :=
  if isSlave then role p.1 = role q.1 ∧ p.2 = q.2 else p = q

def ConnConfig.isSlave : ConnConfig → Bool
  | .sentinel _ _ _ isSlave _ => isSlave
  | _ => false

/-- where a pub/sub command, which has no key, reaches what is published: any startup node of a cluster can serve it -/
def ConnConfig.SamePubsub {Role : Type} (d : Deployment Node) (role : Node → Role) (regular place : Place Node) :
    ConnConfig → Prop
  | .cluster urls _ => (∃ url ∈ urls, place.1 = (d.names url).1) ∧ place.2 = 0
  | cfg => SamePlace role cfg.isSlave regular place

/-- the regular connection reaches the client's data, and the other three reach what it does -/
structure SameData {Role : Type} (d : Deployment Node) (role : Node → Role) (met : List (ℕ → SentinelAnswer))
    (cfg : ConnConfig) (regular blocking : ValkeyConnInner) (reserved pubsub : Endpoint) : Prop where
  serves : ∀ key, cfg.Serves d met key (regular.place d key)
  sameBlocking : ∀ key, SamePlace role cfg.isSlave (regular.place d key) (blocking.place d key)
  sameReserved : ∀ key, SamePlace role cfg.isSlave (regular.place d key) (d.names reserved.url)
  samePubsub : cfg.SamePubsub d role (regular.place d []) (d.names pubsub.url)

/-- the address a discovery with these answers connects to -/
def SentinelParams.found (p : SentinelParams) (answers : ℕ → SentinelAnswer) : Option Addr :=
  match p.choice answers with
  | some (a, addr) =>
    match a.connect (p.manager addr) with
    | .ok _ => some addr
    | .error _ => none
  | none => none

/-- the address of the last of these discoveries that could connect -/
def SentinelParams.standsOn (p : SentinelParams) (met : List (ℕ → SentinelAnswer)) : Option Addr :=
  (met.filterMap p.found).getLast?

/-- the endpoint that stands in for the client's server is the client's server; `met` and `met₁` are what the discoveries
of the regular and of the blocking connection have met -/
def ConnectArgs.OneServer {Role : Type} (d : Deployment Node) (role : Node → Role) (met met₁ : List (ℕ → SentinelAnswer)) :
    ConnectArgs → Prop
  | .standard _ _ _ => True
  | .cluster urls _ => ∀ key, d.names (firstUrl urls) = (d.owner key, 0)
  | .sentinel sentinelUrls serviceName db isSlave cacheOpts tlsOpts => ∀ addr addr₁,
    SentinelParams.standsOn ⟨sentinelUrls, serviceName, db, false, isSlave, cacheOpts, tlsOpts⟩ met = some addr →
      SentinelParams.standsOn ⟨sentinelUrls, serviceName, db, true, isSlave, none, tlsOpts⟩ met₁ = some addr₁ →
        SamePlace role isSlave (d.names (targetUrl tlsOpts db addr)) (d.names (targetUrl tlsOpts db addr₁)) ∧
          SamePlace role isSlave (d.names (targetUrl tlsOpts db addr)) (d.names (firstUrl sentinelUrls))

/-! ## What the constructors build -/

theorem textError_ok {T : Type} {r : RedisResult T} {t : T} (h : textError r = .ok t) : r = .ok t := by
  cases r with
  | error => cases h
  | ok => exact congrArg Except.ok (Except.ok.inj h)

theorem connectStandard_ok {net : Net} {url : String} {cacheOpts : Option ClientCacheOpts} {tlsOpts : Option TlsOpts}
    {v : ValkeyConn} (h : connectStandard net url cacheOpts tlsOpts = .ok v) :
    v = ⟨.standard ⟨urlWithResp3 url, tlsOpts, connManagerConfig cacheOpts⟩, .standard (urlWithResp3 url) tlsOpts⟩ := by
  obtain ⟨_, -, h⟩ := bind_ok_iff.1 h
  obtain ⟨_, -, h⟩ := bind_ok_iff.1 h
  exact (Except.ok.inj h).symm

theorem connectCluster_ok {net : Net} {urls : List String} {tlsOpts : Option TlsOpts} {v : ValkeyConn}
    (h : connectCluster net urls tlsOpts = .ok v) : urls ≠ [] ∧ v = ⟨.cluster urls tlsOpts, .cluster urls tlsOpts⟩ := by
  unfold connectCluster at h
  split at h
  · cases h
  · rename_i hne
    obtain ⟨_, -, h⟩ := bind_ok_iff.1 h
    obtain ⟨_, -, h⟩ := bind_ok_iff.1 h
    exact ⟨hne, (Except.ok.inj h).symm⟩

theorem connectSentinel_ok {net : Net} {sentinelUrls : List String} {serviceName : String} {db : ℤ} {isSlave : Bool}
    {cacheOpts : Option ClientCacheOpts} {tlsOpts : Option TlsOpts} {v : ValkeyConn}
    (h : connectSentinel net sentinelUrls serviceName db isSlave cacheOpts tlsOpts = .ok v) :
    ∃ s, createSentinelInner ⟨sentinelUrls, serviceName, db, false, isSlave, cacheOpts, tlsOpts⟩ net.answers = .ok s ∧
      v = ⟨.sentinel s, .sentinel sentinelUrls serviceName db isSlave tlsOpts⟩ := by
  unfold connectSentinel at h
  split at h
  · cases h
  · obtain ⟨s, hs, h⟩ := bind_ok_iff.1 h
    exact ⟨s, textError_ok hs, (Except.ok.inj h).symm⟩

theorem buildBlocking_ok {net : Net} {cfg : ConnConfig} {blocking : ValkeyConnInner}
    (h : buildBlocking net cfg = .ok blocking) :
    match cfg with
    | .standard url tlsOpts => blocking = .standard ⟨url, tlsOpts, blockingConnManagerConfig⟩
    | .cluster urls tlsOpts => blocking = .cluster urls tlsOpts
    | .sentinel sentinelUrls serviceName db isSlave tlsOpts => ∃ s,
      createSentinelInner ⟨sentinelUrls, serviceName, db, true, isSlave, none, tlsOpts⟩ net.answers = .ok s ∧
        blocking = .sentinel s := by
  cases cfg with
  | standard url tlsOpts =>
    obtain ⟨_, -, h⟩ := bind_ok_iff.1 h
    obtain ⟨_, -, h⟩ := bind_ok_iff.1 h
    exact (Except.ok.inj h).symm
  | cluster urls tlsOpts =>
    obtain ⟨_, -, h⟩ := bind_ok_iff.1 h
    obtain ⟨_, -, h⟩ := bind_ok_iff.1 h
    exact (Except.ok.inj h).symm
  | sentinel sentinelUrls serviceName db isSlave tlsOpts =>
    obtain ⟨s, hs, h⟩ := bind_ok_iff.1 h
    exact ⟨s, hs, (Except.ok.inj h).symm⟩

theorem reserveConnection_ok {net : Net} {v : ValkeyConn} {e : Endpoint} (h : v.reserveConnection net = .ok e) :
    e = v.config.single := by
  obtain ⟨_, -, h⟩ := bind_ok_iff.1 h
  obtain ⟨_, -, h⟩ := bind_ok_iff.1 h
  exact (Except.ok.inj h).symm

theorem buildClientForPubsub_ok {net : Net} {v : ValkeyConn} {e : Endpoint} (h : v.buildClientForPubsub net = .ok e) :
    e = v.config.single := by
  obtain ⟨_, -, h⟩ := bind_ok_iff.1 h
  exact (Except.ok.inj h).symm

theorem firstUrl_mem {urls : List String} (hne : urls ≠ []) : firstUrl urls ∈ urls := by
  cases urls with
  | nil => exact absurd rfl hne
  | cons url rest => exact List.mem_cons_self

/-! ## Where a sentinel connection stands -/

theorem found_eq_some_iff {p : SentinelParams} {answers : ℕ → SentinelAnswer} {addr : Addr} :
    p.found answers = some addr ↔ ∃ b, p.choice answers = some b ∧ p.Accepts b ∧ b.2 = addr := by
  unfold SentinelParams.found
  cases hchoice : p.choice answers with
  | none => simp
  | some choice =>
    obtain ⟨a, addr'⟩ := choice
    cases hconnect : a.connect (p.manager addr') with
    | error e => simp [SentinelParams.Accepts, hconnect]
    | ok mgr =>
      obtain rfl := connect_ok hconnect
      simp [SentinelParams.Accepts, hconnect]

theorem createSentinelInner_ok {p : SentinelParams} {answers : ℕ → SentinelAnswer} {s : SentinelConn}
    (h : createSentinelInner p answers = .ok s) :
    ∃ addr, p.found answers = some addr ∧ s = p.sentinelConn (p.manager addr) := by
  have hcreate := createSentinelInner_spec p answers
  cases hchoice : p.choice answers with
  | none =>
    rw [hchoice] at hcreate
    obtain ⟨e, he⟩ := hcreate
    cases he.symm.trans h
  | some choice =>
    obtain ⟨a, addr⟩ := choice
    simp only [hchoice, h] at hcreate
    cases hconnect : a.connect (p.manager addr) with
    | error e =>
      rw [hconnect] at hcreate
      cases hcreate
    | ok mgr =>
      obtain rfl := connect_ok hconnect
      rw [hconnect] at hcreate
      exact ⟨addr, found_eq_some_iff.2 ⟨(a, addr), hchoice, hconnect, rfl⟩, Except.ok.inj hcreate⟩

/-- an address that is found has been reported -/
theorem reported_of_found {p : SentinelParams} {answers : ℕ → SentinelAnswer} {addr : Addr}
    (h : p.found answers = some addr) :
    ∃ x ∈ meet p.sentinelUrls answers, ∃ b ∈ reported p.isSlave x, b.2 = addr := by
  obtain ⟨b, hchoice, -, haddr⟩ := found_eq_some_iff.1 h
  obtain ⟨x, hx, hb⟩ := mem_of_pick hchoice
  exact ⟨x, hx, b, hb, haddr⟩

theorem found_of_standsOn {p : SentinelParams} {met : List (ℕ → SentinelAnswer)} {addr : Addr}
    (h : p.standsOn met = some addr) : ∃ answers ∈ met, p.found answers = some addr :=
  List.mem_filterMap.1 (List.mem_of_getLast? h)

/-- one more rediscovery: it moves the connection exactly if it finds an address -/
theorem rediscover_sentinelConn (p : SentinelParams) (mgr : ConnectionManager) (answers : ℕ → SentinelAnswer) :
    ((p.sentinelConn mgr).rediscover answers).2 =
      p.sentinelConn (((p.found answers).map p.manager).getD mgr) := by
  have hparams : (p.sentinelConn mgr).params = p := rfl
  rcases rediscover_cases (p.sentinelConn mgr) answers with ⟨e, hrediscover, e', hcreate⟩ | ⟨c, hrediscover, hcreate⟩
  · rw [hparams] at hcreate
    have hnone : p.found answers = none := by
      refine Option.eq_none_iff_forall_not_mem.2 fun addr haddr => ?_
      obtain ⟨b, hchoice, haccepts, -⟩ := found_eq_some_iff.1 haddr
      have hcreated : created p answers = .ok (p.manager b.2) := created_ok_iff.2 ⟨b, hchoice, haccepts, rfl⟩
      rw [created, hcreate] at hcreated
      cases hcreated
    rw [hrediscover, hnone]
    rfl
  · rw [hparams] at hcreate
    obtain ⟨addr, hfound, rfl⟩ := createSentinelInner_ok hcreate
    rw [hrediscover, hfound]
    rfl

/-- a sentinel connection is one to the address of the last discovery that could connect -/
theorem stands_on {p : SentinelParams} {answers : ℕ → SentinelAnswer} {s : SentinelConn}
    (h : createSentinelInner p answers = .ok s) (met : List (ℕ → SentinelAnswer)) :
    ∃ addr, p.standsOn (answers :: met) = some addr ∧ s.rediscovers met = p.sentinelConn (p.manager addr) := by
  induction met using List.reverseRecOn with
  | nil =>
    obtain ⟨addr, hfound, rfl⟩ := createSentinelInner_ok h
    exact ⟨addr, by simp [SentinelParams.standsOn, hfound], rfl⟩
  | append_singleton met last ih =>
    obtain ⟨addr, hstands, hconn⟩ := ih
    have hstep : s.rediscovers (met ++ [last]) = ((s.rediscovers met).rediscover last).2 := by
      simp [SentinelConn.rediscovers]
    rw [hstep, hconn, rediscover_sentinelConn]
    unfold SentinelParams.standsOn at hstands ⊢
    rw [← List.cons_append, List.filterMap_append]
    cases hlast : p.found last with
    | none => exact ⟨addr, by simpa [hlast] using hstands, rfl⟩
    | some addr' => exact ⟨addr', by simp [hlast], rfl⟩

/-! ## The connections of one client -/

variable {Role : Type} (d : Deployment Node) (role : Node → Role)

/-- a cluster client: its connections to the cluster agree, so only the endpoint is left to compare -/
theorem sameData_cluster_iff {urls : List String} (hne : urls ≠ []) (tlsOpts : Option TlsOpts)
    (met : List (ℕ → SentinelAnswer)) :
    SameData d role met (.cluster urls tlsOpts) (.cluster urls tlsOpts) (.cluster urls tlsOpts)
        ⟨firstUrl urls, tlsOpts⟩ ⟨firstUrl urls, tlsOpts⟩ ↔
      ∀ key, d.names (firstUrl urls) = (d.owner key, 0) := by
  constructor
  · exact fun h key => (h.sameReserved key).symm
  · intro h
    exact ⟨fun _ => rfl, fun _ => rfl, fun key => (h key).symm, ⟨firstUrl urls, firstUrl_mem hne, rfl⟩,
      congrArg Prod.snd (h [])⟩

/-- a sentinel client whose connections stand on these addresses -/
theorem sameData_sentinel_iff {p p₁ : SentinelParams} {met : List (ℕ → SentinelAnswer)} {addr : Addr}
    (haddr : p.standsOn met = some addr) (addr₁ : Addr) (hdb : p₁.db = p.db) (htls : p₁.tlsOpts = p.tlsOpts) :
    SameData d role met (.sentinel p.sentinelUrls p.serviceName p.db p.isSlave p.tlsOpts)
        (.sentinel (p.sentinelConn (p.manager addr))) (.sentinel (p₁.sentinelConn (p₁.manager addr₁)))
        ⟨firstUrl p.sentinelUrls, p.tlsOpts⟩ ⟨firstUrl p.sentinelUrls, p.tlsOpts⟩ ↔
      SamePlace role p.isSlave (d.names (targetUrl p.tlsOpts p.db addr)) (d.names (targetUrl p.tlsOpts p.db addr₁)) ∧
        SamePlace role p.isSlave (d.names (targetUrl p.tlsOpts p.db addr)) (d.names (firstUrl p.sentinelUrls)) := by
  have hplace : ∀ (q : SentinelParams) (addr : Addr) (key : Bytes),
      (ValkeyConnInner.sentinel (q.sentinelConn (q.manager addr))).place d key =
        d.names (targetUrl q.tlsOpts q.db addr) := fun _ _ _ => rfl
  obtain ⟨answers, hanswers, hfound⟩ := found_of_standsOn haddr
  obtain ⟨x, hx, b, hb, rfl⟩ := reported_of_found hfound
  constructor
  · intro h
    have hblocking := h.sameBlocking []
    rw [hplace, hplace, hdb, htls] at hblocking
    exact ⟨hblocking, h.sameReserved []⟩
  · rintro ⟨hblocking, hfirst⟩
    refine ⟨fun key => ?_, fun key => ?_, fun key => ?_, hfirst⟩
    · exact ⟨answers, hanswers, x, hx, b, hb, hplace p b.2 key⟩
    · rw [hplace, hplace, hdb, htls]
      exact hblocking
    · rw [hplace]
      exact hfirst

/-- **The connections of one client.** However it was made, whenever its four connections were made and whatever its
rediscoveries met, they reach the same data exactly where the endpoint that stands in for the client's server is the
client's server, and the two sentinel connections stand on the same. -/
theorem same_data_iff {n n₁ n₂ n₃ : Net} (args : ConnectArgs) {v : ValkeyConn} (hv : args.connect n = .ok v)
    {blocking : ValkeyConnInner} (hblocking : buildBlocking n₁ v.config = .ok blocking) {reserved pubsub : Endpoint}
    (hreserved : v.reserveConnection n₂ = .ok reserved) (hpubsub : v.buildClientForPubsub n₃ = .ok pubsub)
    (met met₁ : List (ℕ → SentinelAnswer)) :
    SameData d role (n.answers :: met) v.config (v.regular.rediscovers met) (blocking.rediscovers met₁) reserved pubsub ↔
      args.OneServer d role (n.answers :: met) (n₁.answers :: met₁) := by
  obtain rfl := reserveConnection_ok hreserved
  obtain rfl := buildClientForPubsub_ok hpubsub
  cases args with
  | standard url cacheOpts tlsOpts =>
    obtain rfl := connectStandard_ok hv
    obtain rfl : blocking = .standard ⟨urlWithResp3 url, tlsOpts, blockingConnManagerConfig⟩ := buildBlocking_ok hblocking
    exact iff_of_true ⟨fun _ => rfl, fun _ => rfl, fun _ => rfl, rfl⟩ trivial
  | cluster urls tlsOpts =>
    obtain ⟨hne, rfl⟩ := connectCluster_ok hv
    obtain rfl : blocking = .cluster urls tlsOpts := buildBlocking_ok hblocking
    exact sameData_cluster_iff d role hne tlsOpts (n.answers :: met)
  | sentinel sentinelUrls serviceName db isSlave cacheOpts tlsOpts =>
    obtain ⟨s, hs, rfl⟩ := connectSentinel_ok hv
    obtain ⟨s₁, hs₁, rfl⟩ := buildBlocking_ok hblocking
    obtain ⟨addr, haddr, hregular⟩ := stands_on hs met
    obtain ⟨addr₁, haddr₁, hstands₁⟩ := stands_on hs₁ met₁
    let p₁ : SentinelParams := ⟨sentinelUrls, serviceName, db, true, isSlave, none, tlsOpts⟩
    have hiff := @sameData_sentinel_iff _ _ d role _ p₁ _ _ haddr addr₁ rfl rfl
    simp only [ValkeyConnInner.rediscovers, hregular, hstands₁]
    refine hiff.trans ⟨fun h addr' addr₁' haddr' haddr₁' => ?_, fun h => h addr addr₁ haddr haddr₁⟩
    obtain rfl := Option.some.inj (haddr.symm.trans haddr')
    obtain rfl := Option.some.inj (haddr₁.symm.trans haddr₁')
    exact h

/-- everything that is asked to connect accepts, and the sentinels report one master -/
def openNet : Net where
  client _ _ := .ok ()
  manager _ := .ok ()
  multiplexed _ := .ok ()
  clusterClient _ _ := .ok ()
  clusterConn _ _ := .ok ()
  answers _ := reports "10.0.0.1" "6379" (.ok ())

/-- a sentinel, and the master it watches -/
def watched : Deployment String where
  names url := if url = "redis://s1:26379" then ("s1:26379", 0) else ("10.0.0.1:6379", 0)
  owner _ := "10.0.0.1:6379"

def masterUrl : String := "redis://10.0.0.1:6379/0?protocol=resp3"

/-- the servers of `watched` by what they are -/
def roleOf (node : String) : String := if node = "s1:26379" then "sentinel" else "master of mymaster"

theorem same_data_iff_standard :
    SameData watched roleOf [openNet.answers] (.standard masterUrl none)
        (.standard ⟨masterUrl, none, connManagerConfig none⟩) (.standard ⟨masterUrl, none, blockingConnManagerConfig⟩)
        ⟨masterUrl, none⟩ ⟨masterUrl, none⟩ ↔
      (ConnectArgs.standard masterUrl none none).OneServer watched roleOf [openNet.answers] [openNet.answers] :=
  @same_data_iff _ _ watched roleOf openNet openNet openNet openNet (.standard masterUrl none none)
    ⟨.standard ⟨masterUrl, none, connManagerConfig none⟩, .standard masterUrl none⟩ rfl
    (.standard ⟨masterUrl, none, blockingConnManagerConfig⟩) rfl ⟨masterUrl, none⟩ ⟨masterUrl, none⟩ rfl rfl [] []

/-- the connection of a sentinel client to its master -/
def sentinelClient : ValkeyConn :=
  ⟨.sentinel ((⟨["redis://s1:26379"], "mymaster", 0, false, false, none, none⟩ : SentinelParams).sentinelConn
    ⟨masterUrl, none, connManagerConfig none⟩), .sentinel ["redis://s1:26379"] "mymaster" 0 false none⟩

theorem transaction_on_sentinel :
    ¬ ∀ (d : Deployment String) (role : String → String) (n n₁ n₂ n₃ : Net) (args : ConnectArgs) (v : ValkeyConn),
      args.connect n = .ok v → ∀ blocking reserved pubsub, buildBlocking n₁ v.config = .ok blocking →
        v.reserveConnection n₂ = .ok reserved → v.buildClientForPubsub n₃ = .ok pubsub →
          SameData d role [n.answers] v.config v.regular blocking reserved pubsub := by
  intro h
  have hsame := h watched roleOf openNet openNet openNet openNet
    (.sentinel ["redis://s1:26379"] "mymaster" 0 false none none) sentinelClient rfl _ _ _ rfl rfl rfl
  have hreserved : ((⟨"10.0.0.1:6379", 0⟩ : Place String)) = ("s1:26379", 0) := hsame.sameReserved []
  exact absurd hreserved (by decide)

end RedisRsPy.Connection
