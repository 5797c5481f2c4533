/-
The `Sentinel` class (`facade/sentinel.rs`): what `discover_master` and `discover_slaves` report, and where the clients
of `master_for` and `slave_for` connect to.

Discovery asks the sentinels with `with_sentinel`, which opens a plain connection to each and goes on to the next one
whenever anything fails. The clients go through `create_sentinel_inner`, which connects with the TLS options of the client,
filters the rows with a filter of its own and takes the first; `slave_for` moves a cursor for its service before that, and
nothing reads the cursor.

Result (`follows_discovery_iff`): the clients that `master_for` and `slave_for` return follow discovery, with replicas in
rotation, if and only if the first master address with a valid port that discovery is given is also the first that a client
is given, the replica a client is given is in the list of the first sentinel that lists replicas, that list names one
replica at most, and these addresses accept a connection.
Witness (`second_replica_never_used`): of two healthy replicas, two calls of `slave_for` both go to the first.
-/
import Mathlib.Algebra.Group.Nat.Defs
import RedisRsPy.Connection.Sentinel
import RedisRsPy.Lib.Fallible

namespace RedisRsPy.Facade

open Lib.Fallback Lib.Fallible Connection

/-! ## Asking a sentinel -/

/-- what `with_sentinel` meets when it connects to a sentinel: `create_sentinel_inner` makes its own client, and meets the
`client` and `conn` of the `SentinelAnswer` -/
structure Opening where
  /-- `redis::Client::open` on its URL -/
  client : RedisResult Unit
  /-- `ConnectionManager::new_with_config` to it -/
  conn : RedisResult Unit

/-- `with_sentinel`: the first result that is no error -/
def withSentinel {T : Type} (f : SentinelAnswer → RedisResult T) :
    List (Opening × SentinelAnswer) → Option RedisError → RedisResult T
  | [], lastErr => .error (lastErr.getD (ioError "no sentinels reachable"))
  | (o, a) :: rest, _ =>
    match o.client, o.conn with
    | .error e, _ => withSentinel f rest (some e)
    | .ok (), .error e => withSentinel f rest (some e)
    | .ok (), .ok () =>
      match f a with
      | .ok v => .ok v
      | .error e => withSentinel f rest (some e)

/-- the result of `f` at one sentinel, if it has one -/
def answered {T : Type} (f : SentinelAnswer → RedisResult T) (x : Opening × SentinelAnswer) : List T :=
  match x.1.client, x.1.conn, f x.2 with
  | .ok (), .ok (), .ok v => [v]
  | _, _, _ => []

theorem withSentinel_ok_iff {T : Type} {f : SentinelAnswer → RedisResult T} {sentinels : List (Opening × SentinelAnswer)}
    {lastErr : Option RedisError} {v : T} : withSentinel f sentinels lastErr = .ok v ↔ pick (answered f) sentinels = some v := by
  induction sentinels generalizing lastErr with
  | nil => exact iff_of_false (fun h => (nomatch h)) fun h => (nomatch h)
  | cons x rest ih =>
    obtain ⟨o, a⟩ := x
    rw [pick_cons]
    cases hclient : o.client with
    | error e => simpa [withSentinel, answered, hclient] using ih
    | ok =>
      cases hconn : o.conn with
      | error e => simpa [withSentinel, answered, hclient, hconn] using ih
      | ok =>
        cases hf : f a with
        | error e => simpa [withSentinel, answered, hclient, hconn, hf] using ih
        | ok v' => simp [withSentinel, answered, hclient, hconn, hf]

/-! ## Ports and rows -/

/-- `str::parse::<u16>`: digits, after a `+` or not, of a value below 2 ^ 16 -/
def parsePort (s : String) : Option ℕ :=
  let digits := match s.toList with
    | '+' :: rest => rest
    | cs => cs
  if digits ≠ [] ∧ digits.all Char.isDigit then
    let n := digits.foldl (fun n c => 10 * n + (c.toNat - '0'.toNat)) 0
    if n < 2 ^ 16 then some n else none
  else none

/-- the address with its port parsed -/
def parseAddr (addr : Addr) : Option (String × ℕ) := (parsePort addr.2).map fun port => (addr.1, port)

/-- a row `discover_slaves` lists -/
def listed (row : Row) : Option (String × ℕ) :=
  if contains row.flags "disconnected" || contains row.flags "s_down" || contains row.flags "o_down" then none
  else
    match row.get "ip", (row.get "port").bind parsePort with
    | some host, some port => some (host, port)
    | _, _ => none

/-! ## Discovery -/

/-- `SentinelInner`: the sentinels and the cursor of each service -/
structure SentinelInner where
  urls : List String
  slaveCursors : String → ℕ

/-- the closure of `discover_master` -/
def askMaster (a : SentinelAnswer) : RedisResult (String × ℕ) := do
  match ← a.master with
  | [host, port] =>
    match parsePort port with
    | some p => .ok (host, p)
    | none => .error ⟨.server .responseError, none, false, false, false, "invalid port in sentinel response"⟩
  | _ => .error ⟨.server .masterDown, none, false, false, false, "no master found"⟩

/-- the closure of `discover_slaves` -/
def askSlaves (a : SentinelAnswer) : RedisResult (List (String × ℕ)) := do
  return (← a.slaves).filterMap listed

/-- the sentinels as `with_sentinel` meets them -/
def SentinelInner.sentinels (inner : SentinelInner) (opens : ℕ → Opening) (answers : ℕ → SentinelAnswer) :
    List (Opening × SentinelAnswer) :=
  (List.range inner.urls.length).map fun i => (opens i, answers i)

/-- `Sentinel::discover_master`, whose errors are all a `MasterDownError` -/
def SentinelInner.discoverMaster (inner : SentinelInner) (opens : ℕ → Opening) (answers : ℕ → SentinelAnswer) :
    PyResult (String × ℕ) :=
  (withSentinel askMaster (inner.sentinels opens answers) none).mapError fun e => .raised ⟨.MasterDownError, e.text⟩

/-- `Sentinel::discover_slaves` -/
def SentinelInner.discoverSlaves (inner : SentinelInner) (opens : ℕ → Opening) (answers : ℕ → SentinelAnswer) :
    PyResult (List (String × ℕ)) :=
  (withSentinel askSlaves (inner.sentinels opens answers) none).mapError toPyErr

/-! ## Clients -/

/-- what the keyword arguments of the two constructors and of the call come to -/
structure ConnectionKwargs where
  db : ℤ
  cacheOpts : Option ClientCacheOpts
  tlsOpts : Option TlsOpts

/-- `SentinelInner::next_slave_idx`: the cursor of the service moves on, and its old value is returned -/
def SentinelInner.nextSlaveIdx (inner : SentinelInner) (service : String) : SentinelInner × ℕ :=
  ({ inner with slaveCursors :=
      Function.update inner.slaveCursors service ((inner.slaveCursors service + 1) % 2 ^ 64) },
    inner.slaveCursors service)

/-- the arguments `build_redis_conn` and `connect_sentinel` pass on -/
def SentinelInner.params (inner : SentinelInner) (kwargs : ConnectionKwargs) (service : String) (isSlave : Bool) :
    SentinelParams :=
  ⟨inner.urls, service, kwargs.db, false, isSlave, kwargs.cacheOpts, kwargs.tlsOpts⟩

/-- `build_redis_conn`: the connection of the client, or the error of `connect_sentinel` -/
def SentinelInner.buildRedisConn (inner : SentinelInner) (kwargs : ConnectionKwargs) (service : String) (isSlave : Bool)
    (answers : ℕ → SentinelAnswer) : PyResult SentinelConn :=
  let conn : Except String SentinelConn :=
    if inner.urls = [] then .error "connect_sentinel: at least one sentinel URL required"
    else (createSentinelInner (inner.params kwargs service isSlave) answers).mapError (·.text)
  conn.mapError fun e => toPyErr (.fromParts .io "connect_sentinel" e)

/-- `Sentinel::master_for` -/
def SentinelInner.masterFor (inner : SentinelInner) (kwargs : ConnectionKwargs) (service : String)
    (answers : ℕ → SentinelAnswer) : PyResult SentinelConn := inner.buildRedisConn kwargs service false answers

/-- `Sentinel::slave_for` -/
def SentinelInner.slaveFor (inner : SentinelInner) (kwargs : ConnectionKwargs) (service : String)
    (answers : ℕ → SentinelAnswer) : SentinelInner × PyResult SentinelConn :=
  ((inner.nextSlaveIdx service).1, (inner.nextSlaveIdx service).1.buildRedisConn kwargs service true answers)

/-- the address a client of the service is given: the first that is reported -/
def SentinelInner.target (inner : SentinelInner) (isSlave : Bool) (answers : ℕ → SentinelAnswer) :
    Option (SentinelAnswer × Addr) :=
  pick (reported isSlave) (meet inner.urls answers)

/-- a client is made exactly where the address it is given accepts a connection, and then it is connected to that -/
theorem buildRedisConn_ok_iff {inner : SentinelInner} {kwargs : ConnectionKwargs} {service : String} {isSlave : Bool}
    {answers : ℕ → SentinelAnswer} {c : SentinelConn} :
    inner.buildRedisConn kwargs service isSlave answers = .ok c ↔
      ∃ b, inner.target isSlave answers = some b ∧ (inner.params kwargs service isSlave).Accepts b ∧
        c = (inner.params kwargs service isSlave).sentinelConn ((inner.params kwargs service isSlave).manager b.2) := by
  have hspec := createSentinelInner_spec (inner.params kwargs service isSlave) answers
  have htarget : inner.target isSlave answers = (inner.params kwargs service isSlave).choice answers := rfl
  unfold SentinelInner.buildRedisConn
  rw [mapError_ok_iff, htarget]
  split
  · rename_i hnil
    have hnone : (inner.params kwargs service isSlave).choice answers = none := by
      simp [SentinelParams.choice, SentinelInner.params, hnil, meet, pick]
    rw [hnone]
    exact iff_of_false (fun h => (nomatch h)) fun ⟨_, h, _⟩ => (nomatch h)
  · rw [mapError_ok_iff]
    cases hchoice : (inner.params kwargs service isSlave).choice answers with
    | none =>
      rw [hchoice] at hspec
      obtain ⟨e, he⟩ := hspec
      rw [he]
      exact iff_of_false (fun h => (nomatch h)) fun ⟨_, h, _⟩ => (nomatch h)
    | some choice =>
      obtain ⟨a, addr⟩ := choice
      simp only [hchoice] at hspec
      rw [hspec]
      cases hconnect : a.connect ((inner.params kwargs service isSlave).manager addr) with
      | error e => simp [SentinelParams.Accepts, hconnect, Except.map]
      | ok mgr =>
        obtain rfl := connect_ok hconnect
        simp [SentinelParams.Accepts, hconnect, Except.map, eq_comm]

/-! ## Following discovery -/

/-- this many calls of `slave_for` in a row, all meeting the same answers -/
def SentinelInner.slaveForCalls (kwargs : ConnectionKwargs) (service : String) (answers : ℕ → SentinelAnswer) :
    ℕ → SentinelInner → List (PyResult SentinelConn)
  | 0, _ => []
  | n + 1, inner =>
    (inner.slaveFor kwargs service answers).2 ::
      slaveForCalls kwargs service answers n (inner.slaveFor kwargs service answers).1

/-- the call has returned a client, connected to the address it was given, which is this host and port -/
def Targets (inner : SentinelInner) (kwargs : ConnectionKwargs) (service : String) (isSlave : Bool)
    (answers : ℕ → SentinelAnswer) (call : PyResult SentinelConn) (m : String × ℕ) : Prop :=
  ∃ c b, call = .ok c ∧ inner.target isSlave answers = some b ∧
    c.inner = (inner.params kwargs service isSlave).manager b.2 ∧ parseAddr b.2 = some m

/-- the clients go where discovery says, and replicas rotate -/
structure FollowsDiscovery (inner : SentinelInner) (kwargs : ConnectionKwargs) (service : String) (opens : ℕ → Opening)
    (answers : ℕ → SentinelAnswer) : Prop where
  master : ∀ m, inner.discoverMaster opens answers = .ok m →
    Targets inner kwargs service false answers (inner.masterFor kwargs service answers) m
  replica : ∀ c, (inner.slaveFor kwargs service answers).2 = .ok c → ∃ l, inner.discoverSlaves opens answers = .ok l ∧
    ∃ r ∈ l, Targets inner kwargs service true answers (.ok c) r
  rotates : ∀ l, inner.discoverSlaves opens answers = .ok l → ∀ r ∈ l,
    ∃ call ∈ inner.slaveForCalls kwargs service answers l.length, Targets inner kwargs service true answers call r

/-- the master address a sentinel gives to discovery -/
def given (x : Opening × SentinelAnswer) : List Addr :=
  match x.1.client, x.1.conn with
  | .ok (), .ok () => x.2.addrs false
  | _, _ => []

/-- the first address with a valid port that discovery is given -/
def SentinelInner.firstMaster (inner : SentinelInner) (opens : ℕ → Opening) (answers : ℕ → SentinelAnswer) :
    Option (String × ℕ) :=
  pick (fun x => (given x).filterMap parseAddr) (inner.sentinels opens answers)

/-- the rows of the first sentinel that answers `SENTINEL slaves` -/
def SentinelInner.firstRows (inner : SentinelInner) (opens : ℕ → Opening) (answers : ℕ → SentinelAnswer) :
    Option (List Row) :=
  pick (answered (·.slaves)) (inner.sentinels opens answers)

/-- when the clients follow discovery -/
structure Unambiguous (inner : SentinelInner) (kwargs : ConnectionKwargs) (service : String) (opens : ℕ → Opening)
    (answers : ℕ → SentinelAnswer) : Prop where
  /-- the first address a client is given is the first with a valid port that discovery is given, and it accepts a
  connection -/
  oneMaster : ∀ m, inner.firstMaster opens answers = some m → ∃ b, inner.target false answers = some b ∧
    (inner.params kwargs service false).Accepts b ∧ parseAddr b.2 = some m
  /-- a replica that a client is given and that accepts a connection is a listed row -/
  replicaListed : ∀ b, inner.target true answers = some b → (inner.params kwargs service true).Accepts b →
    ∃ rows, inner.firstRows opens answers = some rows ∧ ∃ row ∈ rows, ∃ r, listed row = some r ∧ parseAddr b.2 = some r
  /-- where a row is listed, the replica that a client is given accepts a connection -/
  replicaAccepts : ∀ rows, inner.firstRows opens answers = some rows → ∀ row ∈ rows, ∀ r, listed row = some r →
    ∃ b, inner.target true answers = some b ∧ (inner.params kwargs service true).Accepts b
  /-- no two listed rows differ -/
  oneReplica : ∀ rows, inner.firstRows opens answers = some rows → ∀ row ∈ rows, ∀ row' ∈ rows, ∀ r r',
    listed row = some r → listed row' = some r' → r = r'

/-! ## What the calls come to -/

variable {inner : SentinelInner} {kwargs : ConnectionKwargs} {service : String} {opens : ℕ → Opening}
  {answers : ℕ → SentinelAnswer}

/-- a call goes to this host and port exactly if that is what it is given and it accepts a connection -/
theorem targets_iff {isSlave : Bool} {m : String × ℕ} :
    Targets inner kwargs service isSlave answers (inner.buildRedisConn kwargs service isSlave answers) m ↔
      ∃ b, inner.target isSlave answers = some b ∧ (inner.params kwargs service isSlave).Accepts b ∧
        parseAddr b.2 = some m := by
  constructor
  · rintro ⟨c, b, hcall, hb, -, hparse⟩
    obtain ⟨b', hb', haccepts, -⟩ := buildRedisConn_ok_iff.1 hcall
    obtain rfl := Option.some.inj (hb.symm.trans hb')
    exact ⟨b, hb, haccepts, hparse⟩
  · rintro ⟨b, hb, haccepts, hparse⟩
    exact ⟨_, b, buildRedisConn_ok_iff.2 ⟨b, hb, haccepts, rfl⟩, hb, rfl, hparse⟩

/-- the cursor moves, and what the next call is given stays the same -/
theorem mem_slaveForCalls {n : ℕ} {call : PyResult SentinelConn} :
    call ∈ inner.slaveForCalls kwargs service answers n ↔
      0 < n ∧ call = inner.buildRedisConn kwargs service true answers := by
  induction n generalizing inner with
  | zero => simp [SentinelInner.slaveForCalls]
  | succ n ih =>
    have hcall : (inner.slaveFor kwargs service answers).2 = inner.buildRedisConn kwargs service true answers := rfl
    have hnext : (inner.slaveFor kwargs service answers).1.buildRedisConn kwargs service true answers =
        inner.buildRedisConn kwargs service true answers := rfl
    simp only [SentinelInner.slaveForCalls, List.mem_cons, ih, hcall, hnext]
    constructor
    · rintro (h | ⟨-, h⟩) <;> exact ⟨Nat.succ_pos n, h⟩
    · exact fun h => .inl h.2

theorem discoverMaster_ok_iff {m : String × ℕ} :
    inner.discoverMaster opens answers = .ok m ↔ inner.firstMaster opens answers = some m := by
  unfold SentinelInner.discoverMaster
  rw [mapError_ok_iff, withSentinel_ok_iff]
  have hsame : answered askMaster = fun x => (given x).filterMap parseAddr := by
    funext x
    unfold answered askMaster given SentinelAnswer.addrs
    cases x.1.client with
    | error => rfl
    | ok =>
      cases x.1.conn with
      | error => rfl
      | ok =>
        rcases x.2.master with e | _ | ⟨host, _ | ⟨port, _ | ⟨extra, more⟩⟩⟩
        · rfl
        · rfl
        · rfl
        · cases hport : parsePort port <;> simp [parseAddr, hport, bind, Except.bind]
        · rfl
  rw [hsame]
  rfl

theorem discoverSlaves_ok_iff {l : List (String × ℕ)} :
    inner.discoverSlaves opens answers = .ok l ↔
      ∃ rows, inner.firstRows opens answers = some rows ∧ l = rows.filterMap listed := by
  unfold SentinelInner.discoverSlaves
  rw [mapError_ok_iff, withSentinel_ok_iff]
  have hsame : answered askSlaves = fun x => (answered (·.slaves) x).map fun rows => rows.filterMap listed := by
    funext x
    unfold answered askSlaves
    cases x.1.client with
    | error => rfl
    | ok =>
      cases x.1.conn with
      | error => rfl
      | ok =>
        cases hslaves : x.2.slaves with
        | error => simp only [hslaves]; rfl
        | ok => simp only [hslaves]; rfl
  rw [hsame, pick_map, Option.map_eq_some_iff]
  exact exists_congr fun rows => and_congr_right fun _ => eq_comm

/-- the calls of `slave_for` reach every listed replica exactly where there is one at most, and it is the one given -/
theorem rotates_iff {l : List (String × ℕ)} :
    (∀ r ∈ l, ∃ call ∈ inner.slaveForCalls kwargs service answers l.length,
        Targets inner kwargs service true answers call r) ↔
      ∀ r ∈ l, ∃ b, inner.target true answers = some b ∧ (inner.params kwargs service true).Accepts b ∧
        parseAddr b.2 = some r := by
  refine forall₂_congr fun r hr => ?_
  have hpos : 0 < l.length := List.length_pos_of_mem hr
  constructor
  · rintro ⟨call, hcall, htargets⟩
    obtain ⟨-, rfl⟩ := mem_slaveForCalls.1 hcall
    exact targets_iff.1 htargets
  · exact fun h => ⟨_, mem_slaveForCalls.2 ⟨hpos, rfl⟩, targets_iff.2 h⟩

/-- **Clients and discovery.** For any sentinels, any answers, any arguments and any cursors, the clients go where
discovery says and replicas rotate if and only if the answers are unambiguous. -/
theorem follows_discovery_iff (inner : SentinelInner) (kwargs : ConnectionKwargs) (service : String)
    (opens : ℕ → Opening) (answers : ℕ → SentinelAnswer) :
    FollowsDiscovery inner kwargs service opens answers ↔ Unambiguous inner kwargs service opens answers := by
  constructor
  · intro h
    have hrotates : ∀ rows, inner.firstRows opens answers = some rows → ∀ row ∈ rows, ∀ r, listed row = some r →
        ∃ b, inner.target true answers = some b ∧ (inner.params kwargs service true).Accepts b ∧
          parseAddr b.2 = some r := fun rows hrows row hrow r hr =>
      rotates_iff.1 (h.rotates _ (discoverSlaves_ok_iff.2 ⟨rows, hrows, rfl⟩)) r (List.mem_filterMap.2 ⟨row, hrow, hr⟩)
    refine ⟨fun m hm => targets_iff.1 (h.master m (discoverMaster_ok_iff.2 hm)), fun b hb haccepts => ?_,
      fun rows hrows row hrow r hr => ?_, fun rows hrows row hrow row' hrow' r r' hr hr' => ?_⟩
    · have hcall : (inner.slaveFor kwargs service answers).2 = .ok _ := buildRedisConn_ok_iff.2 ⟨b, hb, haccepts, rfl⟩
      obtain ⟨l, hdiscover, r, hmem, c, b', -, hb', -, hparse⟩ := h.replica _ hcall
      obtain ⟨rows, hrows, rfl⟩ := discoverSlaves_ok_iff.1 hdiscover
      obtain ⟨row, hrow, hlisted⟩ := List.mem_filterMap.1 hmem
      obtain rfl := Option.some.inj (hb.symm.trans hb')
      exact ⟨rows, hrows, row, hrow, r, hlisted, hparse⟩
    · obtain ⟨b, hb, haccepts, -⟩ := hrotates rows hrows row hrow r hr
      exact ⟨b, hb, haccepts⟩
    · obtain ⟨b, hb, -, hparse⟩ := hrotates rows hrows row hrow r hr
      obtain ⟨b', hb', -, hparse'⟩ := hrotates rows hrows row' hrow' r' hr'
      obtain rfl := Option.some.inj (hb.symm.trans hb')
      exact Option.some.inj (hparse.symm.trans hparse')
  · intro h
    refine ⟨fun m hm => targets_iff.2 (h.oneMaster m (discoverMaster_ok_iff.1 hm)), fun c hc => ?_,
      fun l hdiscover => rotates_iff.2 fun r hr => ?_⟩
    · obtain ⟨b, hb, haccepts, rfl⟩ := buildRedisConn_ok_iff.1 hc
      obtain ⟨rows, hrows, row, hrow, r, hlisted, hparse⟩ := h.replicaListed b hb haccepts
      exact ⟨_, discoverSlaves_ok_iff.2 ⟨rows, hrows, rfl⟩, r, List.mem_filterMap.2 ⟨row, hrow, hlisted⟩,
        _, b, rfl, hb, rfl, hparse⟩
    · obtain ⟨rows, hrows, rfl⟩ := discoverSlaves_ok_iff.1 hdiscover
      obtain ⟨row, hrow, hlisted⟩ := List.mem_filterMap.1 hr
      obtain ⟨b, hb, haccepts⟩ := h.replicaAccepts rows hrows row hrow r hlisted
      obtain ⟨rows', hrows', row', hrow', r', hlisted', hparse⟩ := h.replicaListed b hb haccepts
      obtain rfl := Option.some.inj (hrows.symm.trans hrows')
      obtain rfl := h.oneReplica rows hrows row' hrow' row hrow r' r hlisted' hlisted
      exact ⟨b, hb, haccepts, hparse⟩

/-- a healthy replica, as a row -/
def replicaRow (ip : String) : Row := [("ip", ip), ("port", "6379"), ("flags", "slave")]

/-- one sentinel that reports two healthy replicas -/
def twoReplicas : ℕ → SentinelAnswer := fun _ =>
  { reports "10.0.0.1" "6379" (.ok ()) with slaves := .ok [replicaRow "10.0.0.2", replicaRow "10.0.0.3"] }

def oneSentinel : SentinelInner := ⟨["redis://s1:26379"], fun _ => 0⟩

def reachable : ℕ → Opening := fun _ => ⟨.ok (), .ok ()⟩

theorem second_replica_never_used :
    ¬ ∀ (inner : SentinelInner) (kwargs : ConnectionKwargs) (service : String) (opens : ℕ → Opening)
      (answers : ℕ → SentinelAnswer), FollowsDiscovery inner kwargs service opens answers := by
  intro h
  have hfollows := h oneSentinel ⟨0, none, none⟩ "mymaster" reachable twoReplicas
  have hdiscover : oneSentinel.discoverSlaves reachable twoReplicas = .ok [("10.0.0.2", 6379), ("10.0.0.3", 6379)] := rfl
  obtain ⟨call, -, c, b, -, hb, -, hparse⟩ := hfollows.rotates _ hdiscover ("10.0.0.3", 6379) (by simp)
  have htarget : oneSentinel.target true twoReplicas = some (twoReplicas 0, "10.0.0.2", "6379") := rfl
  obtain rfl := Option.some.inj (htarget.symm.trans hb)
  exact absurd hparse (by decide)

end RedisRsPy.Facade
