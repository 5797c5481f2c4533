/-
The two connections that the commands of a client share: the regular one, and the one for blocking commands that
`get_blocking` makes when it is first needed (`ValkeyConn` in `connection.rs`).

Any number of calls run at a time, of all commands. A call of a blocking command waits in the `OnceCell` until there is
a connection: while there is none, one call at a time makes it, and one that fails is over. The rest goes out at once. A
request that goes out is an ATTEMPT of its call: a sentinel connection makes a second one, after a rediscovery, where
the first came to an error of the failover class, and the cluster client sends again as it likes. The server answers the
attempts on a line in their order and may hold a blocking one; lines are lost, calls give up where their connection has
a response timeout, and others write to the store.

Results:
- `blocking_eq`: the regular connection gets every command that the server may not hold, and WAIT and WAITAOF;
- `connections_apart`: in every run, the blocking connection is made once, for a call that needs it; a call goes out
  once on a client of one server, twice at most on one of sentinels; no attempt on the regular connection waits for more
  turns of its line than there are before its own, but for a WAIT or WAITAOF there; calls of blocking commands are never
  given up but on a cluster, and wait for the ones before them.
`pop_behind_pop`: a BLPOP that has its element waits for another that has none.
-/
import RedisRsPy.Commands.All
import RedisRsPy.Connection.Endpoints
import RedisRsPy.Connection.Retry
import RedisRsPy.Lib.Multiplex

namespace RedisRsPy.Connection.Blocking

open Lib Commands

/-! ## Commands -/

/-- the commands that make a server wait -/
def mayHold : Command → Bool
  | .lists .blpop | .lists .brpop | .lists .blmove | .lists (.blmpop _) => true
  | .zsets .bzpopmin | .zsets .bzpopmax | .zsets (.bzmpop _) => true
  | .streams (.xread _ block) | .streams (.xreadgroup _ block) => block.isSome
  | .admin .wait | .admin .waitaof => true
  | _ => false

def waits : Command → Bool
  | .admin .wait | .admin .waitaof => true
  | _ => false

theorem members_blocking (S : Std) (withscores : Bool) : (Zsets.members S withscores).blocking = false := by
  cases withscores <;> rfl

theorem srandmember_blocking (S : Std) (count : Option Int) : (Sets.srandmember S count).blocking = false := by
  unfold Sets.srandmember
  split
  · rfl
  · split_ifs <;> rfl

theorem zadd_blocking (S : Std) (mapping : List Arg) (flags : Zsets.ZAddFlags) :
    (Zsets.zadd S mapping flags).blocking = false := by
  unfold Zsets.zadd
  split <;> rfl

/-- **Which connection.** -/
theorem blocking_eq (S : Std) (c : Command) : (row S c).blocking = (mayHold c && !waits c) := by
  cases c with
  | strings c => cases c with
    | ping message => cases message <;> rfl
    | _ => rfl
  | lists c => cases c with
    | lpop count | rpop count | lpos count => cases count <;> rfl
    | _ => rfl
  | hashes c => cases c <;> rfl
  | sets c => cases c with
    | spop count => cases count <;> rfl
    | srandmember count => exact srandmember_blocking S count
    | _ => rfl
  | zsets c => cases c with
    | zadd mapping flags => exact zadd_blocking S mapping flags
    | zrange opts => exact members_blocking S opts.withscores
    | zrangebyscore withscores _ _ | zrevrangebyscore withscores _ _ => exact members_blocking S withscores
    | zunion _ withscores | zinter _ withscores | zdiff _ withscores => exact members_blocking S withscores
    | _ => rfl
  | streams c => cases c with
    | xread streams block | xreadgroup streams block => cases block <;> rfl
    | xpending min max count => cases min <;> cases max <;> cases count <;> rfl
    | xclaim justid => cases justid <;> rfl
    | _ => rfl
  | scripts c => cases c <;> rfl
  | admin c => cases c <;> rfl

/-! ## A client and its calls -/

inductive Slot where
  | regular
  | blocking
deriving DecidableEq

/-- a command with its arguments as they are sent -/
structure Request where
  command : Command
  args : List Bytes

/-- a server: it holds none but the commands that make it wait -/
structure RedisService (σ : Type) extends Multiplex.Service σ Request Value where
  prompt : ∀ q, mayHold q.command = false → Multiplex.Prompt toService q

/-- a client as the constructors make it, a server and the calls. A `ClusterConnection` has a response timeout of its
own. -/
structure Setting (ν κ σ : Type) where
  std : Std
  conn : ValkeyConn
  made : ∃ net args, ConnectArgs.connect net args = .ok conn
  service : RedisService σ
  request : κ → Request
  /-- the lines to begin with -/
  first : Slot → ν
  clusterTimeout : Option ℕ

/-- what a call is doing, with the lines that its attempts went out on -/
inductive Phase (ν : Type) where
  | idle
  /-- in `get_or_try_init` -/
  | waiting
  /-- in `build_blocking` -/
  | dialing
  | sent (lines : List ν)
  /-- `rediscover` has found a master -/
  | rediscovered (lines : List ν)
  | failed (e : RedisError) (lines : List ν)
  | timedOut (lines : List ν)

variable {ν κ σ : Type}

def Phase.lines : Phase ν → List ν
  | .sent lines | .rediscovered lines | .failed _ lines | .timedOut lines => lines
  | _ => []

@[simp] theorem Phase.sent_lines (lines : List ν) : (Phase.sent lines).lines = lines := rfl

@[simp] theorem Phase.rediscovered_lines (lines : List ν) : (Phase.rediscovered lines).lines = lines := rfl

@[simp] theorem Phase.failed_lines (e : RedisError) (lines : List ν) : (Phase.failed e lines).lines = lines := rfl

@[simp] theorem Phase.timedOut_lines (lines : List ν) : (Phase.timedOut lines).lines = lines := rfl

/-- the requests on the lines are the attempts of the calls, by number -/
structure World (ν κ σ : Type) where
  lines : Multiplex.State (Slot × ν) (κ × ℕ) Value σ
  regular : ValkeyConnInner
  /-- `blocking` -/
  cell : Option ValkeyConnInner
  /-- the line of the connection, if it has one and not a line to each node -/
  current : Slot → ν
  /-- who has the permit of the cell -/
  dialing : Option κ
  phase : κ → Phase ν

inductive Event (ν κ σ : Type) where
  /-- the cluster client picks a node, and a node is nothing to the others -/
  | begin (c : κ) (node : ν)
  /-- a call that waits looks at the cell -/
  | enter (c : κ) (node : ν)
  | dialed (c : κ) (net : Net) (node : ν)
  /-- `rediscover`, whose manager has this line -/
  | rediscover (c : κ) (answers : ℕ → SentinelAnswer) (line : ν)
  /-- the second attempt of a sentinel client, or one more of the cluster client, which sends again as it likes -/
  | resend (c : κ) (node : ν)
  | serve (g : Slot × ν)
  | lapse (g : Slot × ν)
  | drop (g : Slot × ν) (ran : ℕ)
  | write (f : σ → σ)
  /-- the response timeout of the call's connection -/
  | timeout (c : κ)

def World.conn (w : World ν κ σ) : Slot → Option ValkeyConnInner
  | .regular => some w.regular
  | .blocking => w.cell

def World.setConn (w : World ν κ σ) (conn : ValkeyConnInner) : Slot → World ν κ σ
  | .regular => { w with regular := conn }
  | .blocking => { w with cell := some conn }

@[simp] theorem World.setConn_lines (w : World ν κ σ) (conn : ValkeyConnInner) (slot : Slot) :
    (w.setConn conn slot).lines = w.lines := by
  cases slot <;> rfl

/-- the line that an attempt goes out on -/
def World.target (w : World ν κ σ) (slot : Slot) (node : ν) : ν :=
  match w.conn slot with
  | some (.cluster _ _) => node
  | _ => w.current slot

/-- the response timeout of a connection -/
def connTimeout (cluster : Option ℕ) : ValkeyConnInner → Option ℕ
  | .standard mgr => mgr.config.responseTimeout
  | .cluster _ _ => cluster
  | .sentinel s => s.inner.config.responseTimeout

/-- what `is_failover_error` says of an answer; a lost one is the error of a broken connection -/
def failover : Option Value → Bool
  | none => true
  | some (.serverError e) => Retry.isFailoverError e
  | some _ => false

namespace Setting

variable (V : Setting ν κ σ)

def start (store : σ) : World ν κ σ := ⟨Multiplex.start store, V.conn.regular, none, V.first, none, fun _ => .idle⟩

def isBlocking (c : κ) : Bool := (row V.std (V.request c).command).blocking

/-- the connection of a call -/
def slot (c : κ) : Slot := if V.isBlocking c then .blocking else .regular

/-- the response timeout of the calls on a connection -/
def responseTimeout (w : World ν κ σ) (slot : Slot) : Option ℕ := (w.conn slot).bind (connTimeout V.clusterTimeout)

variable [DecidableEq κ]

/-- the first attempt has come to an error of the failover class, as a timeout is too, and no second one was made -/
def failedOver (w : World ν κ σ) (c : κ) : Bool :=
  match w.phase c with
  | .sent [g] => (w.lines.gone (V.slot c, g)).any fun entry => decide (entry.1 = (c, 0)) && failover entry.2
  | .timedOut [_] => true
  | _ => false

/-- the connection that a call is going to rediscover -/
def retries (w : World ν κ σ) (c : κ) : Option SentinelConn :=
  match w.conn (V.slot c) with
  | some (.sentinel s) => if V.failedOver w c then some s else none
  | _ => none

variable [DecidableEq ν]

def lines (w : World ν κ σ) (e : Multiplex.Event (Slot × ν) (κ × ℕ) σ) : World ν κ σ :=
  { w with lines := Multiplex.step V.service.toService (fun a => V.request a.1) w.lines e }

/-- one more attempt goes out -/
def send (w : World ν κ σ) (c : κ) (node : ν) : World ν κ σ :=
  let line := w.target (V.slot c) node
  let before := (w.phase c).lines
  { V.lines w (.send (V.slot c, line) (c, before.length)) with
    phase := Function.update w.phase c (.sent (before ++ [line])) }

def step (w : World ν κ σ) : Event ν κ σ → World ν κ σ
  | .begin c node =>
    match w.phase c with
    | .idle => if V.isBlocking c then { w with phase := Function.update w.phase c .waiting } else V.send w c node
    | _ => w
  | .enter c node =>
    match w.phase c with
    | .waiting =>
      if w.cell.isSome then V.send w c node
      else if w.dialing.isSome then w
      else { w with dialing := some c, phase := Function.update w.phase c .dialing }
    | _ => w
  | .dialed c net node =>
    if w.dialing = some c then
      match buildBlocking net V.conn.config with
      | .ok conn => V.send { w with cell := some conn, dialing := none } c node
      | .error e => { w with dialing := none, phase := Function.update w.phase c (.failed e []) }
    else w
  | .rediscover c answers line =>
    match V.retries w c with
    | none => w
    | some s =>
      match s.rediscover answers with
      | (.ok (), s') =>
        { w.setConn (.sentinel s') (V.slot c) with
          current := Function.update w.current (V.slot c) line
          phase := Function.update w.phase c (.rediscovered (w.phase c).lines) }
      | (.error e, _) => { w with phase := Function.update w.phase c (.failed e (w.phase c).lines) }
  | .resend c node =>
    match w.phase c, w.conn (V.slot c) with
    | .rediscovered _, _ => V.send w c node
    | .sent _, some (.cluster _ _) => V.send w c node
    | _, _ => w
  | .serve g => V.lines w (.serve g)
  | .lapse g => V.lines w (.lapse g)
  | .drop g ran => V.lines w (.drop g ran)
  | .write f => V.lines w (.write f)
  | .timeout c =>
    match w.phase c with
    | .sent lines =>
      if (V.responseTimeout w (V.slot c)).isSome = true ∧
          ∃ g ∈ lines.getLast?, (c, lines.length - 1) ∈ w.lines.pending (V.slot c, g) then
        { w with phase := Function.update w.phase c (.timedOut lines) }
      else w
    | _ => w

end Setting

inductive Outcome where
  | value (v : Value)
  | failed (e : RedisError)
  | lost
  | timedOut

/-- what a call has come to, unless the cluster client sends it again -/
def Setting.outcome [DecidableEq κ] (V : Setting ν κ σ) (w : World ν κ σ) (c : κ) : Option Outcome :=
  match V.retries w c, w.phase c with
  | none, .sent lines =>
    lines.getLast?.bind fun g =>
      ((w.lines.gone (V.slot c, g)).find? fun entry => decide (entry.1 = (c, lines.length - 1))).map fun entry =>
        match entry.2 with
        | some v => .value v
        | none => .lost
  | none, .failed e _ => some (.failed e)
  | none, .timedOut _ => some .timedOut
  | _, _ => none

/-! ## What a step does -/

section Steps

variable [DecidableEq ν] [DecidableEq κ] (V : Setting ν κ σ)

/-- when an attempt goes out -/
def Setting.MaySend (w : World ν κ σ) (c : κ) : Prop :=
  w.phase c = .idle ∧ V.isBlocking c = false ∨ w.phase c = .waiting ∧ w.cell.isSome = true ∨
    (∃ lines, w.phase c = .rediscovered lines) ∨
      (∃ lines, w.phase c = .sent lines) ∧ ∃ urls tlsOpts, w.conn (V.slot c) = some (.cluster urls tlsOpts)

inductive Moves (w : World ν κ σ) : World ν κ σ → Prop
  | waited (c : κ) (hphase : w.phase c = .idle) (hblocking : V.isBlocking c = true) :
    Moves w { w with phase := Function.update w.phase c .waiting }
  | sent (c : κ) (node : ν) (hmay : V.MaySend w c) : Moves w (V.send w c node)
  | dialing (c : κ) (hphase : w.phase c = .waiting) (hcell : w.cell = none) (hfree : w.dialing = none) :
    Moves w { w with dialing := some c, phase := Function.update w.phase c .dialing }
  | connected (c : κ) (net : Net) (node : ν) (conn : ValkeyConnInner) (hpermit : w.dialing = some c)
    (hbuilt : buildBlocking net V.conn.config = .ok conn) :
    Moves w (V.send { w with cell := some conn, dialing := none } c node)
  | failed (c : κ) (e : RedisError) (hpermit : w.dialing = some c) :
    Moves w { w with dialing := none, phase := Function.update w.phase c (.failed e []) }
  | rediscovered (c : κ) (answers : ℕ → SentinelAnswer) (line : ν) (s : SentinelConn)
    (hretries : V.retries w c = some s) :
    Moves w { w.setConn (.sentinel (s.rediscover answers).2) (V.slot c) with
      current := Function.update w.current (V.slot c) line
      phase := Function.update w.phase c (.rediscovered (w.phase c).lines) }
  | lost (c : κ) (e : RedisError) (s : SentinelConn) (hretries : V.retries w c = some s) :
    Moves w { w with phase := Function.update w.phase c (.failed e (w.phase c).lines) }
  | timedOut (c : κ) (lines : List ν) (hphase : w.phase c = .sent lines)
    (htimeout : (V.responseTimeout w (V.slot c)).isSome = true) :
    Moves w { w with phase := Function.update w.phase c (.timedOut lines) }
  | lines (e : Multiplex.Event (Slot × ν) (κ × ℕ) σ) (he : ∀ g a, e ≠ .send g a) : Moves w (V.lines w e)
  | still : Moves w w

theorem step_cases (w : World ν κ σ) (e : Event ν κ σ) : Moves V w (V.step w e) := by
  cases e with
  | begin c node =>
    simp only [Setting.step]
    split
    · rename_i hphase
      split_ifs with hblocking
      · exact .waited c hphase hblocking
      · exact .sent c node (.inl ⟨hphase, by simpa using hblocking⟩)
    · exact .still
  | enter c node =>
    simp only [Setting.step]
    split
    · rename_i hphase
      split_ifs with hcell hfree
      · exact .sent c node (.inr (.inl ⟨hphase, hcell⟩))
      · exact .still
      · exact .dialing c hphase (by simpa using hcell) (by simpa using hfree)
    · exact .still
  | dialed c net node =>
    simp only [Setting.step]
    split_ifs with hpermit
    · split
      · rename_i conn hbuilt
        exact .connected c net node conn hpermit hbuilt
      · exact .failed c _ hpermit
    · exact .still
  | rediscover c answers line =>
    simp only [Setting.step]
    split
    · exact .still
    · rename_i s hretries
      split
      · rename_i s' hs'
        have hsecond : (s.rediscover answers).2 = s' := by rw [hs']
        rw [← hsecond]
        exact .rediscovered c answers line s hretries
      · exact .lost c _ s hretries
  | resend c node =>
    simp only [Setting.step]
    split
    · rename_i lines hphase
      exact .sent c node (.inr (.inr (.inl ⟨lines, hphase⟩)))
    · rename_i lines urls tlsOpts hphase hconn
      exact .sent c node (.inr (.inr (.inr ⟨⟨lines, hphase⟩, urls, tlsOpts, hconn⟩)))
    · exact .still
  | serve g => exact .lines _ (by simp)
  | lapse g => exact .lines _ (by simp)
  | drop g ran => exact .lines _ (by simp)
  | write f => exact .lines _ (by simp)
  | timeout c =>
    simp only [Setting.step]
    split
    · rename_i lines hphase
      split_ifs with htimeout
      · exact .timedOut c lines hphase htimeout.1
      · exact .still
    · exact .still

end Steps

/-! ## The connections -/

/-- a connection of the kind of a configuration -/
def Fits : ConnConfig → ValkeyConnInner → Prop
  | .standard _ _, .standard _ => True
  | .cluster _ _, .cluster _ _ => True
  | .sentinel _ _ _ _ _, .sentinel _ => True
  | _, _ => False

theorem fits_rediscovers {config : ConnConfig} {conn : ValkeyConnInner} (h : Fits config conn)
    (met : List (ℕ → SentinelAnswer)) : Fits config (conn.rediscovers met) := by
  cases config <;> cases conn <;> exact h

theorem rediscovers_nil (conn : ValkeyConnInner) : conn.rediscovers [] = conn := by
  cases conn <;> rfl

/-- one more rediscovery -/
theorem rediscovers_append {conn : ValkeyConnInner} {met : List (ℕ → SentinelAnswer)} {s : SentinelConn}
    (h : .sentinel s = conn.rediscovers met) (answers : ℕ → SentinelAnswer) :
    .sentinel (s.rediscover answers).2 = conn.rediscovers (met ++ [answers]) := by
  cases conn with
  | sentinel s₀ =>
    cases h
    simp [ValkeyConnInner.rediscovers, SentinelConn.rediscovers]
  | _ => cases h

/-- a rediscovery does not change the settings of a connection -/
theorem connTimeout_rediscovers {p : SentinelParams} {answers : ℕ → SentinelAnswer} {s : SentinelConn}
    (h : createSentinelInner p answers = .ok s) (met : List (ℕ → SentinelAnswer)) (cluster : Option ℕ) :
    connTimeout cluster (.sentinel (s.rediscovers met)) = p.connConfig.responseTimeout := by
  obtain ⟨addr, -, hconn⟩ := stands_on h met
  rw [hconn]
  rfl

theorem buildBlocking_fits {net : Net} {config : ConnConfig} {made : ValkeyConnInner}
    (h : buildBlocking net config = .ok made) : Fits config made := by
  cases config with
  | standard url tlsOpts =>
    have hmade : made = .standard ⟨url, tlsOpts, blockingConnManagerConfig⟩ := buildBlocking_ok h
    rw [hmade]
    trivial
  | cluster urls tlsOpts =>
    have hmade : made = .cluster urls tlsOpts := buildBlocking_ok h
    rw [hmade]
    trivial
  | sentinel sentinelUrls serviceName db isSlave tlsOpts =>
    obtain ⟨s, -, rfl⟩ := buildBlocking_ok h
    trivial

/-- the blocking connection has no response timeout but on a cluster -/
theorem buildBlocking_timeout {net : Net} {config : ConnConfig} {made : ValkeyConnInner}
    (h : buildBlocking net config = .ok made) (met : List (ℕ → SentinelAnswer)) (cluster : Option ℕ) :
    connTimeout cluster (made.rediscovers met) = none ∨ ∃ urls tlsOpts, config = .cluster urls tlsOpts := by
  cases config with
  | standard url tlsOpts =>
    have hmade : made = .standard ⟨url, tlsOpts, blockingConnManagerConfig⟩ := buildBlocking_ok h
    rw [hmade]
    exact .inl rfl
  | cluster urls tlsOpts => exact .inr ⟨urls, tlsOpts, rfl⟩
  | sentinel sentinelUrls serviceName db isSlave tlsOpts =>
    obtain ⟨s, hs, rfl⟩ := buildBlocking_ok h
    exact .inl (connTimeout_rediscovers hs met cluster)

theorem connect_fits {net : Net} {args : ConnectArgs} {conn : ValkeyConn} (h : args.connect net = .ok conn) :
    Fits conn.config conn.regular := by
  cases args with
  | standard url cacheOpts tlsOpts =>
    rw [connectStandard_ok h]
    trivial
  | cluster urls tlsOpts =>
    rw [(connectCluster_ok h).2]
    trivial
  | sentinel sentinelUrls serviceName db isSlave cacheOpts tlsOpts =>
    obtain ⟨s, -, hconn⟩ := connectSentinel_ok h
    rw [hconn]
    trivial

namespace Setting

variable (V : Setting ν κ σ)

def Standard : Prop := ∃ url tlsOpts, V.conn.config = .standard url tlsOpts

def Clustered : Prop := ∃ urls tlsOpts, V.conn.config = .cluster urls tlsOpts

def Sentinel : Prop := ∃ sentinelUrls serviceName db isSlave tlsOpts,
  V.conn.config = .sentinel sentinelUrls serviceName db isSlave tlsOpts

/-- the connections as they are made -/
def Built : Slot → ValkeyConnInner → Prop
  | .regular, made => made = V.conn.regular
  | .blocking, made => ∃ net, buildBlocking net V.conn.config = .ok made

variable {V}

theorem Built.fits {slot : Slot} {made : ValkeyConnInner} (h : V.Built slot made) : Fits V.conn.config made := by
  cases slot with
  | regular =>
    cases h
    obtain ⟨net, args, hmade⟩ := V.made
    exact connect_fits hmade
  | blocking =>
    obtain ⟨net, hbuilt⟩ := h
    exact buildBlocking_fits hbuilt

theorem not_clustered (h : V.Standard ∨ V.Sentinel) : ¬ V.Clustered := by
  rintro ⟨urls, tlsOpts, hcluster⟩
  rcases h with ⟨_, _, h⟩ | ⟨_, _, _, _, _, h⟩
  · cases hcluster.symm.trans h
  · cases hcluster.symm.trans h

theorem not_standard (h : V.Sentinel) : ¬ V.Standard := by
  rintro ⟨url, tlsOpts, hstandard⟩
  obtain ⟨_, _, _, _, _, h⟩ := h
  cases hstandard.symm.trans h

theorem sentinel_of_fits {s : SentinelConn} (h : Fits V.conn.config (.sentinel s)) : V.Sentinel := by
  cases hconfig : V.conn.config with
  | sentinel sentinelUrls serviceName db isSlave tlsOpts => exact ⟨_, _, _, _, _, hconfig⟩
  | _ =>
    rw [hconfig] at h
    cases h

theorem clustered_of_fits {urls : List String} {tlsOpts : Option TlsOpts}
    (h : Fits V.conn.config (.cluster urls tlsOpts)) : V.Clustered := by
  cases hconfig : V.conn.config with
  | cluster urls tlsOpts => exact ⟨_, _, hconfig⟩
  | _ =>
    rw [hconfig] at h
    cases h

end Setting

/-! ## The invariant -/

/-- what holds of a call -/
structure CallInv (V : Setting ν κ σ) (s : Multiplex.State (Slot × ν) (κ × ℕ) Value σ) (c : κ) (p : Phase ν) :
    Prop where
  /-- which of its attempts are on a line -/
  line : ∀ g m, (c, m) ∈ s.line g ↔ g.1 = V.slot c ∧ p.lines[m]? = some g.2
  calling : p = .waiting → V.isBlocking c = true
  standard : V.Standard → p.lines = [] ∨ p.lines = [V.first (V.slot c)]
  rediscovered : ∀ lines, p = .rediscovered lines → V.Sentinel ∧ lines.length = 1
  twice : ¬ V.Clustered → p.lines.length ≤ 2
  timed : ∀ lines, p = .timedOut lines → ¬ V.Clustered → V.isBlocking c = false
  /-- the first attempt, where there is a second one -/
  again : ¬ V.Clustered → V.isBlocking c = true → (∃ lines, p = .rediscovered lines) ∨ p.lines.length = 2 →
    ∃ g entry, entry ∈ s.gone g ∧ entry.1 = (c, 0) ∧ failover entry.2 = true
  /-- only the last attempt of a call of a blocking command can wait on a line -/
  last : ¬ V.Clustered → V.isBlocking c = true → ∀ g m, (c, m) ∈ s.pending g →
    ∃ lines, p = .sent lines ∧ lines.length = m + 1

structure Inv (V : Setting ν κ σ) (w : World ν κ σ) : Prop where
  call : ∀ c, CallInv V w.lines c (w.phase c)
  nodup : ∀ g, (w.lines.line g).Nodup
  own : w.lines.Own V.service.toService fun a => V.request a.1
  permit : ∀ c, w.dialing = some c → w.phase c = .dialing ∧ V.isBlocking c = true
  /-- nobody makes a connection where there is one -/
  alone : w.dialing.isSome = true → w.cell = none
  connected : ∀ slot conn, w.conn slot = some conn → ∃ made met, V.Built slot made ∧ conn = made.rediscovers met
  needed : w.cell.isSome = true → ∃ c, V.isBlocking c = true ∧ (w.phase c).lines ≠ []
  current : V.Standard → w.current = V.first

variable {V : Setting ν κ σ} {w : World ν κ σ}

theorem inv_start (store : σ) : Inv V (V.start store) where
  call c := by
    refine ⟨fun g m => ?_, nofun, fun _ => .inl rfl, nofun, fun _ => Nat.zero_le _, nofun, fun _ _ h => ?_, nofun⟩
    · simp [Setting.start, Multiplex.start, Multiplex.State.line, Phase.lines]
    · rcases h with ⟨lines, h⟩ | h
      · cases h
      · cases h
  nodup g := by simp [Setting.start, Multiplex.start, Multiplex.State.line]
  own g c b h := by cases h
  permit c h := by cases h
  alone h := by cases h
  connected slot conn h := by
    cases slot with
    | regular =>
      cases h
      exact ⟨V.conn.regular, [], rfl, (rediscovers_nil _).symm⟩
    | blocking => cases h
  needed h := by cases h
  current _ := rfl

theorem Inv.fits (hinv : Inv V w) {slot : Slot} {conn : ValkeyConnInner} (h : w.conn slot = some conn) :
    Fits V.conn.config conn := by
  obtain ⟨made, met, hmade, rfl⟩ := hinv.connected slot conn h
  exact fits_rediscovers hmade.fits met

/-- the line of an attempt where there is one line only -/
theorem target_of_fits {slot : Slot} (hfits : ∀ conn, w.conn slot = some conn → Fits V.conn.config conn)
    (hcluster : ¬ V.Clustered) (node : ν) : w.target slot node = w.current slot := by
  unfold World.target
  split
  · rename_i hconn
    exact absurd (Setting.clustered_of_fits (hfits _ hconn)) hcluster
  · rfl

/-- the lines have grown, for others or of themselves -/
theorem CallInv.of_lines {s s' : Multiplex.State (Slot × ν) (κ × ℕ) Value σ} {c : κ} {p : Phase ν}
    (h : CallInv V s c p) (hline : ∀ g m, (c, m) ∈ s'.line g ↔ (c, m) ∈ s.line g)
    (hgone : ∀ g, s.gone g <+: s'.gone g) (hpending : ∀ g m, (c, m) ∈ s'.pending g → (c, m) ∈ s.pending g) :
    CallInv V s' c p where
  line g m := (hline g m).trans (h.line g m)
  calling := h.calling
  standard := h.standard
  rediscovered := h.rediscovered
  twice := h.twice
  timed := h.timed
  again hcluster hblocking hp := by
    obtain ⟨g, entry, hmem, hentry⟩ := h.again hcluster hblocking hp
    exact ⟨g, entry, (hgone g).subset hmem, hentry⟩
  last hcluster hblocking g m hm := h.last hcluster hblocking g m (hpending g m hm)

section Lines

variable [DecidableEq ν]

theorem lines_line (w : World ν κ σ) (e : Multiplex.Event (Slot × ν) (κ × ℕ) σ) (g : Slot × ν) :
    (V.lines w e).lines.line g = w.lines.line g ++ (e.sentOn g).toList :=
  @Multiplex.line_step _ _ _ _ _ _ V.service.toService (fun a : κ × ℕ => V.request a.1) w.lines g e

theorem lines_gone (w : World ν κ σ) (e : Multiplex.Event (Slot × ν) (κ × ℕ) σ) (g : Slot × ν) :
    w.lines.gone g <+: (V.lines w e).lines.gone g :=
  Multiplex.gone_step w.lines g e

theorem lines_pending {w : World ν κ σ} {e : Multiplex.Event (Slot × ν) (κ × ℕ) σ} {g : Slot × ν} {a : κ × ℕ}
    (h : a ∈ (V.lines w e).lines.pending g) : a ∈ w.lines.pending g ∨ e = .send g a :=
  Multiplex.pending_step w.lines g e h

theorem lines_own (hinv : Inv V w) (e : Multiplex.Event (Slot × ν) (κ × ℕ) σ) :
    (V.lines w e).lines.Own V.service.toService fun a => V.request a.1 :=
  Multiplex.own_step w.lines e hinv.own

/-- the server, or the connections -/
theorem Inv.lines (hinv : Inv V w) {e : Multiplex.Event (Slot × ν) (κ × ℕ) σ} (he : ∀ g a, e ≠ .send g a) :
    Inv V (V.lines w e) := by
  have hline : ∀ g, (V.lines w e).lines.line g = w.lines.line g := by
    intro g
    rw [lines_line, Multiplex.sentOn_of_ne (he g)]
    exact List.append_nil _
  refine ⟨fun c => ?_, fun g => by rw [hline]; exact hinv.nodup g, lines_own hinv e, hinv.permit, hinv.alone,
    hinv.connected, hinv.needed, hinv.current⟩
  refine (hinv.call c).of_lines (fun g m => by rw [hline]) (lines_gone w e) fun g m hm => ?_
  exact (lines_pending hm).resolve_right (he g _)

end Lines

section Decidable

variable [DecidableEq κ]

/-- one call changes, and its lines stay -/
theorem Inv.phased (hinv : Inv V w) {c : κ} {p : Phase ν} {dialing : Option κ} (hp : CallInv V w.lines c p)
    (hlines : p.lines = (w.phase c).lines)
    (hpermit : ∀ d, dialing = some d → Function.update w.phase c p d = .dialing ∧ V.isBlocking d = true)
    (halone : dialing.isSome = true → w.cell = none) :
    Inv V { w with dialing := dialing, phase := Function.update w.phase c p } where
  call d := by
    by_cases hd : d = c
    · subst hd
      simpa using hp
    · simpa [hd] using hinv.call d
  nodup := hinv.nodup
  own := hinv.own
  permit := hpermit
  alone := halone
  connected := hinv.connected
  needed h := by
    obtain ⟨d, hblocking, hd⟩ := hinv.needed h
    refine ⟨d, hblocking, ?_⟩
    by_cases hdc : d = c
    · subst hdc
      simpa [hlines] using hd
    · simpa [hdc] using hd
  current := hinv.current

end Decidable

/-! ## An attempt goes out -/

/-- a call that has no attempt on a line, or that a cluster client sends -/
def Ready (V : Setting ν κ σ) (p : Phase ν) : Prop :=
  V.Clustered ∨ (p.lines = [] ∧ ∀ lines, p ≠ .sent lines) ∨ ∃ lines, p = .rediscovered lines

theorem getElem?_concat_iff {lines : List ν} {line line' : ν} {m : ℕ} :
    (lines ++ [line])[m]? = some line' ↔ lines[m]? = some line' ∨ m = lines.length ∧ line = line' := by
  rcases Nat.lt_trichotomy m lines.length with h | h | h
  · rw [List.getElem?_append_left h]
    simp [h.ne]
  · subst h
    simp
  · have hlong : (lines ++ [line]).length ≤ m := by
      rw [List.length_append]
      exact h
    rw [List.getElem?_eq_none hlong, List.getElem?_eq_none h.le]
    simp [h.ne']

/-- the call whose attempt it is -/
theorem CallInv.sent {s s' : Multiplex.State (Slot × ν) (κ × ℕ) Value σ} {c : κ} {p : Phase ν} (h : CallInv V s c p)
    {line : ν} (hready : Ready V p) (hfirst : V.Standard → line = V.first (V.slot c))
    (hline : ∀ g a, a ∈ s'.line g ↔ a ∈ s.line g ∨ g = (V.slot c, line) ∧ a = (c, p.lines.length))
    (hgone : ∀ g, s.gone g <+: s'.gone g)
    (hpending : ∀ g a, a ∈ s'.pending g → a ∈ s.pending g ∨ g = (V.slot c, line) ∧ a = (c, p.lines.length)) :
    CallInv V s' c (.sent (p.lines ++ [line])) where
  line g m := by
    refine (hline g (c, m)).trans ((or_congr_left (h.line g m)).trans ?_)
    rw [Phase.sent_lines, getElem?_concat_iff, and_or_left]
    refine or_congr_right ⟨?_, ?_⟩
    · rintro ⟨rfl, hm⟩
      exact ⟨rfl, congrArg Prod.snd hm, rfl⟩
    · rintro ⟨hslot, hm, hnode⟩
      exact ⟨Prod.ext hslot hnode.symm, congrArg (c, ·) hm⟩
  calling := nofun
  standard hstandard := by
    rcases hready with hcluster | ⟨hnone, -⟩ | ⟨lines, rfl⟩
    · exact absurd hcluster (Setting.not_clustered (.inl hstandard))
    · exact .inr (by rw [hnone, hfirst hstandard]; rfl)
    · exact absurd hstandard (Setting.not_standard (h.rediscovered lines rfl).1)
  rediscovered := nofun
  twice hcluster := by
    rcases hready with hcluster' | ⟨hnone, -⟩ | ⟨lines, rfl⟩
    · exact absurd hcluster' hcluster
    · simp [hnone]
    · simp [(h.rediscovered lines rfl).2]
  timed := nofun
  again hcluster hblocking hp := by
    have hagain : ∃ lines, p = .rediscovered lines := by
      rcases hready with hcluster' | ⟨hnone, -⟩ | hlines
      · exact absurd hcluster' hcluster
      · simp [hnone] at hp
      · exact hlines
    obtain ⟨g, entry, hmem, hentry⟩ := h.again hcluster hblocking (.inl hagain)
    exact ⟨g, entry, (hgone g).subset hmem, hentry⟩
  last hcluster hblocking g m hm := by
    rcases hpending g (c, m) hm with hold | ⟨-, hnew⟩
    · obtain ⟨lines, hsent, -⟩ := h.last hcluster hblocking g m hold
      rcases hready with hcluster' | ⟨-, hnot⟩ | ⟨lines', hlines⟩
      · exact absurd hcluster' hcluster
      · exact absurd hsent (hnot lines)
      · cases hsent.symm.trans hlines
    · cases hnew
      exact ⟨_, rfl, by simp⟩

section Decidable

variable [DecidableEq κ] [DecidableEq ν]

/-- maybe on a connection that was just made -/
theorem Inv.sent (hinv : Inv V w) {c : κ} {cell : Option ValkeyConnInner} {dialing : Option κ} (node : ν)
    (hready : Ready V (w.phase c))
    (hconn : ∀ slot conn, World.conn { w with cell := cell, dialing := dialing } slot = some conn →
      ∃ made met, V.Built slot made ∧ conn = made.rediscovers met)
    (hneeded : cell.isSome = true → V.isBlocking c = true ∨ w.cell.isSome = true)
    (hpermit : ∀ d, dialing = some d → d ≠ c ∧ w.dialing = some d) (halone : dialing.isSome = true → cell = none) :
    Inv V (V.send { w with cell := cell, dialing := dialing } c node) := by
  obtain ⟨w₁, hw₁⟩ : ∃ w₁, w₁ = { w with cell := cell, dialing := dialing } := ⟨_, rfl⟩
  obtain ⟨line, hline⟩ : ∃ line, line = w₁.target (V.slot c) node := ⟨_, rfl⟩
  have hfirst : V.Standard → line = V.first (V.slot c) := by
    intro hstandard
    have hfits : ∀ conn, w₁.conn (V.slot c) = some conn → Fits V.conn.config conn := by
      intro conn h
      obtain ⟨made, met, hmade, rfl⟩ := hconn _ conn (hw₁ ▸ h)
      exact fits_rediscovers hmade.fits met
    have hcurrent : w₁.current = w.current := by rw [hw₁]
    rw [hline, target_of_fits hfits (Setting.not_clustered (.inl hstandard)), hcurrent, hinv.current hstandard]
  obtain ⟨w₂, hw₂⟩ : ∃ w₂, w₂ = V.lines w (.send (V.slot c, line) (c, (w.phase c).lines.length)) := ⟨_, rfl⟩
  have hsent : ∀ g, w₂.lines.line g =
      w.lines.line g ++ if (V.slot c, line) = g then [(c, (w.phase c).lines.length)] else [] := by
    intro g
    rw [hw₂, lines_line]
    by_cases h : (V.slot c, line) = g
    · simp [Multiplex.Event.sentOn, h]
    · simp [Multiplex.Event.sentOn, h]
  have hworld : V.send { w with cell := cell, dialing := dialing } c node =
      { w with
        lines := w₂.lines, cell := cell, dialing := dialing
        phase := Function.update w.phase c (.sent ((w.phase c).lines ++ [line])) } := by
    rw [hw₂, hline, hw₁]
    rfl
  have hgone : ∀ g, w.lines.gone g <+: w₂.lines.gone g := fun g => hw₂ ▸ lines_gone w _ g
  have hmem : ∀ g a, a ∈ w₂.lines.line g ↔
      a ∈ w.lines.line g ∨ g = (V.slot c, line) ∧ a = (c, (w.phase c).lines.length) := by
    intro g a
    rw [hsent, List.mem_append]
    split_ifs with hg
    · simp [hg]
    · simp [Ne.symm hg]
  have hpending : ∀ g a, a ∈ w₂.lines.pending g →
      a ∈ w.lines.pending g ∨ g = (V.slot c, line) ∧ a = (c, (w.phase c).lines.length) := by
    intro g a ha
    rw [hw₂] at ha
    refine (lines_pending ha).imp_right fun heq => ?_
    cases heq
    exact ⟨rfl, rfl⟩
  have hown : w₂.lines.Own V.service.toService fun a => V.request a.1 := by
    rw [hw₂]
    exact lines_own hinv _
  rw [hworld]
  refine ⟨fun d => ?_, fun g => ?_, hown, fun d hd => ?_, halone, hconn, fun h => ?_, hinv.current⟩
  · by_cases hd : d = c
    · subst hd
      simpa using (hinv.call d).sent hready hfirst hmem hgone hpending
    · have hother : ∀ m, ¬ ((d, m) = (c, (w.phase c).lines.length)) := fun m heq => hd (congrArg Prod.fst heq)
      have hcall : CallInv V w₂.lines d (w.phase d) := by
        refine (hinv.call d).of_lines (fun g m => ?_) hgone fun g m hm => ?_
        · rw [hmem]
          exact or_iff_left fun h => hother m h.2
        · exact (hpending g _ hm).resolve_right fun h => hother m h.2
      simpa [hd] using hcall
  · rw [hsent]
    refine List.nodup_append.2 ⟨hinv.nodup g, by split_ifs <;> simp, fun a ha b hb heq => ?_⟩
    -- the attempt is new
    have hb' : b = (c, (w.phase c).lines.length) := by
      split_ifs at hb
      · exact List.mem_singleton.1 hb
      · cases hb
    rw [heq, hb'] at ha
    have hline := ((hinv.call c).line g _).1 ha
    simp at hline
  · obtain ⟨hne, hdialing⟩ := hpermit d hd
    obtain ⟨hphase, hblocking⟩ := hinv.permit d hdialing
    exact ⟨(Function.update_of_ne hne _ _).trans hphase, hblocking⟩
  · by_cases hblocking : V.isBlocking c = true
    · exact ⟨c, hblocking, by simp⟩
    · obtain ⟨d, hd, hlines⟩ := hinv.needed ((hneeded h).resolve_left hblocking)
      have hne : d ≠ c := fun heq => hblocking (heq ▸ hd)
      exact ⟨d, hd, by simpa [hne] using hlines⟩

end Decidable

/-! ## A call is going to rediscover -/

/-- an attempt is on one line, and there once -/
theorem Inv.not_pending (hinv : Inv V w) {g g' : Slot × ν} {a : κ × ℕ} (hgone : a ∈ (w.lines.gone g).map Prod.fst) :
    a ∉ w.lines.pending g' := by
  intro hpending
  obtain ⟨c, m⟩ := a
  obtain ⟨hslot, hnode⟩ := ((hinv.call c).line g m).1 (List.mem_append_left _ hgone)
  obtain ⟨hslot', hnode'⟩ := ((hinv.call c).line g' m).1 (List.mem_append_right _ hpending)
  have hsame : g = g' := Prod.ext (hslot.trans hslot'.symm) (Option.some.inj (hnode.symm.trans hnode'))
  subst hsame
  exact (List.nodup_append.1 (hinv.nodup g)).2.2 _ hgone _ hpending rfl

section Retries

variable [DecidableEq κ]

theorem retries_some {c : κ} {s : SentinelConn} (h : V.retries w c = some s) :
    w.conn (V.slot c) = some (.sentinel s) ∧ V.failedOver w c = true := by
  unfold Setting.retries at h
  split at h
  · rename_i s' hconn
    split_ifs at h with hfailed
    cases h
    exact ⟨hconn, hfailed⟩
  · cases h

theorem failedOver_cases {c : κ} (h : V.failedOver w c = true) :
    (∃ g entry, w.phase c = .sent [g] ∧ entry ∈ w.lines.gone (V.slot c, g) ∧ entry.1 = (c, 0) ∧
      failover entry.2 = true) ∨ ∃ g, w.phase c = .timedOut [g] := by
  unfold Setting.failedOver at h
  split at h
  · rename_i g hphase
    obtain ⟨entry, hmem, hentry⟩ := List.any_eq_true.1 h
    rw [Bool.and_eq_true, decide_eq_true_iff] at hentry
    exact .inl ⟨g, entry, hphase, hmem, hentry⟩
  · rename_i g hphase
    exact .inr ⟨g, hphase⟩
  · cases h

theorem Inv.retries_once (hinv : Inv V w) {c : κ} {s : SentinelConn} (h : V.retries w c = some s) :
    V.Sentinel ∧ ∃ g, (w.phase c).lines = [g] := by
  obtain ⟨hconn, hfailed⟩ := retries_some h
  refine ⟨Setting.sentinel_of_fits (hinv.fits hconn), ?_⟩
  rcases failedOver_cases hfailed with ⟨g, _, hphase, -⟩ | ⟨g, hphase⟩
  · exact ⟨g, by rw [hphase]; rfl⟩
  · exact ⟨g, by rw [hphase]; rfl⟩

/-- the call does not wait for an answer -/
theorem Inv.retrying (hinv : Inv V w) {c : κ} {s : SentinelConn} (h : V.retries w c = some s) {p : Phase ν}
    (hp : p = .rediscovered (w.phase c).lines ∨ ∃ e, p = .failed e (w.phase c).lines) : CallInv V w.lines c p := by
  obtain ⟨hsentinel, g, hone⟩ := hinv.retries_once h
  have hfailed := (retries_some h).2
  have hcall := hinv.call c
  have hplines : p.lines = (w.phase c).lines := by
    rcases hp with rfl | ⟨e, rfl⟩
    · rfl
    · rfl
  refine ⟨fun g m => by rw [hplines]; exact hcall.line g m, ?_, fun hstandard => ?_, fun lines hlines => ?_,
    fun _ => by rw [hplines, hone]; simp, ?_, fun hcluster hblocking _ => ?_, fun hcluster hblocking g' m hm => ?_⟩
  · rcases hp with rfl | ⟨e, rfl⟩
    · nofun
    · nofun
  · exact absurd hstandard (Setting.not_standard hsentinel)
  · have hl : lines = (w.phase c).lines := by rw [← hplines, hlines]; rfl
    exact ⟨hsentinel, by rw [hl, hone]; rfl⟩
  · rcases hp with rfl | ⟨e, rfl⟩
    · nofun
    · nofun
  · rcases failedOver_cases hfailed with ⟨g, entry, -, hmem, hentry⟩ | ⟨g, hphase⟩
    · exact ⟨_, entry, hmem, hentry⟩
    · have hfree := hcall.timed _ hphase hcluster
      rw [hblocking] at hfree
      cases hfree
  · exfalso
    obtain ⟨lines, hsent, hlength⟩ := hcall.last hcluster hblocking g' m hm
    rcases failedOver_cases hfailed with ⟨g, entry, hphase, hmem, hentry, -⟩ | ⟨g, hphase⟩
    · cases hsent.symm.trans hphase
      cases m with
      | zero => exact hinv.not_pending (List.mem_map.2 ⟨entry, hmem, hentry⟩) hm
      | succ m => simp at hlength
    · cases hsent.symm.trans hphase

end Retries

theorem ready_of_maySend (hinv : Inv V w) {c : κ} (hmay : V.MaySend w c) : Ready V (w.phase c) := by
  rcases hmay with ⟨hphase, -⟩ | ⟨hphase, -⟩ | hlines | ⟨-, urls, tlsOpts, hconn⟩
  · exact .inr (.inl (by simp [hphase, Phase.lines]))
  · exact .inr (.inl (by simp [hphase, Phase.lines]))
  · exact .inr (.inr hlines)
  · exact .inl (Setting.clustered_of_fits (hinv.fits hconn))

/-- a call that has sent nothing -/
theorem CallInv.unsent {s : Multiplex.State (Slot × ν) (κ × ℕ) Value σ} {c : κ} {p p' : Phase ν} (h : CallInv V s c p)
    (hp : p.lines = []) (hp' : p'.lines = []) (hcalling : p' = .waiting → V.isBlocking c = true)
    (hrediscovered : ∀ lines, p' ≠ .rediscovered lines) (htimed : ∀ lines, p' ≠ .timedOut lines) :
    CallInv V s c p' := by
  have hline : ∀ g m, (c, m) ∉ s.line g := fun g m hmem => by
    have hattempt := ((h.line g m).1 hmem).2
    rw [hp] at hattempt
    cases hattempt
  refine ⟨fun g m => ?_, hcalling, fun _ => .inl hp', fun lines h => absurd h (hrediscovered lines),
    fun _ => by simp [hp'], fun lines h => absurd h (htimed lines), fun _ _ hagain => ?_,
    fun _ _ g m hm => absurd (List.mem_append_right _ hm) (hline g m)⟩
  · simp [hline, hp']
  · rcases hagain with ⟨lines, hlines⟩ | htwo
    · exact absurd hlines (hrediscovered lines)
    · simp [hp'] at htwo

/-- a call of a blocking command has no time-out, but on a cluster -/
theorem Inv.givesUp (hinv : Inv V w) {c : κ} {lines : List ν} (hphase : w.phase c = .sent lines)
    (htimeout : (V.responseTimeout w (V.slot c)).isSome = true) : CallInv V w.lines c (.timedOut lines) := by
  have hcall := hinv.call c
  rw [hphase] at hcall
  have hfree : ¬ V.Clustered → V.isBlocking c = false := by
    intro hcluster
    by_contra hblocking
    have hslot : V.slot c = .blocking := if_pos (by simpa using hblocking)
    rw [hslot] at htimeout
    cases hconn : w.cell with
    | none => simp [Setting.responseTimeout, World.conn, hconn] at htimeout
    | some conn =>
      obtain ⟨made, met, ⟨net, hbuilt⟩, rfl⟩ := hinv.connected .blocking conn hconn
      have hnone := (buildBlocking_timeout hbuilt met V.clusterTimeout).resolve_right hcluster
      simp [Setting.responseTimeout, World.conn, hconn, hnone] at htimeout
  refine ⟨hcall.line, nofun, hcall.standard, nofun, hcall.twice, fun _ _ => hfree, fun hcluster hblocking hagain => ?_,
    fun hcluster hblocking => ?_⟩
  · rcases hagain with ⟨_, ⟨⟩⟩ | htwo
    exact hcall.again hcluster hblocking (.inr htwo)
  · rw [hfree hcluster] at hblocking
    cases hblocking

/-- a connection is rediscovered -/
theorem Inv.moved (hinv : Inv V w) (slot : Slot) (s : SentinelConn) (hconn : w.conn slot = some (.sentinel s))
    (answers : ℕ → SentinelAnswer) (line : ν) :
    Inv V { w.setConn (.sentinel (s.rediscover answers).2) slot with
      current := Function.update w.current slot line } := by
  have hsentinel : V.Sentinel := Setting.sentinel_of_fits (hinv.fits hconn)
  obtain ⟨made, met, hmade, hmoved⟩ := hinv.connected slot _ hconn
  have hconnected : ∀ conn, some (.sentinel (s.rediscover answers).2) = some conn →
      ∃ made met, V.Built slot made ∧ conn = made.rediscovers met := by
    rintro conn ⟨⟩
    exact ⟨made, met ++ [answers], hmade, rediscovers_append hmoved answers⟩
  have hcurrent : V.Standard → Function.update w.current slot line = V.first :=
    fun h => absurd h (Setting.not_standard hsentinel)
  cases slot with
  | regular =>
    refine ⟨hinv.call, hinv.nodup, hinv.own, hinv.permit, hinv.alone, fun slot conn h => ?_, hinv.needed, hcurrent⟩
    cases slot with
    | regular => exact hconnected conn h
    | blocking => exact hinv.connected .blocking conn h
  | blocking =>
    refine ⟨hinv.call, hinv.nodup, hinv.own, hinv.permit, fun h => ?_, fun slot conn h => ?_, fun _ => ?_, hcurrent⟩
    · cases (hinv.alone h).symm.trans hconn
    · cases slot with
      | regular => exact hinv.connected .regular conn h
      | blocking => exact hconnected conn h
    · exact hinv.needed (Option.isSome_of_eq_some hconn)

section Decidable

variable [DecidableEq κ] [DecidableEq ν]

theorem inv_step (w : World ν κ σ) (e : Event ν κ σ) (hinv : Inv V w) : Inv V (V.step w e) := by
  have hmoves := step_cases V w e
  generalize V.step w e = w' at hmoves ⊢
  have hpermit : ∀ c p, w.phase c ≠ .dialing → ∀ d, w.dialing = some d →
      Function.update w.phase c p d = .dialing ∧ V.isBlocking d = true := by
    intro c p hc d hd
    obtain ⟨hdialing, hblocking⟩ := hinv.permit d hd
    have hne : d ≠ c := fun heq => hc (heq ▸ hdialing)
    exact ⟨(Function.update_of_ne hne _ _).trans hdialing, hblocking⟩
  have hretried : ∀ {c s}, V.retries w c = some s → w.phase c ≠ .dialing := by
    intro c s hretries hphase
    obtain ⟨-, g, hone⟩ := hinv.retries_once hretries
    rw [hphase] at hone
    cases hone
  cases hmoves with
  | waited c hphase hblocking =>
    have hlines : (w.phase c).lines = [] := by rw [hphase]; rfl
    exact hinv.phased ((hinv.call c).unsent hlines rfl (fun _ => hblocking) nofun nofun) hlines.symm
      (hpermit c _ (by simp [hphase])) hinv.alone
  | sent c node hmay =>
    refine hinv.sent node (ready_of_maySend hinv hmay) hinv.connected (fun h => .inr h) (fun d hd => ⟨?_, hd⟩)
      hinv.alone
    rintro rfl
    have hdialing := (hinv.permit d hd).1
    rcases hmay with ⟨hphase, -⟩ | ⟨hphase, -⟩ | ⟨lines, hphase⟩ | ⟨⟨lines, hphase⟩, -⟩
    · cases hdialing.symm.trans hphase
    · cases hdialing.symm.trans hphase
    · cases hdialing.symm.trans hphase
    · cases hdialing.symm.trans hphase
  | dialing c hphase hcell hfree =>
    have hlines : (w.phase c).lines = [] := by rw [hphase]; rfl
    refine hinv.phased ((hinv.call c).unsent hlines rfl nofun nofun nofun) hlines.symm (fun d hd => ?_)
      fun _ => hcell
    cases hd
    exact ⟨Function.update_self .., (hinv.call c).calling hphase⟩
  | connected c net node conn hc hbuilt =>
    obtain ⟨hphase, hblocking⟩ := hinv.permit c hc
    refine hinv.sent node (.inr (.inl (by simp [hphase, Phase.lines]))) (fun slot conn' hconn => ?_)
      (fun _ => .inl hblocking) nofun nofun
    cases slot with
    | regular => exact hinv.connected .regular conn' hconn
    | blocking =>
      cases hconn
      exact ⟨conn, [], ⟨net, hbuilt⟩, (rediscovers_nil conn).symm⟩
  | failed c e hc =>
    have hlines : (w.phase c).lines = [] := by rw [(hinv.permit c hc).1]; rfl
    exact hinv.phased ((hinv.call c).unsent hlines rfl nofun nofun nofun) hlines.symm nofun nofun
  | rediscovered c answers line s hretries =>
    have hphased := hinv.phased (hinv.retrying hretries (.inl rfl)) rfl (hpermit c _ (hretried hretries)) hinv.alone
    have hconn := (retries_some hretries).1
    generalize V.slot c = slot at hconn ⊢
    cases slot with
    | regular => exact hphased.moved .regular s hconn answers line
    | blocking => exact hphased.moved .blocking s hconn answers line
  | lost c e s hretries =>
    exact hinv.phased (hinv.retrying hretries (.inr ⟨e, rfl⟩)) rfl (hpermit c _ (hretried hretries)) hinv.alone
  | timedOut c lines hphase htimeout =>
    have hlines : (w.phase c).lines = lines := by rw [hphase]; rfl
    exact hinv.phased (hinv.givesUp hphase htimeout) hlines.symm (hpermit c _ (by simp [hphase])) hinv.alone
  | lines e he => exact hinv.lines he
  | still => exact hinv

end Decidable

/-! ## Runs of the lines -/

section Runs

variable [DecidableEq ν]

/-- a turn of the line -/
def Event.isTurn (g : Slot × ν) : Event ν κ σ → Bool
  | .serve g' => decide (g' = g)
  | _ => false

/-- what an event is to the lines -/
inductive Shows : Event ν κ σ → List (Multiplex.Event (Slot × ν) (κ × ℕ) σ) → Prop
  | serve (g : Slot × ν) : Shows (.serve g) [.serve g]
  | lapse (g : Slot × ν) : Shows (.lapse g) [.lapse g]
  | drop (g : Slot × ν) (ran : ℕ) : Shows (.drop g ran) [.drop g ran]
  | write (f : σ → σ) : Shows (.write f) [.write f]
  | sent (e : Event ν κ σ) (g : Slot × ν) (a : κ × ℕ) (hturn : ∀ g, e.isTurn g = false) : Shows e [.send g a]
  | nothing (e : Event ν κ σ) (hturn : ∀ g, e.isTurn g = false) : Shows e []

theorem Shows.turns {e : Event ν κ σ} {es : List (Multiplex.Event (Slot × ν) (κ × ℕ) σ)} (h : Shows e es)
    (g : Slot × ν) : es.countP (Multiplex.Event.isTurn g) = if e.isTurn g then 1 else 0 := by
  cases h with
  | serve g' => simp [Event.isTurn, Multiplex.Event.isTurn]
  | sent e g' a hturn => simp [hturn g, Multiplex.Event.isTurn]
  | nothing e hturn => simp [hturn g]
  | _ => rfl

variable [DecidableEq κ]

theorem lines_step (w : World ν κ σ) (e : Event ν κ σ) : ∃ es, Shows e es ∧
    (V.step w e).lines = run (Multiplex.step V.service.toService fun a => V.request a.1) w.lines es := by
  have hsend : ∀ (w' : World ν κ σ) c node, w'.lines = w.lines → (∀ g, e.isTurn g = false) → ∃ es, Shows e es ∧
      (V.send w' c node).lines = run (Multiplex.step V.service.toService fun a => V.request a.1) w.lines es := by
    intro w' c node hw' hturn
    exact ⟨_, .sent e (V.slot c, w'.target (V.slot c) node) (c, (w'.phase c).lines.length) hturn, by rw [← hw']; rfl⟩
  have hnothing : ∀ w' : World ν κ σ, w'.lines = w.lines → (∀ g, e.isTurn g = false) → ∃ es, Shows e es ∧
      w'.lines = run (Multiplex.step V.service.toService fun a => V.request a.1) w.lines es :=
    fun w' hw' hturn => ⟨[], .nothing e hturn, hw'⟩
  cases e with
  | begin c node =>
    simp only [Setting.step]
    split
    · split_ifs
      · exact hnothing _ rfl fun _ => rfl
      · exact hsend w c node rfl fun _ => rfl
    · exact hnothing w rfl fun _ => rfl
  | enter c node =>
    simp only [Setting.step]
    split
    · split_ifs
      · exact hsend w c node rfl fun _ => rfl
      · exact hnothing w rfl fun _ => rfl
      · exact hnothing _ rfl fun _ => rfl
    · exact hnothing w rfl fun _ => rfl
  | dialed c net node =>
    simp only [Setting.step]
    split_ifs
    · split
      · exact hsend _ c node rfl fun _ => rfl
      · exact hnothing _ rfl fun _ => rfl
    · exact hnothing w rfl fun _ => rfl
  | rediscover c answers line =>
    simp only [Setting.step]
    split
    · exact hnothing w rfl fun _ => rfl
    · split
      · exact hnothing _ (World.setConn_lines ..) fun _ => rfl
      · exact hnothing _ rfl fun _ => rfl
  | resend c node =>
    simp only [Setting.step]
    split
    · exact hsend w c node rfl fun _ => rfl
    · exact hsend w c node rfl fun _ => rfl
    · exact hnothing w rfl fun _ => rfl
  | serve g => exact ⟨_, .serve g, rfl⟩
  | lapse g => exact ⟨_, .lapse g, rfl⟩
  | drop g ran => exact ⟨_, .drop g ran, rfl⟩
  | write f => exact ⟨_, .write f, rfl⟩
  | timeout c =>
    simp only [Setting.step]
    split
    · split_ifs
      · exact hnothing _ rfl fun _ => rfl
      · exact hnothing w rfl fun _ => rfl
    · exact hnothing w rfl fun _ => rfl

/-- the lines run as lines, with the turns they are given, and under the discipline that the run is under -/
theorem lines_run {Q : World ν κ σ → Event ν κ σ → Prop}
    {P : Multiplex.State (Slot × ν) (κ × ℕ) Value σ → Multiplex.Event (Slot × ν) (κ × ℕ) σ → Prop}
    (hPQ : ∀ w e es, Q w e → Shows e es → ∀ e' ∈ es, P w.lines e') {l : List (Event ν κ σ)} (hl : Along V.step Q w l) :
    ∃ es, (run V.step w l).lines = run (Multiplex.step V.service.toService fun a => V.request a.1) w.lines es ∧
      (∀ g, es.countP (Multiplex.Event.isTurn g) = l.countP (Event.isTurn g)) ∧
      Along (Multiplex.step V.service.toService fun a => V.request a.1) P w.lines es := by
  induction l generalizing w with
  | nil => exact ⟨[], rfl, fun _ => rfl, trivial⟩
  | cons e l ih =>
    obtain ⟨es, hshows, hlines⟩ := lines_step (V := V) w e
    obtain ⟨rest, hrun, hturns, halong⟩ := ih hl.2
    refine ⟨es ++ rest, ?_, fun g => ?_, along_append.2 ⟨?_, hlines ▸ halong⟩⟩
    · rw [run_cons, hrun, hlines, run_append]
    · rw [List.countP_append, hshows.turns, hturns, List.countP_cons, Nat.add_comm]
    · have hP := hPQ w e es hl.1 hshows
      cases hshows with
      | nothing => trivial
      | _ => exact ⟨hP _ List.mem_cons_self, trivial⟩

end Runs

/-! ## What the calls come to -/

section Outcomes

variable [DecidableEq κ]

/-- the call rediscovers, or has done so -/
def Setting.Rediscovers (V : Setting ν κ σ) (w : World ν κ σ) (c : κ) : Prop :=
  (V.retries w c).isSome = true ∨ ∃ lines, w.phase c = .rediscovered lines

/-- the last attempt of a call is over, and so is the call -/
theorem Inv.settled (hinv : Inv V w) {g : Slot × ν} {c : κ} {m : ℕ} (hgone : (c, m) ∈ (w.lines.gone g).map Prod.fst)
    (hlast : (w.phase c).lines.length = m + 1) : (V.outcome w c).isSome = true ∨ V.Rediscovers w c := by
  obtain ⟨hslot, hnode⟩ := ((hinv.call c).line g m).1 (List.mem_append_left _ hgone)
  cases hretries : V.retries w c with
  | some s => exact .inr (.inl (by simp [hretries]))
  | none =>
    cases hphase : w.phase c with
    | sent lines =>
      rw [hphase, Phase.sent_lines] at hnode hlast
      have hg : lines.getLast? = some g.2 := by rw [List.getLast?_eq_getElem?, hlast]; exact hnode
      have hline : (V.slot c, g.2) = g := Prod.ext hslot.symm rfl
      obtain ⟨entry, hentry, hc⟩ := List.mem_map.1 hgone
      refine .inl ?_
      simp only [Setting.outcome, hretries, hphase, hg, Option.bind_some, hline, Option.isSome_map, List.find?_isSome]
      exact ⟨entry, hentry, decide_eq_true (by rw [hc, hlast]; rfl)⟩
    | rediscovered lines => exact .inr (.inr ⟨lines, hphase⟩)
    | failed e lines => exact .inl (by simp [Setting.outcome, hretries, hphase])
    | timedOut lines => exact .inl (by simp [Setting.outcome, hretries, hphase])
    | _ =>
      rw [hphase] at hlast
      cases hlast

/-- a call whose last attempt waits has come to nothing -/
theorem Inv.unanswered (hinv : Inv V w) {g : Slot × ν} {c : κ} {m : ℕ} (hpending : (c, m) ∈ w.lines.pending g)
    (hblocking : V.isBlocking c = true) (hcluster : ¬ V.Clustered) : V.outcome w c = none := by
  obtain ⟨lines, hphase, hlast⟩ := (hinv.call c).last hcluster hblocking g m hpending
  have hnone : ∀ line, ((w.lines.gone (V.slot c, line)).find? fun entry =>
      decide (entry.1 = (c, lines.length - 1))) = none := by
    intro line
    refine List.find?_eq_none.2 fun entry hentry hc => hinv.not_pending (List.mem_map.2 ⟨entry, hentry, ?_⟩) hpending
    rw [decide_eq_true_iff] at hc
    rw [hc, hlast, Nat.add_sub_cancel]
  unfold Setting.outcome
  cases hretries : V.retries w c with
  | some s => rfl
  | none =>
    cases hline : lines.getLast? with
    | none => simp [hphase, hline]
    | some line => simp [hphase, hline, hnone line]

theorem Inv.value_own (hinv : Inv V w) {c : κ} {v : Value} (hout : V.outcome w c = some (.value v)) :
    V.service.Answers (V.request c) v := by
  unfold Setting.outcome at hout
  split at hout
  · rename_i lines _ _
    obtain ⟨line, -, hline⟩ := Option.bind_eq_some_iff.1 hout
    obtain ⟨⟨a, b⟩, hfind, hentry⟩ := Option.map_eq_some_iff.1 hline
    have ha : a = (c, lines.length - 1) := by simpa using List.find?_some hfind
    subst ha
    split at hentry
    · rename_i v' hb
      cases hentry
      cases hb
      exact hinv.own _ _ v (List.mem_of_find?_eq_some hfind)
    · cases hentry
  · cases hout
  · cases hout
  · cases hout

theorem Inv.patient (hinv : Inv V w) {c : κ} (hblocking : V.isBlocking c = true)
    (hout : V.outcome w c = some .timedOut) : V.Clustered := by
  by_contra hcluster
  unfold Setting.outcome at hout
  split at hout
  · obtain ⟨line, -, hline⟩ := Option.bind_eq_some_iff.1 hout
    obtain ⟨entry, -, hentry⟩ := Option.map_eq_some_iff.1 hline
    split at hentry
    · cases hentry
    · cases hentry
  · cases hout
  · rename_i lines _ hphase
    have hfree := (hinv.call c).timed lines hphase hcluster
    rw [hblocking] at hfree
    cases hfree
  · cases hout

theorem Inv.rediscovers (hinv : Inv V w) {c : κ} (h : V.Rediscovers w c) :
    V.Sentinel ∧ (w.phase c).lines.length = 1 := by
  rcases h with hretries | ⟨lines, hphase⟩
  · obtain ⟨s, hs⟩ := Option.isSome_iff_exists.1 hretries
    obtain ⟨hsentinel, g, hone⟩ := hinv.retries_once hs
    exact ⟨hsentinel, by rw [hone]; rfl⟩
  · rw [hphase]
    exact (hinv.call c).rediscovered lines hphase

end Outcomes

/-! ## Apart -/

section Apart

variable [DecidableEq κ] [DecidableEq ν]

/-- the attempt is held, its time is not over, and its line not lost -/
def Setting.Held (V : Setting ν κ σ) (g : Slot × ν) (a : κ × ℕ) (w : World ν κ σ) (e : Event ν κ σ) : Prop :=
  V.service.answer w.lines.store (V.request a.1) = none ∧ e ≠ .lapse g ∧ ∀ ran, e ≠ .drop g ran

structure Apart (V : Setting ν κ σ) (w : World ν κ σ) : Prop where
  /-- the regular connection is that of the constructor, and the blocking one is one of `build_blocking`, both after
  rediscoveries -/
  made : ∀ slot conn, w.conn slot = some conn → ∃ made met, V.Built slot made ∧ conn = made.rediscovers met
  /-- a call of a blocking command has used it -/
  needed : w.cell.isSome = true → ∃ c g m, V.isBlocking c = true ∧ (c, m) ∈ w.lines.line g
  /-- nobody makes a second one, and it stays -/
  alone : w.dialing.isSome = true → w.cell = none
  once : ∀ conn, w.cell = some conn → ∀ more, ∃ met, (run V.step w more).cell = some (conn.rediscovers met)
  /-- an attempt is on the connection of its command -/
  routed : ∀ g c m, (c, m) ∈ w.lines.line g → (V.isBlocking c = true ↔ g.1 = .blocking)
  /-- on one line of it, and once -/
  single : ∀ g g' a, a ∈ w.lines.line g → a ∈ w.lines.line g' → g = g'
  nodup : ∀ g, (w.lines.line g).Nodup
  /-- a client of one server sends once, and on one line; one of sentinels twice at most -/
  attempts : ∀ g c m, (c, m) ∈ w.lines.line g →
    (V.Standard → m = 0 ∧ g.2 = V.first g.1) ∧ (V.Sentinel → m ≤ 1)
  /-- and a call of a blocking command only after an error of the failover class, or a lost connection -/
  again : ∀ g c, (c, 1) ∈ w.lines.line g → V.Sentinel → V.isBlocking c = true →
    ∃ g' entry, entry ∈ w.lines.gone g' ∧ entry.1 = (c, 0) ∧ failover entry.2 = true
  /-- nobody overtakes on a line -/
  ordered : ∀ g more, w.lines.line g <+: (run V.step w more).lines.line g
  /-- a value is an answer to the call's own request -/
  own : ∀ c v, V.outcome w c = some (.value v) → V.service.Answers (V.request c) v
  /-- no turn of a regular line goes to waiting, but for WAIT and WAITAOF -/
  prompt : ∀ g a n, g.1 = .regular → (w.lines.pending g)[n]? = some a →
    (∀ k ∈ (w.lines.pending g).take (n + 1), waits (V.request k.1).command = false) →
    ∀ more : List (Event ν κ σ), n + 1 ≤ more.countP (Event.isTurn g) →
      a ∈ ((run V.step w more).lines.gone g).map Prod.fst
  /-- with its last attempt a call is over, unless a client of sentinels sends it once more -/
  settled : ∀ g c m, (c, m) ∈ (w.lines.gone g).map Prod.fst → (w.phase c).lines.length = m + 1 →
    (V.outcome w c).isSome = true ∨ V.Sentinel ∧ m = 0 ∧ V.Rediscovers w c
  /-- a call of a blocking command is given up on a cluster only -/
  patient : ∀ c, V.isBlocking c = true → V.outcome w c = some .timedOut → V.Clustered
  /-- and waits for the one before it on its line, whatever it asks for -/
  behind : ∀ g a rest, w.lines.pending g = a :: rest → ∀ more, Along V.step (V.Held g a) w more →
    ∀ k ∈ rest, k ∈ (run V.step w more).lines.pending g ∧
      (V.isBlocking k.1 = true → ¬ V.Clustered → V.outcome (run V.step w more) k.1 = none)

theorem cell_step (w : World ν κ σ) (e : Event ν κ σ) (hinv : Inv V w) {conn : ValkeyConnInner}
    {met : List (ℕ → SentinelAnswer)} (h : w.cell = some (conn.rediscovers met)) :
    ∃ met, (V.step w e).cell = some (conn.rediscovers met) := by
  have hmoves := step_cases V w e
  generalize V.step w e = w' at hmoves ⊢
  cases hmoves with
  | connected c net node conn' hpermit _ =>
    rw [hinv.alone (by simp [hpermit])] at h
    cases h
  | rediscovered c answers line s hretries =>
    have hconn := (retries_some hretries).1
    generalize V.slot c = slot at hconn ⊢
    cases slot with
    | regular => exact ⟨met, h⟩
    | blocking =>
      have hs : .sentinel s = conn.rediscovers met := Option.some.inj (hconn.symm.trans h)
      exact ⟨met ++ [answers], congrArg some (rediscovers_append hs answers)⟩
  | _ => exact ⟨met, h⟩

theorem line_grows (w : World ν κ σ) (e : Event ν κ σ) (g : Slot × ν) :
    w.lines.line g <+: (V.step w e).lines.line g := by
  obtain ⟨es, -, hlines⟩ := lines_step (V := V) w e
  rw [hlines, Multiplex.sent_run]
  exact List.prefix_append ..

theorem Inv.prompt (hinv : Inv V w) {g : Slot × ν} {a : κ × ℕ} {n : ℕ} (hg : g.1 = .regular)
    (hplace : (w.lines.pending g)[n]? = some a)
    (hwaits : ∀ k ∈ (w.lines.pending g).take (n + 1), waits (V.request k.1).command = false)
    {more : List (Event ν κ σ)} (hturns : n + 1 ≤ more.countP (Event.isTurn g)) :
    a ∈ ((run V.step w more).lines.gone g).map Prod.fst := by
  have hprompt : ∀ k ∈ (w.lines.pending g).take (n + 1),
      Multiplex.Prompt V.service.toService (V.request k.1) := by
    rintro ⟨c, m⟩ hk
    have hslot := (((hinv.call c).line g m).1 (List.mem_append_right _ (List.mem_of_mem_take hk))).1
    have hregular : V.isBlocking c = false := by
      by_contra hblocking
      rw [hg, Setting.slot, if_pos (by simpa using hblocking)] at hslot
      cases hslot
    refine V.service.prompt _ ?_
    rw [Setting.isBlocking, blocking_eq, hwaits _ hk] at hregular
    simpa using hregular
  obtain ⟨es, hlines, hcount, -⟩ := lines_run (V := V) (w := w) (P := fun _ _ => True) (fun _ _ _ _ _ _ _ => trivial)
    (along_true V.step w more)
  rw [← hcount] at hturns
  rw [hlines]
  exact Multiplex.ended_of_turns (S := V.service.toService) hplace hprompt hturns

theorem pending_behind {g : Slot × ν} {a : κ × ℕ} {rest : List (κ × ℕ)} (hhead : w.lines.pending g = a :: rest)
    {more : List (Event ν κ σ)} (hheld : Along V.step (V.Held g a) w more) {k : κ × ℕ} (hk : k ∈ rest) :
    k ∈ (run V.step w more).lines.pending g := by
  have hshown : ∀ (w : World ν κ σ) e es, V.Held g a w e → Shows e es → ∀ e' ∈ es,
      V.service.answer w.lines.store (V.request a.1) = none ∧ e' ≠ .lapse g ∧ ∀ ran, e' ≠ .drop g ran := by
    rintro w e es ⟨hnone, hlapse, hdrop⟩ hshows e' he'
    cases hshows with
    | lapse g' =>
      cases List.mem_singleton.1 he'
      refine ⟨hnone, fun heq => hlapse ?_, by simp⟩
      cases heq
      rfl
    | drop g' ran =>
      cases List.mem_singleton.1 he'
      refine ⟨hnone, by simp, fun ran' heq => hdrop ran' ?_⟩
      cases heq
      rfl
    | nothing => cases he'
    | _ =>
      cases List.mem_singleton.1 he'
      exact ⟨hnone, by simp, by simp⟩
  obtain ⟨es, hlines, -, halong⟩ := lines_run
    (P := fun s e => V.service.answer s.store (V.request a.1) = none ∧ e ≠ .lapse g ∧ ∀ ran, e ≠ .drop g ran)
    hshown hheld
  obtain ⟨⟨added, hpending⟩, -⟩ := Multiplex.waits_of_held hhead halong
  rw [hlines, hpending]
  exact List.mem_append_left _ (List.mem_cons_of_mem a hk)

/-- **Two connections.** In every run of the calls of a client. -/
theorem connections_apart (V : Setting ν κ σ) (store : σ) (l : List (Event ν κ σ)) :
    Apart V (run V.step (V.start store) l) := by
  have hinv : Inv V (run V.step (V.start store) l) := run_invariant' inv_step l (inv_start store)
  generalize run V.step (V.start store) l = w at hinv
  have hattempt : ∀ g c m, (c, m) ∈ w.lines.line g → g.1 = V.slot c ∧ (w.phase c).lines[m]? = some g.2 :=
    fun g c m => ((hinv.call c).line g m).1
  refine ⟨hinv.connected, fun hcell => ?_, hinv.alone, fun conn hcell more => ?_, fun g c m hmem => ?_,
    fun g g' a hmem hmem' => ?_, hinv.nodup, fun g c m hmem => ?_, fun g c hmem hsentinel hblocking => ?_,
    fun g more => ?_, fun c v hout => hinv.value_own hout,
    fun g a n hg hplace hwaits more hturns => hinv.prompt hg hplace hwaits hturns, fun g c m hgone hlast => ?_,
    fun c hblocking hout => hinv.patient hblocking hout, fun g a rest hhead more hheld k hk => ?_⟩
  · obtain ⟨c, hblocking, hlines⟩ := hinv.needed hcell
    obtain ⟨line, rest, hcons⟩ := List.exists_cons_of_ne_nil hlines
    exact ⟨c, (V.slot c, line), 0, hblocking, ((hinv.call c).line _ 0).2 ⟨rfl, by rw [hcons]; rfl⟩⟩
  · have hboth := run_invariant' (I := fun w => Inv V w ∧ ∃ met, w.cell = some (conn.rediscovers met))
      (fun w e h => ⟨inv_step w e h.1, h.2.elim fun met hmet => cell_step w e h.1 hmet⟩) more
      ⟨hinv, [], by rw [hcell, rediscovers_nil]⟩
    exact hboth.2
  · rw [(hattempt g c m hmem).1, Setting.slot]
    split_ifs with hblocking
    · simp [hblocking]
    · simp [hblocking]
  · obtain ⟨c, m⟩ := a
    obtain ⟨hslot, hline⟩ := hattempt g c m hmem
    obtain ⟨hslot', hline'⟩ := hattempt g' c m hmem'
    exact Prod.ext (hslot.trans hslot'.symm) (Option.some.inj (hline.symm.trans hline'))
  · obtain ⟨hslot, hline⟩ := hattempt g c m hmem
    have hlt : m < (w.phase c).lines.length := (List.getElem?_eq_some_iff.1 hline).1
    refine ⟨fun hstandard => ?_, fun hsentinel => ?_⟩
    · rcases (hinv.call c).standard hstandard with hnone | hone
      · rw [hnone] at hlt
        cases hlt
      · rw [hone] at hlt hline
        obtain rfl : m = 0 := by simpa using hlt
        exact ⟨rfl, by rw [hslot]; exact (Option.some.inj hline).symm⟩
    · have htwo := (hinv.call c).twice (Setting.not_clustered (.inr hsentinel))
      omega
  · have hcluster := Setting.not_clustered (.inr hsentinel)
    have hlt : 1 < (w.phase c).lines.length := (List.getElem?_eq_some_iff.1 (hattempt g c 1 hmem).2).1
    have htwo := (hinv.call c).twice hcluster
    exact (hinv.call c).again hcluster hblocking (.inr (by omega))
  · exact run_invariant' (I := fun w' => w.lines.line g <+: w'.lines.line g)
      (fun w' e h => h.trans (line_grows w' e g)) more List.prefix_rfl
  · refine (hinv.settled hgone hlast).imp_right fun h => ?_
    obtain ⟨hsentinel, hone⟩ := hinv.rediscovers h
    exact ⟨hsentinel, by omega, h⟩
  · have hpending := pending_behind hhead hheld hk
    exact ⟨hpending, fun hblocking hcluster => (run_invariant' inv_step more hinv).unanswered hpending hblocking hcluster⟩

end Apart

/-! ## A pop behind a pop -/

/-- lists of one element, which is their key; a pop takes it, or waits for it without end -/
def popService : RedisService (List Bytes) where
  answer store q :=
    if mayHold q.command then
      match q.args.find? (· ∈ store) with
      | some key => some (.array [.bulkString key, .bulkString key], store.erase key)
      | none => none
    else some (.okay, store)
  lapse _ := none
  prompt q hq store := by simp [hq]

/-- BLPOP a and BLPOP b on one client -/
def pops (S : Std) : Setting Unit Bool (List Bytes) where
  std := S
  conn :=
    ⟨.standard ⟨urlWithResp3 "redis://h", none, connManagerConfig none⟩, .standard (urlWithResp3 "redis://h") none⟩
  made := ⟨openNet, .standard "redis://h" none none, rfl⟩
  service := popService
  request first := ⟨.lists .blpop, [asBytes (if first then "a" else "b")]⟩
  first _ := ()
  clusterTimeout := none

def twoPops : List (Event Unit Bool (List Bytes)) :=
  [.begin true (), .enter true (), .dialed true openNet (), .begin false (), .enter false ()]

/-- the second has its element from the start, and comes to nothing as long as nobody pushes to the first -/
theorem pop_behind_pop (S : Std) :
    let w := run (pops S).step ((pops S).start [asBytes "b"]) twoPops
    ((pops S).service.answer w.lines.store ((pops S).request false)).isSome = true ∧
      ∀ more, Along (pops S).step ((pops S).Held (.blocking, ()) (true, 0)) w more →
        (pops S).outcome (run (pops S).step w more) false = none := by
  intro w
  have hinv : Inv (pops S) w := run_invariant' inv_step twoPops (inv_start _)
  refine ⟨rfl, fun more hheld => ?_⟩
  have hhead : w.lines.pending (.blocking, ()) = (true, 0) :: [(false, 0)] := rfl
  have hpending := pending_behind hhead hheld List.mem_cons_self
  refine (run_invariant' inv_step more hinv).unanswered hpending rfl ?_
  rintro ⟨urls, tlsOpts, hcluster⟩
  cases hcluster

end RedisRsPy.Connection.Blocking
