/-
Commands of `RedisCluster` and `AsyncRedisCluster` (`facade/cluster.rs`).

Every method has a guard of its own, before its arguments are extracted. Most commands go to one node, and their methods
are rows of `Redis` and `AsyncRedis` once more; MGET, MSET, DELETE, EXISTS and UNLINK fan out. A method of `RedisCluster`
decodes where it ends in `maybe_decode`, and many do not; every method of `AsyncRedisCluster` ends in `maybe_wrap`.

Results: `quiet_of_keeps` and `leaks_of_not_keeps`, the methods that keep the setting of a client and those that do not.
-/
import RedisRsPy.Commands.Bytes

namespace RedisRsPy.Commands.Cluster

/-! ## Calls -/

/-- what the cluster answers: the node a command goes to, and the join loops of the fan-outs -/
structure Nodes where
  reply : RedisResult Value
  values : RedisResult (List (Option Bytes))
  count : RedisResult Int
  stored : RedisResult Unit

structure Call where
  T : Type
  check : Arg := return
  fetch : Nodes → RedisResult T
  object : T → PyRes
  decodes : Bool

/-- what a method gives, or what awaiting it gives -/
def Call.result (call : Call) (closed : Bool) (decode : Option Codec) (nodes : Nodes) : PyRes :=
  if closed then .error closedError
  else do
    call.check
    handle (call.fetch nodes) (fun e => .error (toPyErr e)) fun x => do
      let o ← call.object x
      if call.decodes then maybeDecode decode o else return o

/-- a command for one node, on `RedisCluster` -/
def routed (r : Row) : Call where
  T := r.T
  fetch nodes := nodes.reply >>= r.fetch
  object := r.sync
  decodes := r.decodes

/-- a command for one node, on `AsyncRedisCluster` -/
def spawned (S : Std) (r : Row) : Call where
  T := r.T
  fetch nodes := nodes.reply >>= r.fetch
  object x := (r.async x).intoPy S
  decodes := r.wraps

/-- `fanout_mget` -/
def fanoutMget (keys : List String) (decodes : Bool) : Call where
  T := List (Option Bytes)
  fetch nodes := if keys.isEmpty then .ok [] else nodes.values
  object items := .ok (listPy (optPy .bytes) items)
  decodes := decodes

/-- `fanout_del` and `fanout_exists` -/
def fanoutCount (keys : List String) (decodes : Bool) : Call where
  T := Int
  fetch nodes := if keys.isEmpty then .ok 0 else nodes.count
  object n := .ok (.int n)
  decodes := decodes

/-- `fanout_mset` -/
def fanoutMset (mapping : List Arg) (decodes : Bool) : Call where
  T := Unit
  check := extractAll mapping
  fetch nodes := if mapping.isEmpty then .ok () else nodes.stored
  object _ := .ok .none
  decodes := decodes

/-- ZADD asks nobody about an empty mapping -/
def zadd (S : Std) (mapping : List Arg) : Call where
  T := Int
  check := extractAll mapping
  fetch nodes := if mapping.isEmpty then .ok 0 else nodes.reply >>= S.fromRedisValue .i64
  object n := .ok (.int n)
  decodes := false

/-! ## Commands -/

/-- the commands of `RedisCluster` -/
inductive Cmd where
  | ping
  | get
  | set
  | delete (keys : List String)
  | exists (keys : List String)
  | unlink (keys : List String)
  | mget (keys : List String)
  | mset (mapping : List Arg)
  | incr
  | incrby
  | incrbyfloat
  | decr
  | decrby
  | strlen
  | getdel
  | append
  | ttl
  | pttl
  | expire
  | pexpire
  | persist
  | type_
  | rename
  | keys
  | hset
  | hget
  | hgetall
  | hkeys
  | hvals
  | hlen
  | hdel
  | hexists
  | hincrby
  | rpush
  | lpush
  | lrange
  | llen
  | lpop
  | rpop
  | sadd
  | srem
  | smembers
  | scard
  | sismember
  | zadd (mapping : List Arg)
  | zrange
  | zcard
  | zrem
  | zscore
  | publish
  | clusterInfo
  | clusterNodes
  | clusterSlots
  | clusterShards
  | clusterMyid
  | clusterKeyslot
  | clusterCountkeysinslot
  | clusterGetkeysinslot
  | clusterMeet
  | clusterForget
  | clusterReplicate
  | clusterReset
  | clusterCountFailureReports
  | clusterFailover
  | clusterReplicas
  | clusterSlaves
  | clusterLinks
  | clusterMyshardid

/-- the commands of `AsyncRedisCluster` -/
inductive AsyncCmd where
  | ping
  | get
  | set
  | delete (keys : List String)
  | exists (keys : List String)
  | mget (keys : List String)
  | mset (mapping : List Arg)
  | clusterInfo
  | clusterKeyslot

variable (S : Std)

def pong : Row := undecoded (reads S .string (fun s => .bool (s == "PONG")) fun s => .bool (s == "PONG"))

/-- CLUSTER MYID and CLUSTER MYSHARDID: a string, given as bytes -/
def nodeId : Row := undecoded (reads S .string (fun s => .bytes (asBytes s)) fun s => .optBytes (some (asBytes s)))

def Cmd.call : Cmd → Call
  | .ping => routed (pong S)
  | .get => routed (optBytes S)
  | .set => routed (value S)
  | .delete names => fanoutCount names false
  | .exists names => fanoutCount names false
  | .unlink names => fanoutCount names false
  | .mget names => fanoutMget names false
  | .mset mapping => fanoutMset mapping false
  | .incr => routed (int S)
  | .incrby => routed (int S)
  | .incrbyfloat => routed (float S)
  | .decr => routed (int S)
  | .decrby => routed (int S)
  | .strlen => routed (int S)
  | .getdel => routed (optBytes S)
  | .append => routed (int S)
  | .ttl => routed (int S)
  | .pttl => routed (int S)
  | .expire => routed (bool S)
  | .pexpire => routed (bool S)
  | .persist => routed (bool S)
  | .type_ => routed (str S)
  | .rename => routed (unit S)
  | .keys => routed (undecoded (bytesList S))
  | .hset => routed (int S)
  | .hget => routed (optBytes S)
  | .hgetall => routed (undecoded (fetches (Commands.hgetall S) bytesPairsPy .bytesPairs))
  | .hkeys => routed (undecoded (bytesList S))
  | .hvals => routed (undecoded (bytesList S))
  | .hlen => routed (int S)
  | .hdel => routed (int S)
  | .hexists => routed (flagOfInt S)
  | .hincrby => routed (int S)
  | .rpush => routed (int S)
  | .lpush => routed (int S)
  | .lrange => routed (undecoded (bytesList S))
  | .llen => routed (int S)
  | .lpop => routed (optBytes S)
  | .rpop => routed (optBytes S)
  | .sadd => routed (int S)
  | .srem => routed (int S)
  -- a list here
  | .smembers => routed (undecoded (bytesList S))
  | .scard => routed (int S)
  | .sismember => routed (bool S)
  | .zadd mapping => Cluster.zadd S mapping
  | .zrange => routed (undecoded (bytesList S))
  | .zcard => routed (int S)
  | .zrem => routed (int S)
  | .zscore => routed (optFloat S)
  | .publish => routed (int S)
  | .clusterInfo => routed (undecoded (bytes S))
  | .clusterNodes => routed (undecoded (bytes S))
  | .clusterSlots => routed (undecoded (value S))
  | .clusterShards => routed (undecoded (value S))
  | .clusterMyid => routed (nodeId S)
  | .clusterKeyslot => routed (int S)
  | .clusterCountkeysinslot => routed (int S)
  | .clusterGetkeysinslot => routed (undecoded (bytesList S))
  | .clusterMeet => routed (unit S)
  | .clusterForget => routed (unit S)
  | .clusterReplicate => routed (unit S)
  | .clusterReset => routed (unit S)
  | .clusterCountFailureReports => routed (int S)
  | .clusterFailover => routed (unit S)
  | .clusterReplicas => routed (undecoded (bytesList S))
  | .clusterSlaves => routed (undecoded (bytesList S))
  | .clusterLinks => routed (undecoded (value S))
  | .clusterMyshardid => routed (nodeId S)

def AsyncCmd.call : AsyncCmd → Call
  | .ping => spawned S (pong S)
  | .get => spawned S (optBytes S)
  | .set => spawned S (value S)
  | .delete names => fanoutCount names true
  | .exists names => fanoutCount names true
  | .mget names => fanoutMget names true
  | .mset mapping => fanoutMset mapping true
  | .clusterInfo => spawned S (bytes S)
  | .clusterKeyslot => spawned S (int S)

/-! ## Methods that keep the setting -/

/-- the method decodes, or there is nothing to decode in what it gives -/
def Cmd.keeps : Cmd → Bool
  | .keys | .hgetall | .hkeys | .hvals | .lrange | .smembers | .zrange => false
  | .clusterInfo | .clusterNodes | .clusterSlots | .clusterShards | .clusterMyid | .clusterGetkeysinslot | .clusterReplicas
  | .clusterSlaves | .clusterLinks | .clusterMyshardid => false
  | .mget names => names.isEmpty
  | _ => true

namespace Call

def Quiet (call : Call) : Prop := call.decodes = true ∨ ∀ nodes x, call.fetch nodes = .ok x → Settled (call.object x)

/-- from some cluster, bytes reach the caller -/
def Leaks (call : Call) : Prop :=
  call.check = .ok () ∧ call.decodes = false ∧
    ∃ nodes x o, call.fetch nodes = .ok x ∧ call.object x = .ok o ∧ bytesFree o = false

variable {call : Call}

theorem Quiet.uniform (h : call.Quiet) (codec : Codec) (closed : Bool) (nodes : Nodes) :
    Uniform codec (call.result closed (some codec) nodes) (call.result closed none nodes) := by
  unfold result
  cases closed with
  | true => exact uniform_of_eq rfl
  | false =>
    cases call.check with
    | error e => exact uniform_of_eq rfl
    | ok _ =>
      cases hfetch : call.fetch nodes with
      | error e => exact uniform_of_eq rfl
      | ok x =>
        refine uniform_of_eq ?_
        show (call.object x >>= fun o => if call.decodes then decodeWalk codec o else .ok o) =
          (call.object x >>= fun o => if call.decodes then .ok o else .ok o) >>= decodeWalk codec
        rcases h with hd | hsettled
        · rw [hd]
          cases call.object x <;> rfl
        · have hobj := hsettled nodes x hfetch
          cases hx : call.object x with
          | error e => rfl
          | ok o =>
            rw [hx] at hobj
            have hwalk : decodeWalk codec o = .ok o := hobj.decode codec
            show (if call.decodes then decodeWalk codec o else .ok o) = (if call.decodes then Except.ok o else .ok o) >>= _
            rw [hwalk, ite_self]
            exact hwalk.symm

theorem Leaks.shows (h : call.Leaks) :
    ∃ nodes o, bytesFree o = false ∧ ∀ decode, call.result false decode nodes = .ok o := by
  obtain ⟨hcheck, hd, nodes, x, o, hfetch, hobj, hbytes⟩ := h
  refine ⟨nodes, o, hbytes, fun decode => ?_⟩
  unfold result
  rw [hcheck, hfetch, hd]
  show (call.object x >>= fun o => .ok o) = .ok o
  rw [hobj]
  rfl

end Call

variable {S}

theorem quiet_routed {r : Row} (h : r.Agrees S) : (routed r).Quiet := by
  rcases h.decodes_or_free with hd | hfree
  · exact .inl hd
  · exact .inr fun _ x _ => hfree x

theorem leaks_routed {r : Row} (h : r.Holds) : (routed (undecoded r)).Leaks := by
  obtain ⟨reply, x, o, hfetch, hsync, hbytes⟩ := h
  exact ⟨rfl, rfl, ⟨.ok reply, .ok [], .ok 0, .ok ()⟩, x, o, hfetch, hsync, hbytes⟩

theorem quiet_fanoutCount (keys : List String) : (fanoutCount keys false).Quiet :=
  .inr fun _ _ _ => settled_ok rfl trivial

theorem agrees_pong : (pong S).Agrees S := Strings.agrees (.ping none)

theorem quiet_of_keeps {c : Cmd} (h : c.keeps = true) : (c.call S).Quiet := by
  cases c with
  | ping => exact quiet_routed agrees_pong
  | get | getdel | hget | lpop | rpop => exact quiet_routed agrees_optBytes
  | set => exact quiet_routed agrees_value
  | delete keys | «exists» keys | unlink keys => exact quiet_fanoutCount keys
  | mset mapping => exact .inr fun _ _ _ => settled_ok rfl trivial
  | zadd mapping => exact .inr fun _ _ _ => settled_ok rfl trivial
  | mget keys =>
    have hkeys : keys = [] := List.isEmpty_iff.1 h
    subst hkeys
    refine .inr fun nodes x hx => ?_
    cases hx
    exact settled_ok rfl trivial
  | incrbyfloat => exact quiet_routed agrees_float
  | expire | pexpire | persist | sismember => exact quiet_routed agrees_bool
  | type_ => exact quiet_routed agrees_str
  | rename | clusterMeet | clusterForget | clusterReplicate | clusterReset | clusterFailover =>
    exact quiet_routed agrees_unit
  | hexists => exact quiet_routed agrees_flagOfInt
  | zscore => exact quiet_routed agrees_optFloat
  | incr | incrby | decr | decrby | strlen | append | ttl | pttl | hset | hlen | hdel | hincrby | rpush | lpush | llen
  | sadd | srem | scard | zcard | zrem | publish | clusterKeyslot | clusterCountkeysinslot | clusterCountFailureReports =>
    exact quiet_routed agrees_int
  | keys | hgetall | hkeys | hvals | lrange | smembers | zrange => exact nomatch h
  | clusterInfo | clusterNodes | clusterSlots | clusterShards | clusterMyid | clusterGetkeysinslot | clusterReplicas
  | clusterSlaves | clusterLinks | clusterMyshardid => exact nomatch h

theorem leaks_of_not_keeps (hS : S.ReadsBytes) {c : Cmd} (h : c.keeps = false) : (c.call S).Leaks := by
  cases c with
  | keys | hkeys | hvals | lrange | smembers | zrange => exact leaks_routed (holds_bytesList hS)
  | clusterGetkeysinslot | clusterReplicas | clusterSlaves => exact leaks_routed (holds_bytesList hS)
  | hgetall => exact leaks_routed (holds_hgetall hS)
  | clusterInfo | clusterNodes => exact leaks_routed (holds_bytes hS)
  | clusterSlots | clusterShards | clusterLinks => exact leaks_routed holds_value
  | clusterMyid | clusterMyshardid => exact leaks_routed (holds_status hS)
  | mget keys =>
    -- the nodes have a value for every key
    refine ⟨rfl, rfl, ⟨.ok .nil, .ok (keys.map fun _ => some []), .ok 0, .ok ()⟩, keys.map fun _ => some [], _, ?_, rfl, ?_⟩
    · have hsome : keys.isEmpty = false := h
      show (if keys.isEmpty then (.ok [] : RedisResult (List (Option Bytes))) else _) = _
      rw [hsome]
      rfl
    · cases keys with
      | nil => exact nomatch h
      | cons key rest => exact rfl
  | _ => exact nomatch h

end RedisRsPy.Commands.Cluster
