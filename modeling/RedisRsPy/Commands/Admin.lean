/-
Administration commands (`commands/admin.rs`).

Four of them differ (`same_iff`): SCAN is a tuple on one client and a list on the other, BGSAVE and BGREWRITEAOF give the
status of the server on one and None on the other, and the sync WAITAOF does not decode. `select` exists on `Redis` only
and never asks the server; `await_` exists on `AsyncRedis` only and is `wait`.
-/
import RedisRsPy.Commands.Shapes

namespace RedisRsPy.Commands.Admin

/-! ## Arguments -/

/-- the first argument of `config_set`: a name, or a mapping or sequence of names and values -/
inductive ConfigArg where
  | name
  | pairs (entries : List Arg)

/-- `config_set_extract_pairs` -/
def configSetExtractPairs (nameOrMapping : ConfigArg) (val : Option String) : Arg :=
  match nameOrMapping, val with
  | .name, none => throw (dataError "config_set(name, value) requires a value when name is a string")
  | .name, some _ => return
  | .pairs entries, _ => extractAll entries

/-- `validate_on_off_mode` -/
def validateOnOffMode (mode : String) : Arg :=
  match mode.toUpper with
  | "ON" => return
  | "OFF" => return
  | _ => throw (dataError ("mode must be ON or OFF, got " ++ mode))

/-! ## Commands -/

/-- the commands of both clients -/
inductive Cmd where
  | scan
  | keys
  | randomkey
  | dbsize
  | flushdb
  | flushall
  | info
  | configGet
  | configSet (nameOrMapping : ConfigArg) (val : Option String)
  | configResetstat
  | configRewrite
  | clientId
  | clientGetname
  | clientSetname
  | clientInfo
  | clientList
  | clientKill
  | clientPause
  | clientUnpause
  | clientNoEvict (mode : String)
  | clientNoTouch (mode : String)
  | objectEncoding
  | objectIdletime
  | objectFreq
  | objectRefcount
  | objectHelp
  | memoryUsage
  | echo (message : Arg)
  | wait
  | waitaof
  | time
  | lastsave
  | bgsave
  | bgrewriteaof
  | debugSleep

variable (S : Std)

/-- what `Redis::scan` makes of the cursor and the keys -/
def scanPy (cursorAndKeys : ℕ × List Bytes) : PyObj :=
  .tuple [.int cursorAndKeys.1, bytesListPy cursorAndKeys.2]

/-- what `AsyncRedis::scan` makes of them -/
def scanRaw (cursorAndKeys : ℕ × List Bytes) : RawResult :=
  .value (.array [.int (asI64 cursorAndKeys.1), .array (cursorAndKeys.2.map .bulkString)])

def scan : Row := parses parseScanReply (fun cursorAndKeys => .ok (scanPy cursorAndKeys)) scanRaw

/-- BGSAVE and BGREWRITEAOF -/
def status : Row := reads S .string (fun s => .bytes (asBytes s)) fun _ => .nil

def waitaof : Row := undecoded (renders S id .value)

/-- INFO and CLIENT INFO -/
def text : Row := parses adminBytes (fun b => .ok (.bytes b)) fun b => .optBytes (some b)

def row : Cmd → Row
  | .scan => scan
  | .keys => bytesList S
  | .randomkey => optBytes S
  | .dbsize => int S
  | .flushdb => done
  | .flushall => done
  | .info => text
  | .configGet => renders S parseConfigGetReply .bytesPairs
  | .configSet nameOrMapping val => done.checked (configSetExtractPairs nameOrMapping val)
  | .configResetstat => done
  | .configRewrite => done
  | .clientId => int S
  | .clientGetname => optBytes S
  | .clientSetname => done
  | .clientInfo => text
  | .clientList => renders S (fun v => parseClientListReply (adminBytes v)) .bytesPairsList
  | .clientKill => int S
  | .clientPause => done
  | .clientUnpause => done
  | .clientNoEvict mode => done.checked (validateOnOffMode mode)
  | .clientNoTouch mode => done.checked (validateOnOffMode mode)
  | .objectEncoding => optBytes S
  | .objectIdletime => optInt S
  | .objectFreq => optInt S
  | .objectRefcount => optInt S
  | .objectHelp => renders S parseHelpReply .bytesList
  | .memoryUsage => optInt S
  | .echo message => (bytes S).checked message
  | .wait => int S
  | .waitaof => waitaof S
  | .time => undecoded (parses parseTimeReply (fun ab => .ok (optPy intPairPy ab)) .intPair)
  | .lastsave => int S
  | .bgsave => status S
  | .bgrewriteaof => status S
  | .debugSleep => done

/-! ## Methods of one client only -/

/-- `AsyncRedis::wait_alias` -/
def awaitAlias : Row := row S .wait

/-- `Redis::select`: `connected` is the index in the URL of the client -/
def select (dbIndex connected : ℕ) : Row :=
  { int S with
    syncSteps := [
      .check (if dbIndex = connected then .ok () else .error (.builtin .NotImplementedError
        ("SELECT to a different db is not supported under the multiplexed connection model (connected to db "
          ++ toString connected ++ ", requested " ++ toString dbIndex
          ++ "). Construct a new Redis with the desired db in the URL instead."))),
      .ret true (.bool true)] }

/-! ## Agreement -/

variable {S}

theorem agrees_text : text.Agrees S := agrees_parses fun _ => rfl

/-- the command is none of those on which the clients differ -/
def shared : Cmd → Bool
  | .scan | .waitaof | .bgsave | .bgrewriteaof => false
  | _ => true

theorem agrees {c : Cmd} (hc : shared c = true) : (row S c).Agrees S := by
  cases c with
  | keys => exact agrees_bytesList
  | randomkey | clientGetname | objectEncoding => exact agrees_optBytes
  | dbsize | clientId | clientKill | wait | lastsave => exact agrees_int
  | flushdb | flushall | configResetstat | configRewrite | clientSetname | clientPause | clientUnpause | debugSleep =>
    exact agrees_done
  | info | clientInfo => exact agrees_text
  | configGet | clientList | objectHelp => exact agrees_renders
  | configSet _ _ | clientNoEvict _ | clientNoTouch _ => exact agrees_done.checked _
  | objectIdletime | objectFreq | objectRefcount | memoryUsage => exact agrees_optInt
  | echo message => exact agrees_bytes.checked _
  | time => exact agrees_undecoded_of_plain (agrees_parses fun _ => rfl) fun _ => rfl
  | scan | waitaof | bgsave | bgrewriteaof => exact nomatch hc

/-! ## Where the clients differ -/

theorem redisValuesToPy_bulkStrings (items : List Bytes) :
    redisValuesToPy S (items.map .bulkString) = .ok (items.map .bytes) := by
  induction items with
  | nil => rfl
  | cons b rest ih =>
    rw [List.map_cons, redisValuesToPy, ih]
    rfl

theorem scanRaw_intoPy (cursor : ℕ) (keys : List Bytes) :
    (scanRaw (cursor, keys)).intoPy S = .ok (.list [.int (asI64 cursor), bytesListPy keys]) := by
  show redisValueToPy S (.array [.int (asI64 cursor), .array (keys.map .bulkString)]) = _
  simp only [redisValueToPy, redisValuesToPy, redisValuesToPy_bulkStrings]
  rfl

/-- the keys of a reply to SCAN cannot be decoded -/
def Undecodable (decode : Option Codec) (keys : List Bytes) : Prop :=
  ∃ codec e, decode = some codec ∧ decodeItems codec (keys.map .bytes) = .error e

/-- a tuple and a list are never one object; the clients meet where neither gets that far -/
theorem scan_convert_iff (decode : Option Codec) (v : Value) :
    SameOutcome (scan.syncObject decode v) (scan.awaited S decode (scan.async v)) ↔
      Undecodable decode (parseScanReply v).2 := by
  show SameOutcome (maybeDecode decode (scanPy (parseScanReply v)))
    ((scanRaw (parseScanReply v)).intoPy S >>= maybeDecode decode) ↔ _
  obtain ⟨cursor, keys⟩ := parseScanReply v
  rw [scanRaw_intoPy]
  cases decode with
  | none =>
    refine iff_of_false (fun h => ?_) fun ⟨_, _, h, _⟩ => (nomatch h)
    exact nomatch (h : PyObj.tuple _ = .list _)
  | some codec =>
    have hsync : decodeWalk codec (scanPy (cursor, keys)) =
        (decodeItems codec (keys.map .bytes)).map fun ks => .tuple [.int cursor, .list ks] := by
      simp only [scanPy, bytesListPy, listPy, decodeWalk, decodeItems]
      cases decodeItems codec (keys.map .bytes) <;> rfl
    have hasync : decodeWalk codec (.list [.int (asI64 cursor), bytesListPy keys]) =
        (decodeItems codec (keys.map .bytes)).map fun ks => .list [.int (asI64 cursor), .list ks] := by
      simp only [bytesListPy, listPy, decodeWalk, decodeItems]
      cases decodeItems codec (keys.map .bytes) <;> rfl
    show SameOutcome (decodeWalk codec _) (decodeWalk codec _) ↔ _
    rw [hsync, hasync]
    unfold Undecodable
    cases hkeys : decodeItems codec (keys.map .bytes) with
    | error e => exact iff_of_true rfl ⟨codec, e, rfl, hkeys⟩
    | ok ks =>
      refine iff_of_false (fun h => ?_) fun ⟨codec', e, hcodec, he⟩ => ?_
      · exact nomatch (h : PyObj.tuple _ = .list _)
      · cases hcodec
        exact nomatch hkeys.symm.trans he

theorem status_same_iff (decode : Option Codec) (server : Server) :
    SameOutcome ((status S).syncCall false decode server).result ((status S).asyncCall S false decode server).result ↔
      ∀ s, server.reply >>= S.fromRedisValue .string ≠ .ok s := by
  rw [Row.same_iff rfl rfl rfl rfl]
  refine forall_congr' fun s => imp_congr Iff.rfl (iff_false_intro fun h => ?_)
  have hsync : SameOutcome (maybeDecode decode (.bytes (asBytes s))) (maybeDecode decode .none) := h
  cases decode with
  | none =>
    have hnone : PyObj.bytes (asBytes s) = .none := hsync
    cases hnone
  | some codec =>
    cases hdecode : codec.decode (asBytes s) with
    | error e =>
      rw [maybeDecode, decodeWalk, hdecode] at hsync
      exact hsync
    | ok t =>
      rw [maybeDecode, decodeWalk, hdecode] at hsync
      have hnone : PyObj.str t = .none := hsync
      cases hnone

/-- what WAITAOF gives has nothing to decode, or nobody asks for it to be decoded -/
def WaitaofAlike (S : Std) (decode : Option Codec) (v : Value) : Prop :=
  ∀ o, redisValueToPy S v = .ok o → decode = none ∨ bytesFree o = true

theorem waitaof_convert_iff (decode : Option Codec) (v : Value) :
    SameOutcome ((waitaof S).syncObject decode v) ((waitaof S).awaited S decode ((waitaof S).async v)) ↔
      WaitaofAlike S decode v := by
  show SameOutcome (redisValueToPy S v >>= .ok) (redisValueToPy S v >>= maybeDecode decode) ↔ _
  unfold WaitaofAlike
  cases hv : redisValueToPy S v with
  | error e => exact iff_of_true rfl fun o ho => (nomatch ho)
  | ok o =>
    show SameOutcome (.ok o) (maybeDecode decode o) ↔ _
    rw [sameOutcome_comm, sameOutcome_maybeDecode_iff (wellKeyed_redisValueToPy S hv)]
    refine ⟨fun h o' ho' => ?_, fun h => h o rfl⟩
    cases ho'
    exact h

/-- when an administration command gives the same on both clients -/
def Alike (S : Std) (decode : Option Codec) (server : Server) : Cmd → Prop
  | .scan => ∀ v, server.reply = .ok v → Undecodable decode (parseScanReply v).2
  | .bgsave => ∀ s, server.reply >>= S.fromRedisValue .string ≠ .ok s
  | .bgrewriteaof => ∀ s, server.reply >>= S.fromRedisValue .string ≠ .ok s
  | .waitaof => ∀ v, server.reply = .ok v → WaitaofAlike S decode v
  | _ => True

theorem same_iff (c : Cmd) (decode : Option Codec) (server : Server) :
    SameOutcome ((row S c).syncCall false decode server).result ((row S c).asyncCall S false decode server).result ↔
      Alike S decode server c := by
  by_cases hc : shared c = true
  · have htrue : Alike S decode server c ↔ True := by cases c <;> first | exact Iff.rfl | exact nomatch hc
    rw [htrue, (agrees hc).same decode server]
    exact iff_true_intro (sameOutcome_of_eq rfl)
  cases c with
  | scan =>
    show SameOutcome (scan.syncCall false decode server).result (scan.asyncCall S false decode server).result ↔ _
    rw [Row.same_iff rfl rfl rfl rfl]
    exact forall_congr' fun v => imp_congr Row.fetched_value_iff (scan_convert_iff decode v)
  | waitaof =>
    show SameOutcome ((waitaof S).syncCall false decode server).result
      ((waitaof S).asyncCall S false decode server).result ↔ _
    rw [Row.same_iff rfl rfl rfl rfl]
    exact forall_congr' fun v => imp_congr Row.fetched_value_iff (waitaof_convert_iff decode v)
  | bgsave | bgrewriteaof => exact status_same_iff decode server
  | _ => exact absurd rfl hc

end RedisRsPy.Commands.Admin
