/-
String and key commands (`commands/strings.rs`).

A command carries the arguments that its checks and conversions read. All of them agree on both clients (`agrees`).
-/
import RedisRsPy.Commands.Shapes

namespace RedisRsPy.Commands.Strings

/-! ## Arguments -/

structure SetOptions where
  ex : Option ℕ
  px : Option ℕ
  nx : Bool
  xx : Bool
  keepttl : Bool
  get : Bool
  exat : Option Int
  pxat : Option Int

structure GetexOptions where
  ex : Option ℕ
  px : Option ℕ
  exat : Option Int
  pxat : Option Int
  persist : Bool

/-- how many of the expiry options are set -/
def ttlSet (ex px : Option ℕ) (exat pxat : Option Int) : ℕ :=
  [ex.isSome, px.isSome, exat.isSome, pxat.isSome].count true

/-- `validate_set_kwargs` -/
def validateSetKwargs (o : SetOptions) : Arg := do
  if o.nx && o.xx then throw (dataError "nx and xx options are mutually exclusive")
  let ttlSet := ttlSet o.ex o.px o.exat o.pxat
  if ttlSet > 1 then throw (dataError "only one of ex, px, exat, pxat may be set")
  if o.keepttl && ttlSet > 0 then throw (dataError "keepttl is mutually exclusive with ex/px/exat/pxat")

/-- the checks of `getex` -/
def validateGetex (o : GetexOptions) : Arg := do
  let ttlSet := ttlSet o.ex o.px o.exat o.pxat
  if ttlSet > 1 then throw (dataError "only one of ex, px, exat, pxat may be set")
  if o.persist && ttlSet > 0 then throw (dataError "persist is mutually exclusive with ex/px/exat/pxat")

/-- `validate_expire_flags` -/
def validateExpireFlags (f : ExpireFlags) : Arg :=
  if f.count > 1 then throw (dataError "at most one of nx, xx, gt, lt may be set on EXPIRE-family commands") else return

/-! ## Conversions -/

/-- `set_value_to_py` -/
def setValueToPy (v : Value) (get : Bool) : PyObj :=
  match v with
  | .okay => .bool true
  | .simpleString s => if s = "OK" then .bool true else if get then .none else .bool true
  | .nil => .none
  | .bulkString b => .bytes b
  | _ => if get then .none else .bool true

/-- the match in the task of `AsyncRedis::set` -/
def setValueToRaw (v : Value) (get : Bool) : RawResult :=
  match v with
  | .okay => .bool true
  | .simpleString s => if s = "OK" then .bool true else if get then .nil else .bool true
  | .nil => .nil
  | .bulkString b => .optBytes (some b)
  | _ => if get then .nil else .bool true

/-! ## Commands -/

inductive Cmd where
  | get
  | set (opts : SetOptions)
  | delete (keys : List String)
  | ping (message : Option String)
  | getex (opts : GetexOptions)
  | getdel
  | getrange
  | setrange
  | strlen
  | append
  | mget (keys : List KeyArg)
  | mset (mapping : List (String × Bytes))
  | msetnx (mapping : List (String × Bytes))
  | incr
  | incrby
  | incrbyfloat
  | decr
  | decrby
  | exists (names : List String)
  | unlink (names : List String)
  | expire (flags : ExpireFlags)
  | pexpire (flags : ExpireFlags)
  | expireat (flags : ExpireFlags)
  | pexpireat (flags : ExpireFlags)
  | ttl
  | pttl
  | expiretime
  | pexpiretime
  | persist
  | rename
  | renamenx
  | type_
  | keyType
  | copy
  | dump
  | restore

variable (S : Std)

def set (opts : SetOptions) : Row :=
  (parses id (fun v => .ok (setValueToPy v opts.get)) (setValueToRaw · opts.get)).checked (validateSetKwargs opts)

def ping : Option String → Row
  | none => undecoded (reads S .string (fun s => .bool (s == "PONG")) fun s => .bool (s == "PONG"))
  | some _ => bytes S

/-- the EXPIRE commands -/
def expire (flags : ExpireFlags) : Row := (bool S).checked (validateExpireFlags flags)

/-- `ValkeyConnInner::mget` sends nothing for no keys -/
def mget (keys : List KeyArg) : Row :=
  ((optBytesList S).onNone (noKeys keys) (.list []) (.optBytesList [])).checked (do let _ ← flattenKeys keys)

def row : Cmd → Row
  | .get => optBytes S
  | .set opts => set opts
  | .delete keys => (int S).onEmpty keys.isEmpty (.int 0) (.int 0)
  | .ping message => ping S message
  | .getex opts => (optBytes S).checked (validateGetex opts)
  | .getdel => optBytes S
  | .getrange => bytes S
  | .setrange => int S
  | .strlen => int S
  | .append => int S
  | .mget keys => mget S keys
  | .mset mapping => (unit S).onNone mapping.isEmpty .none .nil
  | .msetnx mapping => (flagOfInt S).onNone mapping.isEmpty (.bool true) (.bool true)
  | .incr => int S
  | .incrby => int S
  | .incrbyfloat => float S
  | .decr => int S
  | .decrby => int S
  | .exists names => (int S).onEmpty names.isEmpty (.int 0) (.int 0)
  | .unlink names => (int S).onEmpty names.isEmpty (.int 0) (.int 0)
  | .expire flags => expire S flags
  | .pexpire flags => expire S flags
  | .expireat flags => expire S flags
  | .pexpireat flags => expire S flags
  | .ttl => int S
  | .pttl => int S
  | .expiretime => int S
  | .pexpiretime => int S
  | .persist => bool S
  | .rename => unit S
  | .renamenx => flagOfInt S
  | .type_ => str S
  | .keyType => str S
  | .copy => flagOfInt S
  | .dump => optBytes S
  | .restore => undecoded (reads S .unit (fun _ => .bool true) fun _ => .bool true)

/-! ## Agreement -/

variable {S}

theorem setValueToRaw_intoPy (v : Value) (get : Bool) : (setValueToRaw v get).intoPy S = .ok (setValueToPy v get) := by
  unfold setValueToRaw setValueToPy
  split
  · rfl
  · split_ifs <;> rfl
  · rfl
  · rfl
  · split_ifs <;> rfl

theorem agrees_ping (message : Option String) : (ping S message).Agrees S := by
  cases message with
  | none => exact agrees_undecoded_of_plain (agrees_reads fun _ => rfl) fun _ => rfl
  | some _ => exact agrees_bytes

/-- **String commands agree.** -/
theorem agrees (c : Cmd) : (row S c).Agrees S := by
  cases c with
  | set opts => exact (agrees_parses fun v => setValueToRaw_intoPy v opts.get).checked _
  | delete keys => exact agrees_int.onEmpty rfl _ rfl rfl
  | ping message => exact agrees_ping message
  | getex opts => exact agrees_optBytes.checked _
  | mget keys => exact (agrees_optBytesList.onNone rfl rfl rfl _ rfl rfl).checked _
  | mset mapping => exact agrees_unit.onNone rfl rfl rfl _ rfl rfl
  | msetnx mapping => exact agrees_flagOfInt.onNone rfl rfl rfl _ rfl rfl
  | «exists» names => exact agrees_int.onEmpty rfl _ rfl rfl
  | unlink names => exact agrees_int.onEmpty rfl _ rfl rfl
  | expire flags | pexpire flags | expireat flags | pexpireat flags => exact agrees_bool.checked _
  | get | getdel | dump => exact agrees_optBytes
  | getrange => exact agrees_bytes
  | setrange | strlen | append | incr | incrby | decr | decrby | ttl | pttl | expiretime | pexpiretime =>
    exact agrees_int
  | incrbyfloat => exact agrees_float
  | persist => exact agrees_bool
  | renamenx | copy => exact agrees_flagOfInt
  | rename => exact agrees_unit
  | type_ | keyType => exact agrees_str
  | restore => exact agrees_undecoded_of_plain (agrees_reads fun _ => rfl) fun _ => rfl

end RedisRsPy.Commands.Strings
