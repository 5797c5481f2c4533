/-
What the commands read out of a server reply before it becomes a Python object: the parsers of `commands/hashes.rs`,
`sets.rs`, `zsets.rs`, `admin.rs` and `streams.rs`, and the calls of `connection.rs` that take a reply apart themselves.

`Std` is what the redis crate and the standard library do for them. A reply type of the crate is a code `Ty`, so that
`from_redis_value` is one function of `Std`.
-/
import RedisRsPy.Commands.Python

namespace RedisRsPy.Commands

/-! ## The crate and the standard library -/

/-- the types replies are read as -/
inductive Ty where
  | unit
  | bool
  | i64
  | f64
  | bytes
  | string
  | opt (t : Ty)
  | vec (t : Ty)
  | pair (a b : Ty)
  | triple (a b c : Ty)
deriving DecidableEq, Repr

abbrev Ty.denote : Ty → Type
  | .unit => Unit
  | .bool => Bool
  | .i64 => Int
  | .f64 => UInt64
  | .bytes => Bytes
  | .string => String
  | .opt t => Option t.denote
  | .vec t => List t.denote
  | .pair a b => a.denote × b.denote
  | .triple a b c => a.denote × b.denote × c.denote

structure Std where
  /-- `redis::from_redis_value` -/
  fromRedisValue : (t : Ty) → Value → RedisResult t.denote
  /-- `str::from_utf8` and `str::parse::<f64>` -/
  parseF64 : Bytes → Option UInt64
  /-- `as f64` -/
  ofInt : Int → UInt64
  /-- `String::from_utf8_lossy` -/
  fromUtf8Lossy : Bytes → String
  /-- `format!` with `:?` -/
  debug : Value → String

variable (S : Std)

/-- `str::parse` on the digits of an unsigned number, without a bound -/
def parseDigits : Bytes → Option ℕ
  | [] => none
  | b :: rest =>
    (b :: rest).foldl
      (fun n d => n.bind fun n => if 48 ≤ d ∧ d ≤ 57 then some (10 * n + (d.toNat - 48)) else none) (some 0)

/-- `str::from_utf8` and `str::parse::<u64>` -/
def parseU64 (b : Bytes) : Option ℕ :=
  let digits := match b with
    | 43 :: rest => rest
    | b => b
  (parseDigits digits).filter (· < 2 ^ 64)

/-- `str::from_utf8` and `str::parse::<i64>` -/
def parseI64 (b : Bytes) : Option Int :=
  match b with
  | 45 :: rest => ((parseDigits rest).filter (· ≤ 2 ^ 63)).map fun n => -(n : Int)
  | 43 :: rest => ((parseDigits rest).filter (· < 2 ^ 63)).map fun n => (n : Int)
  | b => ((parseDigits b).filter (· < 2 ^ 63)).map fun n => (n : Int)

/-- `as u64` -/
def asU64 (n : Int) : ℕ := (n % 2 ^ 64).toNat

/-- `as i64` -/
def asI64 (n : ℕ) : Int := if n < 2 ^ 63 then n else (n : Int) - 2 ^ 64

/-- two by two, as the loops over flat replies take the items; an odd one is dropped -/
def pairUp {α : Type} : List α → List (α × α)
  | a :: b :: rest => (a, b) :: pairUp rest
  | _ => []

/-! ## Calls that take the reply apart -/

/-- the reply of LMPOP and BLMPOP -/
def lmpop (v : Value) : RedisResult (Option (String × List Bytes)) :=
  match v with
  | .nil => .ok none
  | .array [keyVal, elementsVal] => do
    let key ← S.fromRedisValue .string keyVal
    let elements ← S.fromRedisValue (.vec .bytes) elementsVal
    return some (key, elements)
  | _ => .ok none

/-- `bpop_inner` -/
def bpopInner (v : Value) : RedisResult (Option (String × Bytes)) :=
  match v with
  | .nil => .ok none
  | .array [keyVal, valueVal] => do
    let key ← S.fromRedisValue .string keyVal
    let value ← S.fromRedisValue .bytes valueVal
    return some (key, value)
  | _ => .ok none

/-- one field and its value -/
def fieldAndValue (kv : Value × Value) : RedisResult (Bytes × Bytes) := do
  let field ← S.fromRedisValue .bytes kv.1
  let value ← S.fromRedisValue .bytes kv.2
  return (field, value)

def hgetall (v : Value) : RedisResult (List (Bytes × Bytes)) :=
  match v with
  | .map pairs => pairs.mapM (fieldAndValue S)
  | .array items => (pairUp items).mapM (fieldAndValue S)
  | .nil => .ok []
  | other => S.fromRedisValue (.vec (.pair .bytes .bytes)) other

/-- `hset_nx` and `hexists` -/
def isOne (v : Value) : RedisResult Bool := do
  let n ← S.fromRedisValue .i64 v
  return n == 1

/-! ## Scans -/

def shapeError (cls : ExceptionClass) (msg : String) : Exn := .driver ⟨cls, msg⟩

/-- the cursor of HSCAN, SSCAN and ZSCAN -/
def scanCursor : Value → ℕ
  | .bulkString b => (parseU64 b).getD 0
  | .int n => asU64 n
  | _ => 0

/-- `split_scan_reply` -/
def splitScanReply (v : Value) : Except Exn (ℕ × Value) :=
  match v with
  | .array [cursorV, payload] => .ok (scanCursor cursorV, payload)
  | _ => .error (shapeError .DataError "HSCAN reply did not match the [cursor, items] shape")

def bulk? : Value → Option Bytes
  | .bulkString b => some b
  | _ => none

/-- `parse_sscan_reply` -/
def parseSscanReply (v : Value) : Except Exn (ℕ × List Bytes) :=
  match v with
  | .array [cursorV, payload] =>
    .ok (scanCursor cursorV, match payload with
      | .array items => items.filterMap bulk?
      | _ => [])
  | _ => .error (.builtin .ValueError "SSCAN reply did not match the [cursor, members] shape")

/-- `parse_score` -/
def parseScore : Value → UInt64
  | .double f => f
  | .bulkString b => (S.parseF64 b).getD 0
  | .int n => S.ofInt n
  | _ => 0

/-- `parse_zscan_reply` -/
def parseZscanReply (v : Value) : Except Exn (ℕ × List (Bytes × UInt64)) :=
  match v with
  | .array [cursorV, payload] =>
    .ok (scanCursor cursorV, match payload with
      | .array items => (pairUp items).filterMap fun ms => (bulk? ms.1).map fun m => (m, parseScore S ms.2)
      | _ => [])
  | _ => .error (shapeError .DataError "ZSCAN reply did not match the [cursor, items] shape")

/-- a bulk or a simple string -/
def text? : Value → Option Bytes
  | .bulkString b => some b
  | .simpleString s => some (asBytes s)
  | _ => none

/-- `parse_scan_reply` -/
def parseScanReply (v : Value) : ℕ × List Bytes :=
  match v with
  | .array [cursorV, keysV] =>
    (match cursorV with
      | .bulkString b => (parseU64 b).getD 0
      | .int n => n.toNat
      | .simpleString s => (parseU64 (asBytes s)).getD 0
      | _ => 0,
     match keysV with
      | .array items => items.filterMap text?
      | _ => [])
  | _ => (0, [])

/-! ## Sorted sets -/

/-- the score in the replies of ZRANK and ZMPOP -/
def scoreOf : Value → UInt64
  | .double f => f
  | .bulkString b => (S.parseF64 b).getD 0
  | _ => 0

/-- `parse_zmpop_value` -/
def parseZmpopValue (v : Value) : Option (String × List (Bytes × UInt64)) :=
  match v with
  | .array [keyV, .array pairs] =>
    let key := match keyV with
      | .bulkString b => some (S.fromUtf8Lossy b)
      | .simpleString s => some s
      | _ => none
    key.map fun key => (key, pairs.filterMap fun entry =>
      match entry with
      | .array [m, s] => (bulk? m).map fun m => (m, scoreOf S s)
      | _ => none)
  | _ => none

/-! ## Admin -/

/-- `value_to_bytes` of `admin.rs` -/
def adminBytes : Value → Bytes
  | .bulkString b => b
  | .simpleString s => asBytes s
  | .verbatimString text => asBytes text
  | _ => []

/-- `parse_config_get_reply` -/
def parseConfigGetReply (v : Value) : List (Bytes × Bytes) :=
  let texts : Value × Value → Option (Bytes × Bytes) := fun kv => (text? kv.1).bind fun k => (text? kv.2).map fun v => (k, v)
  match v with
  | .map pairs => pairs.filterMap texts
  | .array flat => (pairUp flat).filterMap texts
  | _ => []

/-- `key=value` -/
def splitAtEq (pair : Bytes) : Option (Bytes × Bytes) :=
  if 61 ∈ pair then some (pair.takeWhile (· != 61), (pair.dropWhile (· != 61)).drop 1) else none

/-- `parse_client_list_reply` -/
def parseClientListReply (text : Bytes) : List (List (Bytes × Bytes)) :=
  (text.splitOn 10).filterMap fun line =>
    let row := (line.splitOn 32).filterMap splitAtEq
    if row.isEmpty then none else some row

/-- the lines of a text that are not empty -/
def lines (text : Bytes) : List Bytes := (text.splitOn 10).filter fun line => !line.isEmpty

/-- `parse_help_reply` -/
def parseHelpReply (v : Value) : List Bytes :=
  match v with
  | .array items => items.filterMap fun item =>
    match item with
    | .verbatimString text => some (asBytes text)
    | item => text? item
  | .bulkString b => lines b
  | .simpleString s => lines (asBytes s)
  | .verbatimString text => lines (asBytes text)
  | _ => []

/-- a number of TIME -/
def timePart : Value → Option Int
  | .bulkString b => parseI64 b
  | .simpleString s => parseI64 (asBytes s)
  | .int n => some n
  | _ => none

/-- `parse_time_reply` -/
def parseTimeReply (v : Value) : Option (Int × Int) :=
  match v with
  | .array [secs, usecs] => (timePart secs).bind fun secs => (timePart usecs).map fun usecs => (secs, usecs)
  | _ => none

/-! ## Streams -/

abbrev Fields := List (Bytes × Bytes)

/-- an entry: its id and its fields -/
abbrev Entry := Bytes × Fields

/-- `value_to_bytes` of `streams.rs` -/
def streamBytes? : Value → Option Bytes
  | .bulkString b => some b
  | .simpleString s => some (asBytes s)
  | .verbatimString text => some (asBytes text)
  | .int n => some (asBytes (toString n))
  | .bigNumber n => some (asBytes (toString n))
  | _ => none

def fieldPair? (kv : Value × Value) : Option (Bytes × Bytes) :=
  (streamBytes? kv.1).bind fun k => (streamBytes? kv.2).map fun v => (k, v)

/-- one entry of `flatten_xrange_reply` -/
def entry? : Value → Option Entry
  | .array [idV, fieldsV] =>
    some ((streamBytes? idV).getD [], match fieldsV with
      | .array flat => (pairUp flat).filterMap fieldPair?
      | .map pairs => pairs.filterMap fieldPair?
      | _ => [])
  | _ => none

/-- `flatten_xrange_reply` -/
def flattenXrangeReply (v : Value) : List Entry :=
  match v with
  | .array items => items.filterMap entry?
  | .nil => []
  | other => [other].filterMap entry?

/-- `flatten_xread_reply` -/
def flattenXreadReply (v : Value) : List (Bytes × List Entry) :=
  match v with
  | .map pairs => pairs.filterMap fun kv => (streamBytes? kv.1).map fun key => (key, flattenXrangeReply kv.2)
  | .array streams => streams.filterMap fun stream =>
    match stream with
    | .array [k, v] => some ((streamBytes? k).getD [], flattenXrangeReply v)
    | _ => none
  | _ => []

/-- the number of messages a consumer has pending -/
def consumerCount : Value → Option Int
  | .int n => some n
  | .bulkString b => parseI64 b
  | .simpleString s => parseI64 (asBytes s)
  | _ => none

def intOrZero : Value → Int
  | .int n => n
  | _ => 0

/-- `flatten_xpending_summary` -/
def flattenXpendingSummary (v : Value) : Option (Int × Bytes × Bytes × List (Bytes × Int)) :=
  match v with
  | .array [countV, minV, maxV, consumersV] =>
    let count := intOrZero countV
    if count = 0 ∧ streamBytes? minV = none ∧ streamBytes? maxV = none then none
    else
      some (count, (streamBytes? minV).getD [], (streamBytes? maxV).getD [], match consumersV with
        | .array rows => rows.filterMap fun row =>
          match row with
          | .array [name, n] => (streamBytes? name).bind fun name => (consumerCount n).map fun n => (name, n)
          | _ => none
        | _ => [])
  | _ => none

/-- `flatten_xpending_range` -/
def flattenXpendingRange (v : Value) : List (Bytes × Bytes × Int × Int) :=
  match v with
  | .array rows => rows.filterMap fun row =>
    match row with
    | .array [idV, consumerV, idle, deliveries] =>
      (streamBytes? idV).bind fun id => (streamBytes? consumerV).map fun consumer =>
        (id, consumer, intOrZero idle, intOrZero deliveries)
    | _ => none
  | _ => []

/-- `map_pairs_from_value` -/
def mapPairsFromValue (v : Value) : List (Bytes × Value) :=
  let keyed : Value × Value → Option (Bytes × Value) := fun kv => (streamBytes? kv.1).map fun k => (k, kv.2)
  match v with
  | .map pairs => pairs.filterMap keyed
  | .array flat => (pairUp flat).filterMap keyed
  | _ => []

/-- `flatten_xinfo_list` -/
def flattenXinfoList (v : Value) : List (List (Bytes × Value)) :=
  match v with
  | .array rows => rows.map mapPairsFromValue
  | _ => []

/-- the ids of XCLAIM and XAUTOCLAIM with JUSTID -/
def justIds : Value → List Bytes
  | .array items => items.filterMap streamBytes?
  | _ => []

/-- `split_xautoclaim_reply` -/
def splitXautoclaimReply (v : Value) : Bytes × Value × List Bytes :=
  match v with
  | .array (nextId :: middle :: rest) => ((streamBytes? nextId).getD [], middle, (rest.head?.map justIds).getD [])
  | _ => ([], .nil, [])

end RedisRsPy.Commands
