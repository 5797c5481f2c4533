/-
`RawResult` and `into_py` (`async_bridge.rs`, `raw_result.rs`): what an async command sends from its task to Python, and
the objects both clients make out of replies (`helpers.rs`, `commands/hashes.rs`, `commands/zsets.rs`).

The variants are those that commands send. The helpers of the sync methods build the same objects as the arms of
`into_py`, so both are stated with one set of functions here; a command that converts in its own way keeps it in its
own module.

Results:
- `intoPy_classify`: the error an awaiting caller sees is the one a sync caller sees;
- `wellKeyed_intoPy`: every object made here is well keyed;
- `bytesFree_of_plain`: the variants of numbers, flags and strings never hold bytes.
-/
import RedisRsPy.Commands.Reply

namespace RedisRsPy.Commands

open Lib.Fallible

variable (S : Std)

/-! ## Building objects -/

/-- `py_opt_bytes`, and every other optional result: None, or the value -/
def optPy {α : Type} (f : α → PyObj) : Option α → PyObj
  | some a => f a
  | none => .none

/-- a Python list of converted items -/
def listPy {α : Type} (f : α → PyObj) (items : List α) : PyObj := .list (items.map f)

/-- `py_bytes_list` -/
def bytesListPy : List Bytes → PyObj := listPy .bytes

/-- `py_bytes_pairs` -/
def bytesPairsPy (pairs : List (Bytes × Bytes)) : PyObj :=
  mkDict (pairs.map fun kv => (.bytes kv.1, .bytes kv.2))

/-- `py_set_of_bytes` -/
def setOfBytesPy (items : List Bytes) : PyObj := .set (items.map .bytes)

def scoredPy (ms : Bytes × UInt64) : PyObj := .tuple [.bytes ms.1, .float ms.2]

/-- `render_scored_members` -/
def scoredMembersPy : List (Bytes × UInt64) → PyObj := listPy scoredPy

def keyAndBytesListPy (kv : String × List Bytes) : PyObj := .tuple [.str kv.1, bytesListPy kv.2]

def keyAndScoredMembersPy (kv : String × List (Bytes × UInt64)) : PyObj := .tuple [.str kv.1, scoredMembersPy kv.2]

def keyMemberScorePy (kms : Bytes × Bytes × UInt64) : PyObj := .tuple [.bytes kms.1, .bytes kms.2.1, .float kms.2.2]

def rankAndScorePy (rs : Int × UInt64) : PyObj := .tuple [.int rs.1, .float rs.2]

def intPairPy (ab : Int × Int) : PyObj := .tuple [.int ab.1, .int ab.2]

/-- an item of `build_stream_entries` -/
def entryPy (e : Entry) : PyObj := .tuple [.bytes e.1, bytesPairsPy e.2]

/-- `build_stream_entries` -/
def entriesPy : List Entry → PyObj := listPy entryPy

/-- one row of XPENDING with a range -/
def pendingRowPy (row : Bytes × Bytes × Int × Int) : PyObj :=
  mkDict [(.bytes (asBytes "message_id"), .bytes row.1), (.bytes (asBytes "consumer"), .bytes row.2.1),
    (.bytes (asBytes "time_since_delivered"), .int row.2.2.1), (.bytes (asBytes "times_delivered"), .int row.2.2.2)]

/-- a consumer and the number of messages pending for it -/
def consumerPy (nc : Bytes × Int) : PyObj := .tuple [.bytes nc.1, .int nc.2]

/-- the summary of XPENDING -/
def pendingSummaryPy : Option (Int × Bytes × Bytes × List (Bytes × Int)) → PyObj
  | some (count, minId, maxId, consumers) =>
    .tuple [.int count, .bytes minId, .bytes maxId, listPy consumerPy consumers]
  | none => .tuple [.int 0, .none, .none, .list []]

mutual

/-- `redis_value_to_py` -/
def redisValueToPy : Value → PyRes
  | .nil => .ok .none
  | .int n => .ok (.int n)
  | .bulkString b => .ok (.bytes b)
  | .simpleString s => .ok (.bytes (asBytes s))
  | .boolean b => .ok (.bool b)
  | .double bits => .ok (.float bits)
  | .okay => .ok (.bool true)
  | .array items | .set items | .push items => do
    let items ← redisValuesToPy items
    return .list items
  | .map pairs => do
    let items ← redisPairsToPy pairs
    return mkDict items
  | .attribute data => redisValueToPy data
  | .bigNumber n => .ok (.str (toString n))
  | .verbatimString text => .ok (.bytes (asBytes text))
  | .serverError e => .error (.builtin .RuntimeError (S.debug (.serverError e)))

def redisValuesToPy : List Value → Except Exn (List PyObj)
  | [] => .ok []
  | v :: rest => do
    let x ← redisValueToPy v
    let rest ← redisValuesToPy rest
    return x :: rest

def redisPairsToPy : List (Value × Value) → Except Exn (List (PyObj × PyObj))
  | [] => .ok []
  | (k, v) :: rest => do
    let k ← redisValueToPy k
    let v ← redisValueToPy v
    if hashable k then
      let rest ← redisPairsToPy rest
      return (k, v) :: rest
    else .error (.builtin .TypeError "unhashable type")

end

/-- a dict of XINFO -/
def infoPy (pairs : List (Bytes × Value)) : PyRes := do
  let items ← pairs.mapM fun kv => do
    let v ← redisValueToPy S kv.2
    return (PyObj.bytes kv.1, v)
  return mkDict items

def infoListPy (rows : List (List (Bytes × Value))) : PyRes := do
  let items ← rows.mapM (infoPy S)
  return .list items

/-! ## Replies rendered as they are -/

def bulkOrNone : Value → PyObj
  | .bulkString b => .bytes b
  | _ => .none

/-- `render_hscan` -/
def renderHscan (cursor : ℕ) (value : Value) (novalues : Bool) : PyObj :=
  let payload := match value with
    | .array items =>
      if novalues then listPy bulkOrNone items
      else mkDict ((pairUp items).map fun kv => (bulkOrNone kv.1, bulkOrNone kv.2))
    | _ => .list []
  .tuple [.int cursor, payload]

/-- the pairs of a reply with values or scores: nested ones where the first item is an array, flat ones otherwise -/
def renderPairs (f : Value × Value → PyObj) (items : List Value) : PyObj :=
  match items with
  | .array _ :: _ => .list (items.filterMap fun item =>
      match item with
      | .array [a, b] => some (f (a, b))
      | _ => none)
  | _ => .list ((pairUp items).map f)

/-- `render_hrandfield` -/
def renderHrandfield (value : Value) (count : Option Int) (withvalues : Bool) : PyObj :=
  match count, value with
  | none, .nil => .none
  | none, .bulkString b => .bytes b
  | some _, .array items =>
    if withvalues then renderPairs (fun fv => .tuple [bulkOrNone fv.1, bulkOrNone fv.2]) items
    else .list (items.map fun item =>
      match item with
      | .bulkString b => .bytes b
      | .nil => .none
      | other => .bytes (asBytes (S.debug other)))
  | _, .nil => .none
  | _, other => .str (S.debug other)

/-- `render_zrandmember` -/
def renderZrandmember (value : Value) (count : Option Int) (withscores : Bool) : PyObj :=
  match count, value with
  | none, .nil => .none
  | none, .bulkString b => .bytes b
  | some _, .array items =>
    if withscores then renderPairs (fun ms => .tuple [bulkOrNone ms.1, .float (parseScore S ms.2)]) items
    else listPy bulkOrNone items
  | _, .nil => .none
  | _, _ => .list []

/-! ## Raw results -/

inductive RawResult where
  | nil
  | optBytes (b : Option Bytes)
  | bool (b : Bool)
  | int (n : Int)
  | optInt (n : Option Int)
  | f64 (bits : UInt64)
  | optF64 (bits : Option UInt64)
  | str (s : String)
  | optStr (s : Option String)
  | optBytesList (items : List (Option Bytes))
  | bytesList (items : List Bytes)
  | bytesPairs (pairs : List (Bytes × Bytes))
  | scoredMembers (items : List (Bytes × UInt64))
  | optKeyAndBytesList (kv : Option (String × List Bytes))
  | optKeyAndBytes (kv : Option (String × Bytes))
  | intList (items : List Int)
  | hRandfield (value : Value) (count : Option Int) (withvalues : Bool)
  | hScan (cursor : ℕ) (value : Value) (novalues : Bool)
  | setOfBytes (items : List Bytes)
  | boolList (items : List Bool)
  | sScan (cursor : ℕ) (members : List Bytes)
  | optScore (bits : Option UInt64)
  | optRankAndScore (rs : Option (Int × UInt64))
  | optKeyAndScoredMembers (kv : Option (String × List (Bytes × UInt64)))
  | optKeyMemberScore (kms : Option (Bytes × Bytes × UInt64))
  | zRandmember (value : Value) (count : Option Int) (withscores : Bool)
  | zScan (cursor : ℕ) (items : List (Bytes × UInt64))
  | value (v : Value)
  | error (cls : ExceptionClass) (msg : String)
  | streamEntries (entries : List Entry)
  | streamReadEntries (streams : List (Bytes × List Entry))
  | streamPendingSummary (summary : Option (Int × Bytes × Bytes × List (Bytes × Int)))
  | streamPendingRange (rows : List (Bytes × Bytes × Int × Int))
  | streamClaim (entries : List Entry)
  | streamClaimJustIds (ids : List Bytes)
  | streamAutoclaim (nextId : Bytes) (entries : List Entry) (deleted : List Bytes)
  | streamAutoclaimJustIds (nextId : Bytes) (ids deleted : List Bytes)
  | streamInfoStream (pairs : List (Bytes × Value))
  | streamInfoGroups (rows : List (List (Bytes × Value)))
  | streamInfoConsumers (rows : List (List (Bytes × Value)))
  | intPair (ab : Option (Int × Int))
  | bytesPairsList (rows : List (List (Bytes × Bytes)))

/-- `classify` -/
def classify (e : RedisError) : RawResult := .error (classifyError e) e.text

/-- `RawResult::into_py` -/
def RawResult.intoPy : RawResult → PyRes
  | .nil => .ok .none
  | .optBytes b => .ok (optPy .bytes b)
  | .bool b => .ok (.bool b)
  | .int n => .ok (.int n)
  | .optInt n => .ok (optPy .int n)
  | .f64 bits => .ok (.float bits)
  | .optF64 bits => .ok (optPy .float bits)
  | .str s => .ok (.str s)
  | .optStr s => .ok (optPy .str s)
  | .optBytesList items => .ok (listPy (optPy .bytes) items)
  | .bytesList items => .ok (bytesListPy items)
  | .bytesPairs pairs => .ok (bytesPairsPy pairs)
  | .scoredMembers items => .ok (scoredMembersPy items)
  | .optKeyAndBytesList kv => .ok (optPy keyAndBytesListPy kv)
  -- the key, a string here, becomes bytes again
  | .optKeyAndBytes kv => .ok (optPy (fun kv => .tuple [.bytes (asBytes kv.1), .bytes kv.2]) kv)
  | .intList items => .ok (listPy .int items)
  | .hRandfield v count withvalues => .ok (renderHrandfield S v count withvalues)
  | .hScan cursor v novalues => .ok (renderHscan cursor v novalues)
  | .setOfBytes items => .ok (setOfBytesPy items)
  | .boolList items => .ok (listPy .bool items)
  | .sScan cursor members => .ok (.tuple [.int cursor, setOfBytesPy members])
  | .optScore bits => .ok (optPy .float bits)
  | .optRankAndScore rs => .ok (optPy rankAndScorePy rs)
  | .optKeyAndScoredMembers kv => .ok (optPy keyAndScoredMembersPy kv)
  | .optKeyMemberScore kms => .ok (optPy keyMemberScorePy kms)
  | .zRandmember v count withscores => .ok (renderZrandmember S v count withscores)
  | .zScan cursor items => .ok (.tuple [.int cursor, scoredMembersPy items])
  | .value v => redisValueToPy S v
  | .error cls msg => .error (.driver ⟨cls, msg⟩)
  | .streamEntries entries => .ok (entriesPy entries)
  | .streamReadEntries streams =>
    .ok (if streams.isEmpty then .none else mkDict (streams.map fun kv => (.bytes kv.1, entriesPy kv.2)))
  | .streamPendingSummary summary => .ok (pendingSummaryPy summary)
  | .streamPendingRange rows => .ok (listPy pendingRowPy rows)
  | .streamClaim entries => .ok (entriesPy entries)
  | .streamClaimJustIds ids => .ok (bytesListPy ids)
  | .streamAutoclaim nextId entries deleted => .ok (.tuple [.bytes nextId, entriesPy entries, bytesListPy deleted])
  | .streamAutoclaimJustIds nextId ids deleted => .ok (.tuple [.bytes nextId, bytesListPy ids, bytesListPy deleted])
  | .streamInfoStream pairs => infoPy S pairs
  | .streamInfoGroups rows => infoListPy S rows
  | .streamInfoConsumers rows => infoListPy S rows
  | .intPair ab => .ok (optPy intPairPy ab)
  | .bytesPairsList rows => .ok (listPy bytesPairsPy rows)

/-- **One classification.** The error an awaiting caller sees is the one a sync caller sees. -/
theorem intoPy_classify (e : RedisError) : (classify e).intoPy S = .error (toPyErr e) := rfl

/-! ## Well-keyed objects -/

theorem wellKeyed_optPy {α : Type} {f : α → PyObj} (hf : ∀ a, WellKeyed (f a)) (o : Option α) :
    WellKeyed (optPy f o) := by
  cases o with
  | none => trivial
  | some a => exact hf a

theorem wellKeyed_map {α : Type} {f : α → PyObj} (hf : ∀ a, WellKeyed (f a)) (items : List α) :
    WellKeyedItems (items.map f) := by
  refine wellKeyedItems_iff.2 fun x hx => ?_
  obtain ⟨a, -, rfl⟩ := List.mem_map.1 hx
  exact hf a

theorem wellKeyed_mkDict_map {α : Type} {f : α → PyObj × PyObj} (hf : ∀ a, WellKeyed (f a).1 ∧ WellKeyed (f a).2)
    (items : List α) : WellKeyed (mkDict (items.map f)) := by
  refine wellKeyed_mkDict fun kv hkv => ?_
  obtain ⟨a, -, rfl⟩ := List.mem_map.1 hkv
  exact hf a

theorem wellKeyed_bytesList (items : List Bytes) : WellKeyed (bytesListPy items) :=
  wellKeyed_map (f := .bytes) (fun _ => trivial) items

theorem wellKeyed_setOfBytes (items : List Bytes) : WellKeyed (setOfBytesPy items) :=
  wellKeyed_map (f := .bytes) (fun _ => trivial) items

theorem wellKeyed_scoredMembers (items : List (Bytes × UInt64)) : WellKeyed (scoredMembersPy items) :=
  wellKeyed_map (f := scoredPy) (fun _ => ⟨trivial, trivial, trivial⟩) items

theorem wellKeyed_bytesPairs (pairs : List (Bytes × Bytes)) : WellKeyed (bytesPairsPy pairs) :=
  wellKeyed_mkDict_map (f := fun kv : Bytes × Bytes => (.bytes kv.1, .bytes kv.2)) (fun _ => ⟨trivial, trivial⟩) pairs

theorem wellKeyed_entries (entries : List Entry) : WellKeyed (entriesPy entries) :=
  wellKeyed_map (f := entryPy) (fun e => ⟨trivial, wellKeyed_bytesPairs e.2, trivial⟩) entries

theorem wellKeyed_bulkOrNone (v : Value) : WellKeyed (bulkOrNone v) := by
  unfold bulkOrNone
  split <;> trivial

mutual

theorem wellKeyed_redisValueToPy : ∀ {v : Value} {x : PyObj}, redisValueToPy S v = .ok x → WellKeyed x
  | .nil, _, h | .int _, _, h | .bulkString _, _, h | .simpleString _, _, h | .boolean _, _, h | .double _, _, h
  | .okay, _, h | .bigNumber _, _, h | .verbatimString _, _, h => by
    cases h
    trivial
  | .serverError _, _, h => nomatch h
  | .attribute data, _, h => wellKeyed_redisValueToPy (v := data) h
  | .array items, _, h | .set items, _, h | .push items, _, h => by
    obtain ⟨l, hl, hx⟩ := bind_ok_iff.1 h
    cases hx
    exact wellKeyed_redisValuesToPy hl
  | .map pairs, _, h => by
    obtain ⟨l, hl, hx⟩ := bind_ok_iff.1 h
    cases hx
    exact wellKeyed_mkDict (wellKeyedPairs_iff.1 (wellKeyed_redisPairsToPy hl))

theorem wellKeyed_redisValuesToPy : ∀ {l : List Value} {xs : List PyObj}, redisValuesToPy S l = .ok xs → WellKeyedItems xs
  | [], _, h => by
    cases h
    trivial
  | v :: rest, _, h => by
    obtain ⟨x, hx, h⟩ := bind_ok_iff.1 h
    obtain ⟨xs, hxs, hl⟩ := bind_ok_iff.1 h
    cases hl
    exact ⟨wellKeyed_redisValueToPy hx, wellKeyed_redisValuesToPy hxs⟩

theorem wellKeyed_redisPairsToPy :
    ∀ {l : List (Value × Value)} {xs : List (PyObj × PyObj)}, redisPairsToPy S l = .ok xs → WellKeyedPairs xs
  | [], _, h => by
    cases h
    trivial
  | (k, v) :: rest, _, h => by
    obtain ⟨x, hx, h⟩ := bind_ok_iff.1 h
    obtain ⟨y, hy, h⟩ := bind_ok_iff.1 h
    split at h
    · obtain ⟨xs, hxs, hl⟩ := bind_ok_iff.1 h
      cases hl
      exact ⟨⟨wellKeyed_redisValueToPy hx, wellKeyed_redisValueToPy hy⟩, wellKeyed_redisPairsToPy hxs⟩
    · cases h

end

mutual

theorem onlyBuiltin_redisValueToPy : ∀ v : Value, OnlyBuiltin (redisValueToPy S v)
  | .nil | .int _ | .bulkString _ | .simpleString _ | .boolean _ | .double _ | .okay | .bigNumber _
  | .verbatimString _ => onlyBuiltin_ok _
  | .serverError _ => onlyBuiltin_builtin _ _
  | .attribute data => onlyBuiltin_redisValueToPy data
  | .array items | .set items | .push items =>
    onlyBuiltin_bind (onlyBuiltin_redisValuesToPy items) fun _ => onlyBuiltin_ok _
  | .map pairs => onlyBuiltin_bind (onlyBuiltin_redisPairsToPy pairs) fun _ => onlyBuiltin_ok _

theorem onlyBuiltin_redisValuesToPy : ∀ l : List Value, OnlyBuiltin (redisValuesToPy S l)
  | [] => onlyBuiltin_ok _
  | v :: rest =>
    onlyBuiltin_bind (onlyBuiltin_redisValueToPy v) fun _ =>
      onlyBuiltin_bind (onlyBuiltin_redisValuesToPy rest) fun _ => onlyBuiltin_ok _

theorem onlyBuiltin_redisPairsToPy : ∀ l : List (Value × Value), OnlyBuiltin (redisPairsToPy S l)
  | [] => onlyBuiltin_ok _
  | (k, v) :: rest =>
    onlyBuiltin_bind (onlyBuiltin_redisValueToPy k) fun x =>
      onlyBuiltin_bind (onlyBuiltin_redisValueToPy v) fun y => by
        split
        · exact onlyBuiltin_bind (onlyBuiltin_redisPairsToPy rest) fun _ => onlyBuiltin_ok _
        · exact onlyBuiltin_builtin _ _

end

theorem wellKeyed_info {pairs : List (Bytes × Value)} {x : PyObj} (h : infoPy S pairs = .ok x) : WellKeyed x := by
  obtain ⟨items, hitems, hx⟩ := bind_ok_iff.1 h
  cases hx
  refine wellKeyed_mkDict fun item hitem => ?_
  obtain ⟨kv, -, hy⟩ := (mem_of_mapM hitems).1 hitem
  obtain ⟨v, hv, hy⟩ := bind_ok_iff.1 hy
  cases hy
  exact ⟨trivial, wellKeyed_redisValueToPy S hv⟩

theorem wellKeyed_infoList {rows : List (List (Bytes × Value))} {x : PyObj} (h : infoListPy S rows = .ok x) :
    WellKeyed x := by
  obtain ⟨items, hitems, hx⟩ := bind_ok_iff.1 h
  cases hx
  refine wellKeyedItems_iff.2 fun item hitem => ?_
  obtain ⟨pairs, -, hpairs⟩ := (mem_of_mapM hitems).1 hitem
  exact wellKeyed_info S hpairs

theorem wellKeyed_renderPairs {f : Value × Value → PyObj} (hf : ∀ kv, WellKeyed (f kv)) (items : List Value) :
    WellKeyed (renderPairs f items) := by
  unfold renderPairs
  split
  · refine wellKeyedItems_iff.2 fun x hx => ?_
    obtain ⟨item, -, hitem⟩ := List.mem_filterMap.1 hx
    split at hitem
    · cases hitem
      exact hf _
    · cases hitem
  · exact wellKeyed_map hf (pairUp items)

theorem wellKeyed_renderHscan (cursor : ℕ) (value : Value) (novalues : Bool) :
    WellKeyed (renderHscan cursor value novalues) := by
  refine ⟨trivial, ?_, trivial⟩
  split
  · split
    · exact wellKeyed_map wellKeyed_bulkOrNone _
    · exact wellKeyed_mkDict_map (f := fun kv : Value × Value => (bulkOrNone kv.1, bulkOrNone kv.2))
        (fun _ => ⟨wellKeyed_bulkOrNone _, wellKeyed_bulkOrNone _⟩) _
  · trivial

theorem wellKeyed_renderHrandfield (value : Value) (count : Option Int) (withvalues : Bool) :
    WellKeyed (renderHrandfield S value count withvalues) := by
  unfold renderHrandfield
  split
  · trivial
  · trivial
  · split
    · refine wellKeyed_renderPairs (fun kv => ?_) _
      exact ⟨wellKeyed_bulkOrNone _, wellKeyed_bulkOrNone _, trivial⟩
    · refine wellKeyed_map (fun item => ?_) _
      split <;> trivial
  · trivial
  · trivial

theorem wellKeyed_renderZrandmember (value : Value) (count : Option Int) (withscores : Bool) :
    WellKeyed (renderZrandmember S value count withscores) := by
  unfold renderZrandmember
  split
  · trivial
  · trivial
  · split
    · refine wellKeyed_renderPairs (fun ms => ?_) _
      exact ⟨wellKeyed_bulkOrNone _, trivial, trivial⟩
    · exact wellKeyed_map wellKeyed_bulkOrNone _
  · trivial
  · trivial

theorem wellKeyed_pendingSummary (summary : Option (Int × Bytes × Bytes × List (Bytes × Int))) :
    WellKeyed (pendingSummaryPy summary) := by
  rcases summary with _ | ⟨count, minId, maxId, consumers⟩
  · exact ⟨trivial, trivial, trivial, trivial, trivial⟩
  · have hconsumers := wellKeyed_map (f := consumerPy) (fun _ => ⟨trivial, trivial, trivial⟩) consumers
    exact ⟨trivial, trivial, trivial, hconsumers, trivial⟩

theorem wellKeyed_pendingRow (row : Bytes × Bytes × Int × Int) : WellKeyed (pendingRowPy row) := by
  refine wellKeyed_mkDict fun kv hkv => ?_
  simp only [List.mem_cons, List.not_mem_nil, or_false] at hkv
  rcases hkv with rfl | rfl | rfl | rfl <;> exact ⟨trivial, trivial⟩

theorem wellKeyed_streamRead (streams : List (Bytes × List Entry)) :
    WellKeyed (if streams.isEmpty then .none else mkDict (streams.map fun kv => (.bytes kv.1, entriesPy kv.2))) := by
  split
  · trivial
  · exact wellKeyed_mkDict_map (f := fun kv => (.bytes kv.1, entriesPy kv.2))
      (fun kv => ⟨trivial, wellKeyed_entries kv.2⟩) streams

/-- **Every object is well keyed.** Whatever an async command sends, the dicts Python gets have distinct keys. -/
theorem wellKeyed_intoPy {raw : RawResult} {x : PyObj} (h : raw.intoPy S = .ok x) : WellKeyed x := by
  cases raw with
  | nil | bool _ | int _ | f64 _ | str _ =>
    cases h
    trivial
  | optBytes o | optInt o | optF64 o | optStr o | optScore o =>
    cases h
    cases o <;> trivial
  | optBytesList items =>
    cases h
    exact wellKeyed_map (wellKeyed_optPy (f := .bytes) fun _ => trivial) items
  | bytesList items | streamClaimJustIds items =>
    cases h
    exact wellKeyed_bytesList items
  | intList items =>
    cases h
    exact wellKeyed_map (f := .int) (fun _ => trivial) items
  | boolList items =>
    cases h
    exact wellKeyed_map (f := .bool) (fun _ => trivial) items
  | setOfBytes items =>
    cases h
    exact wellKeyed_setOfBytes items
  | bytesPairs pairs =>
    cases h
    exact wellKeyed_bytesPairs pairs
  | scoredMembers items =>
    cases h
    exact wellKeyed_scoredMembers items
  | optKeyAndBytesList kv =>
    cases h
    exact wellKeyed_optPy (f := keyAndBytesListPy) (fun kv => ⟨trivial, wellKeyed_bytesList kv.2, trivial⟩) kv
  | optKeyAndBytes kv =>
    cases h
    exact wellKeyed_optPy (f := fun kv => .tuple [.bytes (asBytes kv.1), .bytes kv.2])
      (fun _ => ⟨trivial, trivial, trivial⟩) kv
  | hRandfield value count withvalues =>
    cases h
    exact wellKeyed_renderHrandfield S value count withvalues
  | hScan cursor value novalues =>
    cases h
    exact wellKeyed_renderHscan cursor value novalues
  | sScan cursor members =>
    cases h
    exact ⟨trivial, wellKeyed_setOfBytes members, trivial⟩
  | optRankAndScore rs =>
    cases h
    exact wellKeyed_optPy (f := rankAndScorePy) (fun _ => ⟨trivial, trivial, trivial⟩) rs
  | optKeyAndScoredMembers kv =>
    cases h
    exact wellKeyed_optPy (f := keyAndScoredMembersPy) (fun kv => ⟨trivial, wellKeyed_scoredMembers kv.2, trivial⟩) kv
  | optKeyMemberScore kms =>
    cases h
    exact wellKeyed_optPy (f := keyMemberScorePy) (fun _ => ⟨trivial, trivial, trivial, trivial⟩) kms
  | zRandmember value count withscores =>
    cases h
    exact wellKeyed_renderZrandmember S value count withscores
  | zScan cursor items =>
    cases h
    exact ⟨trivial, wellKeyed_scoredMembers items, trivial⟩
  | value v => exact wellKeyed_redisValueToPy S h
  | error cls msg => cases h
  | streamEntries entries | streamClaim entries =>
    cases h
    exact wellKeyed_entries entries
  | streamReadEntries streams =>
    cases h
    exact wellKeyed_streamRead streams
  | streamPendingSummary summary =>
    cases h
    exact wellKeyed_pendingSummary summary
  | streamPendingRange rows =>
    cases h
    exact wellKeyed_map wellKeyed_pendingRow rows
  | streamAutoclaim nextId entries deleted =>
    cases h
    exact ⟨trivial, wellKeyed_entries entries, wellKeyed_bytesList deleted, trivial⟩
  | streamAutoclaimJustIds nextId ids deleted =>
    cases h
    exact ⟨trivial, wellKeyed_bytesList ids, wellKeyed_bytesList deleted, trivial⟩
  | streamInfoStream pairs => exact wellKeyed_info S h
  | streamInfoGroups rows | streamInfoConsumers rows => exact wellKeyed_infoList S h
  | intPair ab =>
    cases h
    exact wellKeyed_optPy (f := intPairPy) (fun _ => ⟨trivial, trivial, trivial⟩) ab
  | bytesPairsList rows =>
    cases h
    exact wellKeyed_map wellKeyed_bytesPairs rows

/-! ## Objects without bytes -/

theorem bytesFree_optPy {α : Type} {f : α → PyObj} (hf : ∀ a, bytesFree (f a) = true) (o : Option α) :
    bytesFree (optPy f o) = true := by
  cases o with
  | none => rfl
  | some a => exact hf a

theorem bytesFree_listPy {α : Type} {f : α → PyObj} (hf : ∀ a, bytesFree (f a) = true) (items : List α) :
    bytesFree (listPy f items) = true := by
  refine bytesFreeItems_iff.2 fun x hx => ?_
  obtain ⟨a, -, rfl⟩ := List.mem_map.1 hx
  exact hf a

/-- the variants of numbers, flags and strings -/
def RawResult.plain : RawResult → Bool
  | .nil | .bool _ | .int _ | .optInt _ | .f64 _ | .optF64 _ | .str _ | .optStr _ | .intList _ | .boolList _
  | .optScore _ | .optRankAndScore _ | .intPair _ => true
  | _ => false

theorem bytesFree_of_plain {raw : RawResult} (hraw : raw.plain = true) {x : PyObj} (h : raw.intoPy S = .ok x) :
    bytesFree x = true := by
  cases raw with
  | nil | bool _ | int _ | f64 _ | str _ =>
    cases h
    rfl
  | optInt o | optF64 o | optStr o | optScore o | optRankAndScore o | intPair o =>
    cases h
    cases o <;> rfl
  | intList items =>
    cases h
    exact bytesFree_listPy (f := .int) (fun _ => rfl) items
  | boolList items =>
    cases h
    exact bytesFree_listPy (f := .bool) (fun _ => rfl) items
  | _ => cases hraw

end RedisRsPy.Commands
