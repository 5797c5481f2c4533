/-
Hash commands (`commands/hashes.rs`).

HRANDFIELD and HSCAN are where the two clients differ: the async methods build their awaitable by hand, without the guard
and without `maybe_wrap`, and a malformed reply to HSCAN is a `DataError` on one client and a `ResponseError` on the other.
`same_iff` says when that does not show.
-/
import RedisRsPy.Commands.Shapes

namespace RedisRsPy.Commands.Hashes

/-! ## Arguments -/

/-- `collect_field_value_pairs`: the items are fields and values in turn, an entry of the mapping is a field with its
value -/
def collectFieldValuePairs (items : List Arg) (mapping : Option (List Arg)) : Arg := do
  if items.length % 2 ≠ 0 then
    throw (dataError "HSET items must be an even number of (field, value) positional args")
  extractAll items
  extractAll (mapping.getD [])
  if items.isEmpty && (mapping.getD []).isEmpty then
    throw (dataError "HSET requires at least one (field, value) pair or a non-empty mapping=")

/-- `mapping_to_pairs` -/
def mappingToPairs (mapping : List Arg) : Arg := do
  if mapping.isEmpty then throw (dataError "HMSET requires a non-empty mapping")
  extractAll mapping

/-- `validate_ttl_modifiers` -/
def validateTtlModifiers (f : ExpireFlags) : Arg :=
  if f.count > 1 then throw (dataError "Only one of NX, XX, GT, LT can be set at a time") else return

/-! ## Commands -/

inductive Cmd where
  | hget
  | hset (items : List Arg) (mapping : Option (List Arg))
  | hsetnx
  | hgetall
  | hmget (fields : List KeyArg)
  /-- `warned` is what `warn_hmset_deprecated` comes to: a warning may be an error -/
  | hmset (warned : Arg) (mapping : List Arg)
  | hdel (fields : List String)
  | hexists
  | hlen
  | hkeys
  | hvals
  | hrandfield (count : Option Int) (withvalues : Bool)
  | hincrby
  | hincrbyfloat
  | hscan (novalues : Bool)
  | hexpire (flags : ExpireFlags)
  | hpexpire (flags : ExpireFlags)
  | hexpireat (flags : ExpireFlags)
  | hpexpireat (flags : ExpireFlags)
  | hexpiretime
  | hpexpiretime
  | httl
  | hpttl
  | hpersist

variable (S : Std)

def hmget (fields : List KeyArg) : Row :=
  ((optBytesList S).onEmpty (noKeys fields) (.list []) (.optBytesList [])).checked (do let _ ← flattenKeys fields)

def hrandfield (count : Option Int) (withvalues : Bool) : Row :=
  { parses id (fun v => .ok (renderHrandfield S v count withvalues)) (.hRandfield · count withvalues) with
    asyncSteps := []
    wraps := false }

/-- the end of `Redis::hscan` -/
def hscanPy (novalues : Bool) (split : Except Exn (ℕ × Value)) : PyRes := do
  let (cursor, payload) ← split
  return renderHscan cursor payload novalues

/-- the match in the task of `AsyncRedis::hscan` -/
def hscanRaw (novalues : Bool) (split : Except Exn (ℕ × Value)) : RawResult :=
  match split with
  | .ok (cursor, payload) => .hScan cursor payload novalues
  | .error _ => .error .ResponseError "HSCAN reply did not match the [cursor, items] shape"

def hscan (novalues : Bool) : Row :=
  { parses splitScanReply (hscanPy novalues) (hscanRaw novalues) with
    asyncSteps := []
    wraps := false }

/-- the HEXPIRE commands -/
def hexpire (flags : ExpireFlags) : Row := (intList S).checked (validateTtlModifiers flags)

def row : Cmd → Row
  | .hget => optBytes S
  | .hset items mapping => (int S).checked (collectFieldValuePairs items mapping)
  | .hsetnx => flagOfInt S
  | .hgetall => fetches (hgetall S) bytesPairsPy .bytesPairs
  | .hmget fields => hmget S fields
  | .hmset warned mapping => (unit S).checked (do warned; mappingToPairs mapping)
  | .hdel fields => (int S).onEmpty fields.isEmpty (.int 0) (.int 0)
  | .hexists => flagOfInt S
  | .hlen => int S
  | .hkeys => bytesList S
  | .hvals => bytesList S
  | .hrandfield count withvalues => hrandfield S count withvalues
  | .hincrby => int S
  | .hincrbyfloat => float S
  | .hscan novalues => hscan novalues
  | .hexpire flags => hexpire S flags
  | .hpexpire flags => hexpire S flags
  | .hexpireat flags => hexpire S flags
  | .hpexpireat flags => hexpire S flags
  | .hexpiretime => intList S
  | .hpexpiretime => intList S
  | .httl => intList S
  | .hpttl => intList S
  | .hpersist => intList S

/-! ## Agreement -/

variable {S}

theorem agrees_hmget (fields : List KeyArg) : (hmget S fields).Agrees S :=
  (agrees_optBytesList.onEmpty rfl _ rfl rfl).checked _

/-- the command is not one of the two with a hand-built awaitable -/
def shared : Cmd → Bool
  | .hrandfield .. | .hscan _ => false
  | _ => true

theorem agrees {c : Cmd} (hc : shared c = true) : (row S c).Agrees S := by
  cases c with
  | hset items mapping => exact agrees_int.checked _
  | hsetnx | hexists => exact agrees_flagOfInt
  | hgetall => exact agrees_fetches fun _ => rfl
  | hmget fields => exact agrees_hmget fields
  | hmset warned mapping => exact agrees_unit.checked _
  | hdel fields => exact agrees_int.onEmpty rfl _ rfl rfl
  | hexpire flags | hpexpire flags | hexpireat flags | hpexpireat flags => exact agrees_intList.checked _
  | hget => exact agrees_optBytes
  | hlen | hincrby => exact agrees_int
  | hincrbyfloat => exact agrees_float
  | hkeys | hvals => exact agrees_bytesList
  | hexpiretime | hpexpiretime | httl | hpttl | hpersist => exact agrees_intList
  | hrandfield count withvalues => exact nomatch hc
  | hscan novalues => exact nomatch hc

/-! ## Where the clients differ -/

theorem hrandfield_same_iff (count : Option Int) (withvalues : Bool) (decode : Option Codec) (server : Server) :
    SameOutcome ((hrandfield S count withvalues).syncCall false decode server).result
        ((hrandfield S count withvalues).asyncCall S false decode server).result ↔
      ∀ v, server.reply = .ok v → decode = none ∨ bytesFree (renderHrandfield S v count withvalues) = true := by
  rw [Row.same_iff rfl rfl rfl rfl]
  refine forall_congr' fun v => imp_congr Row.fetched_value_iff ?_
  exact sameOutcome_maybeDecode_iff (wellKeyed_renderHrandfield S v count withvalues)

/-- when HSCAN gives the same on both clients -/
def ScanAlike (novalues : Bool) (decode : Option Codec) (v : Value) : Prop :=
  ∃ cursor payload, splitScanReply v = .ok (cursor, payload) ∧
    (decode = none ∨ bytesFree (renderHscan cursor payload novalues) = true)

theorem hscan_convert_iff (novalues : Bool) (decode : Option Codec) (v : Value) :
    SameOutcome ((hscan novalues).syncObject decode v) ((hscan novalues).awaited S decode ((hscan novalues).async v)) ↔
      ScanAlike novalues decode v := by
  show SameOutcome (hscanPy novalues (splitScanReply v) >>= maybeDecode decode)
    ((hscanRaw novalues (splitScanReply v)).intoPy S >>= .ok) ↔ _
  unfold ScanAlike splitScanReply
  split
  · rename_i cursorV payload
    show SameOutcome (maybeDecode decode (renderHscan (scanCursor cursorV) payload novalues))
      (.ok (renderHscan (scanCursor cursorV) payload novalues)) ↔ _
    rw [sameOutcome_maybeDecode_iff (wellKeyed_renderHscan _ _ _)]
    constructor
    · exact fun h => ⟨_, _, rfl, h⟩
    · rintro ⟨cursor, payload', heq, h⟩
      cases heq
      exact h
  · refine iff_of_false (fun h => ?_) ?_
    · have hcls : ExceptionClass.DataError = .ResponseError := Sum.inl.inj h
      exact nomatch hcls
    · rintro ⟨_, _, heq, _⟩
      exact nomatch heq

theorem hscan_same_iff (novalues : Bool) (decode : Option Codec) (server : Server) :
    SameOutcome ((hscan novalues).syncCall false decode server).result
        ((hscan novalues).asyncCall S false decode server).result ↔
      ∀ v, server.reply = .ok v → ScanAlike novalues decode v := by
  rw [Row.same_iff rfl rfl rfl rfl]
  exact forall_congr' fun v => imp_congr Row.fetched_value_iff (hscan_convert_iff novalues decode v)

/-- when a hash command gives the same on both clients -/
def Alike (S : Std) (decode : Option Codec) (server : Server) : Cmd → Prop
  | .hrandfield count withvalues =>
    ∀ v, server.reply = .ok v → decode = none ∨ bytesFree (renderHrandfield S v count withvalues) = true
  | .hscan novalues => ∀ v, server.reply = .ok v → ScanAlike novalues decode v
  | _ => True

theorem same_iff (c : Cmd) (decode : Option Codec) (server : Server) :
    SameOutcome ((row S c).syncCall false decode server).result ((row S c).asyncCall S false decode server).result ↔
      Alike S decode server c := by
  by_cases hc : shared c = true
  · have htrue : Alike S decode server c ↔ True := by cases c <;> first | exact Iff.rfl | exact nomatch hc
    rw [htrue, (agrees hc).same decode server]
    exact iff_true_intro (sameOutcome_of_eq rfl)
  cases c with
  | hrandfield count withvalues => exact hrandfield_same_iff count withvalues decode server
  | hscan novalues => exact hscan_same_iff novalues decode server
  | _ => exact absurd rfl hc

end RedisRsPy.Commands.Hashes
