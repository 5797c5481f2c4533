/-
Sorted-set commands (`commands/zsets.rs`).

The two clients differ in five places (`same_iff`):
- ZMSCORE is read as scores by the sync method and passed on as it came by the async one;
- a malformed reply to ZSCAN is a `DataError` on one client and a `ResponseError` on the other;
- BZPOPMIN, BZPOPMAX and BZMPOP make a `ConnectionError` of Python itself out of a failure to connect on one client, and
  an error of the driver on the other.
The blocking methods, and the async ZRANDMEMBER, go past the guard.
-/
import RedisRsPy.Commands.Shapes

namespace RedisRsPy.Commands.Zsets

open Lib.Fallible

/-! ## Arguments -/

structure ZAddFlags where
  nx : Bool
  xx : Bool
  gt : Bool
  lt : Bool
  ch : Bool
  incr : Bool

/-- `validate_zadd_flags` -/
def validateZaddFlags (f : ZAddFlags) (pairCount : ℕ) : Arg := do
  if f.nx && f.xx then throw (dataError "ZADD: NX and XX options are mutually exclusive")
  if f.gt && f.lt then throw (dataError "ZADD: GT and LT options are mutually exclusive")
  if f.nx && (f.gt || f.lt) then throw (dataError "ZADD: NX cannot be combined with GT or LT")
  if f.incr && pairCount != 1 then throw (dataError "ZADD: INCR option supports a single member-score pair only")

/-- `collect_zadd_pairs` -/
def collectZaddPairs (mapping : List Arg) : Arg := do
  if mapping.isEmpty then throw (dataError "ZADD: mapping is empty; provide at least one (member, score) pair")
  extractAll mapping

/-- what the start and the stop of a range may be -/
inductive RangeArg where
  | int
  | str
  | bytes
  | other

/-- `pyany_to_zrange_arg` -/
def pyanyToZrangeArg : RangeArg → Arg
  | .other => throw (dataError "ZRANGE start/stop must be int, str, or bytes")
  | _ => return

structure RangeOptions where
  start : RangeArg
  stop : RangeArg
  byscore : Bool
  bylex : Bool
  withscores : Bool
  offset : Option Int
  num : Option Int

/-- the checks of `build_zrange_cmd`, after those of the start and the stop -/
def validateZrange (o : RangeOptions) : Arg := do
  pyanyToZrangeArg o.start
  pyanyToZrangeArg o.stop
  if o.byscore && o.bylex then throw (dataError "ZRANGE: BYSCORE and BYLEX are mutually exclusive")
  if (o.offset.isSome || o.num.isSome) && !(o.byscore || o.bylex) then
    throw (dataError "ZRANGE: LIMIT (offset/num) requires BYSCORE or BYLEX")
  if o.withscores && o.bylex then throw (dataError "ZRANGE: WITHSCORES is not allowed with BYLEX")
  if o.offset.isSome != o.num.isSome then throw (dataError "ZRANGE: both `offset` and `num` are required for LIMIT")

/-- the check of `build_simple_range_cmd` -/
def validateLimit (offset num : Option Int) : Arg :=
  if offset.isSome != num.isSome then throw (dataError "LIMIT requires both offset and num") else return

/-- `validate_zmpop_direction` -/
def validateZmpopDirection (direction : String) : Arg :=
  match direction.toUpper with
  | "MIN" => return
  | "MAX" => return
  | _ => throw (dataError "ZMPOP/BZMPOP: direction must be MIN or MAX")

structure OpArgs where
  keys : List String
  weights : Option (List UInt64)
  aggregate : Option String

def noKeys : String := "keys= must contain at least one key"

/-- `validate_zset_op_args` -/
def validateZsetOpArgs (a : OpArgs) : Arg := do
  if a.keys.isEmpty then throw (dataError noKeys)
  if a.weights.any (·.length != a.keys.length) then throw (dataError "weights= must have the same length as keys=")
  match a.aggregate.map String.toUpper with
  | none => return
  | some "SUM" => return
  | some "MIN" => return
  | some "MAX" => return
  | some _ => throw (dataError "AGGREGATE must be one of SUM, MIN, MAX")

/-- the check of `zdiff`, `zdiffstore` and `zintercard` -/
def validateKeys (keys : List String) : Arg := if keys.isEmpty then throw (dataError noKeys) else return

/-! ## Conversions -/

/-- the rank and the score in a reply with WITHSCORE -/
def rankAndScore (S : Std) (rank score : Value) : Int × UInt64 := (intOrZero rank, scoreOf S score)

/-- `parse_rank_reply` -/
def parseRankReply (S : Std) (v : Value) (withscore : Bool) : PyObj :=
  if withscore then
    match v with
    | .nil => .none
    | .array [rank, score] => rankAndScorePy (rankAndScore S rank score)
    | _ => .none
  else
    match v with
    | .nil => .none
    | .int n => .int n
    | _ => .none

/-- `parse_rank_reply_to_rawresult` -/
def parseRankReplyToRawresult (S : Std) (v : Value) (withscore : Bool) : RawResult :=
  if withscore then
    match v with
    | .nil => .optRankAndScore none
    | .array [rank, score] => .optRankAndScore (some (rankAndScore S rank score))
    | _ => .optRankAndScore none
  else
    match v with
    | .nil => .optInt none
    | .int n => .optInt (some n)
    | _ => .optInt none

/-! ## Commands -/

inductive Cmd where
  | zadd (mapping : List Arg) (flags : ZAddFlags)
  | zrem (members : List Bytes)
  | zrange (opts : RangeOptions)
  | zrangestore (opts : RangeOptions)
  | zrangebyscore (withscores : Bool) (offset num : Option Int)
  | zrevrangebyscore (withscores : Bool) (offset num : Option Int)
  | zrangebylex (offset num : Option Int)
  | zrevrangebylex (offset num : Option Int)
  | zincrby
  | zcard
  | zscore
  | zmscore (members : List Bytes)
  | zrank (withscore : Bool)
  | zrevrank (withscore : Bool)
  | zremrangebyrank
  | zremrangebyscore
  | zremrangebylex
  | zcount
  | zlexcount
  | zpopmin
  | zpopmax
  | zmpop (direction : String)
  | bzpopmin
  | bzpopmax
  | bzmpop (direction : String)
  | zrandmember (count : Option Int) (withscores : Bool)
  | zscan
  | zunion (args : OpArgs) (withscores : Bool)
  | zinter (args : OpArgs) (withscores : Bool)
  | zdiff (keys : List String) (withscores : Bool)
  | zunionstore (args : OpArgs)
  | zinterstore (args : OpArgs)
  | zdiffstore (keys : List String)
  | zintercard (keys : List String)

variable (S : Std)

def zadd (mapping : List Arg) (flags : ZAddFlags) : Row :=
  (if flags.incr then undecoded (reads S (.opt .f64) (optPy .float) .optScore) else int S).checked
    (do collectZaddPairs mapping; validateZaddFlags flags mapping.length)

/-- members, with their scores or without -/
def members (withscores : Bool) : Row := if withscores then scoredMembers S else bytesList S

/-- what `Redis::zmscore` makes of the reply -/
def zmscorePy (v : Value) : PyRes :=
  handle (S.fromRedisValue (.vec (.opt .f64)) v) (fun e => .error (toPyErr e)) fun items => .ok (listPy (optPy .float) items)

def zmscore (members : List Bytes) : Row :=
  (undecoded (parses id (zmscorePy S) .value)).onEmpty members.isEmpty (.list []) (.value (.array []))

/-- ZRANK and ZREVRANK -/
def rank (withscore : Bool) : Row :=
  undecoded (parses id (fun v => .ok (parseRankReply S v withscore)) (parseRankReplyToRawresult S · withscore))

/-- ZMPOP and BZMPOP -/
def multiPop : Row :=
  parses (parseZmpopValue S) (fun popped => .ok (optPy keyAndScoredMembersPy popped)) .optKeyAndScoredMembers

/-- BZPOPMIN and BZPOPMAX -/
def blockingPop : Row :=
  (reads S (.opt (.triple .bytes .bytes .f64)) (optPy keyMemberScorePy) .optKeyMemberScore).connecting

def bzmpop (direction : String) : Row := (multiPop S).connecting.checked (validateZmpopDirection direction)

def zrandmember (count : Option Int) (withscores : Bool) : Row :=
  { parses id (fun v => .ok (renderZrandmember S v count withscores)) (.zRandmember · count withscores) with
    asyncSteps := [] }

/-- the end of `Redis::zscan` -/
def zscanPy (parsed : Except Exn (ℕ × List (Bytes × UInt64))) : PyRes := do
  let (cursor, items) ← parsed
  return .tuple [.int cursor, scoredMembersPy items]

/-- the match in the task of `AsyncRedis::zscan` -/
def zscanRaw (parsed : Except Exn (ℕ × List (Bytes × UInt64))) : RawResult :=
  match parsed with
  | .ok (cursor, items) => .zScan cursor items
  | .error _ => .error .ResponseError "ZSCAN reply did not match expected shape"

def zscan : Row := parses (parseZscanReply S) zscanPy zscanRaw

/-- ZDIFFSTORE and ZINTERCARD: the async methods check the keys in their tasks -/
def countOfKeys (keys : List String) : Row :=
  { int S with
    syncSteps := [.check (validateKeys keys), .guard]
    task := if keys.isEmpty then some (.error .DataError noKeys) else none }

def row : Cmd → Row
  | .zadd mapping flags => zadd S mapping flags
  | .zrem members => (int S).onEmpty members.isEmpty (.int 0) (.int 0)
  | .zrange opts => (members S opts.withscores).checked (validateZrange opts)
  | .zrangestore opts => (int S).checked (validateZrange { opts with withscores := false })
  | .zrangebyscore withscores offset num => (members S withscores).checked (validateLimit offset num)
  | .zrevrangebyscore withscores offset num => (members S withscores).checked (validateLimit offset num)
  | .zrangebylex offset num => (bytesList S).checked (validateLimit offset num)
  | .zrevrangebylex offset num => (bytesList S).checked (validateLimit offset num)
  | .zincrby => float S
  | .zcard => int S
  | .zscore => optFloat S
  | .zmscore members => zmscore S members
  | .zrank withscore => rank S withscore
  | .zrevrank withscore => rank S withscore
  | .zremrangebyrank => int S
  | .zremrangebyscore => int S
  | .zremrangebylex => int S
  | .zcount => int S
  | .zlexcount => int S
  | .zpopmin => scoredMembers S
  | .zpopmax => scoredMembers S
  | .zmpop direction => (multiPop S).checked (validateZmpopDirection direction)
  | .bzpopmin => blockingPop S
  | .bzpopmax => blockingPop S
  | .bzmpop direction => bzmpop S direction
  | .zrandmember count withscores => zrandmember S count withscores
  | .zscan => zscan S
  | .zunion args withscores => (members S withscores).checked (validateZsetOpArgs args)
  | .zinter args withscores => (members S withscores).checked (validateZsetOpArgs args)
  | .zdiff keys withscores => (members S withscores).checked (validateKeys keys)
  | .zunionstore args => (int S).checked (validateZsetOpArgs args)
  | .zinterstore args => (int S).checked (validateZsetOpArgs args)
  | .zdiffstore keys => countOfKeys S keys
  | .zintercard keys => countOfKeys S keys

/-! ## Agreement -/

variable {S}

theorem agrees_zadd (mapping : List Arg) (flags : ZAddFlags) : (zadd S mapping flags).Agrees S := by
  refine Row.Agrees.checked ?_ _
  split
  · exact agrees_undecoded_of_plain (agrees_reads fun _ => rfl) fun _ => rfl
  · exact agrees_int

theorem agrees_members (withscores : Bool) : (members S withscores).Agrees S := by
  cases withscores with
  | false => exact agrees_bytesList
  | true => exact agrees_scoredMembers

theorem rank_intoPy (v : Value) (withscore : Bool) :
    (parseRankReplyToRawresult S v withscore).intoPy S = .ok (parseRankReply S v withscore) := by
  unfold parseRankReplyToRawresult parseRankReply
  split
  · split <;> rfl
  · split <;> rfl

theorem plain_rank (v : Value) (withscore : Bool) : (parseRankReplyToRawresult S v withscore).plain = true := by
  unfold parseRankReplyToRawresult
  split
  · split <;> rfl
  · split <;> rfl

theorem agrees_rank (withscore : Bool) : (rank S withscore).Agrees S :=
  agrees_undecoded_of_plain (agrees_parses fun v => rank_intoPy v withscore) fun v => plain_rank v withscore

theorem agrees_multiPop : (multiPop S).Agrees S := agrees_parses fun _ => rfl

theorem agrees_zrandmember (count : Option Int) (withscores : Bool) : (zrandmember S count withscores).Agrees S :=
  ⟨fun _ => rfl, rfl, .inl rfl, rfl, fun _ => rfl⟩

theorem agrees_countOfKeys (keys : List String) : (countOfKeys S keys).Agrees S where
  convert _ := rfl
  wraps := rfl
  decodes := (agrees_int (S := S)).decodes
  connectErr := rfl
  steps := by
    intro decode
    cases keys <;> rfl

/-- the command is none of those on which the clients differ -/
def shared : Cmd → Bool
  | .zmscore _ | .zscan | .bzpopmin | .bzpopmax | .bzmpop _ => false
  | _ => true

theorem agrees {c : Cmd} (hc : shared c = true) : (row S c).Agrees S := by
  cases c with
  | zadd mapping flags => exact agrees_zadd mapping flags
  | zrem members => exact agrees_int.onEmpty rfl _ rfl rfl
  | zrange opts => exact (agrees_members opts.withscores).checked _
  | zrangestore opts => exact agrees_int.checked _
  | zrangebyscore withscores _ _ | zrevrangebyscore withscores _ _ => exact (agrees_members withscores).checked _
  | zrangebylex _ _ | zrevrangebylex _ _ => exact agrees_bytesList.checked _
  | zrank withscore | zrevrank withscore => exact agrees_rank withscore
  | zmpop direction => exact agrees_multiPop.checked _
  | zrandmember count withscores => exact agrees_zrandmember count withscores
  | zunion _ withscores | zinter _ withscores | zdiff _ withscores => exact (agrees_members withscores).checked _
  | zunionstore args | zinterstore args => exact agrees_int.checked _
  | zdiffstore keys | zintercard keys => exact agrees_countOfKeys keys
  | zincrby => exact agrees_float
  | zscore => exact agrees_optFloat
  | zcard | zremrangebyrank | zremrangebyscore | zremrangebylex | zcount | zlexcount => exact agrees_int
  | zpopmin | zpopmax => exact agrees_scoredMembers
  | zmscore _ | zscan | bzpopmin | bzpopmax | bzmpop _ => exact nomatch hc

/-! ## Where the clients differ: malformed scans -/

theorem zscan_convert_iff (decode : Option Codec) (v : Value) :
    SameOutcome ((zscan S).syncObject decode v) ((zscan S).awaited S decode ((zscan S).async v)) ↔
      ∃ cursorV payload, v = .array [cursorV, payload] := by
  show SameOutcome (zscanPy (parseZscanReply S v) >>= maybeDecode decode)
    ((zscanRaw (parseZscanReply S v)).intoPy S >>= maybeDecode decode) ↔ _
  unfold parseZscanReply
  split
  · exact iff_of_true (sameOutcome_of_eq rfl) ⟨_, _, rfl⟩
  · rename_i hshape
    refine iff_of_false (fun h => ?_) fun ⟨cursorV, payload, hv⟩ => hshape cursorV payload hv
    have hcls : ExceptionClass.DataError = .ResponseError := Sum.inl.inj h
    exact nomatch hcls

/-! ## Where the clients differ: scores as they came -/

/-- a score that comes as a double, or as no score -/
def plainScore : Value → Option (Option UInt64)
  | .nil => some none
  | .double bits => some (some bits)
  | .attribute data => plainScore data
  | _ => none

/-- scores that all come so -/
def plainScores : Value → Option (List (Option UInt64))
  | .array items | .set items | .push items => items.mapM plainScore
  | .attribute data => plainScores data
  | _ => none

/-- when ZMSCORE gives the same on both clients -/
def ScoresAlike (S : Std) (v : Value) : Prop :=
  ∃ items, S.fromRedisValue (.vec (.opt .f64)) v = .ok items ∧ plainScores v = some items

/-- decoding makes no numbers -/
theorem decodeWalk_eq_score_iff {codec : Codec} {x : PyObj} {score : Option UInt64} :
    decodeWalk codec x = .ok (optPy .float score) ↔ x = optPy .float score := by
  constructor
  · intro h
    cases x with
    | none | bool _ | int _ | float _ | str _ => exact Except.ok.inj h
    | bytes b | list items | tuple items | dict items | set items =>
      obtain ⟨_, -, hx⟩ := bind_ok_iff.1 h
      cases score <;> exact nomatch hx
  · rintro rfl
    cases score <;> rfl

theorem decodeItems_eq_scores_iff {codec : Codec} {xs : List PyObj} {items : List (Option UInt64)} :
    decodeItems codec xs = .ok (items.map (optPy .float)) ↔ xs = items.map (optPy .float) := by
  induction xs generalizing items with
  | nil =>
    show Except.ok [] = _ ↔ _
    rw [Except.ok.injEq]
  | cons x xs ih =>
    cases items with
    | nil =>
      refine iff_of_false (fun h => ?_) fun h => (nomatch h)
      obtain ⟨_, -, h⟩ := bind_ok_iff.1 h
      obtain ⟨_, -, h⟩ := bind_ok_iff.1 h
      exact nomatch h
    | cons score items =>
      constructor
      · intro h
        obtain ⟨y, hy, h⟩ := bind_ok_iff.1 h
        obtain ⟨ys, hys, h⟩ := bind_ok_iff.1 h
        obtain ⟨rfl, rfl⟩ := List.cons_eq_cons.1 (Except.ok.inj h)
        rw [decodeWalk_eq_score_iff.1 hy, ih.1 hys, List.map_cons]
      · intro h
        obtain ⟨rfl, rfl⟩ := List.cons_eq_cons.1 h
        rw [decodeItems, decodeWalk_eq_score_iff.2 rfl, ih.2 rfl]
        rfl

theorem maybeDecode_eq_scores_iff {decode : Option Codec} {x : PyObj} {items : List (Option UInt64)} :
    maybeDecode decode x = .ok (listPy (optPy .float) items) ↔ x = listPy (optPy .float) items := by
  cases decode with
  | none => exact ⟨Except.ok.inj, congrArg Except.ok⟩
  | some codec =>
    constructor
    · intro h
      cases x with
      | none | bool _ | int _ | float _ | str _ => exact nomatch h
      | bytes b | tuple items | dict items | set items =>
        obtain ⟨_, -, hx⟩ := bind_ok_iff.1 h
        exact nomatch hx
      | list xs =>
        obtain ⟨ys, hys, hx⟩ := bind_ok_iff.1 h
        cases hx
        exact congrArg PyObj.list (decodeItems_eq_scores_iff.1 hys)
    · rintro rfl
      show decodeItems codec _ >>= _ = _
      rw [decodeItems_eq_scores_iff.2 rfl]
      rfl

theorem redisValueToPy_eq_score_iff {score : Option UInt64} :
    ∀ {v : Value}, redisValueToPy S v = .ok (optPy .float score) ↔ plainScore v = some score
  | .nil => by cases score <;> simp [redisValueToPy, plainScore, optPy]
  | .double bits => by cases score <;> simp [redisValueToPy, plainScore, optPy]
  | .attribute data => by
    rw [redisValueToPy, plainScore]
    exact redisValueToPy_eq_score_iff (v := data)
  | .int _ | .bulkString _ | .simpleString _ | .boolean _ | .okay | .bigNumber _ | .verbatimString _
  | .serverError _ => by cases score <;> simp [redisValueToPy, plainScore, optPy]
  | .array _ | .set _ | .push _ | .map _ => by
    refine iff_of_false (fun h => ?_) fun h => (nomatch h)
    obtain ⟨_, -, hx⟩ := bind_ok_iff.1 h
    cases score <;> exact nomatch hx

theorem redisValuesToPy_eq_scores_iff {l : List Value} {items : List (Option UInt64)} :
    redisValuesToPy S l = .ok (items.map (optPy .float)) ↔ l.mapM plainScore = some items := by
  induction l generalizing items with
  | nil =>
    cases items <;> simp [redisValuesToPy]
  | cons v l ih =>
    constructor
    · intro h
      obtain ⟨x, hx, h⟩ := bind_ok_iff.1 h
      obtain ⟨xs, hxs, h⟩ := bind_ok_iff.1 h
      cases items with
      | nil => exact nomatch h
      | cons score items =>
        obtain ⟨rfl, rfl⟩ := List.cons_eq_cons.1 (Except.ok.inj h)
        rw [List.mapM_cons, redisValueToPy_eq_score_iff.1 hx, ih.1 hxs]
        rfl
    · intro h
      rw [List.mapM_cons] at h
      obtain ⟨score, hscore, h⟩ := Option.bind_eq_some_iff.1 h
      obtain ⟨scores, hscores, h⟩ := Option.bind_eq_some_iff.1 h
      cases h
      rw [redisValuesToPy, redisValueToPy_eq_score_iff.2 hscore, ih.2 hscores]
      rfl

theorem redisValueToPy_eq_scores_iff {items : List (Option UInt64)} :
    ∀ {v : Value}, redisValueToPy S v = .ok (listPy (optPy .float) items) ↔ plainScores v = some items
  | .array l | .set l | .push l => by
    rw [plainScores, ← redisValuesToPy_eq_scores_iff (S := S)]
    show redisValuesToPy S l >>= _ = _ ↔ _
    cases redisValuesToPy S l with
    | error e => exact iff_of_false (fun h => nomatch h) fun h => (nomatch h)
    | ok xs =>
      show Except.ok (PyObj.list xs) = .ok (.list _) ↔ _
      rw [Except.ok.injEq, Except.ok.injEq, PyObj.list.injEq]
  | .attribute data => by
    rw [redisValueToPy, plainScores]
    exact redisValueToPy_eq_scores_iff (v := data)
  | .nil | .int _ | .double _ | .bulkString _ | .simpleString _ | .boolean _ | .okay | .bigNumber _ | .verbatimString _
  | .serverError _ => by simp [redisValueToPy, plainScores, listPy]
  | .map _ => by
    refine iff_of_false (fun h => ?_) fun h => (nomatch h)
    obtain ⟨_, -, hx⟩ := bind_ok_iff.1 h
    exact nomatch hx

theorem zmscore_convert_iff (decode : Option Codec) (v : Value) :
    SameOutcome (zmscorePy S v) (redisValueToPy S v >>= maybeDecode decode) ↔ ScoresAlike S v := by
  unfold zmscorePy ScoresAlike
  cases S.fromRedisValue (.vec (.opt .f64)) v with
  | error e =>
    refine iff_of_false (fun h => ?_) fun ⟨_, hitems, _⟩ => (nomatch hitems)
    -- the sync method raises an error of the driver, rendering a reply only errors of Python
    have hbuiltin : OnlyBuiltin (redisValueToPy S v >>= maybeDecode decode) :=
      onlyBuiltin_bind (onlyBuiltin_redisValueToPy S v) (onlyBuiltin_maybeDecode decode)
    cases hasync : redisValueToPy S v >>= maybeDecode decode with
    | ok x =>
      rw [hasync] at h
      exact h
    | error f =>
      rw [hasync] at h
      obtain ⟨b, hb⟩ := hbuiltin f hasync
      have hcls : (toPyErr e).cls = f.cls := h
      rw [hb] at hcls
      exact nomatch hcls
  | ok items =>
    have hscores : SameOutcome (.ok (listPy (optPy .float) items)) (redisValueToPy S v >>= maybeDecode decode) ↔
        redisValueToPy S v >>= maybeDecode decode = .ok (listPy (optPy .float) items) := by
      cases redisValueToPy S v >>= maybeDecode decode with
      | ok x =>
        rw [Except.ok.injEq]
        exact eq_comm
      | error e => exact iff_of_false id fun h => (nomatch h)
    refine hscores.trans ⟨fun h => ?_, fun ⟨items', hitems, hplain⟩ => ?_⟩
    · obtain ⟨x, hx, hdecode⟩ := bind_ok_iff.1 h
      rw [maybeDecode_eq_scores_iff.1 hdecode] at hx
      exact ⟨items, rfl, redisValueToPy_eq_scores_iff.1 hx⟩
    · cases hitems
      exact bind_ok_iff.2 ⟨_, redisValueToPy_eq_scores_iff.2 hplain, maybeDecode_eq_scores_iff.2 rfl⟩

theorem zmscore_same_iff (members : List Bytes) (decode : Option Codec) (server : Server) :
    SameOutcome ((zmscore S members).syncCall false decode server).result
        ((zmscore S members).asyncCall S false decode server).result ↔
      members = [] ∨ ∀ v, server.reply = .ok v → ScoresAlike S v := by
  cases members with
  | nil =>
    refine iff_of_true (sameOutcome_of_eq ?_) (.inl rfl)
    cases decode <;> rfl
  | cons m rest =>
    rw [or_iff_right (List.cons_ne_nil m rest), Row.same_iff rfl rfl rfl rfl]
    refine forall_congr' fun v => imp_congr Row.fetched_value_iff ?_
    rw [← zmscore_convert_iff decode v]
    show SameOutcome (zmscorePy S v >>= .ok) _ ↔ _
    cases zmscorePy S v <;> exact Iff.rfl

/-! ## Where the clients differ: connections -/

theorem bzmpop_same_iff (direction : String) (decode : Option Codec) (server : Server) :
    SameOutcome ((bzmpop S direction).syncCall false decode server).result
        ((bzmpop S direction).asyncCall S false decode server).result ↔
      (∃ e, validateZmpopDirection direction = .error e) ∨ ∃ u, server.connect = .ok u := by
  unfold bzmpop
  rw [Row.checked_same_iff, Row.connecting_same_iff agrees_multiPop rfl]

theorem blockingPop_same_iff (decode : Option Codec) (server : Server) :
    SameOutcome ((blockingPop S).syncCall false decode server).result
        ((blockingPop S).asyncCall S false decode server).result ↔ ∃ u, server.connect = .ok u :=
  Row.connecting_same_iff (agrees_reads fun _ => rfl) rfl decode server

/-! ## All commands -/

/-- when a sorted-set command gives the same on both clients -/
def Alike (S : Std) (server : Server) : Cmd → Prop
  | .zmscore members => members = [] ∨ ∀ v, server.reply = .ok v → ScoresAlike S v
  | .zscan => ∀ v, server.reply = .ok v → ∃ cursorV payload, v = .array [cursorV, payload]
  | .bzpopmin => ∃ u, server.connect = .ok u
  | .bzpopmax => ∃ u, server.connect = .ok u
  | .bzmpop direction => (∃ e, validateZmpopDirection direction = .error e) ∨ ∃ u, server.connect = .ok u
  | _ => True

theorem same_iff (c : Cmd) (decode : Option Codec) (server : Server) :
    SameOutcome ((row S c).syncCall false decode server).result ((row S c).asyncCall S false decode server).result ↔
      Alike S server c := by
  by_cases hc : shared c = true
  · have htrue : Alike S server c ↔ True := by cases c <;> first | exact Iff.rfl | exact nomatch hc
    rw [htrue, (agrees hc).same decode server]
    exact iff_true_intro (sameOutcome_of_eq rfl)
  cases c with
  | zmscore members => exact zmscore_same_iff members decode server
  | zscan =>
    show SameOutcome ((zscan S).syncCall false decode server).result ((zscan S).asyncCall S false decode server).result ↔ _
    rw [Row.same_iff rfl rfl rfl rfl]
    exact forall_congr' fun v => imp_congr Row.fetched_value_iff (zscan_convert_iff decode v)
  | bzpopmin | bzpopmax => exact blockingPop_same_iff decode server
  | bzmpop direction => exact bzmpop_same_iff direction decode server
  | _ => exact absurd rfl hc

end RedisRsPy.Commands.Zsets
