/-
Set commands (`commands/sets.rs`).

A malformed reply to SSCAN is a `ValueError` on one client and a `ResponseError` on the other; all else agrees (`same_iff`).
-/
import RedisRsPy.Commands.Shapes

namespace RedisRsPy.Commands.Sets

inductive Cmd where
  | sadd (members : List Bytes)
  | srem (members : List Bytes)
  | smembers
  | scard
  | sismember
  | smismember (members : List Bytes)
  | spop (count : Option Int)
  | srandmember (count : Option Int)
  | sinter
  | sunion
  | sdiff
  | sinterstore
  | sunionstore
  | sdiffstore
  | sintercard
  | smove
  | sscan

variable (S : Std)

def spop : Option Int → Row
  | none => optBytes S
  | some _ => setOfBytes S

/-- with a count below zero the same member may come twice -/
def srandmember : Option Int → Row
  | none => optBytes S
  | some n => if n < 0 then bytesList S else setOfBytes S

/-- the end of `Redis::sscan` -/
def sscanPy (parsed : Except Exn (ℕ × List Bytes)) : PyRes := do
  let (cursor, members) ← parsed
  return .tuple [.int cursor, setOfBytesPy members]

/-- the match in the task of `AsyncRedis::sscan` -/
def sscanRaw (parsed : Except Exn (ℕ × List Bytes)) : RawResult :=
  match parsed with
  | .ok (cursor, members) => .sScan cursor members
  | .error _ => .error .ResponseError "ValueError: SSCAN reply did not match the [cursor, members] shape"

def sscan : Row := parses parseSscanReply sscanPy sscanRaw

def row : Cmd → Row
  | .sadd members => (int S).onEmpty members.isEmpty (.int 0) (.int 0)
  | .srem members => (int S).onEmpty members.isEmpty (.int 0) (.int 0)
  | .smembers => setOfBytes S
  | .scard => int S
  | .sismember => bool S
  | .smismember members => (boolList S).onEmpty members.isEmpty (.list []) (.boolList [])
  | .spop count => spop S count
  | .srandmember count => srandmember S count
  | .sinter => setOfBytes S
  | .sunion => setOfBytes S
  | .sdiff => setOfBytes S
  | .sinterstore => int S
  | .sunionstore => int S
  | .sdiffstore => int S
  | .sintercard => int S
  | .smove => bool S
  | .sscan => sscan

/-! ## Agreement -/

variable {S}

theorem agrees_spop (count : Option Int) : (spop S count).Agrees S := by
  cases count with
  | none => exact agrees_optBytes
  | some _ => exact agrees_setOfBytes

theorem agrees_srandmember (count : Option Int) : (srandmember S count).Agrees S := by
  cases count with
  | none => exact agrees_optBytes
  | some n =>
    show (if n < 0 then bytesList S else setOfBytes S).Agrees S
    split
    · exact agrees_bytesList
    · exact agrees_setOfBytes

/-- the set commands but for SSCAN agree -/
theorem agrees {c : Cmd} (hc : c ≠ .sscan) : (row S c).Agrees S := by
  cases c with
  | sadd members | srem members => exact agrees_int.onEmpty rfl _ rfl rfl
  | smismember members => exact agrees_boolList.onEmpty rfl _ rfl rfl
  | spop count => exact agrees_spop count
  | srandmember count => exact agrees_srandmember count
  | smembers | sinter | sunion | sdiff => exact agrees_setOfBytes
  | scard | sinterstore | sunionstore | sdiffstore | sintercard => exact agrees_int
  | sismember | smove => exact agrees_bool
  | sscan => exact absurd rfl hc

/-! ## Where the clients differ -/

theorem sscan_convert_iff (decode : Option Codec) (v : Value) :
    SameOutcome (sscan.syncObject decode v) (sscan.awaited S decode (sscan.async v)) ↔
      ∃ cursorV payload, v = .array [cursorV, payload] := by
  show SameOutcome (sscanPy (parseSscanReply v) >>= maybeDecode decode)
    ((sscanRaw (parseSscanReply v)).intoPy S >>= maybeDecode decode) ↔ _
  unfold parseSscanReply
  split
  · exact iff_of_true (sameOutcome_of_eq rfl) ⟨_, _, rfl⟩
  · rename_i hshape
    refine iff_of_false (fun h => ?_) fun ⟨cursorV, payload, hv⟩ => hshape cursorV payload hv
    exact nomatch h

/-- when a set command gives the same on both clients -/
def Alike (server : Server) : Cmd → Prop
  | .sscan => ∀ v, server.reply = .ok v → ∃ cursorV payload, v = .array [cursorV, payload]
  | _ => True

theorem same_iff (c : Cmd) (decode : Option Codec) (server : Server) :
    SameOutcome ((row S c).syncCall false decode server).result ((row S c).asyncCall S false decode server).result ↔
      Alike server c := by
  by_cases hc : c = .sscan
  · subst hc
    show SameOutcome (sscan.syncCall false decode server).result (sscan.asyncCall S false decode server).result ↔ _
    rw [Row.same_iff rfl rfl rfl rfl]
    exact forall_congr' fun v => imp_congr Row.fetched_value_iff (sscan_convert_iff decode v)
  have htrue : Alike server c ↔ True := by cases c <;> first | exact Iff.rfl | contradiction
  rw [htrue, (agrees hc).same decode server]
  exact iff_true_intro (sameOutcome_of_eq rfl)

end RedisRsPy.Commands.Sets
