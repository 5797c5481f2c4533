/-
List commands (`commands/lists.rs`).

BLPOP and BRPOP are where the two clients differ: the sync methods give the key as a string, the async ones as bytes.
`same_iff` says when that does not show. The blocking methods go past the macros, and so past the guard, but for
`AsyncRedis::blmpop`, which has a guard of its own.
-/
import RedisRsPy.Commands.Shapes

namespace RedisRsPy.Commands.Lists

/-! ## Arguments -/

/-- `validate_pop_direction` -/
def validatePopDirection (direction : String) : Arg :=
  let d := direction.toUpper
  if d ≠ "LEFT" ∧ d ≠ "RIGHT" then throw (dataError "direction must be 'LEFT' or 'RIGHT'") else return

/-- the check of `linsert` -/
def validateWhere (where_ : String) : Arg :=
  match where_.toUpper with
  | "BEFORE" => return
  | "AFTER" => return
  | _ => throw (dataError "where argument must be 'BEFORE' or 'AFTER'")

/-! ## Conversions -/

/-- `opt_key_and_bytes_to_py`, for a pair -/
def keyAndBytesPy (kv : String × Bytes) : PyObj := .tuple [.str kv.1, .bytes kv.2]

/-! ## Commands -/

inductive Cmd where
  | lpush
  | rpush
  | lpushx
  | rpushx
  | lpop (count : Option ℕ)
  | rpop (count : Option ℕ)
  | lrange
  | llen
  | lmove
  | lpos (count : Option Int)
  | lrem
  | lindex
  | lset
  | linsert (where_ : String)
  | ltrim
  | lmpop (direction : String)
  | blpop
  | brpop
  | blmove
  | blmpop (direction : String)

variable (S : Std)

/-- LPOP and RPOP -/
def pop : Option ℕ → Row
  | none => reads S (.opt .bytes) (optPy .bytes) fun
    | some b => .optBytes (some b)
    | none => .nil
  | some _ => reads S (.opt (.vec .bytes)) (optPy bytesListPy) fun
    | some items => .bytesList items
    | none => .nil

def lpos : Option Int → Row
  | none => undecoded (reads S (.opt .i64) (optPy .int) fun
    | some i => .int i
    | none => .nil)
  | some _ => undecoded (reads S (.vec .i64) (listPy .int) fun items => .value (.array (items.map .int)))

/-- LMPOP and BLMPOP -/
def multiPop : Row := fetches (lmpop S) (optPy keyAndBytesListPy) .optKeyAndBytesList

/-- BLPOP and BRPOP -/
def blockingPop : Row := (fetches (bpopInner S) (optPy keyAndBytesPy) .optKeyAndBytes).bypassing

def blmpop (direction : String) : Row :=
  { multiPop S with
    syncSteps := [.check (validatePopDirection direction)]
    asyncSteps := [.guard, .check (validatePopDirection direction)]
    blocking := true }

def row : Cmd → Row
  | .lpush => int S
  | .rpush => int S
  | .lpushx => int S
  | .rpushx => int S
  | .lpop count => pop S count
  | .rpop count => pop S count
  | .lrange => bytesList S
  | .llen => int S
  | .lmove => optBytes S
  | .lpos count => lpos S count
  | .lrem => int S
  | .lindex => optBytes S
  | .lset => unit S
  | .linsert where_ => (int S).checked (validateWhere where_)
  | .ltrim => unit S
  | .lmpop direction => (multiPop S).checked (validatePopDirection direction)
  | .blpop => blockingPop S
  | .brpop => blockingPop S
  | .blmove => (optBytes S).bypassing
  | .blmpop direction => blmpop S direction

/-! ## Agreement -/

variable {S}

theorem agrees_pop (count : Option ℕ) : (pop S count).Agrees S := by
  cases count with
  | none =>
    refine agrees_reads fun x => ?_
    cases x <;> rfl
  | some _ =>
    refine agrees_reads fun x => ?_
    cases x <;> rfl

theorem redisValuesToPy_ints (items : List Int) :
    redisValuesToPy S (items.map .int) = .ok (items.map .int) := by
  induction items with
  | nil => rfl
  | cons n rest ih =>
    rw [List.map_cons, redisValuesToPy, ih]
    rfl

theorem agrees_lpos (count : Option Int) : (lpos S count).Agrees S := by
  cases count with
  | none =>
    refine agrees_undecoded_of_plain (agrees_reads fun x => ?_) fun x => ?_
    · cases x <;> rfl
    · cases x <;> rfl
  | some _ =>
    refine agrees_undecoded (agrees_reads fun items => ?_) fun items o h => ?_
    · show redisValueToPy S (.array (items.map .int)) = _
      rw [redisValueToPy, redisValuesToPy_ints]
      rfl
    · cases h
      exact bytesFree_listPy (f := .int) (fun _ => rfl) items

theorem agrees_multiPop : (multiPop S).Agrees S := agrees_fetches fun _ => rfl

theorem agrees_blmpop (direction : String) : (blmpop S direction).Agrees S where
  convert _ := rfl
  wraps := rfl
  decodes := .inl rfl
  connectErr := rfl
  steps := by
    intro decode
    unfold blmpop
    cases validatePopDirection direction <;> rfl

/-- the list commands but for BLPOP and BRPOP agree -/
theorem agrees {c : Cmd} (hl : c ≠ .blpop) (hr : c ≠ .brpop) : (row S c).Agrees S := by
  cases c with
  | lpop count | rpop count => exact agrees_pop count
  | lpos count => exact agrees_lpos count
  | linsert where_ => exact agrees_int.checked _
  | lmpop direction => exact agrees_multiPop.checked _
  | blmpop direction => exact agrees_blmpop direction
  | blmove => exact agrees_optBytes.bypassing rfl
  | blpop => exact absurd rfl hl
  | brpop => exact absurd rfl hr
  | lpush | rpush | lpushx | rpushx | llen | lrem => exact agrees_int
  | lrange => exact agrees_bytesList
  | lmove | lindex => exact agrees_optBytes
  | lset | ltrim => exact agrees_unit

/-! ## Where the clients differ -/

/-- a key decodes to the string it was, or nothing of the pair reaches the caller -/
def KeyAlike (codec : Codec) (key : String) (val : Bytes) : Prop :=
  match codec.decode (asBytes key), codec.decode val with
  | .ok s, .ok _ => s = key
  | .ok _, .error _ => True
  | .error _, .ok _ => False
  | .error e, .error f => e.cls = f.cls

/-- when BLPOP and BRPOP give the same on both clients: nothing is popped, or the client decodes, and the key alike -/
def PopAlike (decode : Option Codec) (popped : RedisResult (Option (String × Bytes))) : Prop :=
  ∀ key val, popped = .ok (some (key, val)) → ∃ codec, decode = some codec ∧ KeyAlike codec key val

theorem decodeWalk_sync_pair (codec : Codec) (key : String) (val : Bytes) :
    decodeWalk codec (.tuple [.str key, .bytes val]) =
      (codec.decode val).map fun v => .tuple [.str key, .str v] := by
  simp only [decodeWalk, decodeItems]
  cases codec.decode val <;> rfl

theorem decodeWalk_async_pair (codec : Codec) (key val : Bytes) :
    decodeWalk codec (.tuple [.bytes key, .bytes val]) =
      codec.decode key >>= fun k => (codec.decode val).map fun v => .tuple [.str k, .str v] := by
  simp only [decodeWalk, decodeItems]
  cases codec.decode key with
  | error e => rfl
  | ok k => cases codec.decode val <;> rfl

theorem same_pair_iff (decode : Option Codec) (key : String) (val : Bytes) :
    SameOutcome (maybeDecode decode (.tuple [.str key, .bytes val]))
        (maybeDecode decode (.tuple [.bytes (asBytes key), .bytes val])) ↔
      ∃ codec, decode = some codec ∧ KeyAlike codec key val := by
  cases decode with
  | none =>
    refine ⟨fun h => ?_, fun ⟨_, h, _⟩ => (nomatch h)⟩
    have hobj : PyObj.tuple [.str key, .bytes val] = .tuple [.bytes (asBytes key), .bytes val] := h
    injection hobj with hitems
    injection hitems with hkey
    exact nomatch hkey
  | some codec =>
    have hsome : (∃ c, some codec = some c ∧ KeyAlike c key val) ↔ KeyAlike codec key val := by simp
    rw [hsome]
    show SameOutcome (decodeWalk codec _) (decodeWalk codec _) ↔ _
    rw [decodeWalk_sync_pair, decodeWalk_async_pair]
    unfold KeyAlike
    cases codec.decode (asBytes key) with
    | error e =>
      cases codec.decode val with
      | error f => exact eq_comm
      | ok v => exact Iff.rfl
    | ok s =>
      cases codec.decode val with
      | error f => exact iff_of_true rfl trivial
      | ok v =>
        show PyObj.tuple [.str key, .str v] = .tuple [.str s, .str v] ↔ s = key
        refine ⟨fun h => ?_, fun h => by rw [h]⟩
        injection h with hitems
        injection hitems with hkey
        injection hkey with hs
        exact hs.symm

theorem blockingPop_same_iff (decode : Option Codec) (server : Server) :
    SameOutcome ((blockingPop S).syncCall false decode server).result
        ((blockingPop S).asyncCall S false decode server).result ↔
      PopAlike decode ((blockingPop S).received server) := by
  rw [Row.same_iff rfl rfl rfl rfl]
  constructor
  · intro h key val hpop
    exact (same_pair_iff decode key val).1 (h _ hpop)
  · intro h x hx
    rcases x with _ | ⟨key, val⟩
    · cases decode <;> exact rfl
    · exact (same_pair_iff decode key val).2 (h key val hx)

/-- when a list command gives the same on both clients -/
def Alike (S : Std) (decode : Option Codec) (server : Server) : Cmd → Prop
  | .blpop => PopAlike decode ((blockingPop S).received server)
  | .brpop => PopAlike decode ((blockingPop S).received server)
  | _ => True

theorem same_iff (c : Cmd) (decode : Option Codec) (server : Server) :
    SameOutcome ((row S c).syncCall false decode server).result ((row S c).asyncCall S false decode server).result ↔
      Alike S decode server c := by
  by_cases hl : c = .blpop
  · subst hl
    exact blockingPop_same_iff decode server
  by_cases hr : c = .brpop
  · subst hr
    exact blockingPop_same_iff decode server
  have htrue : Alike S decode server c ↔ True := by cases c <;> first | exact Iff.rfl | contradiction
  rw [htrue, (agrees hl hr).same decode server]
  exact iff_true_intro (sameOutcome_of_eq rfl)

end RedisRsPy.Commands.Lists
