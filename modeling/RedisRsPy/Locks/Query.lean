/-
`Lock.owned` and `Lock.locked` (`facade/sync.rs`): both read the key with the public `Redis.get` of their client, which
decodes the value where the client decodes, and take what they get as bytes or None.

Results:
- `getKey_string`, `getKey_other`: what the read comes to, by what the key holds;
- `answers_truthful_iff`: when the answers are the truth.
-/
import RedisRsPy.Commands.All
import RedisRsPy.Locks.Lock

namespace RedisRsPy.Locks

open Commands

/-! ## The key -/

/-- what a key holds: a string, or a value of another type such as a list -/
inductive Stored where
  | string (k : Key Bytes)
  | other
deriving DecidableEq

/-- `WRONGTYPE`, which the crate knows by its code alone -/
def wrongType : RedisError :=
  .ofExtension "WRONGTYPE" "Operation against a key holding the wrong kind of value"

/-- the reply to GET -/
def getReply : Option Stored → RedisResult Value
  | none => .ok .nil
  | some (.string k) => .ok (.bulkString k.value)
  | some .other => .error wrongType

/-! ## The queries -/

def extractByte : PyObj → Option UInt8
  | .int n => if 0 ≤ n ∧ n < 256 then some (UInt8.ofNat n.toNat) else none
  | _ => none

/-- `extract::<Option<Vec<u8>>>()`: a `str` is no sequence of bytes -/
def extractOptBytes (x : PyObj) : Except Exn (Option Bytes) :=
  match x with
  | .none => .ok none
  | .bytes b => .ok (some b)
  | .list items | .tuple items =>
    match items.mapM extractByte with
    | some b => .ok (some b)
    | none => .error (.builtin .TypeError "not a sequence of bytes")
  | .str _ => .error (.builtin .TypeError "Can't extract `str` to `Vec`")
  | _ => .error (.builtin .TypeError "not a sequence of bytes")

variable (S : Std)

/-- `r.get(py, &self.name)?.extract(py)?` -/
def getKey (decode : Option Codec) (key : Option Stored) : Except Exn (Option Bytes) := do
  let val ← syncOutcome S decode ⟨.ok (), getReply key⟩ (.strings .get)
  extractOptBytes val

/-- `Lock.owned` -/
def owned (decode : Option Codec) (key : Option Stored) (token : Option Bytes) : Except Exn Bool :=
  match token with
  | none => .ok false
  | some token => do
    let val ← getKey S decode key
    return val == some token

/-- `Lock.locked` -/
def locked (decode : Option Codec) (key : Option Stored) : Except Exn Bool := do
  let val ← getKey S decode key
  return val.isSome

/-! ## The truth -/

/-- the key holds the token of the lock -/
def Owns (key : Option Stored) (token : Option Bytes) : Prop :=
  ∃ t k, token = some t ∧ key = some (.string k) ∧ k.value = t

/-- an answer that is the truth -/
def Truth (p : Prop) (answer : Except Exn Bool) : Prop :=
  ∃ b, answer = .ok b ∧ (b = true ↔ p)

/-- how the crate reads the reply to GET -/
structure ReadsGet : Prop where
  nil : S.fromRedisValue (.opt .bytes) .nil = .ok (none : Option Bytes)
  bulk : ∀ b : Bytes, S.fromRedisValue (.opt .bytes) (.bulkString b) = .ok (some b)

variable {S} {decode : Option Codec}

theorem getKey_none (h : ReadsGet S) : getKey S decode none = .ok none := by
  have hget : syncOutcome S decode ⟨.ok (), .ok .nil⟩ (.strings .get) = maybeDecode decode .none := by
    show handle (S.fromRedisValue (.opt .bytes) .nil) _ _ = _
    rw [h.nil]
    rfl
  unfold getKey getReply
  rw [hget]
  cases decode <;> rfl

theorem get_string (h : ReadsGet S) (k : Key Bytes) :
    syncOutcome S decode ⟨.ok (), .ok (.bulkString k.value)⟩ (.strings .get) = maybeDecode decode (.bytes k.value) := by
  show handle (S.fromRedisValue (.opt .bytes) (.bulkString k.value)) _ _ = _
  rw [h.bulk]
  rfl

theorem getKey_string (h : ReadsGet S) (k : Key Bytes) : getKey S none (some (.string k)) = .ok (some k.value) := by
  unfold getKey getReply
  rw [get_string h]
  rfl

/-- text is not taken, and what is no text raises before -/
theorem getKey_decoded (h : ReadsGet S) (codec : Codec) (k : Key Bytes) :
    ∃ e, getKey S (some codec) (some (.string k)) = .error e := by
  unfold getKey getReply
  rw [get_string h]
  show ∃ e, (decodeWalk codec (.bytes k.value) >>= extractOptBytes) = .error e
  rw [decodeWalk]
  cases codec.decode k.value with
  | error e => exact ⟨e, rfl⟩
  | ok s => exact ⟨_, rfl⟩

theorem getKey_other : getKey S decode (some .other) = .error (Commands.toPyErr wrongType) := rfl

/-! ## When the answers are the truth -/

/-- the key is absent, or holds a string and the client does not decode -/
def Readable (decode : Option Codec) : Option Stored → Prop
  | none => True
  | some (.string _) => decode = none
  | some .other => False

/-- a key that is not read makes both queries raise -/
theorem getKey_of_not_readable (h : ReadsGet S) {key : Option Stored} (hkey : ¬ Readable decode key) :
    ∃ e, getKey S decode key = .error e := by
  rcases key with _ | k | _
  · exact absurd trivial hkey
  · cases decode with
    | none => exact absurd rfl hkey
    | some codec => exact getKey_decoded h codec k
  · exact ⟨_, getKey_other⟩

theorem truth_of_error {p : Prop} {e : Exn} : ¬ Truth p (.error e) := by
  rintro ⟨b, hb, -⟩
  cases hb

theorem locked_iff (h : ReadsGet S) (key : Option Stored) :
    Truth (∃ v, key = some v) (locked S decode key) ↔ Readable decode key := by
  constructor
  · intro htruth
    by_contra hkey
    obtain ⟨e, he⟩ := getKey_of_not_readable h hkey
    rw [locked, he] at htruth
    exact truth_of_error htruth
  · intro hkey
    rcases key with _ | k | _
    · rw [locked, getKey_none h]
      exact ⟨false, rfl, by simp⟩
    · obtain rfl : decode = none := hkey
      rw [locked, getKey_string h]
      exact ⟨true, rfl, by simp⟩
    · exact absurd hkey id

theorem owned_iff (h : ReadsGet S) (key : Option Stored) (token : Option Bytes) :
    Truth (Owns key token) (owned S decode key token) ↔ token = none ∨ Readable decode key := by
  cases token with
  | none =>
    refine iff_of_true ⟨false, rfl, iff_of_false Bool.false_ne_true ?_⟩ (.inl rfl)
    rintro ⟨t, k, ht, -⟩
    cases ht
  | some token =>
    rw [owned]
    constructor
    · intro htruth
      by_contra hkey
      obtain ⟨e, he⟩ := getKey_of_not_readable h fun hreadable => hkey (.inr hreadable)
      rw [he] at htruth
      exact truth_of_error htruth
    · rintro (hnone | hkey)
      · cases hnone
      rcases key with _ | k | _
      · rw [getKey_none h]
        refine ⟨false, rfl, iff_of_false Bool.false_ne_true ?_⟩
        rintro ⟨t, k, -, hk, -⟩
        cases hk
      · obtain rfl : decode = none := hkey
        rw [getKey_string h]
        refine ⟨some k.value == some token, rfl, ?_⟩
        rw [beq_iff_eq, Option.some.injEq]
        constructor
        · intro heq
          exact ⟨token, k, rfl, rfl, heq⟩
        · rintro ⟨t, k', ht, hk, heq⟩
          cases ht
          cases hk
          exact heq
      · exact absurd hkey id

/-- **Queries.** `locked` tells whether the key exists, and `owned` whether it holds the token of the lock, exactly where the
key is absent or holds a string that the client leaves as bytes; a lock without a token does not ask. -/
theorem answers_truthful_iff (h : ReadsGet S) (decode : Option Codec) (key : Option Stored) (token : Option Bytes) :
    (Truth (∃ v, key = some v) (locked S decode key) ↔ Readable decode key) ∧
    (Truth (Owns key token) (owned S decode key token) ↔ token = none ∨ Readable decode key) :=
  ⟨locked_iff h key, owned_iff h key token⟩

/-- a crate that reads replies to GET, and no more -/
def getStd : Std :=
  { bareStd with
    fromRedisValue := fun t v => match t, v with
      | .opt .bytes, .nil => .ok none
      | .opt .bytes, .bulkString b => .ok (some b)
      | t, v => bareStd.fromRedisValue t v }

theorem readsGet_getStd : ReadsGet getStd := ⟨rfl, fun _ => rfl⟩

/-- a lock that is held, asked by a client that does not decode -/
theorem truthful_held :
    Truth (∃ v, some (Stored.string ⟨[116], none⟩) = some v) (locked getStd none (some (.string ⟨[116], none⟩))) ∧
    Truth (Owns (some (.string ⟨[116], none⟩)) (some [116]))
      (owned getStd none (some (.string ⟨[116], none⟩)) (some [116])) :=
  ⟨(answers_truthful_iff readsGet_getStd none _ (some [116])).1.2 rfl, (answers_truthful_iff readsGet_getStd none _ _).2.2 (.inr rfl)⟩

/-- every byte as a character -/
def latin1 : Codec := fun b => .ok (String.ofList (b.map fun c => Char.ofNat c.toNat))

/-- the same lock, asked by a client that decodes -/
theorem queries_raise :
    locked getStd (some latin1) (some (.string ⟨[116], none⟩)) =
        .error (.builtin .TypeError "Can't extract `str` to `Vec`") ∧
      owned getStd (some latin1) (some (.string ⟨[116], none⟩)) (some [116]) =
        .error (.builtin .TypeError "Can't extract `str` to `Vec`") ∧
      ¬ Truth (∃ v, some (Stored.string ⟨[116], none⟩) = some v)
        (locked getStd (some latin1) (some (.string ⟨[116], none⟩))) := by
  refine ⟨rfl, rfl, ?_⟩
  rintro ⟨b, hb, -⟩
  cases hb

end RedisRsPy.Locks
