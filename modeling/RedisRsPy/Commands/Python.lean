/-
Python objects and exceptions, as far as the commands of the clients make them, and `decode_walk` (`facade/decode.rs`).

A float is its bits, a set is what was added to it. A dict is its entries in order; `mkDict` builds one by setting entry
after entry, and `WellKeyed` objects are those whose dicts all have distinct keys. A codec is `bytes.decode` with the
encoding and the error handler of a client: it gives a string or raises.

Results:
- `bytesFree_of_decodeWalk`: what `decode_walk` returns holds no bytes;
- `decodeWalk_eq_self_iff`: it returns the objects that hold no bytes, and only these, as they are.
-/
import Mathlib.Algebra.Group.Int.Defs
import Mathlib.Algebra.Group.Nat.Defs
import RedisRsPy.Errors
import RedisRsPy.Lib.Dict
import RedisRsPy.Lib.Fallible

namespace RedisRsPy.Commands

open Lib.Fallible

/-! ## Exceptions -/

/-- exception classes of Python itself -/
inductive Builtin where
  | ValueError
  | TypeError
  | RuntimeError
  | ConnectionError
  | NotImplementedError
  | LookupError
  | UnicodeDecodeError
  | other (name : String)
deriving DecidableEq, Repr

inductive Exn where
  | driver (e : PyErr)
  | builtin (b : Builtin) (msg : String)
deriving DecidableEq, Repr

/-- the class of an exception -/
def Exn.cls : Exn → ExceptionClass ⊕ Builtin
  | .driver e => .inl e.cls
  | .builtin b _ => .inr b

/-- `to_py_err` -/
def toPyErr (e : RedisError) : Exn := .driver ⟨classifyError e, e.text⟩

/-! ## Objects -/

inductive PyObj where
  | none
  | bool (b : Bool)
  | int (n : Int)
  | float (bits : UInt64)
  | bytes (b : Bytes)
  | str (s : String)
  | list (items : List PyObj)
  | tuple (items : List PyObj)
  | dict (items : List (PyObj × PyObj))
  | set (items : List PyObj)

abbrev PyRes := Except Exn PyObj

/-- two outcomes are the same for Python: equal objects, or exceptions of one class -/
def SameOutcome : PyRes → PyRes → Prop
  | .ok x, .ok y => x = y
  | .error e, .error f => e.cls = f.cls
  | _, _ => False

theorem sameOutcome_of_eq {r r' : PyRes} (h : r = r') : SameOutcome r r' := by
  subst h
  cases r with
  | ok x => exact rfl
  | error e => exact rfl

theorem sameOutcome_comm {r r' : PyRes} : SameOutcome r r' ↔ SameOutcome r' r := by
  cases r with
  | ok x =>
    cases r' with
    | ok y => exact eq_comm
    | error e => exact Iff.rfl
  | error e =>
    cases r' with
    | ok y => exact Iff.rfl
    | error f => exact eq_comm

mutual

/-- the object can be a key: it has a hash -/
def hashable : PyObj → Bool
  | .list _ | .dict _ | .set _ => false
  | .tuple items => hashables items
  | _ => true

def hashables : List PyObj → Bool
  | [] => true
  | x :: rest => hashable x && hashables rest

end

/-! ## Dicts -/

/-- the value of a double; an infinity is its sign, and NaN is no number -/
def doubleValue (bits : UInt64) : Option (Rat ⊕ Bool) :=
  let n := bits.toNat
  let negative := decide (2 ^ 63 ≤ n)
  let sign : Int := if negative then -1 else 1
  let exponent := n / 2 ^ 52 % 2 ^ 11
  let fraction : ℕ := n % 2 ^ 52
  if exponent = 2047 then (if fraction = 0 then some (.inr negative) else none)
  else if exponent = 0 then some (.inl (mkRat (sign * Int.ofNat fraction) (2 ^ 1074)))
  else some (.inl (mkRat (sign * Int.ofNat ((2 ^ 52 + fraction) * 2 ^ exponent)) (2 ^ 1075)))

def number? : PyObj → Option (Rat ⊕ Bool)
  | .bool b => some (.inl (if b then 1 else 0))
  | .int n => some (.inl n)
  | .float bits => doubleValue bits
  | _ => none

/-- one key in a dict; no reply has a tuple for a key -/
def sameKey (x y : PyObj) : Bool :=
  match x, y with
  | .none, .none => true
  | .bytes a, .bytes b => a == b
  | .str s, .str t => s == t
  | x, y =>
    match number? x, number? y with
    | some p, some q => p == q
    | _, _ => false

/-- a new dict with each item set in it -/
def mkDict (items : List (PyObj × PyObj)) : PyObj := .dict (Lib.Dict.ofList sameKey items)

mutual

def WellKeyed : PyObj → Prop
  | .list items | .tuple items | .set items => WellKeyedItems items
  | .dict items => Lib.Dict.Distinct sameKey items ∧ WellKeyedPairs items
  | _ => True

def WellKeyedItems : List PyObj → Prop
  | [] => True
  | x :: rest => WellKeyed x ∧ WellKeyedItems rest

def WellKeyedPairs : List (PyObj × PyObj) → Prop
  | [] => True
  | (k, v) :: rest => (WellKeyed k ∧ WellKeyed v) ∧ WellKeyedPairs rest

end

theorem wellKeyedItems_iff {l : List PyObj} : WellKeyedItems l ↔ ∀ x ∈ l, WellKeyed x := by
  induction l with
  | nil => simp [WellKeyedItems]
  | cons x rest ih => simp [WellKeyedItems, ih]

theorem wellKeyedPairs_iff {l : List (PyObj × PyObj)} :
    WellKeyedPairs l ↔ ∀ kv ∈ l, WellKeyed kv.1 ∧ WellKeyed kv.2 := by
  induction l with
  | nil => simp [WellKeyedPairs]
  | cons kv rest ih => simp [WellKeyedPairs, ih]

theorem wellKeyed_mkDict {items : List (PyObj × PyObj)} (h : ∀ kv ∈ items, WellKeyed kv.1 ∧ WellKeyed kv.2) :
    WellKeyed (mkDict items) :=
  ⟨Lib.Dict.distinct_ofList items, wellKeyedPairs_iff.2 (Lib.Dict.forall_ofList h)⟩

/-! ## Bytes -/

mutual

/-- no `bytes` in the object -/
def bytesFree : PyObj → Bool
  | .bytes _ => false
  | .list items | .tuple items | .set items => bytesFreeItems items
  | .dict items => bytesFreePairs items
  | _ => true

def bytesFreeItems : List PyObj → Bool
  | [] => true
  | x :: rest => bytesFree x && bytesFreeItems rest

def bytesFreePairs : List (PyObj × PyObj) → Bool
  | [] => true
  | (k, v) :: rest => bytesFree k && bytesFree v && bytesFreePairs rest

end

theorem bytesFreeItems_iff {l : List PyObj} : bytesFreeItems l = true ↔ ∀ x ∈ l, bytesFree x = true := by
  induction l with
  | nil => simp [bytesFreeItems]
  | cons x rest ih => simp [bytesFreeItems, ih]

theorem bytesFreePairs_iff {l : List (PyObj × PyObj)} :
    bytesFreePairs l = true ↔ ∀ kv ∈ l, bytesFree kv.1 = true ∧ bytesFree kv.2 = true := by
  induction l with
  | nil => simp [bytesFreePairs]
  | cons kv rest ih => simp [bytesFreePairs, ih, and_assoc]

theorem bytesFree_mkDict {items : List (PyObj × PyObj)} (h : bytesFreePairs items = true) :
    bytesFree (mkDict items) = true := by
  have hset : ∀ kv ∈ Lib.Dict.ofList sameKey items, bytesFree kv.1 = true ∧ bytesFree kv.2 = true :=
    Lib.Dict.forall_ofList (P := (bytesFree · = true)) (Q := (bytesFree · = true)) (bytesFreePairs_iff.1 h)
  exact bytesFreePairs_iff.2 hset

/-! ## Decoding -/

abbrev Codec := Bytes → Except (Builtin × String) String

/-- `bytes.decode` -/
def Codec.decode (codec : Codec) (b : Bytes) : Except Exn String :=
  match codec b with
  | .ok s => .ok s
  | .error (cls, msg) => .error (.builtin cls msg)

mutual

/-- `decode_walk` -/
def decodeWalk (codec : Codec) : PyObj → PyRes
  | .bytes b => do
    let s ← codec.decode b
    return .str s
  | .list items => do
    let walked ← decodeItems codec items
    return .list walked
  | .tuple items => do
    let walked ← decodeItems codec items
    return .tuple walked
  | .dict items => do
    let walked ← decodePairs codec items
    return mkDict walked
  | .set items => do
    let walked ← decodeItems codec items
    return .set walked
  | .none => .ok .none
  | .bool b => .ok (.bool b)
  | .int n => .ok (.int n)
  | .float bits => .ok (.float bits)
  | .str s => .ok (.str s)

def decodeItems (codec : Codec) : List PyObj → Except Exn (List PyObj)
  | [] => .ok []
  | x :: rest => do
    let x' ← decodeWalk codec x
    let rest' ← decodeItems codec rest
    return x' :: rest'

def decodePairs (codec : Codec) : List (PyObj × PyObj) → Except Exn (List (PyObj × PyObj))
  | [] => .ok []
  | (k, v) :: rest => do
    let k' ← decodeWalk codec k
    let v' ← decodeWalk codec v
    let rest' ← decodePairs codec rest
    return (k', v') :: rest'

end

mutual

theorem decodeWalk_of_bytesFree (codec : Codec) :
    ∀ x : PyObj, WellKeyed x → bytesFree x = true → decodeWalk codec x = .ok x
  | .none, _, _ => rfl
  | .bool _, _, _ => rfl
  | .int _, _, _ => rfl
  | .float _, _, _ => rfl
  | .str _, _, _ => rfl
  | .bytes _, _, h => nomatch h
  | .list items, hk, h => by
    rw [decodeWalk, decodeItems_of_bytesFree codec items hk h]
    rfl
  | .tuple items, hk, h => by
    rw [decodeWalk, decodeItems_of_bytesFree codec items hk h]
    rfl
  | .set items, hk, h => by
    rw [decodeWalk, decodeItems_of_bytesFree codec items hk h]
    rfl
  | .dict items, hk, h => by
    have hset : mkDict items = .dict items := congrArg PyObj.dict (Lib.Dict.ofList_of_distinct hk.1)
    rw [decodeWalk, decodePairs_of_bytesFree codec items hk.2 h]
    exact congrArg Except.ok hset

theorem decodeItems_of_bytesFree (codec : Codec) :
    ∀ l : List PyObj, WellKeyedItems l → bytesFreeItems l = true → decodeItems codec l = .ok l
  | [], _, _ => rfl
  | x :: rest, hk, h => by
    obtain ⟨hx, hrest⟩ := Bool.and_eq_true_iff.1 h
    rw [decodeItems, decodeWalk_of_bytesFree codec x hk.1 hx, decodeItems_of_bytesFree codec rest hk.2 hrest]
    rfl

theorem decodePairs_of_bytesFree (codec : Codec) :
    ∀ l : List (PyObj × PyObj), WellKeyedPairs l → bytesFreePairs l = true → decodePairs codec l = .ok l
  | [], _, _ => rfl
  | (k, v) :: rest, hk, h => by
    obtain ⟨hkv, hrest⟩ := Bool.and_eq_true_iff.1 h
    obtain ⟨hk', hv⟩ := Bool.and_eq_true_iff.1 hkv
    rw [decodePairs, decodeWalk_of_bytesFree codec k hk.1.1 hk', decodeWalk_of_bytesFree codec v hk.1.2 hv,
      decodePairs_of_bytesFree codec rest hk.2 hrest]
    rfl

end

mutual

theorem bytesFree_of_decodeWalk (codec : Codec) : ∀ {x y : PyObj}, decodeWalk codec x = .ok y → bytesFree y = true
  | .none, _, h => by cases h; rfl
  | .bool _, _, h => by cases h; rfl
  | .int _, _, h => by cases h; rfl
  | .float _, _, h => by cases h; rfl
  | .str _, _, h => by cases h; rfl
  | .bytes _, _, h => by
    obtain ⟨s, -, hy⟩ := bind_ok_iff.1 h
    cases hy
    rfl
  | .list items, _, h => by
    obtain ⟨l, hl, hy⟩ := bind_ok_iff.1 h
    cases hy
    exact bytesFree_of_decodeItems codec hl
  | .tuple items, _, h => by
    obtain ⟨l, hl, hy⟩ := bind_ok_iff.1 h
    cases hy
    exact bytesFree_of_decodeItems codec hl
  | .set items, _, h => by
    obtain ⟨l, hl, hy⟩ := bind_ok_iff.1 h
    cases hy
    exact bytesFree_of_decodeItems codec hl
  | .dict items, _, h => by
    obtain ⟨l, hl, hy⟩ := bind_ok_iff.1 h
    cases hy
    exact bytesFree_mkDict (bytesFree_of_decodePairs codec hl)

theorem bytesFree_of_decodeItems (codec : Codec) :
    ∀ {l l' : List PyObj}, decodeItems codec l = .ok l' → bytesFreeItems l' = true
  | [], _, h => by cases h; rfl
  | x :: rest, _, h => by
    obtain ⟨x', hx, h⟩ := bind_ok_iff.1 h
    obtain ⟨rest', hrest, hy⟩ := bind_ok_iff.1 h
    cases hy
    rw [bytesFreeItems, bytesFree_of_decodeWalk codec hx, bytesFree_of_decodeItems codec hrest]
    rfl

theorem bytesFree_of_decodePairs (codec : Codec) :
    ∀ {l l' : List (PyObj × PyObj)}, decodePairs codec l = .ok l' → bytesFreePairs l' = true
  | [], _, h => by cases h; rfl
  | (k, v) :: rest, _, h => by
    obtain ⟨k', hk, h⟩ := bind_ok_iff.1 h
    obtain ⟨v', hv, h⟩ := bind_ok_iff.1 h
    obtain ⟨rest', hrest, hy⟩ := bind_ok_iff.1 h
    cases hy
    rw [bytesFreePairs, bytesFree_of_decodeWalk codec hk, bytesFree_of_decodeWalk codec hv,
      bytesFree_of_decodePairs codec hrest]
    rfl

end

/-- `decode_walk` changes every object that holds bytes, and no other -/
theorem decodeWalk_eq_self_iff {codec : Codec} {x : PyObj} (hk : WellKeyed x) :
    decodeWalk codec x = .ok x ↔ bytesFree x = true :=
  ⟨bytesFree_of_decodeWalk codec, decodeWalk_of_bytesFree codec x hk⟩

/-! ## Errors of Python itself -/

/-- whatever it raises is an exception of Python, not of the driver -/
def OnlyBuiltin {α : Type} (res : Except Exn α) : Prop := ∀ e, res = .error e → ∃ b, e.cls = .inr b

theorem onlyBuiltin_ok {α : Type} (a : α) : OnlyBuiltin (.ok a) := fun _ h => nomatch h

theorem onlyBuiltin_builtin {α : Type} (b : Builtin) (msg : String) :
    OnlyBuiltin (.error (.builtin b msg) : Except Exn α) := by
  intro e h
  cases h
  exact ⟨b, rfl⟩

theorem onlyBuiltin_bind {α β : Type} {res : Except Exn α} {f : α → Except Exn β} (hres : OnlyBuiltin res)
    (hf : ∀ a, OnlyBuiltin (f a)) : OnlyBuiltin (res >>= f) := by
  cases res with
  | error e =>
    intro e' h
    cases h
    exact hres e rfl
  | ok a => exact hf a

theorem onlyBuiltin_decode (codec : Codec) (b : Bytes) : OnlyBuiltin (codec.decode b) := by
  unfold Codec.decode
  split
  · exact onlyBuiltin_ok _
  · exact onlyBuiltin_builtin _ _

mutual

theorem onlyBuiltin_decodeWalk (codec : Codec) : ∀ x : PyObj, OnlyBuiltin (decodeWalk codec x)
  | .none => onlyBuiltin_ok _
  | .bool _ => onlyBuiltin_ok _
  | .int _ => onlyBuiltin_ok _
  | .float _ => onlyBuiltin_ok _
  | .str _ => onlyBuiltin_ok _
  | .bytes b => onlyBuiltin_bind (onlyBuiltin_decode codec b) fun _ => onlyBuiltin_ok _
  | .list items => onlyBuiltin_bind (onlyBuiltin_decodeItems codec items) fun _ => onlyBuiltin_ok _
  | .tuple items => onlyBuiltin_bind (onlyBuiltin_decodeItems codec items) fun _ => onlyBuiltin_ok _
  | .set items => onlyBuiltin_bind (onlyBuiltin_decodeItems codec items) fun _ => onlyBuiltin_ok _
  | .dict items => onlyBuiltin_bind (onlyBuiltin_decodePairs codec items) fun _ => onlyBuiltin_ok _

theorem onlyBuiltin_decodeItems (codec : Codec) : ∀ l : List PyObj, OnlyBuiltin (decodeItems codec l)
  | [] => onlyBuiltin_ok _
  | x :: rest =>
    onlyBuiltin_bind (onlyBuiltin_decodeWalk codec x) fun _ =>
      onlyBuiltin_bind (onlyBuiltin_decodeItems codec rest) fun _ => onlyBuiltin_ok _

theorem onlyBuiltin_decodePairs (codec : Codec) : ∀ l : List (PyObj × PyObj), OnlyBuiltin (decodePairs codec l)
  | [] => onlyBuiltin_ok _
  | (k, v) :: rest =>
    onlyBuiltin_bind (onlyBuiltin_decodeWalk codec k) fun _ =>
      onlyBuiltin_bind (onlyBuiltin_decodeWalk codec v) fun _ =>
        onlyBuiltin_bind (onlyBuiltin_decodePairs codec rest) fun _ => onlyBuiltin_ok _

end

/-! ## The setting of a client -/

/-- `maybe_decode`, and what the coroutine of `maybe_wrap` does with the awaited value -/
def maybeDecode (decode : Option Codec) (x : PyObj) : PyRes :=
  match decode with
  | some codec => decodeWalk codec x
  | none => .ok x

theorem onlyBuiltin_maybeDecode (decode : Option Codec) (x : PyObj) : OnlyBuiltin (maybeDecode decode x) := by
  cases decode with
  | some codec => exact onlyBuiltin_decodeWalk codec x
  | none => exact onlyBuiltin_ok x

theorem maybeDecode_of_bytesFree (decode : Option Codec) {x : PyObj} (hk : WellKeyed x) (h : bytesFree x = true) :
    maybeDecode decode x = .ok x := by
  cases decode with
  | some codec => exact decodeWalk_of_bytesFree codec x hk h
  | none => rfl

/-- **Undecoded values show.** A client that decodes and one that does not give the same for an object exactly where the
object holds no bytes. -/
theorem sameOutcome_maybeDecode_iff {decode : Option Codec} {x : PyObj} (hk : WellKeyed x) :
    SameOutcome (maybeDecode decode x) (.ok x) ↔ decode = none ∨ bytesFree x = true := by
  cases decode with
  | none => exact iff_of_true rfl (.inl rfl)
  | some codec =>
    constructor
    · intro h
      cases hwalk : decodeWalk codec x with
      | error e =>
        rw [maybeDecode, hwalk] at h
        exact h.elim
      | ok y =>
        rw [maybeDecode, hwalk] at h
        have hyx : y = x := h
        exact .inr (hyx ▸ bytesFree_of_decodeWalk codec hwalk)
    · rintro (h | hfree)
      · exact nomatch h
      · exact sameOutcome_of_eq (decodeWalk_of_bytesFree codec x hk hfree)

end RedisRsPy.Commands
