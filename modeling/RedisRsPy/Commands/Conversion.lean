/-
`redis_value_to_py` (`async_bridge.rs`) on replies of any shape, as scripts and transactions can send them.

`Keeps` says that an object holds the data of a reply: arrays, sets and pushes are lists of the same length and order,
and a map is a dict that keeps every pair whose converted key no other pair has. A key that converts to a list or a dict
has no hash, so that `set_item` raises; RESP3 allows such keys, and the conversion of a set into a list, which avoids the
same error for its elements, has no counterpart for them.

Results:
- `keeps_redisValueToPy`: what is converted holds the data;
- `redis_value_to_py_ok_iff`: of the replies without a server error, those are converted whose map keys are no
  aggregates.
Witness: `redis_value_to_py_ok_iff_map`; a map with an array for a key: `redis_value_to_py_array_key`.
-/
import Mathlib.Data.List.Forall2
import RedisRsPy.Commands.All

namespace RedisRsPy.Commands

open Lib.Fallible

/-! ## Replies -/

mutual

/-- no error of the server inside -/
def errorFree : Value → Bool
  | .serverError _ => false
  | .array items | .set items | .push items => errorFreeItems items
  | .map pairs => errorFreePairs pairs
  | .attribute data => errorFree data
  | _ => true

def errorFreeItems : List Value → Bool
  | [] => true
  | v :: rest => errorFree v && errorFreeItems rest

def errorFreePairs : List (Value × Value) → Bool
  | [] => true
  | (k, v) :: rest => errorFree k && errorFree v && errorFreePairs rest

end

/-- an array, a set, a push or a map, under any attributes -/
def aggregate : Value → Bool
  | .array _ | .set _ | .push _ | .map _ => true
  | .attribute data => aggregate data
  | _ => false

mutual

/-- no map inside has an aggregate for a key -/
def plainKeys : Value → Bool
  | .array items | .set items | .push items => plainKeysItems items
  | .map pairs => plainKeysPairs pairs
  | .attribute data => plainKeys data
  | _ => true

def plainKeysItems : List Value → Bool
  | [] => true
  | v :: rest => plainKeys v && plainKeysItems rest

def plainKeysPairs : List (Value × Value) → Bool
  | [] => true
  | (k, v) :: rest => !aggregate k && plainKeys k && plainKeys v && plainKeysPairs rest

end

/-! ## What is kept -/

/-- what a reply that is no aggregate is in Python -/
def scalarPy : Value → Option PyObj
  | .nil => some .none
  | .int n => some (.int n)
  | .bulkString b => some (.bytes b)
  | .simpleString s => some (.bytes (asBytes s))
  | .verbatimString text => some (.bytes (asBytes text))
  | .boolean b => some (.bool b)
  | .double bits => some (.float bits)
  | .bigNumber n => some (.str (toString n))
  | .okay => some (.bool true)
  | _ => none

/-- the object holds the data of the reply -/
inductive Keeps : Value → PyObj → Prop
  | scalar {v : Value} {x : PyObj} (h : scalarPy v = some x) : Keeps v x
  | array {items : List Value} {objs : List PyObj} (h : List.Forall₂ Keeps items objs) : Keeps (.array items) (.list objs)
  | set {items : List Value} {objs : List PyObj} (h : List.Forall₂ Keeps items objs) : Keeps (.set items) (.list objs)
  | push {items : List Value} {objs : List PyObj} (h : List.Forall₂ Keeps items objs) : Keeps (.push items) (.list objs)
  | attribute {data : Value} {x : PyObj} (h : Keeps data x) : Keeps (.attribute data) x
  | map {pairs : List (Value × Value)} {objs dict : List (PyObj × PyObj)}
      (keys : List.Forall₂ Keeps (pairs.map Prod.fst) (objs.map Prod.fst))
      (values : List.Forall₂ Keeps (pairs.map Prod.snd) (objs.map Prod.snd))
      (own : ∀ before kv after, objs = before ++ kv :: after → (∀ e ∈ before, sameKey e.1 kv.1 = false) →
        (∀ e ∈ after, sameKey kv.1 e.1 = false) → kv ∈ dict)
      (all : Lib.Dict.Distinct sameKey objs → dict = objs) : Keeps (.map pairs) (.dict dict)

variable (S : Std)

/-- what is set, one entry after the other, is kept -/
theorem Keeps.mkDict {pairs : List (Value × Value)} {objs : List (PyObj × PyObj)}
    (keys : List.Forall₂ Keeps (pairs.map Prod.fst) (objs.map Prod.fst))
    (values : List.Forall₂ Keeps (pairs.map Prod.snd) (objs.map Prod.snd)) : Keeps (.map pairs) (mkDict objs) := by
  refine .map keys values ?_ Lib.Dict.ofList_of_distinct
  rintro before kv after rfl hbefore hafter
  exact Lib.Dict.mem_ofList hbefore hafter

mutual

/-- **The data is kept.** What the conversion returns holds the data of the reply. -/
theorem keeps_redisValueToPy : ∀ {v : Value} {x : PyObj}, redisValueToPy S v = .ok x → Keeps v x
  | .nil, _, h | .int _, _, h | .bulkString _, _, h | .simpleString _, _, h | .boolean _, _, h | .double _, _, h
  | .okay, _, h | .bigNumber _, _, h | .verbatimString _, _, h => by
    cases h
    exact .scalar rfl
  | .serverError _, _, h => by cases h
  | .attribute data, _, h => .attribute (keeps_redisValueToPy (v := data) h)
  | .array items, _, h => by
    obtain ⟨l, hl, hx⟩ := bind_ok_iff.1 h
    cases hx
    exact .array (keeps_redisValuesToPy hl)
  | .set items, _, h => by
    obtain ⟨l, hl, hx⟩ := bind_ok_iff.1 h
    cases hx
    exact .set (keeps_redisValuesToPy hl)
  | .push items, _, h => by
    obtain ⟨l, hl, hx⟩ := bind_ok_iff.1 h
    cases hx
    exact .push (keeps_redisValuesToPy hl)
  | .map pairs, _, h => by
    obtain ⟨l, hl, hx⟩ := bind_ok_iff.1 h
    cases hx
    exact Keeps.mkDict (keeps_redisPairsToPy hl).1 (keeps_redisPairsToPy hl).2

theorem keeps_redisValuesToPy : ∀ {l : List Value} {xs : List PyObj}, redisValuesToPy S l = .ok xs → List.Forall₂ Keeps l xs
  | [], _, h => by
    cases h
    exact .nil
  | v :: rest, _, h => by
    obtain ⟨x, hx, h⟩ := bind_ok_iff.1 h
    obtain ⟨xs, hxs, hl⟩ := bind_ok_iff.1 h
    cases hl
    exact .cons (keeps_redisValueToPy hx) (keeps_redisValuesToPy hxs)

theorem keeps_redisPairsToPy : ∀ {l : List (Value × Value)} {xs : List (PyObj × PyObj)}, redisPairsToPy S l = .ok xs →
    List.Forall₂ Keeps (l.map Prod.fst) (xs.map Prod.fst) ∧ List.Forall₂ Keeps (l.map Prod.snd) (xs.map Prod.snd)
  | [], _, h => by
    cases h
    exact ⟨.nil, .nil⟩
  | (k, v) :: rest, _, h => by
    obtain ⟨x, hx, h⟩ := bind_ok_iff.1 h
    obtain ⟨y, hy, h⟩ := bind_ok_iff.1 h
    split at h
    · obtain ⟨xs, hxs, hl⟩ := bind_ok_iff.1 h
      cases hl
      obtain ⟨hkeys, hvalues⟩ := keeps_redisPairsToPy hxs
      exact ⟨.cons (keeps_redisValueToPy hx) hkeys, .cons (keeps_redisValueToPy hy) hvalues⟩
    · cases h

end

/-! ## What is converted -/

/-- a converted reply has a hash where it is no aggregate -/
theorem hashable_redisValueToPy : ∀ {v : Value} {x : PyObj}, redisValueToPy S v = .ok x → hashable x = !aggregate v
  | .nil, _, h | .int _, _, h | .bulkString _, _, h | .simpleString _, _, h | .boolean _, _, h | .double _, _, h
  | .okay, _, h | .bigNumber _, _, h | .verbatimString _, _, h => by
    cases h
    rfl
  | .serverError _, _, h => by cases h
  | .attribute data, _, h => hashable_redisValueToPy (v := data) h
  | .array _, _, h | .set _, _, h | .push _, _, h | .map _, _, h => by
    obtain ⟨l, -, hx⟩ := bind_ok_iff.1 h
    cases hx
    rfl

mutual

theorem redisValueToPy_ok_iff : ∀ v : Value, errorFree v = true → ((∃ x, redisValueToPy S v = .ok x) ↔ plainKeys v = true)
  | .nil, _ | .int _, _ | .bulkString _, _ | .simpleString _, _ | .boolean _, _ | .double _, _
  | .okay, _ | .bigNumber _, _ | .verbatimString _, _ => iff_of_true ⟨_, rfl⟩ rfl
  | .serverError _, h => by cases h
  | .attribute data, h => redisValueToPy_ok_iff data h
  | .array items, h | .set items, h | .push items, h => by
    rw [plainKeys, ← redisValuesToPy_ok_iff items h]
    constructor
    · rintro ⟨x, hx⟩
      obtain ⟨l, hl, -⟩ := bind_ok_iff.1 hx
      exact ⟨l, hl⟩
    · rintro ⟨l, hl⟩
      exact ⟨.list l, bind_ok_iff.2 ⟨l, hl, rfl⟩⟩
  | .map pairs, h => by
    rw [plainKeys, ← redisPairsToPy_ok_iff pairs h]
    constructor
    · rintro ⟨x, hx⟩
      obtain ⟨l, hl, -⟩ := bind_ok_iff.1 hx
      exact ⟨l, hl⟩
    · rintro ⟨l, hl⟩
      exact ⟨mkDict l, bind_ok_iff.2 ⟨l, hl, rfl⟩⟩

theorem redisValuesToPy_ok_iff : ∀ l : List Value, errorFreeItems l = true →
    ((∃ xs, redisValuesToPy S l = .ok xs) ↔ plainKeysItems l = true)
  | [], _ => iff_of_true ⟨[], rfl⟩ rfl
  | v :: rest, h => by
    obtain ⟨hv, hrest⟩ := Bool.and_eq_true_iff.1 h
    rw [plainKeysItems, Bool.and_eq_true_iff, ← redisValueToPy_ok_iff v hv, ← redisValuesToPy_ok_iff rest hrest]
    constructor
    · rintro ⟨l, hl⟩
      obtain ⟨x, hx, hl⟩ := bind_ok_iff.1 hl
      obtain ⟨xs, hxs, -⟩ := bind_ok_iff.1 hl
      exact ⟨⟨x, hx⟩, xs, hxs⟩
    · rintro ⟨⟨x, hx⟩, xs, hxs⟩
      exact ⟨x :: xs, bind_ok_iff.2 ⟨x, hx, bind_ok_iff.2 ⟨xs, hxs, rfl⟩⟩⟩

theorem redisPairsToPy_ok_iff : ∀ l : List (Value × Value), errorFreePairs l = true →
    ((∃ xs, redisPairsToPy S l = .ok xs) ↔ plainKeysPairs l = true)
  | [], _ => iff_of_true ⟨[], rfl⟩ rfl
  | (k, v) :: rest, h => by
    obtain ⟨hkv, hrest⟩ := Bool.and_eq_true_iff.1 h
    obtain ⟨hk, hv⟩ := Bool.and_eq_true_iff.1 hkv
    rw [plainKeysPairs, Bool.and_eq_true_iff, Bool.and_eq_true_iff, Bool.and_eq_true_iff,
      ← redisValueToPy_ok_iff k hk, ← redisValueToPy_ok_iff v hv, ← redisPairsToPy_ok_iff rest hrest]
    constructor
    · rintro ⟨l, hl⟩
      obtain ⟨x, hx, hl⟩ := bind_ok_iff.1 hl
      obtain ⟨y, hy, hl⟩ := bind_ok_iff.1 hl
      split at hl
      · rename_i hkey
        obtain ⟨xs, hxs, -⟩ := bind_ok_iff.1 hl
        rw [hashable_redisValueToPy S hx] at hkey
        exact ⟨⟨⟨hkey, x, hx⟩, y, hy⟩, xs, hxs⟩
      · cases hl
    · rintro ⟨⟨⟨hkey, x, hx⟩, y, hy⟩, xs, hxs⟩
      rw [← hashable_redisValueToPy S hx] at hkey
      refine ⟨(x, y) :: xs, bind_ok_iff.2 ⟨x, hx, bind_ok_iff.2 ⟨y, hy, ?_⟩⟩⟩
      rw [if_pos hkey, hxs]
      rfl

end

/-- **What is converted.** Of the replies without a server error, exactly those are converted into an object that holds
their data in which no map has an aggregate for a key; and `into_py` is the conversion. -/
theorem redis_value_to_py_ok_iff {v : Value} (h : errorFree v = true) :
    ((∃ x, redisValueToPy S v = .ok x ∧ Keeps v x) ↔ plainKeys v = true) ∧
      (RawResult.value v).intoPy S = redisValueToPy S v := by
  refine ⟨?_, rfl⟩
  rw [← redisValueToPy_ok_iff S v h]
  constructor
  · rintro ⟨x, hx, -⟩
    exact ⟨x, hx⟩
  · rintro ⟨x, hx⟩
    exact ⟨x, hx, keeps_redisValueToPy S hx⟩

/-- a map in an array, under an attribute -/
theorem redis_value_to_py_ok_iff_map :
    ∃ x, redisValueToPy bareStd (.array [.attribute (.map [(.int 1, .set [.nil])]), .okay]) = .ok x ∧
      Keeps (.array [.attribute (.map [(.int 1, .set [.nil])]), .okay]) x :=
  (redis_value_to_py_ok_iff bareStd rfl).1.2 rfl

/-- a map with an array for a key -/
theorem redis_value_to_py_array_key : errorFree (.map [(.array [.int 1], .nil)]) = true ∧
    ¬ ∃ x, redisValueToPy bareStd (.map [(.array [.int 1], .nil)]) = .ok x := by
  refine ⟨rfl, ?_⟩
  rintro ⟨x, hx⟩
  cases hx

end RedisRsPy.Commands
