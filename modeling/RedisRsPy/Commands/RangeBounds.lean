/-
Bytes in sorted-set commands (`commands/zsets.rs`): the bounds of ZRANGE and ZRANGESTORE on their way to the server, and
the key of a ZMPOP or BZMPOP on its way back. Both go through a Rust `String`.

A bound is sent as it is where it is a string, an integer of 64 bits, or bytes that are UTF-8. Other bytes are sent with
replacement characters in them, and a float is refused although the comment on `pyany_to_zrange_arg` lists it. A key
comes back as text; the methods take their keys as strings, so that the keys they ask for come back as they were given.

Results:
- `pyanyToZrangeArg_kind`, `buildZrangeCmd_checks`: the checks of these functions are those of `Zsets`;
- `sent_iff`, `lex_bound_iff`: which bounds are sent as they are, and which members a lexical bound selects by;
- `popped_iff`, `popped_asked`: which keys can be told from what comes back;
- `zset_bytes_exact_iff`: all of it.
Witness: `zset_bytes_exact_iff_lex`; a range that is not the one asked for: `zset_bytes_lossy_bound`.
-/
import RedisRsPy.Commands.All
import RedisRsPy.Commands.Wire
import RedisRsPy.Lib.Utf8

namespace RedisRsPy.Commands.RangeBounds

open Lib.Fallible

/-! ## Commands -/

/-- a start or a stop, as Python gives it -/
inductive Bound where
  | int (n : Int)
  | float (bits : UInt64)
  | str (s : String)
  | bytes (b : Bytes)
deriving DecidableEq, Repr

/-- `String::from_utf8_lossy` -/
def fromUtf8Lossy (b : Bytes) : String := String.ofList (Lib.Utf8.decodeLossy b)

/-- `extract::<i64>` takes it -/
def isI64 (n : Int) : Bool := decide (-2 ^ 63 ≤ n ∧ n < 2 ^ 63)

/-- `pyany_to_zrange_arg` -/
def pyanyToZrangeArg : Bound → Except Exn String
  | .int n => if isI64 n then .ok (toString n) else .error (dataError "ZRANGE start/stop must be int, str, or bytes")
  | .str s => .ok s
  | .bytes b => .ok (fromUtf8Lossy b)
  | .float _ => .error (dataError "ZRANGE start/stop must be int, str, or bytes")

structure RangeFlags where
  byscore : Bool
  bylex : Bool
  desc : Bool
  offset : Option Int
  num : Option Int
  withscores : Bool

/-- `build_zrange_cmd` -/
def buildZrangeCmd (name : String) (leadingArgs : List String) (start stop : String) (f : RangeFlags) :
    Except Exn Cmd := do
  if f.byscore && f.bylex then throw (dataError "ZRANGE: BYSCORE and BYLEX are mutually exclusive")
  if (f.offset.isSome || f.num.isSome) && !(f.byscore || f.bylex) then
    throw (dataError "ZRANGE: LIMIT (offset/num) requires BYSCORE or BYLEX")
  if f.withscores && f.bylex then throw (dataError "ZRANGE: WITHSCORES is not allowed with BYLEX")
  let limit ← match f.offset, f.num with
    | some o, some n => pure [asBytes "LIMIT", intArg o, intArg n]
    | none, none => pure []
    | _, _ => throw (dataError "ZRANGE: both `offset` and `num` are required for LIMIT")
  return [asBytes name] ++ leadingArgs.map asBytes ++ [asBytes start, asBytes stop] ++
    ((if f.byscore then [asBytes "BYSCORE"] else []) ++ (if f.bylex then [asBytes "BYLEX"] else []) ++
      (if f.desc then [asBytes "REV"] else []) ++ limit ++ if f.withscores then [asBytes "WITHSCORES"] else [])

/-- the command of `zrange` -/
def zrange (key : String) (start stop : Bound) (f : RangeFlags) : Except Exn Cmd := do
  let start ← pyanyToZrangeArg start
  let stop ← pyanyToZrangeArg stop
  buildZrangeCmd "ZRANGE" [key] start stop f

/-- the command of `zrangestore`, which takes no `withscores` -/
def zrangestore (destination source : String) (start stop : Bound) (f : RangeFlags) : Except Exn Cmd := do
  let start ← pyanyToZrangeArg start
  let stop ← pyanyToZrangeArg stop
  buildZrangeCmd "ZRANGESTORE" [destination, source] start stop { f with withscores := false }

/-! ## The checks -/

def Bound.kind : Bound → Zsets.RangeArg
  | .int n => if isI64 n then .int else .other
  | .float _ => .other
  | .str _ => .str
  | .bytes _ => .bytes

theorem pyanyToZrangeArg_kind (v : Bound) : (pyanyToZrangeArg v).map (fun _ => ()) = Zsets.pyanyToZrangeArg v.kind := by
  cases v with
  | int n =>
    rw [pyanyToZrangeArg, Bound.kind]
    split
    · rfl
    · rfl
  | _ => rfl

/-- the options go together -/
def RangeFlags.ok (f : RangeFlags) : Prop :=
  (f.byscore && f.bylex) = false ∧ ((f.offset.isSome || f.num.isSome) && !(f.byscore || f.bylex)) = false ∧
    (f.withscores && f.bylex) = false ∧ f.offset.isSome = f.num.isSome

theorem buildZrangeCmd_checks (name : String) (leadingArgs : List String) (start stop : String) (f : RangeFlags) :
    (buildZrangeCmd name leadingArgs start stop f).map (fun _ => ()) =
      Zsets.validateZrange ⟨.str, .str, f.byscore, f.bylex, f.withscores, f.offset, f.num⟩ := by
  obtain ⟨byscore, bylex, desc, offset, num, withscores⟩ := f
  cases byscore <;> cases bylex <;> cases withscores <;> cases offset <;> cases num <;> rfl

/-- where the options go together, the bounds stand after the keys -/
theorem buildZrangeCmd_ok (name : String) (leadingArgs : List String) (start stop : String) {f : RangeFlags} (h : f.ok) :
    ∃ rest, buildZrangeCmd name leadingArgs start stop f =
      .ok ([asBytes name] ++ leadingArgs.map asBytes ++ [asBytes start, asBytes stop] ++ rest) := by
  obtain ⟨byscore, bylex, desc, offset, num, withscores⟩ := f
  obtain ⟨hby, hlimit, hscores, hboth⟩ := h
  simp only at hby hlimit hscores hboth
  simp only [buildZrangeCmd, hby, hlimit, hscores]
  cases offset with
  | none =>
    cases num with
    | none => exact ⟨_, rfl⟩
    | some n => cases hboth
  | some o =>
    cases num with
    | none => cases hboth
    | some n => exact ⟨_, rfl⟩

/-! ## Bounds as they are -/

/-- the text of a bound; `floatText` is that of a float -/
def exactText (floatText : UInt64 → Bytes) : Bound → Bytes
  | .int n => asBytes (toString n)
  | .float bits => floatText bits
  | .str s => asBytes s
  | .bytes b => b

/-- an integer of 64 bits, a string, or bytes that are UTF-8 -/
def Sendable : Bound → Prop
  | .int n => isI64 n = true
  | .float _ => False
  | .str _ => True
  | .bytes b => ∃ s : String, asBytes s = b

theorem asBytes_fromUtf8Lossy (b : Bytes) : asBytes (fromUtf8Lossy b) = Lib.Utf8.encode (Lib.Utf8.decodeLossy b) :=
  asBytes_ofList _

theorem fromUtf8Lossy_asBytes (s : String) : fromUtf8Lossy (asBytes s) = s := by
  have hencode : asBytes s = Lib.Utf8.encode s.toList := asBytes_eq s
  rw [fromUtf8Lossy, hencode, Lib.Utf8.decodeLossy_encode, String.ofList_toList]

/-- bytes survive the string exactly if they are UTF-8 -/
theorem asBytes_fromUtf8Lossy_iff {b : Bytes} : asBytes (fromUtf8Lossy b) = b ↔ ∃ s : String, asBytes s = b := by
  constructor
  · intro h
    exact ⟨fromUtf8Lossy b, h⟩
  · rintro ⟨s, rfl⟩
    rw [fromUtf8Lossy_asBytes]

theorem pyanyToZrangeArg_iff (floatText : UInt64 → Bytes) (v : Bound) :
    (∃ t, pyanyToZrangeArg v = .ok t ∧ asBytes t = exactText floatText v) ↔ Sendable v := by
  cases v with
  | int n =>
    rw [pyanyToZrangeArg, Sendable]
    by_cases h : isI64 n = true
    · rw [if_pos h]
      exact iff_of_true ⟨_, rfl, rfl⟩ h
    · rw [if_neg h]
      exact iff_of_false (fun ⟨t, ht, _⟩ => by cases ht) h
  | float bits => exact iff_of_false (fun ⟨t, ht, _⟩ => by cases ht) id
  | str s => exact iff_of_true ⟨s, rfl, rfl⟩ trivial
  | bytes b =>
    rw [Sendable, ← asBytes_fromUtf8Lossy_iff]
    constructor
    · rintro ⟨t, ht, hbytes⟩
      cases ht
      exact hbytes
    · intro h
      exact ⟨_, rfl, h⟩

/-- the two arguments at a place of a command -/
def boundsAt (i : ℕ) (cmd : Cmd) : Option (Bytes × Bytes) :=
  match cmd.drop i with
  | start :: stop :: _ => some (start, stop)
  | _ => none

theorem boundsAt_append {i : ℕ} {front : Cmd} (h : front.length = i) (start stop : Bytes) (rest : Cmd) :
    boundsAt i (front ++ [start, stop] ++ rest) = some (start, stop) := by
  rw [boundsAt, List.append_assoc, List.drop_left' h]
  rfl

/-- **Sent bounds.** Where the options go together, a command carries its bounds as they are exactly if both can be
sent. -/
theorem sent_iff (floatText : UInt64 → Bytes) (name : String) (leadingArgs : List String) (start stop : Bound)
    {f : RangeFlags} (h : f.ok) :
    (∃ cmd, (do buildZrangeCmd name leadingArgs (← pyanyToZrangeArg start) (← pyanyToZrangeArg stop) f) = .ok cmd ∧
      boundsAt (leadingArgs.length + 1) cmd = some (exactText floatText start, exactText floatText stop)) ↔
      Sendable start ∧ Sendable stop := by
  rw [← pyanyToZrangeArg_iff floatText start, ← pyanyToZrangeArg_iff floatText stop]
  have hlen : ([asBytes name] ++ leadingArgs.map asBytes).length = leadingArgs.length + 1 := by simp
  constructor
  · rintro ⟨cmd, hcmd, hbounds⟩
    obtain ⟨s, hs, hcmd⟩ := bind_ok_iff.1 hcmd
    obtain ⟨t, ht, hcmd⟩ := bind_ok_iff.1 hcmd
    obtain ⟨rest, hrest⟩ := buildZrangeCmd_ok name leadingArgs s t h
    rw [hrest] at hcmd
    obtain rfl := Except.ok.inj hcmd
    rw [boundsAt_append hlen, Option.some.injEq, Prod.mk.injEq] at hbounds
    exact ⟨⟨s, hs, hbounds.1⟩, t, ht, hbounds.2⟩
  · rintro ⟨⟨s, hs, hs'⟩, t, ht, ht'⟩
    obtain ⟨rest, hrest⟩ := buildZrangeCmd_ok name leadingArgs s t h
    refine ⟨_, bind_ok_iff.2 ⟨s, hs, bind_ok_iff.2 ⟨t, ht, hrest⟩⟩, ?_⟩
    rw [boundsAt_append hlen, hs', ht']

/-! ## Lexical bounds -/

/-- a bound of a range over members -/
inductive LexBound where
  | min
  | max
  | exclusive (member : Bytes)
  | inclusive (member : Bytes)
deriving DecidableEq, Repr

/-- what the server reads in a bound after BYLEX -/
def lexBound : Bytes → Option LexBound
  | [43] => some .max
  | [45] => some .min
  | 40 :: member => some (.exclusive member)
  | 91 :: member => some (.inclusive member)
  | _ => none

theorem asBytes_fromUtf8Lossy_cons {c : Char} (hc : c.toNat < 128) (m : Bytes) :
    asBytes (fromUtf8Lossy (asciiByte c :: m)) = asciiByte c :: asBytes (fromUtf8Lossy m) := by
  have hchar : asciiByte c :: m = String.utf8EncodeChar c ++ m := by
    rw [utf8EncodeChar_ascii hc]
    rfl
  rw [hchar, asBytes_fromUtf8Lossy, asBytes_fromUtf8Lossy, Lib.Utf8.decodeLossy_char_append, Lib.Utf8.encode,
    List.flatMap_cons, utf8EncodeChar_ascii hc]
  rfl

/-- **Selected members.** A bound `[m` or `(m` selects by the member `m` exactly if `m` is UTF-8. -/
theorem lex_bound_iff (m : Bytes) :
    ((pyanyToZrangeArg (.bytes (91 :: m))).map (fun t => lexBound (asBytes t)) = .ok (some (.inclusive m)) ↔
        ∃ s : String, asBytes s = m) ∧
      ((pyanyToZrangeArg (.bytes (40 :: m))).map (fun t => lexBound (asBytes t)) = .ok (some (.exclusive m)) ↔
        ∃ s : String, asBytes s = m) := by
  have hopen : asBytes (fromUtf8Lossy (91 :: m)) = 91 :: asBytes (fromUtf8Lossy m) :=
    asBytes_fromUtf8Lossy_cons (c := '[') (by decide) m
  have hparen : asBytes (fromUtf8Lossy (40 :: m)) = 40 :: asBytes (fromUtf8Lossy m) :=
    asBytes_fromUtf8Lossy_cons (c := '(') (by decide) m
  rw [← asBytes_fromUtf8Lossy_iff]
  constructor
  · show Except.ok (lexBound (asBytes (fromUtf8Lossy (91 :: m)))) = .ok (some (.inclusive m)) ↔ _
    rw [hopen, lexBound]
    simp
  · show Except.ok (lexBound (asBytes (fromUtf8Lossy (40 :: m)))) = .ok (some (.exclusive m)) ↔ _
    rw [hparen, lexBound]
    simp

/-! ## Popped keys -/

variable (S : Std)

/-- what `zmpop` and `bzmpop` return for a reply with this key and these pairs -/
def popped (key : Bytes) (pairs : List Value) : PyObj :=
  optPy keyAndScoredMembersPy
    (parseZmpopValue { S with fromUtf8Lossy := fromUtf8Lossy } (.array [.bulkString key, .array pairs]))

/-- the key in what is returned -/
def keyOf : PyObj → Option PyObj
  | .tuple (key :: _) => some key
  | _ => none

theorem keyOf_popped (key : Bytes) (pairs : List Value) : keyOf (popped S key pairs) = some (.str (fromUtf8Lossy key)) :=
  rfl

/-- both clients return it -/
theorem intoPy_popped (key : Bytes) (pairs : List Value) :
    (RawResult.optKeyAndScoredMembers (parseZmpopValue { S with fromUtf8Lossy := fromUtf8Lossy }
      (.array [.bulkString key, .array pairs]))).intoPy S = .ok (popped S key pairs) := rfl

/-- **Keys that are asked for.** A key that the caller named comes back as it was named. -/
theorem popped_asked (key : String) (pairs : List Value) : keyOf (popped S (asBytes key) pairs) = some (.str key) := by
  rw [keyOf_popped, fromUtf8Lossy_asBytes]

/-- **Keys that can be told.** No other key comes back like this one exactly if this one is UTF-8 without U+FFFD. -/
theorem popped_iff (key : Bytes) (pairs : List Value) :
    (∀ key' pairs', keyOf (popped S key' pairs') = keyOf (popped S key pairs) → key' = key) ↔
      ∃ s : String, asBytes s = key ∧ Lib.Utf8.replacement ∉ s.toList := by
  have hkey : ∀ key', keyOf (popped S key' pairs) = keyOf (popped S key pairs) ↔
      Lib.Utf8.decodeLossy key' = Lib.Utf8.decodeLossy key := by
    intro key'
    rw [keyOf_popped, keyOf_popped, Option.some.injEq, PyObj.str.injEq, fromUtf8Lossy, fromUtf8Lossy, String.ofList_inj]
  have htexts : (∃ s : String, asBytes s = key ∧ Lib.Utf8.replacement ∉ s.toList) ↔
      ∃ s, Lib.Utf8.encode s = key ∧ Lib.Utf8.replacement ∉ s := by
    constructor
    · rintro ⟨s, rfl, hs⟩
      exact ⟨s.toList, (asBytes_eq s).symm, hs⟩
    · rintro ⟨s, rfl, hs⟩
      exact ⟨String.ofList s, asBytes_ofList s, by rwa [String.toList_ofList]⟩
  rw [htexts, ← Lib.Utf8.decodeLossy_determines_iff]
  constructor
  · intro h key' hread
    exact h key' pairs ((hkey key').2 hread)
  · intro h key' pairs' hback
    exact h key' ((hkey key').1 hback)

/-! ## Bytes there and back -/

/-- **Binary safety.** With options that go together, ZRANGE and ZRANGESTORE carry their bounds as they are exactly if
both are integers of 64 bits, strings, or bytes that are UTF-8; a lexical bound selects by its member exactly if the
member is UTF-8. A popped key that the caller named comes back as it was named, and of all keys those can be told from
what comes back that are UTF-8 without U+FFFD. -/
theorem zset_bytes_exact_iff (floatText : UInt64 → Bytes) {f : RangeFlags} (h : f.ok) (start stop : Bound) :
    (∀ key, (∃ cmd, zrange key start stop f = .ok cmd ∧
        boundsAt 2 cmd = some (exactText floatText start, exactText floatText stop)) ↔ Sendable start ∧ Sendable stop) ∧
      (f.withscores = false → ∀ destination source, (∃ cmd, zrangestore destination source start stop f = .ok cmd ∧
        boundsAt 3 cmd = some (exactText floatText start, exactText floatText stop)) ↔ Sendable start ∧ Sendable stop) ∧
      (∀ m : Bytes, ((pyanyToZrangeArg (.bytes (91 :: m))).map (fun t => lexBound (asBytes t)) =
          .ok (some (.inclusive m)) ↔ ∃ s : String, asBytes s = m) ∧
        ((pyanyToZrangeArg (.bytes (40 :: m))).map (fun t => lexBound (asBytes t)) =
          .ok (some (.exclusive m)) ↔ ∃ s : String, asBytes s = m)) ∧
      (∀ (key : String) pairs, keyOf (popped S (asBytes key) pairs) = some (.str key)) ∧
      ∀ key pairs, (∀ key' pairs', keyOf (popped S key' pairs') = keyOf (popped S key pairs) → key' = key) ↔
        ∃ s : String, asBytes s = key ∧ Lib.Utf8.replacement ∉ s.toList := by
  refine ⟨fun key => sent_iff floatText "ZRANGE" [key] start stop h, ?_, lex_bound_iff, popped_asked S, popped_iff S⟩
  intro hscores destination source
  have hsame : { f with withscores := false } = f := by
    rw [← hscores]
  have hstore := sent_iff floatText "ZRANGESTORE" [destination, source] start stop h
  rw [← hsame] at hstore
  exact hstore

/-- a range over members, without a limit -/
def lexFlags : RangeFlags := ⟨false, true, false, none, none, false⟩

/-- `[é` to `+`, in UTF-8 -/
theorem zset_bytes_exact_iff_lex : ∃ cmd, zrange "z" (.bytes [91, 195, 169]) (.str "+") lexFlags = .ok cmd ∧
    boundsAt 2 cmd = some ([91, 195, 169], asBytes "+") :=
  ((zset_bytes_exact_iff bareStd (fun _ => []) ⟨rfl, rfl, rfl, rfl⟩ (.bytes [91, 195, 169]) (.str "+")).1 "z").2
    ⟨⟨"[é", rfl⟩, trivial⟩

/-- the byte 255 after `[`: the range starts at the bytes of U+FFFD -/
theorem zset_bytes_lossy_bound :
    zrange "z" (.bytes [91, 255]) (.str "+") lexFlags =
        .ok [asBytes "ZRANGE", asBytes "z", [91, 239, 191, 189], asBytes "+", asBytes "BYLEX"] ∧
      ¬ ∃ cmd, zrange "z" (.bytes [91, 255]) (.str "+") lexFlags = .ok cmd ∧
        boundsAt 2 cmd = some ([91, 255], asBytes "+") := by
  have hread : Lib.Utf8.decodeLossy [91, 255] = ['[', Lib.Utf8.replacement] := by
    have hchar := Lib.Utf8.decodeLossy_char_append '[' [255]
    rw [Lib.Utf8.decodeLossy_max, Lib.Utf8.decodeLossy_nil] at hchar
    exact hchar
  have hsent : asBytes (fromUtf8Lossy [91, 255]) = [91, 239, 191, 189] := by
    rw [asBytes_fromUtf8Lossy, hread]
    rfl
  have hcmd : zrange "z" (.bytes [91, 255]) (.str "+") lexFlags =
      .ok [asBytes "ZRANGE", asBytes "z", [91, 239, 191, 189], asBytes "+", asBytes "BYLEX"] := by
    rw [← hsent]
    rfl
  refine ⟨hcmd, ?_⟩
  rintro ⟨cmd, hcmd', hbounds⟩
  rw [hcmd] at hcmd'
  cases hcmd'
  exact absurd hbounds (by decide)

end RedisRsPy.Commands.RangeBounds
