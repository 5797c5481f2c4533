/-
Commands on the wire: the argument vectors that `cmd_eval`, `cmd_fcall` (`commands/scripts.rs`), `cmd_xread`,
`cmd_xreadgroup` (`streams.rs`) and `build_zset_op_cmd` (`zsets.rs`) build, and readers for them that follow the grammar
of the server.

A part of a vector ends by a count, by a keyword that stands where one must, or at the end. Keys, arguments, groups and
ids may spell keywords and numbers: nothing but its place tells a word's part.

Results:
- `parseDigits_toString`, `parseInt_toString`: the text of a number is read back;
- `decodeEval_cmdEval`, `decodeXread_cmdXread`, `decodeXreadgroup_cmdXreadgroup`, `decodeZsetOp_buildZsetOpCmd`: one
  command each;
- `wire_round_trip`: all of them.
-/
import RedisRsPy.Commands.Zsets
import RedisRsPy.Lib.Arguments
import RedisRsPy.Text

namespace RedisRsPy.Commands

open Lib.Arguments

/-! ## Numbers in text -/

theorem foldl_digits (l : List Char) (h : ∀ c ∈ l, c.isDigit = true) (n : ℕ) :
    (l.map asciiByte).foldl
      (fun n d => n.bind fun n => if 48 ≤ d ∧ d ≤ 57 then some (10 * n + (d.toNat - 48)) else none) (some n) =
      some (Nat.ofDigitChars 10 l n) := by
  induction l generalizing n with
  | nil => rw [Nat.ofDigitChars_nil]; rfl
  | cons c rest ih =>
    have hc : c.isDigit = true := h c List.mem_cons_self
    have hrange := digit_range hc
    have hbyte := toNat_asciiByte_digit hc
    have hdigit : 48 ≤ asciiByte c ∧ asciiByte c ≤ 57 := by
      constructor
      · exact UInt8.le_iff_toNat_le.2 (hbyte ▸ hrange.1)
      · exact UInt8.le_iff_toNat_le.2 (hbyte ▸ hrange.2)
    rw [List.map_cons, List.foldl_cons, Option.bind_some, if_pos hdigit, hbyte, Nat.ofDigitChars_cons]
    exact ih (fun d hd => h d (List.mem_cons_of_mem c hd)) _

/-- the text of a number starts with a digit -/
theorem toString_cons (n : ℕ) : ∃ d rest, asBytes (toString n) = d :: rest ∧ 48 ≤ d.toNat ∧ d.toNat ≤ 57 := by
  rw [asBytes_toString]
  cases hl : Nat.toDigits 10 n with
  | nil => exact absurd hl Nat.toDigits_ne_nil
  | cons c rest =>
    have hc : c.isDigit = true := Nat.isDigit_of_mem_toDigits (b := 10) (n := n) (by decide) (by decide) (by simp [hl])
    refine ⟨asciiByte c, rest.map asciiByte, rfl, ?_⟩
    rw [toNat_asciiByte_digit hc]
    exact digit_range hc

/-- a number is read back from its digits -/
theorem parseDigits_toString (n : ℕ) : parseDigits (asBytes (toString n)) = some n := by
  have hdigits : ∀ c ∈ Nat.toDigits 10 n, c.isDigit = true :=
    fun c hc => Nat.isDigit_of_mem_toDigits (by decide) (by decide) hc
  have hfold := foldl_digits (Nat.toDigits 10 n) hdigits 0
  rw [Nat.ofDigitChars_ten_toDigits, ← asBytes_toString] at hfold
  obtain ⟨d, rest, htext, -⟩ := toString_cons n
  rw [htext] at hfold ⊢
  exact hfold

/-- a sign or none, and digits -/
def parseInt : Bytes → Option Int
  | 45 :: rest => (parseDigits rest).map fun n => -(n : Int)
  | b => (parseDigits b).map fun n => (n : Int)

theorem parseInt_toString (n : Int) : parseInt (asBytes (toString n)) = some n := by
  cases n with
  | ofNat n =>
    have hdigits := parseDigits_toString n
    obtain ⟨d, rest, htext, hrange⟩ := toString_cons n
    show parseInt (asBytes (toString n)) = some (n : Int)
    rw [htext] at hdigits ⊢
    unfold parseInt
    split
    · rename_i rest' hminus
      -- a digit is no sign
      have hsign : d = 45 := (List.cons.inj hminus).1
      rw [hsign] at hrange
      exact absurd hrange.1 (by decide)
    · rw [hdigits]
      rfl
  | negSucc n =>
    have htext : asBytes (toString (Int.negSucc n)) = 45 :: asBytes (toString (n + 1)) := by
      show asBytes ("-" ++ toString (n + 1)) = _
      rw [asBytes_append]
      rfl
    rw [htext, parseInt, parseDigits_toString]
    rfl

/-! ## Vectors -/

/-- a `redis::Cmd`: its name and its arguments -/
abbrev Cmd := List Bytes

/-- `cmd.arg` of an integer -/
def intArg (n : Int) : Bytes := asBytes (toString n)

/-- `cmd.arg` of a length -/
def lenArg (n : ℕ) : Bytes := asBytes (toString n)

/-- `cmd_eval` -/
def cmdEval (name scriptOrSha : String) (keys : List String) (args : List Bytes) : Cmd :=
  [asBytes name, asBytes scriptOrSha, lenArg keys.length] ++ keys.map asBytes ++ args

/-- `cmd_fcall` -/
def cmdFcall (name function : String) (keys : List String) (args : List Bytes) : Cmd :=
  [asBytes name, asBytes function, lenArg keys.length] ++ keys.map asBytes ++ args

/-- `if let Some(n) = .. { cmd.arg(key).arg(n); }` -/
def optArg (key : String) (n : Option Int) : Cmd :=
  match n with
  | some n => [asBytes key, intArg n]
  | none => []

/-- `cmd_xread` -/
def cmdXread (streams : List (String × String)) (count blockMs : Option Int) : Cmd :=
  [asBytes "XREAD"] ++ optArg "COUNT" count ++ optArg "BLOCK" blockMs ++ [asBytes "STREAMS"] ++
    streams.map (fun s => asBytes s.1) ++ streams.map fun s => asBytes s.2

/-- `cmd_xreadgroup` -/
def cmdXreadgroup (group consumer : String) (streams : List (String × String)) (count blockMs : Option Int)
    (noack : Bool) : Cmd :=
  [asBytes "XREADGROUP", asBytes "GROUP", asBytes group, asBytes consumer] ++ optArg "COUNT" count ++
    optArg "BLOCK" blockMs ++ (if noack then [asBytes "NOACK"] else []) ++ [asBytes "STREAMS"] ++
    streams.map (fun s => asBytes s.1) ++ streams.map fun s => asBytes s.2

/-- what `validate_zset_op_args` gives for an aggregate that passes -/
def aggregateArg (a : Zsets.OpArgs) : Option String := a.aggregate.map String.toUpper

/-- `build_zset_op_cmd`; the crate prints the weights -/
def buildZsetOpCmd (printF64 : UInt64 → Bytes) (name : String) (leadingArgs keys : List String)
    (weights : Option (List UInt64)) (aggregate : Option String) (withscores : Bool) : Cmd :=
  [asBytes name] ++ leadingArgs.map asBytes ++ [lenArg keys.length] ++ keys.map asBytes ++
    (match weights with
      | some ws => asBytes "WEIGHTS" :: ws.map printF64
      | none => []) ++
    (match aggregate with
      | some a => [asBytes "AGGREGATE", asBytes a]
      | none => []) ++
    if withscores then [asBytes "WITHSCORES"] else []

/-- the command of `zdiff` -/
def cmdZdiff (keys : List String) (withscores : Bool) : Cmd :=
  [asBytes "ZDIFF", lenArg keys.length] ++ keys.map asBytes ++ if withscores then [asBytes "WITHSCORES"] else []

/-- the command of `zdiffstore` -/
def cmdZdiffstore (destination : String) (keys : List String) : Cmd :=
  [asBytes "ZDIFFSTORE", asBytes destination, lenArg keys.length] ++ keys.map asBytes

/-! ## The grammar of the server -/

/-- ASCII letters in upper case -/
def upperByte (b : UInt8) : UInt8 := if 97 ≤ b ∧ b ≤ 122 then b - 32 else b

/-- the word is this keyword, in upper or lower case -/
def isKeyword (key : String) (w : Bytes) : Bool := decide (w.map upperByte = asBytes key)

/-- EVAL, EVALSHA, FCALL and their read-only forms: `script numkeys keys... args...` -/
structure ScriptCall where
  name : Bytes
  script : Bytes
  keys : List Bytes
  args : List Bytes
deriving DecidableEq, Repr

def decodeEval : Cmd → Option ScriptCall :=
  word fun name => word fun script => wordAs parseDigits fun n => times n fun keys args => some ⟨name, script, keys, args⟩

/-- the parts of XREAD and XREADGROUP -/
structure StreamRead where
  count : Option Int
  block : Option Int
  noack : Bool
  keys : List Bytes
  ids : List Bytes
deriving DecidableEq, Repr

/-- `[COUNT n] [BLOCK ms] STREAMS keys... ids...` -/
def decodeXread : Cmd → Option StreamRead :=
  keyword (isKeyword "XREAD") <| clause (isKeyword "COUNT") (wordAs parseInt) fun count =>
    clause (isKeyword "BLOCK") (wordAs parseInt) fun block =>
      keyword (isKeyword "STREAMS") <| halves fun keys ids => some ⟨count, block, false, keys, ids⟩

/-- `GROUP group consumer [COUNT n] [BLOCK ms] [NOACK] STREAMS keys... ids...` -/
def decodeXreadgroup : Cmd → Option (Bytes × Bytes × StreamRead) :=
  keyword (isKeyword "XREADGROUP") <| keyword (isKeyword "GROUP") <| word fun group => word fun consumer =>
    clause (isKeyword "COUNT") (wordAs parseInt) fun count =>
      clause (isKeyword "BLOCK") (wordAs parseInt) fun block =>
        flag (isKeyword "NOACK") fun noack =>
          keyword (isKeyword "STREAMS") <| halves fun keys ids => some (group, consumer, ⟨count, block, noack, keys, ids⟩)

/-- the parts of ZUNION, ZINTER, ZDIFF and their STORE forms -/
structure ZsetOp where
  destination : List Bytes
  keys : List Bytes
  weights : Option (List UInt64)
  aggregate : Option Bytes
  withscores : Bool
deriving DecidableEq, Repr

/-- `[dest] numkeys keys... [WEIGHTS w...] [AGGREGATE a] [WITHSCORES]`, with a destination where the command stores -/
def decodeZsetOp (parseF64 : Bytes → Option UInt64) (name : String) (stores : Bool) : Cmd → Option ZsetOp :=
  keyword (isKeyword name) <| times (if stores then 1 else 0) fun destination =>
    wordAs parseDigits fun n => times n fun keys =>
      clause (isKeyword "WEIGHTS") (timesAs parseF64 n) fun weights =>
        clause (isKeyword "AGGREGATE") word fun aggregate =>
          flag (isKeyword "WITHSCORES") fun withscores => finish ⟨destination, keys, weights, aggregate, withscores⟩

/-- a weight as a Python float: all NaNs are one -/
def oneNaN (bits : UInt64) : UInt64 := if (doubleValue bits).isNone then 0x7ff8000000000000 else bits

/-! ## What was written is read -/

theorem parseDigits_lenArg (n : ℕ) : parseDigits (lenArg n) = some n := parseDigits_toString n

theorem parseInt_intArg (n : Int) : parseInt (intArg n) = some n := parseInt_toString n

theorem decodeEval_cmdEval (name script : String) (keys : List String) (args : List Bytes) :
    decodeEval (cmdEval name script keys args) = some ⟨asBytes name, asBytes script, keys.map asBytes, args⟩ := by
  show wordAs parseDigits _ (lenArg keys.length :: (keys.map asBytes ++ args)) = _
  rw [wordAs_cons (parseDigits_lenArg keys.length), ← List.length_map (f := asBytes), times_append]

theorem decodeEval_cmdFcall (name function : String) (keys : List String) (args : List Bytes) :
    decodeEval (cmdFcall name function keys args) = some ⟨asBytes name, asBytes function, keys.map asBytes, args⟩ :=
  decodeEval_cmdEval name function keys args

/-! ### Optional clauses -/

/-- whether the next word has the property, if there is one -/
def NextWord (P : Bytes → Prop) (words : Cmd) : Prop := ∀ w, words.head? = some w → P w

theorem nextWord_cons {P : Bytes → Prop} {w : Bytes} (h : P w) (rest : Cmd) : NextWord P (w :: rest) := by
  intro v hv
  exact Option.some.inj hv ▸ h

theorem nextWord_nil (P : Bytes → Prop) : NextWord P [] := fun _ hv => absurd hv (by simp)

theorem nextWord_optArg {P : Bytes → Prop} {key : String} (hkey : P (asBytes key)) (n : Option Int) {rest : Cmd}
    (hrest : NextWord P rest) : NextWord P (optArg key n ++ rest) := by
  cases n with
  | none => exact hrest
  | some n => exact nextWord_cons hkey _

/-- an optional clause of a number, in front of another keyword -/
theorem clause_optArg {β : Type} {key : String} (hkey : isKeyword key (asBytes key) = true) (n : Option Int)
    (f : Option Int → Reader Bytes β) {rest : Cmd} (hrest : NextWord (isKeyword key · = false) rest) :
    clause (isKeyword key) (wordAs parseInt) f (optArg key n ++ rest) = f n rest := by
  cases n with
  | none => exact clause_absent hrest _ _
  | some n =>
    show clause (isKeyword key) (wordAs parseInt) f (asBytes key :: intArg n :: rest) = _
    rw [clause_cons hkey, wordAs_cons (parseInt_intArg n)]

theorem flag_word {β : Type} {key : String} (hkey : isKeyword key (asBytes key) = true) (b : Bool)
    (f : Bool → Reader Bytes β) {rest : Cmd} (hrest : NextWord (isKeyword key · = false) rest) :
    flag (isKeyword key) f ((if b then [asBytes key] else []) ++ rest) = f b rest := by
  cases b with
  | false => exact flag_absent hrest f
  | true => exact flag_cons hkey f rest

theorem nextWord_flag {P : Bytes → Prop} {key : String} (hkey : P (asBytes key)) (b : Bool) {rest : Cmd}
    (hrest : NextWord P rest) : NextWord P ((if b then [asBytes key] else []) ++ rest) := by
  cases b with
  | false => exact hrest
  | true => exact nextWord_cons hkey _

/-! ### Streams -/

theorem decodeXread_cmdXread (streams : List (String × String)) (count block : Option Int) :
    decodeXread (cmdXread streams count block) =
      some ⟨count, block, false, streams.map fun s => asBytes s.1, streams.map fun s => asBytes s.2⟩ := by
  have hvector : cmdXread streams count block = asBytes "XREAD" :: (optArg "COUNT" count ++ (optArg "BLOCK" block ++
      (asBytes "STREAMS" :: (streams.map (fun s => asBytes s.1) ++ streams.map fun s => asBytes s.2)))) := by
    simp only [cmdXread, List.append_assoc, List.cons_append, List.nil_append]
  have hlen : (streams.map fun s => asBytes s.1).length = (streams.map fun s => asBytes s.2).length := by
    rw [List.length_map, List.length_map]
  rw [hvector, decodeXread, keyword_cons (by decide), clause_optArg (by decide), clause_optArg (by decide),
    keyword_cons (by decide), halves_append hlen]
  · exact nextWord_cons (by decide) _
  · exact nextWord_optArg (by decide) block (nextWord_cons (by decide) _)

theorem decodeXreadgroup_cmdXreadgroup (group consumer : String) (streams : List (String × String))
    (count block : Option Int) (noack : Bool) :
    decodeXreadgroup (cmdXreadgroup group consumer streams count block noack) =
      some (asBytes group, asBytes consumer,
        ⟨count, block, noack, streams.map fun s => asBytes s.1, streams.map fun s => asBytes s.2⟩) := by
  have hvector : cmdXreadgroup group consumer streams count block noack =
      asBytes "XREADGROUP" :: asBytes "GROUP" :: asBytes group :: asBytes consumer :: (optArg "COUNT" count ++
        (optArg "BLOCK" block ++ ((if noack then [asBytes "NOACK"] else []) ++
          (asBytes "STREAMS" :: (streams.map (fun s => asBytes s.1) ++ streams.map fun s => asBytes s.2))))) := by
    simp only [cmdXreadgroup, List.append_assoc, List.cons_append, List.nil_append]
  have hlen : (streams.map fun s => asBytes s.1).length = (streams.map fun s => asBytes s.2).length := by
    rw [List.length_map, List.length_map]
  rw [hvector, decodeXreadgroup, keyword_cons (by decide), keyword_cons (by decide), word_cons, word_cons,
    clause_optArg (by decide), clause_optArg (by decide), flag_word (by decide), keyword_cons (by decide),
    halves_append hlen]
  · exact nextWord_cons (by decide) _
  · exact nextWord_flag (by decide) noack (nextWord_cons (by decide) _)
  · exact nextWord_optArg (by decide) block (nextWord_flag (by decide) noack (nextWord_cons (by decide) _))

/-! ### Sets of scores -/

/-- validated weights are as many as the keys -/
theorem weights_length {a : Zsets.OpArgs} (h : Zsets.validateZsetOpArgs a = .ok ()) :
    ∀ ws ∈ a.weights, ws.length = a.keys.length := by
  intro ws hws
  have hweights : a.weights = some ws := hws
  by_contra hne
  have hany : (a.weights.any (·.length != a.keys.length)) = true := by
    rw [hweights]
    simpa using hne
  rw [Zsets.validateZsetOpArgs, hany] at h
  cases hkeys : a.keys.isEmpty <;> rw [hkeys] at h <;> exact absurd h (by simp [bind, Except.bind])

/-- `[AGGREGATE a]` -/
def aggregatePart : Option String → Cmd
  | some a => [asBytes "AGGREGATE", asBytes a]
  | none => []

/-- `[WEIGHTS w...]` -/
def weightsPart (printF64 : UInt64 → Bytes) : Option (List UInt64) → Cmd
  | some ws => asBytes "WEIGHTS" :: ws.map printF64
  | none => []

theorem clause_aggregatePart {β : Type} (a : Option String) (f : Option Bytes → Reader Bytes β) {rest : Cmd}
    (hrest : NextWord (isKeyword "AGGREGATE" · = false) rest) :
    clause (isKeyword "AGGREGATE") word f (aggregatePart a ++ rest) = f (a.map asBytes) rest := by
  cases a with
  | none => exact clause_absent hrest _ _
  | some a =>
    show clause (isKeyword "AGGREGATE") word f (asBytes "AGGREGATE" :: asBytes a :: rest) = _
    rw [clause_cons (by decide), word_cons]
    rfl

theorem clause_weightsPart {β : Type} {printF64 : UInt64 → Bytes} {parseF64 : Bytes → Option UInt64}
    (hparse : ∀ w, parseF64 (printF64 w) = some (oneNaN w)) {n : ℕ} {weights : Option (List UInt64)}
    (hlen : ∀ ws ∈ weights, ws.length = n) (f : Option (List UInt64) → Reader Bytes β) {rest : Cmd}
    (hrest : NextWord (isKeyword "WEIGHTS" · = false) rest) :
    clause (isKeyword "WEIGHTS") (timesAs parseF64 n) f (weightsPart printF64 weights ++ rest) =
      f (weights.map (·.map oneNaN)) rest := by
  cases weights with
  | none => exact clause_absent hrest _ _
  | some ws =>
    show clause (isKeyword "WEIGHTS") (timesAs parseF64 n) f (asBytes "WEIGHTS" :: (ws.map printF64 ++ rest)) = _
    rw [clause_cons (by decide), ← hlen ws rfl, timesAs_append hparse]
    rfl

theorem nextWord_aggregatePart {P : Bytes → Prop} (hkey : P (asBytes "AGGREGATE")) (a : Option String) {rest : Cmd}
    (hrest : NextWord P rest) : NextWord P (aggregatePart a ++ rest) := by
  cases a with
  | none => exact hrest
  | some a => exact nextWord_cons hkey _

/-- the destination, the keys, and what is left to read -/
theorem decodeZsetOp_keys (parseF64 : Bytes → Option UInt64) {name : String}
    (hname : isKeyword name (asBytes name) = true) (destination : Option String) (keys : List String) (rest : Cmd) :
    decodeZsetOp parseF64 name destination.isSome
        (asBytes name :: (destination.toList.map asBytes ++ lenArg keys.length :: (keys.map asBytes ++ rest))) =
      clause (isKeyword "WEIGHTS") (timesAs parseF64 keys.length) (fun weights =>
        clause (isKeyword "AGGREGATE") word fun aggregate =>
          flag (isKeyword "WITHSCORES") fun withscores =>
            finish ⟨destination.toList.map asBytes, keys.map asBytes, weights, aggregate, withscores⟩) rest := by
  have hcount : (if destination.isSome then 1 else 0) = (destination.toList.map asBytes).length := by
    cases destination <;> rfl
  have hkeys : keys.length = (keys.map asBytes).length := (List.length_map _).symm
  rw [decodeZsetOp, keyword_cons hname, hcount, times_append, wordAs_cons (parseDigits_lenArg keys.length), hkeys,
    times_append]

theorem decodeZsetOp_buildZsetOpCmd {printF64 : UInt64 → Bytes} {parseF64 : Bytes → Option UInt64}
    (hparse : ∀ w, parseF64 (printF64 w) = some (oneNaN w)) {name : String}
    (hname : isKeyword name (asBytes name) = true) (destination : Option String) (keys : List String)
    {weights : Option (List UInt64)} (hlen : ∀ ws ∈ weights, ws.length = keys.length) (aggregate : Option String)
    (withscores : Bool) :
    decodeZsetOp parseF64 name destination.isSome
        (buildZsetOpCmd printF64 name destination.toList keys weights aggregate withscores) =
      some ⟨destination.toList.map asBytes, keys.map asBytes, weights.map (·.map oneNaN), aggregate.map asBytes,
        withscores⟩ := by
  have hvector : buildZsetOpCmd printF64 name destination.toList keys weights aggregate withscores =
      asBytes name :: (destination.toList.map asBytes ++ lenArg keys.length :: (keys.map asBytes ++
        (weightsPart printF64 weights ++ (aggregatePart aggregate ++
          ((if withscores then [asBytes "WITHSCORES"] else []) ++ []))))) := by
    unfold buildZsetOpCmd
    cases weights <;> cases aggregate <;>
      simp only [weightsPart, aggregatePart, List.append_assoc, List.cons_append, List.nil_append, List.append_nil]
  rw [hvector, decodeZsetOp_keys parseF64 hname, clause_weightsPart hparse hlen, clause_aggregatePart,
    flag_word (by decide)]
  · rfl
  · exact nextWord_nil _
  · exact nextWord_flag (by decide) withscores (nextWord_nil _)
  · exact nextWord_aggregatePart (by decide) _ (nextWord_flag (by decide) withscores (nextWord_nil _))

theorem cmdZdiff_eq (printF64 : UInt64 → Bytes) (keys : List String) (withscores : Bool) :
    cmdZdiff keys withscores = buildZsetOpCmd printF64 "ZDIFF" [] keys none none withscores := by
  simp only [cmdZdiff, buildZsetOpCmd, List.map_nil, List.append_nil, List.cons_append, List.nil_append]

theorem cmdZdiffstore_eq (printF64 : UInt64 → Bytes) (destination : String) (keys : List String) :
    cmdZdiffstore destination keys = buildZsetOpCmd printF64 "ZDIFFSTORE" [destination] keys none none false := by
  simp [cmdZdiffstore, buildZsetOpCmd]

/-! ## All commands -/

/-- the names that `build_zset_op_cmd` is called with, with a destination or without -/
def zsetOpName (union : Bool) (destination : Option String) : String :=
  match union, destination with
  | true, none => "ZUNION"
  | false, none => "ZINTER"
  | true, some _ => "ZUNIONSTORE"
  | false, some _ => "ZINTERSTORE"

/-- **Round trip.** The vectors of the variadic commands are unambiguous: a reader that follows the grammar of the
server gets the inputs back, whatever words they spell. The crate prints the weights and the server reads them. -/
theorem wire_round_trip {printF64 : UInt64 → Bytes} {parseF64 : Bytes → Option UInt64}
    (hparse : ∀ w, parseF64 (printF64 w) = some (oneNaN w)) :
    (∀ name script keys args, decodeEval (cmdEval name script keys args) =
      some ⟨asBytes name, asBytes script, keys.map asBytes, args⟩) ∧
    (∀ name function keys args, decodeEval (cmdFcall name function keys args) =
      some ⟨asBytes name, asBytes function, keys.map asBytes, args⟩) ∧
    (∀ streams count block, decodeXread (cmdXread streams count block) =
      some ⟨count, block, false, streams.map fun s => asBytes s.1, streams.map fun s => asBytes s.2⟩) ∧
    (∀ group consumer streams count block noack,
      decodeXreadgroup (cmdXreadgroup group consumer streams count block noack) =
        some (asBytes group, asBytes consumer,
          ⟨count, block, noack, streams.map fun s => asBytes s.1, streams.map fun s => asBytes s.2⟩)) ∧
    (∀ union destination (a : Zsets.OpArgs) withscores, Zsets.validateZsetOpArgs a = .ok () →
      decodeZsetOp parseF64 (zsetOpName union destination) destination.isSome
          (buildZsetOpCmd printF64 (zsetOpName union destination) destination.toList a.keys a.weights (aggregateArg a)
            withscores) =
        some ⟨destination.toList.map asBytes, a.keys.map asBytes, a.weights.map (·.map oneNaN),
          (aggregateArg a).map asBytes, withscores⟩) ∧
    (∀ keys withscores, decodeZsetOp parseF64 "ZDIFF" false (cmdZdiff keys withscores) =
      some ⟨[], keys.map asBytes, none, none, withscores⟩) ∧
    ∀ destination keys, decodeZsetOp parseF64 "ZDIFFSTORE" true (cmdZdiffstore destination keys) =
      some ⟨[asBytes destination], keys.map asBytes, none, none, false⟩ := by
  refine ⟨decodeEval_cmdEval, decodeEval_cmdFcall, decodeXread_cmdXread, decodeXreadgroup_cmdXreadgroup, ?_, ?_, ?_⟩
  · intro union destination a withscores h
    have hname : isKeyword (zsetOpName union destination) (asBytes (zsetOpName union destination)) = true := by
      cases union <;> cases destination <;> exact decide_eq_true rfl
    exact decodeZsetOp_buildZsetOpCmd hparse hname destination a.keys (weights_length h) (aggregateArg a) withscores
  · intro keys withscores
    rw [cmdZdiff_eq printF64]
    exact decodeZsetOp_buildZsetOpCmd hparse (by decide) none keys (by simp) none withscores
  · intro destination keys
    rw [cmdZdiffstore_eq printF64]
    exact decodeZsetOp_buildZsetOpCmd hparse (by decide) (some destination) keys (by simp) none false

/-- 2.0 as the crate prints it; any other weight by its bits -/
def printF64 (w : UInt64) : Bytes :=
  if w = 0x4000000000000000 then asBytes "2.0" else 120 :: asBytes (toString (oneNaN w).toNat)

def parseF64 : Bytes → Option UInt64
  | 120 :: rest => (parseDigits rest).map UInt64.ofNat
  | b => if b = asBytes "2.0" then some 0x4000000000000000 else none

theorem parseF64_printF64 (w : UInt64) : parseF64 (printF64 w) = some (oneNaN w) := by
  by_cases htwo : w = 0x4000000000000000
  · subst htwo
    decide
  · rw [printF64, if_neg htwo, parseF64, parseDigits_toString, Option.map_some, UInt64.ofNat_toNat]

/-- keys that spell numbers and keywords -/
def unionArgs : Zsets.OpArgs :=
  ⟨["2", "WEIGHTS"], some [0x4000000000000000, 0x4000000000000000], some "max"⟩

theorem zunion_round_trip :
    decodeZsetOp parseF64 "ZUNION" false
        (buildZsetOpCmd printF64 "ZUNION" [] unionArgs.keys unionArgs.weights (aggregateArg unionArgs) true) =
      some ⟨[], [asBytes "2", asBytes "WEIGHTS"], some [0x4000000000000000, 0x4000000000000000],
        some (asBytes "MAX"), true⟩ := by
  have hmax : "max".toUpper = "MAX" := by decide +kernel
  have haggregate : aggregateArg unionArgs = some "MAX" := congrArg some hmax
  have hvalid : Zsets.validateZsetOpArgs unionArgs = .ok () := by
    unfold Zsets.validateZsetOpArgs
    rw [show unionArgs.aggregate.map String.toUpper = some "MAX" from haggregate]
    rfl
  have h := (wire_round_trip parseF64_printF64).2.2.2.2.1 true none unionArgs true hvalid
  rw [haggregate] at h ⊢
  exact h

end RedisRsPy.Commands
