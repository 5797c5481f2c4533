/-
The options of XADD, XTRIM and XPENDING (`commands/streams.rs`): the vectors that `cmd_xadd`, `cmd_xtrim`,
`cmd_xpending_summary` and `cmd_xpending_range` build, and readers for them that follow the grammar of the server.

An option is dropped where the branch that would write it is not taken: `minid` beside `maxlen`, `limit` and
`approximate` without either in XADD, `idle` and `consumer` in the summary form of XPENDING. Nothing is raised then, and
the server does something else than was asked for.

Results:
- `trimming_written`, `decodeXadd_cmdXadd`, `decodeXtrim_cmdXtrim`, `decodeXpending_range`: what is written is read back;
- `xadd_recovered_iff`, `xtrim_recovered_iff`, `xpending_recovered_iff`: which calls are sent with all their options;
- `stream_options_recovered_iff`: the three together.
Witness: `stream_options_recovered_iff_trim`; an option that is dropped: `stream_options_minid_dropped`.
-/
import RedisRsPy.Commands.Wire

namespace RedisRsPy.Commands.StreamOptions

open Lib.Arguments

/-! ## Commands -/

/-- `~` or `=` -/
def markArg (approximate : Bool) : Bytes := asBytes (if approximate then "~" else "=")

/-- `cmd_xadd` -/
def cmdXadd (key id : String) (fields : List (String × Bytes)) (nomkstream : Bool) (maxlen : Option Int)
    (minid : Option String) (approximate : Bool) (limit : Option Int) : Cmd :=
  [asBytes "XADD", asBytes key] ++ (if nomkstream then [asBytes "NOMKSTREAM"] else []) ++
    (match maxlen, minid with
      | some n, _ => [asBytes "MAXLEN", markArg approximate, intArg n] ++ optArg "LIMIT" limit
      | none, some minId => [asBytes "MINID", markArg approximate, asBytes minId] ++ optArg "LIMIT" limit
      | none, none => []) ++
    [asBytes id] ++ fields.flatMap fun fv => [asBytes fv.1, fv.2]

/-- `cmd_xtrim` -/
def cmdXtrim (key : String) (maxlen : Option Int) (minid : Option String) (approximate : Bool) (limit : Option Int) :
    Option Cmd :=
  if maxlen.isNone && minid.isNone then none
  else
    some ([asBytes "XTRIM", asBytes key] ++
      (match maxlen, minid with
        | some n, _ => [asBytes "MAXLEN", markArg approximate, intArg n]
        | none, some min => [asBytes "MINID", markArg approximate, asBytes min]
        | none, none => []) ++ optArg "LIMIT" limit)

/-- `cmd_xpending_summary` -/
def cmdXpendingSummary (key group : String) : Cmd := [asBytes "XPENDING", asBytes key, asBytes group]

/-- `cmd_xpending_range` -/
def cmdXpendingRange (key group : String) (idle : Option Int) (min max : String) (count : Int)
    (consumer : Option String) : Cmd :=
  [asBytes "XPENDING", asBytes key, asBytes group] ++ optArg "IDLE" idle ++
    [asBytes min, asBytes max, intArg count] ++ (consumer.map asBytes).toList

/-! ## Calls -/

/-- the options of trimming, where the caller gives them; `approximate` is true where he does not -/
structure TrimOptions where
  maxlen : Option Int
  minid : Option String
  approximate : Option Bool
  limit : Option Int

/-- the command of `xadd` -/
def xadd (key id : String) (fields : List (String × Bytes)) (nomkstream : Bool) (o : TrimOptions) : Cmd :=
  cmdXadd key id fields nomkstream o.maxlen o.minid (o.approximate.getD true) o.limit

/-- the command of `xtrim`, or its error -/
def xtrim (key : String) (o : TrimOptions) : Except Exn Cmd :=
  match cmdXtrim key o.maxlen o.minid (o.approximate.getD true) o.limit with
  | some cmd => .ok cmd
  | none => .error (dataError "xtrim requires maxlen or minid")

structure PendingOptions where
  idle : Option Int
  min : Option String
  max : Option String
  count : Option Int
  consumer : Option String

def PendingOptions.isRange (o : PendingOptions) : Bool := o.min.isSome || o.max.isSome || o.count.isSome

/-- the command of `xpending` -/
def xpending (key group : String) (o : PendingOptions) : Cmd :=
  if o.isRange then
    cmdXpendingRange key group o.idle (o.min.getD "-") (o.max.getD "+") (o.count.getD 10) o.consumer
  else cmdXpendingSummary key group

/-! ## The grammar of the server -/

/-- the parts of `<MAXLEN | MINID> [= | ~] threshold [LIMIT count]` -/
structure Trimming where
  maxlen : Option Int
  minid : Option Bytes
  approximate : Option Bool
  limit : Option Int
deriving DecidableEq, Repr

def noTrimming : Trimming := ⟨none, none, none, none⟩

variable {β : Type}

/-- `[= | ~]` -/
def mark (f : Option Bool → Reader Bytes β) : Reader Bytes β :=
  flag (isKeyword "~") fun approximate =>
    if approximate then f (some true)
    else flag (isKeyword "=") fun exact => f (if exact then some false else none)

/-- `<MAXLEN | MINID> [= | ~] threshold [LIMIT count]`, or nothing -/
def trimming (f : Trimming → Reader Bytes β) : Reader Bytes β :=
  clause (isKeyword "MAXLEN")
    (fun g => mark fun approximate => wordAs parseInt fun n => clause (isKeyword "LIMIT") (wordAs parseInt) fun limit =>
      g (⟨some n, none, approximate, limit⟩ : Trimming))
    fun byLength =>
      match byLength with
      | some t => f t
      | none =>
        clause (isKeyword "MINID")
          (fun g => mark fun approximate => word fun id => clause (isKeyword "LIMIT") (wordAs parseInt) fun limit =>
            g (⟨none, some id, approximate, limit⟩ : Trimming))
          fun byId => f (byId.getD noTrimming)

/-- `field value [field value ...]` -/
def readFields : List Bytes → Option (List (Bytes × Bytes))
  | [] => some []
  | f :: v :: rest => (readFields rest).map fun fields => (f, v) :: fields
  | [_] => none

structure Added where
  key : Bytes
  nomkstream : Bool
  trimming : Trimming
  id : Bytes
  fields : List (Bytes × Bytes)
deriving DecidableEq, Repr

/-- `key [NOMKSTREAM] [<MAXLEN | MINID> [= | ~] threshold [LIMIT count]] <* | id> field value [field value ...]` -/
def decodeXadd : Cmd → Option Added :=
  keyword (isKeyword "XADD") <| word fun key => flag (isKeyword "NOMKSTREAM") fun nomkstream => trimming fun t =>
    word fun id words => (readFields words).map fun fields => ⟨key, nomkstream, t, id, fields⟩

/-- `key <MAXLEN | MINID> [= | ~] threshold [LIMIT count]` -/
def decodeXtrim : Cmd → Option (Bytes × Trimming) :=
  keyword (isKeyword "XTRIM") <| word fun key => trimming fun t => finish (key, t)

structure Pending where
  idle : Option Int
  min : Option Bytes
  max : Option Bytes
  count : Option Int
  consumer : Option Bytes
deriving DecidableEq, Repr

/-- `[consumer]` -/
def lastWord (f : Option Bytes → Option β) : Reader Bytes β
  | [] => f none
  | [w] => f (some w)
  | _ => none

/-- `key group [[IDLE min-idle-time] start end count [consumer]]` -/
def decodeXpending : Cmd → Option (Bytes × Bytes × Pending) :=
  keyword (isKeyword "XPENDING") <| word fun key => word fun group words =>
    if words = [] then some (key, group, ⟨none, none, none, none, none⟩)
    else
      clause (isKeyword "IDLE") (wordAs parseInt) (fun idle => word fun min => word fun max => wordAs parseInt fun count =>
        lastWord fun consumer => some (key, group, ⟨idle, some min, some max, some count, consumer⟩)) words

/-! ## What was written is read -/

theorem mark_cons (approximate : Bool) (f : Option Bool → Reader Bytes β) (rest : Cmd) :
    mark f (markArg approximate :: rest) = f (some approximate) rest := by
  cases approximate with
  | true => exact flag_cons (by decide) _ rest
  | false =>
    show flag (isKeyword "~") _ (asBytes "=" :: rest) = _
    rw [flag_absent (nextWord_cons (by decide) rest), if_neg Bool.false_ne_true]
    exact flag_cons (by decide) _ rest

/-- what `cmd_xadd` writes of the trimming -/
def written (o : TrimOptions) : Trimming :=
  match o.maxlen, o.minid with
  | some n, _ => ⟨some n, none, some (o.approximate.getD true), o.limit⟩
  | none, some m => ⟨none, some (asBytes m), some (o.approximate.getD true), o.limit⟩
  | none, none => noTrimming

def trimPart (o : TrimOptions) : Cmd :=
  match o.maxlen, o.minid with
  | some n, _ => [asBytes "MAXLEN", markArg (o.approximate.getD true), intArg n] ++ optArg "LIMIT" o.limit
  | none, some m => [asBytes "MINID", markArg (o.approximate.getD true), asBytes m] ++ optArg "LIMIT" o.limit
  | none, none => []

/-- some trimming is asked for -/
def TrimOptions.trims (o : TrimOptions) : Prop := o.maxlen.isSome = true ∨ o.minid.isSome = true

/-- what follows the trimming is not read as a part of it -/
structure Follows (o : TrimOptions) (rest : Cmd) : Prop where
  limit : o.trims → o.limit = none → NextWord (isKeyword "LIMIT" · = false) rest
  maxlen : ¬ o.trims → NextWord (isKeyword "MAXLEN" · = false) rest
  minid : ¬ o.trims → NextWord (isKeyword "MINID" · = false) rest

theorem clause_limit {o : TrimOptions} (h : o.trims) {rest : Cmd} (hrest : Follows o rest) (f : Option Int → Reader Bytes β) :
    clause (isKeyword "LIMIT") (wordAs parseInt) f (optArg "LIMIT" o.limit ++ rest) = f o.limit rest := by
  cases hlimit : o.limit with
  | none => exact clause_absent (hrest.limit h hlimit) _ _
  | some n =>
    show clause (isKeyword "LIMIT") (wordAs parseInt) f (asBytes "LIMIT" :: intArg n :: rest) = _
    rw [clause_cons (by decide), wordAs_cons (parseInt_intArg n)]

theorem trimming_written {o : TrimOptions} {rest : Cmd} (hrest : Follows o rest) (f : Trimming → Reader Bytes β) :
    trimming f (trimPart o ++ rest) = f (written o) rest := by
  obtain ⟨maxlen, minid, approximate, limit⟩ := o
  cases maxlen with
  | some n =>
    have htrims : (⟨some n, minid, approximate, limit⟩ : TrimOptions).trims := .inl rfl
    show trimming f (asBytes "MAXLEN" :: markArg (approximate.getD true) :: intArg n :: (optArg "LIMIT" limit ++ rest)) = _
    rw [trimming, clause_cons (by decide), mark_cons, wordAs_cons (parseInt_intArg n), clause_limit htrims hrest]
    rfl
  | none =>
    cases minid with
    | some m =>
      have htrims : (⟨none, some m, approximate, limit⟩ : TrimOptions).trims := .inr rfl
      show trimming f (asBytes "MINID" :: markArg (approximate.getD true) :: asBytes m :: (optArg "LIMIT" limit ++ rest)) = _
      rw [trimming, clause_absent (nextWord_cons (by decide) _)]
      show clause (isKeyword "MINID") _ _ (asBytes "MINID" :: _) = _
      rw [clause_cons (by decide), mark_cons, word_cons, clause_limit htrims hrest]
      rfl
    | none =>
      have htrims : ¬ (⟨none, none, approximate, limit⟩ : TrimOptions).trims := by
        rintro (h | h)
        · cases h
        · cases h
      show trimming f rest = _
      rw [trimming, clause_absent (hrest.maxlen htrims)]
      show clause (isKeyword "MINID") _ _ rest = _
      rw [clause_absent (hrest.minid htrims)]
      rfl

theorem readFields_flatMap (fields : List (String × Bytes)) :
    readFields (fields.flatMap fun fv => [asBytes fv.1, fv.2]) = some (fields.map fun fv => (asBytes fv.1, fv.2)) := by
  induction fields with
  | nil => rfl
  | cons fv fields ih =>
    rw [List.flatMap_cons, List.cons_append, List.singleton_append, readFields, ih]
    rfl

/-! ## XADD -/

/-- the entry id is not read as the option that could stand in its place -/
structure IdOk (o : TrimOptions) (nomkstream : Bool) (id : String) : Prop where
  limit : o.trims → o.limit = none → isKeyword "LIMIT" (asBytes id) = false
  maxlen : ¬ o.trims → isKeyword "MAXLEN" (asBytes id) = false
  minid : ¬ o.trims → isKeyword "MINID" (asBytes id) = false
  nomkstream : ¬ o.trims → nomkstream = false → isKeyword "NOMKSTREAM" (asBytes id) = false

theorem IdOk.follows {o : TrimOptions} {nomkstream : Bool} {id : String} (h : IdOk o nomkstream id) (rest : Cmd) :
    Follows o (asBytes id :: rest) where
  limit ht hl := nextWord_cons (h.limit ht hl) rest
  maxlen ht := nextWord_cons (h.maxlen ht) rest
  minid ht := nextWord_cons (h.minid ht) rest

theorem xadd_eq (key id : String) (fields : List (String × Bytes)) (nomkstream : Bool) (o : TrimOptions) :
    xadd key id fields nomkstream o = asBytes "XADD" :: asBytes key :: ((if nomkstream then [asBytes "NOMKSTREAM"] else []) ++
      (trimPart o ++ (asBytes id :: fields.flatMap fun fv => [asBytes fv.1, fv.2]))) := by
  simp only [xadd, cmdXadd, trimPart, List.append_assoc, List.cons_append, List.nil_append]

/-- the word after the key is no NOMKSTREAM of its own -/
theorem nextWord_trimPart {o : TrimOptions} {id : String} (h : IdOk o false id) (rest : Cmd) :
    NextWord (isKeyword "NOMKSTREAM" · = false) (trimPart o ++ (asBytes id :: rest)) := by
  obtain ⟨maxlen, minid, approximate, limit⟩ := o
  cases maxlen with
  | some n => exact nextWord_cons (by decide) _
  | none =>
    cases minid with
    | some m => exact nextWord_cons (by decide) _
    | none =>
      refine nextWord_cons (h.nomkstream ?_ rfl) rest
      rintro (h | h)
      · cases h
      · cases h

theorem decodeXadd_cmdXadd {o : TrimOptions} {nomkstream : Bool} {id : String} (h : IdOk o nomkstream id) (key : String)
    (fields : List (String × Bytes)) : decodeXadd (xadd key id fields nomkstream o) =
      some ⟨asBytes key, nomkstream, written o, asBytes id, fields.map fun fv => (asBytes fv.1, fv.2)⟩ := by
  rw [xadd_eq, decodeXadd, keyword_cons (by decide), word_cons]
  have hrest : ∀ f : Trimming → Reader Bytes Added, trimming f (trimPart o ++ (asBytes id :: fields.flatMap
      fun fv => [asBytes fv.1, fv.2])) = f (written o) (asBytes id :: fields.flatMap fun fv => [asBytes fv.1, fv.2]) :=
    trimming_written (h.follows _)
  cases nomkstream with
  | true =>
    rw [if_pos rfl, List.singleton_append, flag_cons (by decide), hrest, word_cons, readFields_flatMap]
    rfl
  | false =>
    rw [if_neg Bool.false_ne_true, List.nil_append, flag_absent (nextWord_trimPart h _), hrest, word_cons,
      readFields_flatMap]
    rfl

/-- every option that the caller gave is there, with its value -/
structure Recovers (o : TrimOptions) (t : Trimming) : Prop where
  maxlen : ∀ n, o.maxlen = some n → t.maxlen = some n
  minid : ∀ m, o.minid = some m → t.minid = some (asBytes m)
  approximate : ∀ b, o.approximate = some b → t.approximate = some b
  limit : ∀ n, o.limit = some n → t.limit = some n

/-- the options that one command can carry -/
structure Expressible (o : TrimOptions) : Prop where
  one : ¬ (o.maxlen.isSome = true ∧ o.minid.isSome = true)
  approximate : o.approximate.isSome = true → o.trims
  limit : o.limit.isSome = true → o.trims

theorem recovers_written_iff (o : TrimOptions) : Recovers o (written o) ↔ Expressible o := by
  obtain ⟨maxlen, minid, approximate, limit⟩ := o
  constructor
  · rintro ⟨hmaxlen, hminid, happroximate, hlimit⟩
    refine ⟨?_, ?_, ?_⟩
    · rintro ⟨hn, hm⟩
      obtain ⟨n, rfl⟩ := Option.isSome_iff_exists.1 hn
      obtain ⟨m, rfl⟩ := Option.isSome_iff_exists.1 hm
      cases hminid m rfl
    · intro hb
      obtain ⟨b, rfl⟩ := Option.isSome_iff_exists.1 hb
      by_contra htrims
      cases maxlen with
      | some n => exact htrims (.inl rfl)
      | none =>
        cases minid with
        | some m => exact htrims (.inr rfl)
        | none => cases happroximate b rfl
    · intro hn
      obtain ⟨n, rfl⟩ := Option.isSome_iff_exists.1 hn
      by_contra htrims
      cases maxlen with
      | some n => exact htrims (.inl rfl)
      | none =>
        cases minid with
        | some m => exact htrims (.inr rfl)
        | none => cases hlimit n rfl
  · rintro ⟨hone, happroximate, hlimit⟩
    cases maxlen with
    | some n =>
      refine ⟨fun _ h => h, ?_, ?_, fun _ h => h⟩
      · rintro m rfl
        exact absurd ⟨rfl, rfl⟩ hone
      · rintro b rfl
        rfl
    | none =>
      cases minid with
      | some m =>
        refine ⟨by rintro n ⟨⟩, ?_, ?_, fun _ h => h⟩
        · intro m' hm'
          cases hm'
          rfl
        · rintro b rfl
          rfl
      | none =>
        have hnone : ¬ (⟨none, none, approximate, limit⟩ : TrimOptions).trims := by
          rintro (h | h)
          · cases h
          · cases h
        refine ⟨by rintro n ⟨⟩, by rintro m ⟨⟩, ?_, ?_⟩
        · rintro b rfl
          exact absurd (happroximate rfl) hnone
        · rintro n rfl
          exact absurd (hlimit rfl) hnone

/-- **XADD.** A call whose entry id is not read as an option is sent with all its options exactly if one command can carry
them. -/
theorem xadd_recovered_iff {o : TrimOptions} {nomkstream : Bool} {id : String} (h : IdOk o nomkstream id) (key : String)
    (fields : List (String × Bytes)) :
    (∃ d, decodeXadd (xadd key id fields nomkstream o) = some d ∧ d.nomkstream = nomkstream ∧ Recovers o d.trimming) ↔
      Expressible o := by
  rw [decodeXadd_cmdXadd h, ← recovers_written_iff]
  constructor
  · rintro ⟨d, hd, -, hrecovers⟩
    cases hd
    exact hrecovers
  · intro hrecovers
    exact ⟨_, rfl, rfl, hrecovers⟩

/-! ## XTRIM -/

theorem xtrim_eq {o : TrimOptions} (h : o.trims) (key : String) :
    xtrim key o = .ok (asBytes "XTRIM" :: asBytes key :: (trimPart o ++ [])) := by
  obtain ⟨maxlen, minid, approximate, limit⟩ := o
  cases maxlen with
  | some n => simp [xtrim, cmdXtrim, trimPart]
  | none =>
    cases minid with
    | some m => simp [xtrim, cmdXtrim, trimPart]
    | none => rcases h with h | h <;> cases h

theorem decodeXtrim_cmdXtrim {o : TrimOptions} (h : o.trims) (key : String) :
    decodeXtrim (asBytes "XTRIM" :: asBytes key :: (trimPart o ++ [])) = some (asBytes key, written o) := by
  have hfollows : Follows o [] :=
    ⟨fun _ _ => nextWord_nil _, fun hnot => absurd h hnot, fun hnot => absurd h hnot⟩
  rw [decodeXtrim, keyword_cons (by decide), word_cons, trimming_written hfollows]
  rfl

/-- **XTRIM.** A call raises without trimming, and else is sent with all its options exactly if it has one trimming. -/
theorem xtrim_recovered_iff (key : String) (o : TrimOptions) :
    ((∃ e, xtrim key o = .error e) ∨
      ∃ cmd d, xtrim key o = .ok cmd ∧ decodeXtrim cmd = some d ∧ Recovers o d.2) ↔
      ¬ (o.maxlen.isSome = true ∧ o.minid.isSome = true) := by
  by_cases htrims : o.trims
  · rw [xtrim_eq htrims]
    have hexpressible : Expressible o ↔ ¬ (o.maxlen.isSome = true ∧ o.minid.isSome = true) :=
      ⟨Expressible.one, fun hone => ⟨hone, fun _ => htrims, fun _ => htrims⟩⟩
    rw [← hexpressible, ← recovers_written_iff]
    constructor
    · rintro (⟨e, he⟩ | ⟨cmd, d, hcmd, hd, hrecovers⟩)
      · cases he
      · cases hcmd
        rw [decodeXtrim_cmdXtrim htrims] at hd
        cases hd
        exact hrecovers
    · intro hrecovers
      exact .inr ⟨_, _, rfl, decodeXtrim_cmdXtrim htrims key, hrecovers⟩
  · refine iff_of_true (.inl ?_) fun hboth => htrims (.inl hboth.1)
    obtain ⟨maxlen, minid, approximate, limit⟩ := o
    cases maxlen with
    | some n => exact absurd (.inl rfl) htrims
    | none =>
      cases minid with
      | some m => exact absurd (.inr rfl) htrims
      | none => exact ⟨_, rfl⟩

/-! ## XPENDING -/

structure RecoversPending (o : PendingOptions) (d : Pending) : Prop where
  idle : ∀ n, o.idle = some n → d.idle = some n
  min : ∀ m, o.min = some m → d.min = some (asBytes m)
  max : ∀ m, o.max = some m → d.max = some (asBytes m)
  count : ∀ n, o.count = some n → d.count = some n
  consumer : ∀ c, o.consumer = some c → d.consumer = some (asBytes c)

/-- `idle` and `consumer` come with a range, and the start of the range is not read as `IDLE` -/
structure PendingOk (o : PendingOptions) : Prop where
  idle : o.idle.isSome = true → o.isRange = true
  consumer : o.consumer.isSome = true → o.isRange = true
  min : o.idle = none → ∀ m, o.min = some m → isKeyword "IDLE" (asBytes m) = false

/-- the range as it is sent -/
def sentRange (o : PendingOptions) : Pending :=
  ⟨o.idle, some (asBytes (o.min.getD "-")), some (asBytes (o.max.getD "+")), some (o.count.getD 10), o.consumer.map asBytes⟩

theorem recovers_sentRange (o : PendingOptions) : RecoversPending o (sentRange o) := by
  obtain ⟨idle, min, max, count, consumer⟩ := o
  refine ⟨fun _ h => h, ?_, ?_, ?_, ?_⟩
  · rintro m rfl
    rfl
  · rintro m rfl
    rfl
  · rintro n rfl
    rfl
  · rintro c rfl
    rfl

theorem lastWord_toList (c : Option Bytes) (f : Option Bytes → Option β) : lastWord f c.toList = f c := by
  cases c with
  | none => rfl
  | some c => rfl

theorem xpending_range_eq {o : PendingOptions} (h : o.isRange = true) (key group : String) :
    xpending key group o = asBytes "XPENDING" :: asBytes key :: asBytes group :: (optArg "IDLE" o.idle ++
      asBytes (o.min.getD "-") :: asBytes (o.max.getD "+") :: intArg (o.count.getD 10) :: (o.consumer.map asBytes).toList) := by
  rw [xpending, if_pos h]
  simp only [cmdXpendingRange, List.append_assoc, List.cons_append, List.nil_append]

theorem decodeXpending_cons (key group : Bytes) (w : Bytes) (words : Cmd) :
    decodeXpending (asBytes "XPENDING" :: key :: group :: w :: words) =
      clause (isKeyword "IDLE") (wordAs parseInt) (fun idle => word fun min => word fun max => wordAs parseInt fun count =>
        lastWord fun consumer => some (key, group, ⟨idle, some min, some max, some count, consumer⟩)) (w :: words) := by
  rw [decodeXpending, keyword_cons (by decide), word_cons, word_cons, if_neg (List.cons_ne_nil w words)]

theorem decodeXpending_range {o : PendingOptions} (h : o.isRange = true)
    (hmin : o.idle = none → isKeyword "IDLE" (asBytes (o.min.getD "-")) = false) (key group : String) :
    decodeXpending (xpending key group o) = some (asBytes key, asBytes group, sentRange o) := by
  rw [xpending_range_eq h]
  cases hidle : o.idle with
  | some n =>
    rw [optArg, List.cons_append, List.singleton_append, decodeXpending_cons, clause_cons (by decide),
      wordAs_cons (parseInt_intArg n), word_cons, word_cons, wordAs_cons (parseInt_intArg _), lastWord_toList, sentRange,
      hidle]
  | none =>
    show decodeXpending (asBytes "XPENDING" :: asBytes key :: asBytes group :: asBytes (o.min.getD "-") :: _) = _
    rw [decodeXpending_cons, clause_absent (nextWord_cons (hmin hidle) _), word_cons, word_cons,
      wordAs_cons (parseInt_intArg _), lastWord_toList, sentRange, hidle]

/-- a start that is read as `IDLE` leaves too few words -/
theorem decodeXpending_idle {o : PendingOptions} (h : o.isRange = true) (hidle : o.idle = none)
    (hmin : isKeyword "IDLE" (asBytes (o.min.getD "-")) = true) (key group : String) :
    decodeXpending (xpending key group o) = none := by
  rw [xpending_range_eq h, hidle]
  show decodeXpending (asBytes "XPENDING" :: asBytes key :: asBytes group :: asBytes (o.min.getD "-") :: _) = _
  rw [decodeXpending_cons, clause_cons hmin, wordAs]
  cases parseInt (asBytes (o.max.getD "+")) with
  | none => rfl
  | some n =>
    rw [Option.bind_some, word_cons]
    cases o.consumer with
    | none => rfl
    | some c => rfl

/-- **XPENDING.** A call is sent with all its options exactly if `idle` and `consumer` come with a range whose start is
not read as `IDLE`. -/
theorem xpending_recovered_iff (key group : String) (o : PendingOptions) :
    (∃ d, decodeXpending (xpending key group o) = some d ∧ RecoversPending o d.2.2) ↔ PendingOk o := by
  cases hrange : o.isRange with
  | true =>
    by_cases hmin : o.idle = none ∧ isKeyword "IDLE" (asBytes (o.min.getD "-")) = true
    · obtain ⟨hidle, hkeyword⟩ := hmin
      rw [decodeXpending_idle hrange hidle hkeyword]
      refine iff_of_false (fun ⟨d, hd, _⟩ => by cases hd) ?_
      intro hok
      cases ho : o.min with
      | none =>
        rw [ho] at hkeyword
        exact absurd hkeyword (by decide)
      | some m =>
        rw [ho] at hkeyword
        exact absurd hkeyword (ne_true_of_eq_false (hok.min hidle m ho))
    · have hword : o.idle = none → isKeyword "IDLE" (asBytes (o.min.getD "-")) = false := fun hidle =>
        eq_false_of_ne_true fun hkeyword => hmin ⟨hidle, hkeyword⟩
      rw [decodeXpending_range hrange hword]
      refine iff_of_true ⟨_, rfl, recovers_sentRange o⟩ ⟨fun _ => hrange, fun _ => hrange, ?_⟩
      intro hidle m hm
      have hstart := hword hidle
      rwa [hm] at hstart
  | false =>
    have hsummary : decodeXpending (xpending key group o) =
        some (asBytes key, asBytes group, ⟨none, none, none, none, none⟩) := by
      have hnot : ¬ o.isRange = true := ne_true_of_eq_false hrange
      rw [xpending, if_neg hnot, cmdXpendingSummary, decodeXpending, keyword_cons (by decide)]
      rfl
    rw [hsummary]
    have hparts := hrange
    rw [PendingOptions.isRange, Bool.or_eq_false_iff, Bool.or_eq_false_iff] at hparts
    obtain ⟨⟨hmin, hmax⟩, hcount⟩ := hparts
    constructor
    · rintro ⟨d, hd, hrecovers⟩
      cases hd
      refine ⟨?_, ?_, ?_⟩
      · intro hidle
        obtain ⟨n, hn⟩ := Option.isSome_iff_exists.1 hidle
        cases hrecovers.idle n hn
      · intro hconsumer
        obtain ⟨c, hc⟩ := Option.isSome_iff_exists.1 hconsumer
        cases hrecovers.consumer c hc
      · intro _ m hm
        rw [hm] at hmin
        cases hmin
    · intro hok
      refine ⟨_, rfl, ?_, ?_, ?_, ?_, ?_⟩
      · intro n hn
        have hsome := hok.idle (by rw [hn]; rfl)
        rw [hrange] at hsome
        cases hsome
      · intro m hm
        rw [hm] at hmin
        cases hmin
      · intro m hm
        rw [hm] at hmax
        cases hmax
      · intro n hn
        rw [hn] at hcount
        cases hcount
      · intro c hc
        have hsome := hok.consumer (by rw [hc]; rfl)
        rw [hrange] at hsome
        cases hsome

/-! ## All three -/

/-- **Stream options.** The calls that raise, or whose options can all be read in the command that is sent: of `xadd`,
where the entry id is not read as an option, those with one trimming at most and `limit` and `approximate` only beside it;
of `xtrim` those without `minid` beside `maxlen`; of `xpending` those with `idle` and `consumer` only beside a range whose
start is not read as `IDLE`. -/
theorem stream_options_recovered_iff (key group id : String) (fields : List (String × Bytes)) (nomkstream : Bool)
    (o : TrimOptions) (p : PendingOptions) :
    (IdOk o nomkstream id →
        ((∃ d, decodeXadd (xadd key id fields nomkstream o) = some d ∧ d.nomkstream = nomkstream ∧
          Recovers o d.trimming) ↔ Expressible o)) ∧
      (((∃ e, xtrim key o = .error e) ∨
        ∃ cmd d, xtrim key o = .ok cmd ∧ decodeXtrim cmd = some d ∧ Recovers o d.2) ↔
          ¬ (o.maxlen.isSome = true ∧ o.minid.isSome = true)) ∧
      ((∃ d, decodeXpending (xpending key group p) = some d ∧ RecoversPending p d.2.2) ↔ PendingOk p) :=
  ⟨fun h => xadd_recovered_iff h key fields, xtrim_recovered_iff key o, xpending_recovered_iff key group p⟩

/-- a trimming with a limit, in front of an automatic id -/
theorem stream_options_recovered_iff_trim :
    ∃ d, decodeXadd (xadd "s" "*" [("f", [118])] true ⟨some 5, none, some true, some 100⟩) = some d ∧
      d.nomkstream = true ∧ Recovers ⟨some 5, none, some true, some 100⟩ d.trimming :=
  ((stream_options_recovered_iff "s" "g" "*" [("f", [118])] true ⟨some 5, none, some true, some 100⟩
    ⟨none, none, none, none, none⟩).1
    ⟨fun _ _ => by decide, fun _ => by decide, fun _ => by decide, fun _ _ => by decide⟩).2
    ⟨fun h => absurd h.2 Bool.false_ne_true, fun _ => .inl rfl, fun _ => .inl rfl⟩

/-- `minid` beside `maxlen` -/
theorem stream_options_minid_dropped :
    ¬ ∃ d, decodeXadd (xadd "s" "*" [("f", [118])] false ⟨some 5, some "7-0", none, none⟩) = some d ∧
      d.nomkstream = false ∧ Recovers ⟨some 5, some "7-0", none, none⟩ d.trimming := by
  have hid : IdOk ⟨some 5, some "7-0", none, none⟩ false "*" :=
    ⟨fun _ _ => by decide, fun _ => by decide, fun _ => by decide, fun _ _ => by decide⟩
  rw [decodeXadd_cmdXadd hid]
  rintro ⟨d, hd, -, hrecovers⟩
  cases hd
  cases hrecovers.minid "7-0" rfl

end RedisRsPy.Commands.StreamOptions
