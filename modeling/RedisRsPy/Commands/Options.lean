/-
Options that exclude each other: SET, GETEX and the EXPIRE commands (`connection.rs`, `commands/strings.rs`), HEXPIRE
and its kin (`commands/hashes.rs`), ZADD (`commands/zsets.rs`).

The clients check the options before they build a command. The server checks them again as it reads the words: its loop
takes them in any order and refuses one that does not go with one before it. The cluster clients check nothing.

The builders of EXPIRE and HEXPIRE have room for one condition, so a call with two of them has no vector of its own. It
is compared with the vector that carries all the conditions the caller gave (`expireAsked`, `hexpireAsked`).

Results:
- `readSet_setFull`, `readGetex_getex`, `readZadd_buildZaddCmd`: the server reads a vector, as it was meant, where the
  check passes, and refuses it where the check raises;
- `readHexpire_hexpireAsked`: so it is with HEXPIRE, but for a call without fields, which the server refuses;
- `readExpire_expireAsked`: of the calls that the check of EXPIRE raises for, the server takes XX with GT or LT;
- `expireCmd_eq`, `hexpireFamily_eq`: where the check passes, the vector carries what the caller gave;
- `options_checked_exact`: all of them.
Witness: `options_checked_exact_zadd`.
-/
import RedisRsPy.Commands.Hashes
import RedisRsPy.Commands.Strings
import RedisRsPy.Commands.Wire
import RedisRsPy.Lib.Options

namespace RedisRsPy.Commands.Options

open Lib.Arguments Lib.Options
open Strings (SetOptions GetexOptions validateSetKwargs validateGetex validateExpireFlags)
open Hashes (validateTtlModifiers)
open Zsets (ZAddFlags validateZaddFlags collectZaddPairs)

/-! ## Commands -/

/-- `if b { cmd.arg(key); }` -/
def flagArg (key : String) (b : Bool) : Cmd := if b then [asBytes key] else []

/-- `set_full`; the seconds and milliseconds of `ex` and `px` are unsigned -/
def setFull (key : String) (value : Bytes) (o : SetOptions) : Cmd :=
  [asBytes "SET", asBytes key, value] ++ (optArg "EX" (o.ex.map Int.ofNat) ++ (optArg "PX" (o.px.map Int.ofNat) ++
    (optArg "EXAT" o.exat ++ (optArg "PXAT" o.pxat ++ (flagArg "KEEPTTL" o.keepttl ++ (flagArg "NX" o.nx ++
      (flagArg "XX" o.xx ++ flagArg "GET" o.get)))))))

/-- `getex` -/
def getex (key : String) (o : GetexOptions) : Cmd :=
  [asBytes "GETEX", asBytes key] ++ (optArg "EX" (o.ex.map Int.ofNat) ++ (optArg "PX" (o.px.map Int.ofNat) ++
    (optArg "EXAT" o.exat ++ (optArg "PXAT" o.pxat ++ flagArg "PERSIST" o.persist))))

/-- `append_expire_flag` -/
def appendExpireFlag (f : ExpireFlags) : Cmd :=
  if f.nx then [asBytes "NX"]
  else if f.xx then [asBytes "XX"]
  else if f.gt then [asBytes "GT"]
  else if f.lt then [asBytes "LT"]
  else []

/-- the four commands of the family, with a time from now or a moment, in seconds or milliseconds -/
def expireCmd (name key : String) (time : Int) (f : ExpireFlags) : Cmd :=
  [asBytes name, asBytes key, intArg time] ++ appendExpireFlag f

/-- `expire_full` -/
def expireFull : String → Int → ExpireFlags → Cmd := expireCmd "EXPIRE"

/-- `pexpire_full` -/
def pexpireFull : String → Int → ExpireFlags → Cmd := expireCmd "PEXPIRE"

/-- `expireat_full` -/
def expireatFull : String → Int → ExpireFlags → Cmd := expireCmd "EXPIREAT"

/-- `pexpireat_full` -/
def pexpireatFull : String → Int → ExpireFlags → Cmd := expireCmd "PEXPIREAT"

/-- what `validate_ttl_modifiers` returns where it passes -/
def ttlModifier (f : ExpireFlags) : Option String :=
  if f.nx then some "NX"
  else if f.xx then some "XX"
  else if f.gt then some "GT"
  else if f.lt then some "LT"
  else none

/-- `hexpire_family` -/
def hexpireFamily (command key : String) (fields : List String) (time : Int) (modifier : Option String) : Cmd :=
  [asBytes command, asBytes key, intArg time] ++ (modifier.map asBytes).toList ++
    [asBytes "FIELDS", lenArg fields.length] ++ fields.map asBytes

/-- `build_zadd_cmd`; the crate prints the scores -/
def buildZaddCmd (printF64 : UInt64 → Bytes) (key : String) (pairs : List (Bytes × UInt64)) (f : ZAddFlags) : Cmd :=
  [asBytes "ZADD", asBytes key] ++ (flagArg "NX" f.nx ++ (flagArg "XX" f.xx ++ (flagArg "GT" f.gt ++
    (flagArg "LT" f.lt ++ (flagArg "CH" f.ch ++ flagArg "INCR" f.incr))))) ++ pairs.flatMap fun p => [printF64 p.2, p.1]

/-! ## The grammar of the server -/

/-- the option that a word spells, in upper or lower case -/
def spelled {κ : Type} (all : List κ) (name : κ → String) (w : Bytes) : Option κ :=
  all.find? fun k => isKeyword (name k) w

/-- the options of SET and GETEX -/
inductive StringOption where
  | ex
  | px
  | exat
  | pxat
  | keepttl
  | persist
  | nx
  | xx
  | get
deriving DecidableEq

def StringOption.name : StringOption → String
  | ex => "EX"
  | px => "PX"
  | exat => "EXAT"
  | pxat => "PXAT"
  | keepttl => "KEEPTTL"
  | persist => "PERSIST"
  | nx => "NX"
  | xx => "XX"
  | get => "GET"

/-- it says when the key expires -/
def StringOption.expiry : StringOption → Bool
  | ex | px | exat | pxat | keepttl | persist => true
  | _ => false

def StringOption.valued : StringOption → Bool
  | ex | px | exat | pxat => true
  | _ => false

/-- `[NX | XX]` and `[EX s | PX ms | EXAT t | PXAT t | KEEPTTL | PERSIST]` -/
def StringOption.excludes (a b : StringOption) : Bool :=
  a != b && (a.expiry && b.expiry || (a == .nx && b == .xx) || (a == .xx && b == .nx))

open StringOption in
def setGrammar : Grammar Bytes StringOption :=
  ⟨spelled [ex, px, exat, pxat, keepttl, nx, xx, get] name, valued, excludes⟩

open StringOption in
def getexGrammar : Grammar Bytes StringOption := ⟨spelled [ex, px, exat, pxat, persist] name, valued, excludes⟩

/-- a SET as the server understands it -/
structure SetCall where
  key : Bytes
  value : Bytes
  ex : Option Int
  px : Option Int
  exat : Option Int
  pxat : Option Int
  keepttl : Bool
  nx : Bool
  xx : Bool
  get : Bool

/-- `SET key value options...` -/
def readSet : Cmd → Option SetCall :=
  keyword (isKeyword "SET") <| word fun key => word fun value =>
    options setGrammar (fun os => ends do
      let ex ← valueAs parseInt .ex os
      let px ← valueAs parseInt .px os
      let exat ← valueAs parseInt .exat os
      let pxat ← valueAs parseInt .pxat os
      some ⟨key, value, ex, px, exat, pxat, has .keepttl os, has .nx os, has .xx os, has .get os⟩) []

structure GetexCall where
  key : Bytes
  ex : Option Int
  px : Option Int
  exat : Option Int
  pxat : Option Int
  persist : Bool

/-- `GETEX key options...` -/
def readGetex : Cmd → Option GetexCall :=
  keyword (isKeyword "GETEX") <| word fun key =>
    options getexGrammar (fun os => ends do
      let ex ← valueAs parseInt .ex os
      let px ← valueAs parseInt .px os
      let exat ← valueAs parseInt .exat os
      let pxat ← valueAs parseInt .pxat os
      some ⟨key, ex, px, exat, pxat, has .persist os⟩) []

/-- the conditions of the EXPIRE commands, and the options of ZADD -/
inductive Condition where
  | nx
  | xx
  | gt
  | lt
  | ch
  | incr
deriving DecidableEq

def Condition.name : Condition → String
  | nx => "NX"
  | xx => "XX"
  | gt => "GT"
  | lt => "LT"
  | ch => "CH"
  | incr => "INCR"

/-- NX goes with no other condition, GT not with LT -/
def Condition.excludes : Condition → Condition → Bool
  | nx, xx | xx, nx | nx, gt | gt, nx | nx, lt | lt, nx | gt, lt | lt, gt => true
  | _, _ => false

open Condition in
def expireGrammar : Grammar Bytes Condition := ⟨spelled [nx, xx, gt, lt] name, fun _ => false, excludes⟩

open Condition in
/-- one condition at most -/
def hexpireGrammar : Grammar Bytes Condition := ⟨spelled [nx, xx, gt, lt] name, fun _ => false, fun a b => a != b⟩

open Condition in
def zaddGrammar : Grammar Bytes Condition := ⟨spelled [nx, xx, gt, lt, ch, incr] name, fun _ => false, excludes⟩

def flagsOf (os : List (Given Bytes Condition)) : ExpireFlags := ⟨has .nx os, has .xx os, has .gt os, has .lt os⟩

structure ExpireCall where
  key : Bytes
  time : Int
  flags : ExpireFlags

/-- `EXPIRE key time conditions...` and its kin -/
def readExpire (name : String) : Cmd → Option ExpireCall :=
  keyword (isKeyword name) <| word fun key => wordAs parseInt fun time =>
    options expireGrammar (fun os => ends (some ⟨key, time, flagsOf os⟩)) []

structure HexpireCall where
  key : Bytes
  time : Int
  flags : ExpireFlags
  fields : List Bytes

/-- `HEXPIRE key time [condition] FIELDS numfields fields...` and its kin; no number of fields is 0 -/
def readHexpire (name : String) : Cmd → Option HexpireCall :=
  keyword (isKeyword name) <| word fun key => wordAs parseInt fun time =>
    options hexpireGrammar (fun os => keyword (isKeyword "FIELDS") <| wordAs parseDigits fun n =>
      times n fun fields => ends (if n = 0 then none else some ⟨key, time, flagsOf os, fields⟩)) []

/-- NaN is no score -/
def isNaN (bits : UInt64) : Bool := (doubleValue bits).isNone

structure ZaddCall where
  key : Bytes
  pairs : List (Bytes × UInt64)
  flags : ZAddFlags

/-- scores and members by turns -/
def readPairs (parseF64 : Bytes → Option UInt64) : List Bytes → Option (List (Bytes × UInt64))
  | [] => some []
  | [_] => none
  | score :: member :: rest => do
    let s ← (parseF64 score).filter fun s => !isNaN s
    let pairs ← readPairs parseF64 rest
    some ((member, s) :: pairs)

/-- `ZADD key options... score member...`; one pair at least, and no more with INCR -/
def readZadd (parseF64 : Bytes → Option UInt64) : Cmd → Option ZaddCall :=
  keyword (isKeyword "ZADD") <| word fun key =>
    options zaddGrammar (fun os words =>
      if words = [] ∨ has .incr os = true ∧ words.length ≠ 2 then none
      else (readPairs parseF64 words).map fun pairs =>
        ⟨key, pairs, has .nx os, has .xx os, has .gt os, has .lt os, has .ch os, has .incr os⟩) []

/-- the call, where the check passes -/
def checkedCall {α : Type} (check : Arg) (call : α) : Option α :=
  match check with
  | .ok () => some call
  | .error _ => none

/-! ## Checks -/

section Checks

variable {α : Type} {c c' : Prop} [Decidable c] [Decidable c']

theorem checkedCall_guard (e : Exn) (rest : Arg) (call : α) :
    checkedCall (if c then do throw e; rest else rest) call = if ¬ c then checkedCall rest call else none := by
  split_ifs <;> rfl

theorem checkedCall_last (e : Exn) (call : α) :
    checkedCall (if c then throw e else pure ()) call = if ¬ c then some call else none := by
  split_ifs <;> rfl

theorem guard_ok_iff (e : Exn) : (if c then throw e else pure () : Arg) = .ok () ↔ ¬ c := by
  split_ifs with h
  · exact ⟨fun hok => (nomatch hok), fun hnot => absurd h hnot⟩
  · exact ⟨fun _ => h, fun _ => rfl⟩

theorem ite_ite (call : Option α) :
    (if c then if c' then call else none else none) = if c ∧ c' then call else none := by
  split_ifs <;> simp_all

end Checks

/-! ## What is written -/

section Written

variable {κ : Type} {name : κ → String}

theorem flatMap_optional (k : κ) (n : Option Int) :
    (optional k (n.map intArg)).flatMap (words fun k => asBytes (name k)) = optArg (name k) n := by
  cases n <;> rfl

theorem flatMap_marked (k : κ) (b : Bool) :
    (marked k b).flatMap (words fun k => asBytes (name k)) = flagArg (name k) b := by
  cases b <;> rfl

end Written

/-! ### SET -/

open StringOption in
/-- the options of a SET, as `set_full` writes them -/
def setOptions (o : SetOptions) : List (Given Bytes StringOption) :=
  optional ex ((o.ex.map Int.ofNat).map intArg) ++ (optional px ((o.px.map Int.ofNat).map intArg) ++
    (optional exat (o.exat.map intArg) ++ (optional pxat (o.pxat.map intArg) ++ (marked keepttl o.keepttl ++
      (marked nx o.nx ++ (marked xx o.xx ++ marked get o.get))))))

theorem setFull_eq (key : String) (value : Bytes) (o : SetOptions) :
    setFull key value o =
      asBytes "SET" :: asBytes key :: value :: (setOptions o).flatMap (words fun k => asBytes k.name) := by
  simp only [setOptions, List.flatMap_append, flatMap_optional, flatMap_marked]
  rfl

theorem known_setOptions (o : SetOptions) : Known setGrammar (fun k => asBytes k.name) (setOptions o) := by
  unfold setOptions
  refine known_append (known_optional ?_ ?_ _) <| known_append (known_optional ?_ ?_ _) <|
    known_append (known_optional ?_ ?_ _) <| known_append (known_optional ?_ ?_ _) <|
    known_append (known_marked ?_ ?_ _) <| known_append (known_marked ?_ ?_ _) <|
    known_append (known_marked ?_ ?_ _) (known_marked ?_ ?_ _)
  all_goals decide

/-- which options exclude each other depends on which are there alone -/
theorem compatible_set : ∀ ex px exat pxat keepttl nx xx get : Bool,
    Compatible setGrammar
      ((if ex then [.ex] else []) ++ ((if px then [.px] else []) ++ ((if exat then [.exat] else []) ++
        ((if pxat then [.pxat] else []) ++ ((if keepttl then [.keepttl] else []) ++ ((if nx then [.nx] else []) ++
          ((if xx then [.xx] else []) ++ if get then [.get] else []))))))) ↔
    (¬ (nx && xx) = true ∧ ¬ [ex, px, exat, pxat].count true > 1) ∧
      ¬ (keepttl && decide ([ex, px, exat, pxat].count true > 0)) = true := by
  decide

theorem checked_set {α : Type} (o : SetOptions) (call : α) :
    (if Compatible setGrammar (keys (setOptions o)) then some call else none) =
      checkedCall (validateSetKwargs o) call := by
  have hkeys := compatible_set o.ex.isSome o.px.isSome o.exat.isSome o.pxat.isSome o.keepttl o.nx o.xx o.get
  unfold validateSetKwargs setOptions
  dsimp only
  rw [checkedCall_guard, checkedCall_guard, checkedCall_last, ite_ite, ite_ite]
  simp only [keys_append, keys_optional, keys_marked, Option.isSome_map]
  exact if_congr hkeys rfl rfl

/-- the server takes a SET exactly where the check passes -/
theorem readSet_setFull (key : String) (value : Bytes) (o : SetOptions) :
    readSet (setFull key value o) = checkedCall (validateSetKwargs o)
      ⟨asBytes key, value, o.ex.map Int.ofNat, o.px.map Int.ofNat, o.exat, o.pxat, o.keepttl, o.nx, o.xx, o.get⟩ := by
  have hex : valueAs parseInt .ex (setOptions o) = some (o.ex.map Int.ofNat) :=
    valueAs_written parseInt_intArg (by simp [setOptions])
  have hpx : valueAs parseInt .px (setOptions o) = some (o.px.map Int.ofNat) :=
    valueAs_written parseInt_intArg (by simp [setOptions])
  have hexat : valueAs parseInt .exat (setOptions o) = some o.exat :=
    valueAs_written parseInt_intArg (by simp [setOptions])
  have hpxat : valueAs parseInt .pxat (setOptions o) = some o.pxat :=
    valueAs_written parseInt_intArg (by simp [setOptions])
  rw [setFull_eq, readSet, keyword_cons (by decide), word_cons, word_cons, options_ends (known_setOptions o),
    ← checked_set]
  refine if_congr Iff.rfl ?_ rfl
  simp only [ends, hex, hpx, hexat, hpxat]
  simp [setOptions]

/-! ### GETEX -/

open StringOption in
/-- the options of a GETEX -/
def getexOptions (o : GetexOptions) : List (Given Bytes StringOption) :=
  optional ex ((o.ex.map Int.ofNat).map intArg) ++ (optional px ((o.px.map Int.ofNat).map intArg) ++
    (optional exat (o.exat.map intArg) ++ (optional pxat (o.pxat.map intArg) ++ marked persist o.persist)))

theorem getex_eq (key : String) (o : GetexOptions) :
    getex key o = asBytes "GETEX" :: asBytes key :: (getexOptions o).flatMap (words fun k => asBytes k.name) := by
  simp only [getexOptions, List.flatMap_append, flatMap_optional, flatMap_marked]
  rfl

theorem known_getexOptions (o : GetexOptions) : Known getexGrammar (fun k => asBytes k.name) (getexOptions o) := by
  unfold getexOptions
  refine known_append (known_optional ?_ ?_ _) <| known_append (known_optional ?_ ?_ _) <|
    known_append (known_optional ?_ ?_ _) <| known_append (known_optional ?_ ?_ _) (known_marked ?_ ?_ _)
  all_goals decide

theorem compatible_getex : ∀ ex px exat pxat persist : Bool,
    Compatible getexGrammar
      ((if ex then [.ex] else []) ++ ((if px then [.px] else []) ++ ((if exat then [.exat] else []) ++
        ((if pxat then [.pxat] else []) ++ if persist then [.persist] else [])))) ↔
    ¬ [ex, px, exat, pxat].count true > 1 ∧ ¬ (persist && decide ([ex, px, exat, pxat].count true > 0)) = true := by
  decide

theorem checked_getex {α : Type} (o : GetexOptions) (call : α) :
    (if Compatible getexGrammar (keys (getexOptions o)) then some call else none) =
      checkedCall (validateGetex o) call := by
  have hkeys := compatible_getex o.ex.isSome o.px.isSome o.exat.isSome o.pxat.isSome o.persist
  unfold validateGetex getexOptions
  dsimp only
  rw [checkedCall_guard, checkedCall_last, ite_ite]
  simp only [keys_append, keys_optional, keys_marked, Option.isSome_map]
  exact if_congr hkeys rfl rfl

theorem readGetex_getex (key : String) (o : GetexOptions) :
    readGetex (getex key o) = checkedCall (validateGetex o)
      ⟨asBytes key, o.ex.map Int.ofNat, o.px.map Int.ofNat, o.exat, o.pxat, o.persist⟩ := by
  have hex : valueAs parseInt .ex (getexOptions o) = some (o.ex.map Int.ofNat) :=
    valueAs_written parseInt_intArg (by simp [getexOptions])
  have hpx : valueAs parseInt .px (getexOptions o) = some (o.px.map Int.ofNat) :=
    valueAs_written parseInt_intArg (by simp [getexOptions])
  have hexat : valueAs parseInt .exat (getexOptions o) = some o.exat :=
    valueAs_written parseInt_intArg (by simp [getexOptions])
  have hpxat : valueAs parseInt .pxat (getexOptions o) = some o.pxat :=
    valueAs_written parseInt_intArg (by simp [getexOptions])
  rw [getex_eq, readGetex, keyword_cons (by decide), word_cons, options_ends (known_getexOptions o), ← checked_getex]
  refine if_congr Iff.rfl ?_ rfl
  simp only [ends, hex, hpx, hexat, hpxat]
  simp [getexOptions]

/-! ### EXPIRE and HEXPIRE -/

open Condition in
/-- all the conditions that a caller gives -/
def conditions (f : ExpireFlags) : List (Given Bytes Condition) :=
  marked nx f.nx ++ (marked xx f.xx ++ (marked gt f.gt ++ marked lt f.lt))

/-- of one condition or none, the branches write what is given -/
theorem appendExpireFlag_eq {f : ExpireFlags} (h : f.count ≤ 1) :
    appendExpireFlag f = (conditions f).flatMap (words fun k => asBytes k.name) := by
  obtain ⟨nx, xx, gt, lt⟩ := f
  revert h
  cases nx <;> cases xx <;> cases gt <;> cases lt <;> intro h <;> first | rfl | exact absurd h (by decide)

theorem ttlModifier_eq (f : ExpireFlags) : ((ttlModifier f).map asBytes).toList = appendExpireFlag f := by
  unfold ttlModifier appendExpireFlag
  split_ifs <;> rfl

theorem known_conditions {G : Grammar Bytes Condition} (hG : G = expireGrammar ∨ G = hexpireGrammar) (f : ExpireFlags) :
    Known G (fun k => asBytes k.name) (conditions f) := by
  unfold conditions
  refine known_append (known_marked ?_ ?_ _) <| known_append (known_marked ?_ ?_ _) <|
    known_append (known_marked ?_ ?_ _) (known_marked ?_ ?_ _)
  all_goals
    rcases hG with rfl | rfl <;> rfl

theorem flagsOf_conditions (f : ExpireFlags) : flagsOf (conditions f) = f := by
  simp [flagsOf, conditions]

theorem validateExpireFlags_ok_iff (f : ExpireFlags) : validateExpireFlags f = .ok () ↔ ¬ f.count > 1 :=
  guard_ok_iff _

theorem validateTtlModifiers_ok_iff (f : ExpireFlags) : validateTtlModifiers f = .ok () ↔ ¬ f.count > 1 :=
  guard_ok_iff _

theorem checkedCall_validateTtlModifiers {α : Type} (f : ExpireFlags) (call : α) :
    checkedCall (validateTtlModifiers f) call = if ¬ f.count > 1 then some call else none := checkedCall_last _ call

/-- EXPIRE takes XX with GT or LT; for a field of a hash no two conditions go together -/
theorem compatible_conditions : ∀ nx xx gt lt : Bool,
    let keys := (if nx then [.nx] else []) ++ ((if xx then [.xx] else []) ++ ((if gt then [.gt] else []) ++
      if lt then [.lt] else []))
    (Compatible expireGrammar keys ↔ ¬ [nx, xx, gt, lt].count true > 1 ∨ nx = false ∧ xx = true ∧ gt = !lt) ∧
      (Compatible hexpireGrammar keys ↔ ¬ [nx, xx, gt, lt].count true > 1) := by
  decide

theorem keys_conditions (f : ExpireFlags) :
    keys (conditions f) = (if f.nx then [.nx] else []) ++ ((if f.xx then [.xx] else []) ++
      ((if f.gt then [.gt] else []) ++ if f.lt then [.lt] else [])) := by
  simp only [conditions, keys_append, keys_marked]

theorem compatible_expire (f : ExpireFlags) :
    Compatible expireGrammar (keys (conditions f)) ↔ ¬ f.count > 1 ∨ f.nx = false ∧ f.xx = true ∧ f.gt = !f.lt := by
  rw [keys_conditions]
  exact (compatible_conditions f.nx f.xx f.gt f.lt).1

theorem compatible_hexpire (f : ExpireFlags) : Compatible hexpireGrammar (keys (conditions f)) ↔ ¬ f.count > 1 := by
  rw [keys_conditions]
  exact (compatible_conditions f.nx f.xx f.gt f.lt).2

/-- the vector of EXPIRE and its kin with all the conditions a caller gives -/
def expireAsked (name key : String) (time : Int) (f : ExpireFlags) : Cmd :=
  [asBytes name, asBytes key, intArg time] ++ (conditions f).flatMap (words fun k => asBytes k.name)

/-- that of HEXPIRE and its kin -/
def hexpireAsked (name key : String) (fields : List String) (time : Int) (f : ExpireFlags) : Cmd :=
  [asBytes name, asBytes key, intArg time] ++ (conditions f).flatMap (words fun k => asBytes k.name) ++
    [asBytes "FIELDS", lenArg fields.length] ++ fields.map asBytes

/-- what passes the check is sent as it was asked for -/
theorem expireCmd_eq (name key : String) (time : Int) {f : ExpireFlags} (h : validateExpireFlags f = .ok ()) :
    expireCmd name key time f = expireAsked name key time f := by
  rw [expireCmd, expireAsked, appendExpireFlag_eq (Nat.le_of_not_gt ((validateExpireFlags_ok_iff f).1 h))]

theorem hexpireFamily_eq (name key : String) (fields : List String) (time : Int) {f : ExpireFlags}
    (h : validateTtlModifiers f = .ok ()) :
    hexpireFamily name key fields time (ttlModifier f) = hexpireAsked name key fields time f := by
  rw [hexpireFamily, hexpireAsked, ttlModifier_eq,
    appendExpireFlag_eq (Nat.le_of_not_gt ((validateTtlModifiers_ok_iff f).1 h))]

/-- the server takes what passes the check, and XX with GT or LT -/
theorem readExpire_expireAsked {name : String} (hname : isKeyword name (asBytes name) = true) (key : String)
    (time : Int) (f : ExpireFlags) :
    readExpire name (expireAsked name key time f) =
      if validateExpireFlags f = .ok () ∨ f.nx = false ∧ f.xx = true ∧ f.gt = !f.lt then
        some ⟨asBytes key, time, f⟩
      else none := by
  have hvector : expireAsked name key time f = asBytes name :: asBytes key :: intArg time ::
      (conditions f).flatMap (words fun k => asBytes k.name) := rfl
  have hcompatible := compatible_expire f
  rw [← validateExpireFlags_ok_iff] at hcompatible
  rw [hvector, readExpire, keyword_cons hname, word_cons, wordAs_cons (parseInt_intArg time),
    options_ends (known_conditions (.inl rfl) f), if_congr hcompatible rfl rfl, ends, flagsOf_conditions]

/-- of a call with fields, the server takes what passes the check and nothing else -/
theorem readHexpire_hexpireAsked {name : String} (hname : isKeyword name (asBytes name) = true) (key : String)
    (fields : List String) (time : Int) (f : ExpireFlags) :
    readHexpire name (hexpireAsked name key fields time f) =
      if fields = [] then none
      else checkedCall (validateTtlModifiers f) ⟨asBytes key, time, f, fields.map asBytes⟩ := by
  have hvector : hexpireAsked name key fields time f = asBytes name :: asBytes key :: intArg time ::
      ((conditions f).flatMap (words fun k => asBytes k.name) ++
        (asBytes "FIELDS" :: lenArg fields.length :: (fields.map asBytes ++ []))) := by
    simp [hexpireAsked]
  have hrest : ∀ w, (asBytes "FIELDS" :: lenArg fields.length :: (fields.map asBytes ++ [])).head? = some w →
      hexpireGrammar.optionOf w = none := by
    intro w hw
    rw [← Option.some.inj hw]
    decide
  have hlength : fields.length = (fields.map asBytes).length := (List.length_map _).symm
  rw [checkedCall_validateTtlModifiers, hvector, readHexpire, keyword_cons hname, word_cons,
    wordAs_cons (parseInt_intArg time), options_front (known_conditions (.inr rfl) f) hrest,
    if_congr (compatible_hexpire f) rfl rfl, keyword_cons (by decide), wordAs_cons (parseDigits_lenArg _), hlength,
    times_append, ends, flagsOf_conditions]
  by_cases hfields : fields = []
  · simp [hfields]
  · simp [hfields]

/-! ### ZADD -/

open Condition in
def zaddOptions (f : ZAddFlags) : List (Given Bytes Condition) :=
  marked nx f.nx ++ (marked xx f.xx ++ (marked gt f.gt ++ (marked lt f.lt ++ (marked ch f.ch ++ marked incr f.incr))))

theorem buildZaddCmd_eq (printF64 : UInt64 → Bytes) (key : String) (pairs : List (Bytes × UInt64)) (f : ZAddFlags) :
    buildZaddCmd printF64 key pairs f = asBytes "ZADD" :: asBytes key ::
      ((zaddOptions f).flatMap (words fun k => asBytes k.name) ++ pairs.flatMap fun p => [printF64 p.2, p.1]) := by
  simp only [zaddOptions, List.flatMap_append, flatMap_marked]
  rfl

theorem known_zaddOptions (f : ZAddFlags) : Known zaddGrammar (fun k => asBytes k.name) (zaddOptions f) := by
  unfold zaddOptions
  refine known_append (known_marked ?_ ?_ _) <| known_append (known_marked ?_ ?_ _) <|
    known_append (known_marked ?_ ?_ _) <| known_append (known_marked ?_ ?_ _) <|
    known_append (known_marked ?_ ?_ _) (known_marked ?_ ?_ _)
  all_goals rfl

theorem compatible_zadd : ∀ nx xx gt lt ch incr : Bool,
    Compatible zaddGrammar
      ((if nx then [.nx] else []) ++ ((if xx then [.xx] else []) ++ ((if gt then [.gt] else []) ++
        ((if lt then [.lt] else []) ++ ((if ch then [.ch] else []) ++ if incr then [.incr] else []))))) ↔
    (¬ (nx && xx) = true ∧ ¬ (gt && lt) = true) ∧ ¬ (nx && (gt || lt)) = true := by
  decide

theorem oneNaN_eq {w : UInt64} (h : isNaN w = false) : oneNaN w = w := by
  rw [oneNaN, show (doubleValue w).isNone = false from h, if_neg Bool.false_ne_true]

theorem isNaN_oneNaN (w : UInt64) : isNaN (oneNaN w) = isNaN w := by
  cases h : isNaN w with
  | true =>
    rw [oneNaN, if_pos (show (doubleValue w).isNone = true from h)]
    decide
  | false => rw [oneNaN_eq h, h]

/-- pairs are read as they were printed, if no score is NaN -/
theorem readPairs_written {printF64 : UInt64 → Bytes} {parseF64 : Bytes → Option UInt64}
    (hparse : ∀ w, parseF64 (printF64 w) = some (oneNaN w)) (pairs : List (Bytes × UInt64)) :
    readPairs parseF64 (pairs.flatMap fun p => [printF64 p.2, p.1]) =
      if pairs.any (isNaN ·.2) then none else some pairs := by
  induction pairs with
  | nil => rfl
  | cons p pairs ih =>
    rw [List.flatMap_cons, List.any_cons]
    show readPairs parseF64 (printF64 p.2 :: p.1 :: pairs.flatMap fun p => [printF64 p.2, p.1]) = _
    rw [readPairs, hparse, ih]
    cases hnan : isNaN p.2 with
    | true =>
      have hone : isNaN (oneNaN p.2) = true := (isNaN_oneNaN p.2).trans hnan
      simp [hone, Option.filter]
    | false =>
      rw [oneNaN_eq hnan]
      cases hany : pairs.any (isNaN ·.2) <;> simp [hnan, Option.filter]

theorem extractAll_pure {α : Type} (l : List α) : extractAll (l.map fun _ => pure ()) = .ok () := by
  induction l with
  | nil => rfl
  | cons _ l ih => exact ih

/-- the server takes a ZADD where the check passes, if no score is NaN -/
theorem readZadd_buildZaddCmd {printF64 : UInt64 → Bytes} {parseF64 : Bytes → Option UInt64}
    (hparse : ∀ w, parseF64 (printF64 w) = some (oneNaN w)) (hnumber : ∀ w, zaddGrammar.optionOf (printF64 w) = none)
    (key : String) (pairs : List (Bytes × UInt64)) (f : ZAddFlags) :
    readZadd parseF64 (buildZaddCmd printF64 key pairs f) =
      if pairs.any (isNaN ·.2) then none
      else checkedCall (do collectZaddPairs (pairs.map fun _ => pure ()); validateZaddFlags f pairs.length)
        ⟨asBytes key, pairs, f⟩ := by
  have hrest : ∀ w, (pairs.flatMap fun p => [printF64 p.2, p.1]).head? = some w → zaddGrammar.optionOf w = none := by
    intro w hw
    cases pairs with
    | nil => cases hw
    | cons p pairs => exact Option.some.inj hw ▸ hnumber p.2
  have hkeys := compatible_zadd f.nx f.xx f.gt f.lt f.ch f.incr
  have hlength : (pairs.flatMap fun p => [printF64 p.2, p.1]).length = 2 * pairs.length := by
    simp [List.length_flatMap, Nat.mul_comm]
  have hincr : has .incr (zaddOptions f) = f.incr := by simp [zaddOptions]
  have hflags : (⟨has .nx (zaddOptions f), has .xx (zaddOptions f), has .gt (zaddOptions f), has .lt (zaddOptions f),
      has .ch (zaddOptions f), has .incr (zaddOptions f)⟩ : ZAddFlags) = f := by simp [zaddOptions]
  rw [buildZaddCmd_eq, readZadd, keyword_cons (by decide), word_cons, options_front (known_zaddOptions f) hrest,
    readPairs_written hparse, hlength, hincr]
  cases pairs with
  | nil => simp [checkedCall, collectZaddPairs, bind, Except.bind, throw, throwThe, MonadExceptOf.throw]
  | cons p pairs =>
    have hcollect : collectZaddPairs ((p :: pairs).map fun _ => pure ()) = .ok () := extractAll_pure (p :: pairs)
    have hcompatible : Compatible zaddGrammar (keys (zaddOptions f)) ↔
        (¬ (f.nx && f.xx) = true ∧ ¬ (f.gt && f.lt) = true) ∧ ¬ (f.nx && (f.gt || f.lt)) = true := by
      simpa only [zaddOptions, keys_append, keys_marked] using hkeys
    -- one score and one member are two words
    have hsingle : ((p :: pairs).flatMap (fun p => [printF64 p.2, p.1]) = [] ∨
        f.incr = true ∧ 2 * (p :: pairs).length ≠ 2) ↔ (f.incr && (p :: pairs).length != 1) = true := by
      have hlen : 2 * (p :: pairs).length ≠ 2 ↔ (p :: pairs).length ≠ 1 := by omega
      rw [Bool.and_eq_true, bne_iff_ne, ← hlen, List.flatMap_cons]
      simp
    rw [hcollect]
    show _ = if _ then none else checkedCall (validateZaddFlags f (p :: pairs).length) _
    rw [validateZaddFlags]
    dsimp only
    rw [checkedCall_guard, checkedCall_guard, checkedCall_guard, checkedCall_last, ite_ite, ite_ite, ite_ite]
    simp only [hcompatible, hsingle]
    split_ifs <;> simp_all

/-! ## All commands -/

/-- the commands that `hexpire_family` is called with -/
def hexpireNames : List String := ["HEXPIRE", "HPEXPIRE", "HEXPIREAT", "HPEXPIREAT"]

/-- the methods that send an EXPIRE, with the command each of them sends -/
def expireCommands : List (String × (String → Int → ExpireFlags → Cmd)) :=
  [("EXPIRE", expireFull), ("PEXPIRE", pexpireFull), ("EXPIREAT", expireatFull), ("PEXPIREAT", pexpireatFull)]

/-- **The checks are those of the server.** A SET, a GETEX or a ZADD is read as it was meant where the check passes, and
refused by the server where the check raises, so that a client that does not check gets an error too; the server also
refuses NaN. HEXPIRE and EXPIRE send all that was asked for where the check passes. The server refuses what the check of
HEXPIRE raises for, and a call without fields; the check of EXPIRE raises for XX with GT or LT too, which the server
takes. -/
theorem options_checked_exact {printF64 : UInt64 → Bytes} {parseF64 : Bytes → Option UInt64}
    (hparse : ∀ w, parseF64 (printF64 w) = some (oneNaN w)) (hnumber : ∀ w, zaddGrammar.optionOf (printF64 w) = none) :
    (∀ key value o, readSet (setFull key value o) = checkedCall (validateSetKwargs o)
      ⟨asBytes key, value, o.ex.map Int.ofNat, o.px.map Int.ofNat, o.exat, o.pxat, o.keepttl, o.nx, o.xx, o.get⟩) ∧
    (∀ key o, readGetex (getex key o) = checkedCall (validateGetex o)
      ⟨asBytes key, o.ex.map Int.ofNat, o.px.map Int.ofNat, o.exat, o.pxat, o.persist⟩) ∧
    (∀ key pairs f, readZadd parseF64 (buildZaddCmd printF64 key pairs f) =
      if pairs.any (isNaN ·.2) then none
      else checkedCall (do collectZaddPairs (pairs.map fun _ => pure ()); validateZaddFlags f pairs.length)
        ⟨asBytes key, pairs, f⟩) ∧
    (∀ name ∈ hexpireNames, ∀ key fields time f,
      (validateTtlModifiers f = .ok () →
        hexpireFamily name key fields time (ttlModifier f) = hexpireAsked name key fields time f) ∧
      readHexpire name (hexpireAsked name key fields time f) =
        if fields = [] then none
        else checkedCall (validateTtlModifiers f) ⟨asBytes key, time, f, fields.map asBytes⟩) ∧
    ∀ c ∈ expireCommands, ∀ key time f,
      (validateExpireFlags f = .ok () → c.2 key time f = expireAsked c.1 key time f) ∧
      readExpire c.1 (expireAsked c.1 key time f) =
        if validateExpireFlags f = .ok () ∨ f.nx = false ∧ f.xx = true ∧ f.gt = !f.lt then
          some ⟨asBytes key, time, f⟩
        else none := by
  refine ⟨readSet_setFull, readGetex_getex, readZadd_buildZaddCmd hparse hnumber, ?_, ?_⟩
  · intro name hname key fields time f
    have hkey : isKeyword name (asBytes name) = true := by
      revert name
      decide
    exact ⟨hexpireFamily_eq name key fields time, readHexpire_hexpireAsked hkey key fields time f⟩
  · intro c hc key time f
    simp only [expireCommands, List.mem_cons, List.not_mem_nil, or_false] at hc
    rcases hc with rfl | rfl | rfl | rfl <;>
      exact ⟨expireCmd_eq _ key time, readExpire_expireAsked (by decide) key time f⟩

/-- the text of a score spells no option -/
theorem optionOf_printF64 (w : UInt64) : zaddGrammar.optionOf (printF64 w) = none := by
  by_cases htwo : w = 0x4000000000000000
  · subst htwo
    decide
  · obtain ⟨d, rest, htext, hlow, hhigh⟩ := toString_cons (oneNaN w).toNat
    have hdigit : ¬ upperByte d = 88 := by
      intro hupper
      unfold upperByte at hupper
      split_ifs at hupper with hrange
      · exact absurd (UInt8.le_iff_toNat_le.1 hrange.1) (by
          rw [show (97 : UInt8).toNat = 97 from rfl]
          omega)
      · rw [hupper] at hhigh
        exact absurd hhigh (by decide)
    rw [printF64, if_neg htwo, htext]
    refine List.find?_eq_none.2 fun k _ hk => ?_
    have hname : (asBytes k.name)[1]? = some (upperByte d) ∧ (asBytes k.name)[0]? = some 88 := by
      rw [← of_decide_eq_true hk]
      exact ⟨rfl, rfl⟩
    cases k
    case xx => exact hdigit (Option.some.inj hname.1).symm
    all_goals exact absurd hname.2 (by decide)

theorem options_checked_exact_zadd :
    readZadd parseF64
        (buildZaddCmd printF64 "NX" [(asBytes "INCR", 0x4000000000000000)] ⟨false, true, true, false, true, true⟩) =
      some ⟨asBytes "NX", [(asBytes "INCR", 0x4000000000000000)], ⟨false, true, true, false, true, true⟩⟩ :=
  (options_checked_exact parseF64_printF64 optionOf_printF64).2.2.1 "NX" [(asBytes "INCR", 0x4000000000000000)]
    ⟨false, true, true, false, true, true⟩

end RedisRsPy.Commands.Options
