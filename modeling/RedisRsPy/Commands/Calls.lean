/-
Calls with options: the vectors of the commands that take a fixed front, perhaps a list of words, and options behind it
(`connection.rs`, `commands/admin.rs`, `scripts.rs`, `streams.rs`, `zsets.rs`), and the reader of the server for all of
them, which finds the command by its name and its parts by the form of the command.

Keys, groups, ids and patterns may spell anything. What a call can lose is little: `withvalues` and `withscores` are not
sent without a count, and the ids of an XCLAIM end at the first word that is no id.

Results:
- `isKeyword_asBytes`: the checks of the clients compare as the server does;
- `cmd_eq_words`: each vector has the form of its command;
- `readCall_cmd`: the server reads a call as it is sent, where it takes it, and refuses it otherwise;
- `calls_read_exact`: which calls are read as they were made.
Witness: `calls_read_exact_xclaim`.
-/
import RedisRsPy.Commands.Options
import RedisRsPy.Commands.RangeBounds
import RedisRsPy.Commands.ScanIter
import RedisRsPy.Facade.Percent
import RedisRsPy.Lib.Lines

namespace RedisRsPy.Commands.Calls

open Lib.Arguments Lib.Lines Lib.Options
open RedisRsPy.Commands.Lists (validatePopDirection)
open Lib.Utf8 (utf8EncodeChar_cases continues_iff)
open Options (flagArg spelled isNaN)
open RangeBounds (fromUtf8Lossy fromUtf8Lossy_asBytes)
open ScanIter (Filters cmdScan optText)

/-! ## Upper case -/

theorem asciiByte_toUpper : ∀ n < 128, (Char.ofNat n).toUpper.toNat < 128 ∧
    asciiByte (Char.ofNat n).toUpper = upperByte (asciiByte (Char.ofNat n)) := by
  decide +kernel

theorem utf8EncodeChar_toUpper (c : Char) :
    String.utf8EncodeChar c.toUpper = (String.utf8EncodeChar c).map upperByte := by
  by_cases hc : c.toNat < 128
  · obtain ⟨hupper, hbyte⟩ := asciiByte_toUpper c.toNat hc
    rw [Char.ofNat_toNat] at hupper hbyte
    rw [utf8EncodeChar_ascii hupper, utf8EncodeChar_ascii hc, hbyte]
    rfl
  · have hsame : c.toUpper = c := by
      unfold Char.toUpper
      rw [dif_neg]
      rintro ⟨-, hz⟩
      have hz' : c.toNat ≤ 122 := UInt32.le_iff_toNat_le.1 hz
      omega
    -- no byte of such a character is a letter
    have hbyte : ∀ b ∈ String.utf8EncodeChar c, upperByte b = b := by
      intro b hb
      obtain ⟨first, tail, hbytes, -, htail, -⟩ := utf8EncodeChar_cases c
      have hfirst := Facade.le_first (Nat.le_of_not_lt hc) hbytes
      have hhigh : 128 ≤ b.toNat := by
        rw [hbytes] at hb
        rcases List.mem_cons.1 hb with rfl | hb
        · exact hfirst
        · exact (continues_iff.1 (htail b hb)).1
      refine if_neg fun hrange => ?_
      have hle : b.toNat ≤ 122 := UInt8.le_iff_toNat_le.1 hrange.2
      omega
    rw [hsame, List.map_congr_left hbyte, List.map_id']

theorem asBytes_toUpper (s : String) : asBytes s.toUpper = (asBytes s).map upperByte := by
  rw [asBytes_eq, asBytes_eq, String.toUpper, String.toList_map, List.flatMap_map, List.map_flatMap]
  exact List.flatMap_congr fun c _ => utf8EncodeChar_toUpper c

/-- the server compares a word with a keyword as the clients do -/
theorem isKeyword_asBytes (key s : String) : isKeyword key (asBytes s) = decide (s.toUpper = key) := by
  rw [isKeyword, ← asBytes_toUpper]
  exact decide_eq_decide.2 asBytes_injective.eq_iff

/-! ## Commands of `connection.rs` -/

/-- `copy` -/
def copy (src dst : String) (db : Option Int) (replace : Bool) : Cmd :=
  [asBytes "COPY", asBytes src, asBytes dst] ++ (optArg "DB" db ++ flagArg "REPLACE" replace)

/-- `restore`; the idle time and the frequency are unsigned -/
def restore (key : String) (ttlMs : Int) (serialized : Bytes) (replace absttl : Bool) (idletime frequency : Option ℕ) :
    Cmd :=
  [asBytes "RESTORE", asBytes key, intArg ttlMs, serialized] ++ (flagArg "REPLACE" replace ++
    (flagArg "ABSTTL" absttl ++ (optArg "IDLETIME" (idletime.map Int.ofNat) ++
      optArg "FREQ" (frequency.map Int.ofNat))))

/-- `lpos_single` -/
def lposSingle (key : String) (element : Bytes) (rank maxlen : Option Int) : Cmd :=
  [asBytes "LPOS", asBytes key, element] ++ (optArg "RANK" rank ++ optArg "MAXLEN" maxlen)

/-- `lpos_count` -/
def lposCount (key : String) (element : Bytes) (rank : Option Int) (count : Int) (maxlen : Option Int) : Cmd :=
  [asBytes "LPOS", asBytes key, element] ++ (optArg "RANK" rank ++ ([asBytes "COUNT", intArg count] ++
    optArg "MAXLEN" maxlen))

/-- the command of the method `lpos` -/
def lpos (key : String) (element : Bytes) (rank count maxlen : Option Int) : Cmd :=
  match count with
  | none => lposSingle key element rank maxlen
  | some c => lposCount key element rank c maxlen

/-- `lmpop` -/
def lmpop (keys : List String) (direction : String) (count : Int) : Cmd :=
  [asBytes "LMPOP", lenArg keys.length] ++ keys.map asBytes ++ [asBytes direction, asBytes "COUNT", intArg count]

/-- `blmpop`; the crate prints the timeout -/
def blmpop (printF64 : UInt64 → Bytes) (timeout : UInt64) (keys : List String) (direction : String) (count : Int) :
    Cmd :=
  [asBytes "BLMPOP", printF64 timeout, lenArg keys.length] ++ keys.map asBytes ++
    [asBytes direction, asBytes "COUNT", intArg count]

/-- `[count [WITHVALUES]]` -/
def countArg (key : String) (count : Option Int) (b : Bool) : Cmd :=
  match count with
  | some c => intArg c :: flagArg key b
  | none => []

/-- `hrandfield_raw` -/
def hrandfieldRaw (key : String) (count : Option Int) (withvalues : Bool) : Cmd :=
  [asBytes "HRANDFIELD", asBytes key] ++ countArg "WITHVALUES" count withvalues

/-- `hscan_raw` -/
def hscanRaw (key : String) (cursor : ℕ) (pattern : Option String) (count : Option Int) (novalues : Bool) : Cmd :=
  [asBytes "HSCAN", asBytes key, lenArg cursor] ++ (optText "MATCH" pattern ++ (optArg "COUNT" count ++
    flagArg "NOVALUES" novalues))

/-- `sscan_raw` -/
def sscanRaw (key : String) (cursor : ℕ) (matchPattern : Option String) (count : Option Int) : Cmd :=
  [asBytes "SSCAN", asBytes key, lenArg cursor] ++ (optText "MATCH" matchPattern ++ optArg "COUNT" count)

/-- the commands that `httl_family` is called with -/
inductive TtlCommand where
  | httl
  | hpttl
  | hexpiretime
  | hpexpiretime
  | hpersist
deriving DecidableEq

def TtlCommand.name : TtlCommand → String
  | httl => "HTTL"
  | hpttl => "HPTTL"
  | hexpiretime => "HEXPIRETIME"
  | hpexpiretime => "HPEXPIRETIME"
  | hpersist => "HPERSIST"

/-- `httl_family` -/
def httlFamily (command : TtlCommand) (key : String) (fields : List String) : Cmd :=
  [asBytes command.name, asBytes key, asBytes "FIELDS", lenArg fields.length] ++ fields.map asBytes

/-- `sintercard` -/
def sintercard (keys : List String) (limit : Option Int) : Cmd :=
  [asBytes "SINTERCARD", lenArg keys.length] ++ keys.map asBytes ++ optArg "LIMIT" limit

/-! ## Commands of `commands/` -/

/-- `cmd_client_kill` -/
def cmdClientKill (addr laddr : Option String) (clientId : Option Int) (clientType user : Option String)
    (skipme : Option Bool) (maxage : Option Int) : Cmd :=
  [asBytes "CLIENT", asBytes "KILL"] ++ (optText "ADDR" addr ++ (optText "LADDR" laddr ++ (optArg "ID" clientId ++
    (optText "TYPE" clientType ++ (optText "USER" user ++
      (optText "SKIPME" (skipme.map fun skip => if skip then "yes" else "no") ++ optArg "MAXAGE" maxage))))))

/-- `cmd_memory_usage` -/
def cmdMemoryUsage (key : String) (samples : Option Int) : Cmd :=
  [asBytes "MEMORY", asBytes "USAGE", asBytes key] ++ optArg "SAMPLES" samples

/-- `cmd_bgsave` -/
def cmdBgsave (schedule : Bool) : Cmd := asBytes "BGSAVE" :: flagArg "SCHEDULE" schedule

/-- `cmd_function_list` -/
def cmdFunctionList (library : Option String) (withcode : Bool) : Cmd :=
  [asBytes "FUNCTION", asBytes "LIST"] ++ (optText "LIBRARYNAME" library ++ flagArg "WITHCODE" withcode)

/-- `cmd_xrange` -/
def cmdXrange (key min max : String) (count : Option Int) : Cmd :=
  [asBytes "XRANGE", asBytes key, asBytes min, asBytes max] ++ optArg "COUNT" count

/-- `cmd_xrevrange` -/
def cmdXrevrange (key max min : String) (count : Option Int) : Cmd :=
  [asBytes "XREVRANGE", asBytes key, asBytes max, asBytes min] ++ optArg "COUNT" count

/-- `cmd_xgroup_create` -/
def cmdXgroupCreate (key group id : String) (mkstream : Bool) (entriesRead : Option Int) : Cmd :=
  [asBytes "XGROUP", asBytes "CREATE", asBytes key, asBytes group, asBytes id] ++ (flagArg "MKSTREAM" mkstream ++
    optArg "ENTRIESREAD" entriesRead)

/-- `cmd_xgroup_setid` -/
def cmdXgroupSetid (key group id : String) (entriesRead : Option Int) : Cmd :=
  [asBytes "XGROUP", asBytes "SETID", asBytes key, asBytes group, asBytes id] ++ optArg "ENTRIESREAD" entriesRead

/-- `cmd_xinfo_stream` -/
def cmdXinfoStream (key : String) (full : Bool) : Cmd :=
  [asBytes "XINFO", asBytes "STREAM", asBytes key] ++ flagArg "FULL" full

/-- `cmd_xclaim` -/
def cmdXclaim (key group consumer : String) (minIdleTime : Int) (messageIds : List String)
    (idle timeMs retrycount : Option Int) (force justid : Bool) : Cmd :=
  [asBytes "XCLAIM", asBytes key, asBytes group, asBytes consumer, intArg minIdleTime] ++ messageIds.map asBytes ++
    (optArg "IDLE" idle ++ (optArg "TIME" timeMs ++ (optArg "RETRYCOUNT" retrycount ++ (flagArg "FORCE" force ++
      flagArg "JUSTID" justid))))

/-- `cmd_xautoclaim` -/
def cmdXautoclaim (key group consumer : String) (minIdleTime : Int) (startId : String) (count : Option Int)
    (justid : Bool) : Cmd :=
  [asBytes "XAUTOCLAIM", asBytes key, asBytes group, asBytes consumer, intArg minIdleTime, asBytes startId] ++
    (optArg "COUNT" count ++ flagArg "JUSTID" justid)

/-- `cmd_xsetid` -/
def cmdXsetid (key id : String) (entriesAdded : Option Int) (maxDeletedEntryId : Option String) : Cmd :=
  [asBytes "XSETID", asBytes key, asBytes id] ++ (optArg "ENTRIESADDED" entriesAdded ++
    optText "MAXDELETEDID" maxDeletedEntryId)

/-- the command of `rank_impl_sync` and `rank_impl_async` -/
def rankImpl (name key : String) (member : Bytes) (withscore : Bool) : Cmd :=
  [asBytes name, asBytes key, member] ++ flagArg "WITHSCORE" withscore

/-- what `validate_zmpop_direction` returns -/
def zmpopDirection (max : Bool) : String := if max then "MAX" else "MIN"

/-- the command of `zmpop` -/
def zmpop (keys : List String) (max : Bool) (count : Int) : Cmd :=
  [asBytes "ZMPOP", lenArg keys.length] ++ keys.map asBytes ++
    [asBytes (zmpopDirection max), asBytes "COUNT", intArg count]

/-- the command of `bzmpop` -/
def bzmpop (printF64 : UInt64 → Bytes) (timeout : UInt64) (keys : List String) (max : Bool) (count : Int) : Cmd :=
  [asBytes "BZMPOP", printF64 timeout, lenArg keys.length] ++ keys.map asBytes ++
    [asBytes (zmpopDirection max), asBytes "COUNT", intArg count]

/-- the command of `zrandmember` -/
def zrandmember (key : String) (count : Option Int) (withscores : Bool) : Cmd :=
  [asBytes "ZRANDMEMBER", asBytes key] ++ countArg "WITHSCORES" count withscores

/-- the command of `zscan` -/
def zscan (key : String) (cursor : ℕ) (pattern : Option String) (count : Option Int) : Cmd :=
  [asBytes "ZSCAN", asBytes key, lenArg cursor] ++ (optText "MATCH" pattern ++ optArg "COUNT" count)

/-- the command of `zintercard` -/
def zintercard (keys : List String) (limit : Option Int) : Cmd :=
  [asBytes "ZINTERCARD", lenArg keys.length] ++ keys.map asBytes ++ optArg "LIMIT" limit

/-! ## Calls -/

/-- a call of one of these methods, with what it gives to the builder -/
inductive Call where
  | scan (cursor : ℕ) (filters : Filters)
  | hscan (key : String) (cursor : ℕ) (pattern : Option String) (count : Option Int) (novalues : Bool)
  | sscan (key : String) (cursor : ℕ) (pattern : Option String) (count : Option Int)
  | zscan (key : String) (cursor : ℕ) (pattern : Option String) (count : Option Int)
  | copy (src dst : String) (db : Option Int) (replace : Bool)
  | restore (key : String) (ttlMs : Int) (serialized : Bytes) (replace absttl : Bool) (idletime frequency : Option ℕ)
  | lpos (key : String) (element : Bytes) (rank count maxlen : Option Int)
  | lmpop (keys : List String) (direction : String) (count : Int)
  | blmpop (timeout : UInt64) (keys : List String) (direction : String) (count : Int)
  | zmpop (keys : List String) (max : Bool) (count : Int)
  | bzmpop (timeout : UInt64) (keys : List String) (max : Bool) (count : Int)
  | hrandfield (key : String) (count : Option Int) (withvalues : Bool)
  | zrandmember (key : String) (count : Option Int) (withscores : Bool)
  | httl (command : TtlCommand) (key : String) (fields : List String)
  | sintercard (keys : List String) (limit : Option Int)
  | zintercard (keys : List String) (limit : Option Int)
  | clientKill (addr laddr : Option String) (clientId : Option Int) (clientType user : Option String)
      (skipme : Option Bool) (maxage : Option Int)
  | memoryUsage (key : String) (samples : Option Int)
  | bgsave (schedule : Bool)
  | functionList (library : Option String) (withcode : Bool)
  | xrange (key min max : String) (count : Option Int)
  | xrevrange (key max min : String) (count : Option Int)
  | xgroupCreate (key group id : String) (mkstream : Bool) (entriesRead : Option Int)
  | xgroupSetid (key group id : String) (entriesRead : Option Int)
  | xinfoStream (key : String) (full : Bool)
  | xclaim (key group consumer : String) (minIdleTime : Int) (messageIds : List String)
      (idle timeMs retrycount : Option Int) (force justid : Bool)
  | xautoclaim (key group consumer : String) (minIdleTime : Int) (startId : String) (count : Option Int) (justid : Bool)
  | xsetid (key id : String) (entriesAdded : Option Int) (maxDeletedEntryId : Option String)
  | zrank (key : String) (member : Bytes) (withscore : Bool)
  | zrevrank (key : String) (member : Bytes) (withscore : Bool)

/-- the vector of a call -/
def Call.cmd (printF64 : UInt64 → Bytes) : Call → Cmd
  | scan cursor filters => cmdScan cursor filters
  | hscan key cursor pattern count novalues => hscanRaw key cursor pattern count novalues
  | sscan key cursor pattern count => sscanRaw key cursor pattern count
  | zscan key cursor pattern count => Calls.zscan key cursor pattern count
  | copy src dst db replace => Calls.copy src dst db replace
  | restore key ttlMs serialized replace absttl idletime frequency =>
    Calls.restore key ttlMs serialized replace absttl idletime frequency
  | lpos key element rank count maxlen => Calls.lpos key element rank count maxlen
  | lmpop keys direction count => Calls.lmpop keys direction count
  | blmpop timeout keys direction count => Calls.blmpop printF64 timeout keys direction count
  | zmpop keys max count => Calls.zmpop keys max count
  | bzmpop timeout keys max count => Calls.bzmpop printF64 timeout keys max count
  | hrandfield key count withvalues => hrandfieldRaw key count withvalues
  | zrandmember key count withscores => Calls.zrandmember key count withscores
  | httl command key fields => httlFamily command key fields
  | sintercard keys limit => Calls.sintercard keys limit
  | zintercard keys limit => Calls.zintercard keys limit
  | clientKill addr laddr clientId clientType user skipme maxage =>
    cmdClientKill addr laddr clientId clientType user skipme maxage
  | memoryUsage key samples => cmdMemoryUsage key samples
  | bgsave schedule => cmdBgsave schedule
  | functionList library withcode => cmdFunctionList library withcode
  | xrange key min max count => cmdXrange key min max count
  | xrevrange key max min count => cmdXrevrange key max min count
  | xgroupCreate key group id mkstream entriesRead => cmdXgroupCreate key group id mkstream entriesRead
  | xgroupSetid key group id entriesRead => cmdXgroupSetid key group id entriesRead
  | xinfoStream key full => cmdXinfoStream key full
  | xclaim key group consumer minIdleTime messageIds idle timeMs retrycount force justid =>
    cmdXclaim key group consumer minIdleTime messageIds idle timeMs retrycount force justid
  | xautoclaim key group consumer minIdleTime startId count justid =>
    cmdXautoclaim key group consumer minIdleTime startId count justid
  | xsetid key id entriesAdded maxDeletedEntryId => cmdXsetid key id entriesAdded maxDeletedEntryId
  | zrank key member withscore => rankImpl "ZRANK" key member withscore
  | zrevrank key member withscore => rankImpl "ZREVRANK" key member withscore

/-! ## The grammar of the server -/

inductive Opt where
  | pattern
  | count
  | type
  | novalues
  | db
  | replace
  | absttl
  | idletime
  | freq
  | rank
  | maxlen
  | withvalues
  | withscores
  | limit
  | addr
  | laddr
  | id
  | user
  | skipme
  | maxage
  | samples
  | schedule
  | libraryname
  | withcode
  | mkstream
  | entriesread
  | full
  | idle
  | time
  | retrycount
  | force
  | justid
  | lastid
  | entriesadded
  | maxdeletedid
  | withscore
deriving DecidableEq

def Opt.name : Opt → String
  | pattern => "MATCH"
  | count => "COUNT"
  | type => "TYPE"
  | novalues => "NOVALUES"
  | db => "DB"
  | replace => "REPLACE"
  | absttl => "ABSTTL"
  | idletime => "IDLETIME"
  | freq => "FREQ"
  | rank => "RANK"
  | maxlen => "MAXLEN"
  | withvalues => "WITHVALUES"
  | withscores => "WITHSCORES"
  | limit => "LIMIT"
  | addr => "ADDR"
  | laddr => "LADDR"
  | id => "ID"
  | user => "USER"
  | skipme => "SKIPME"
  | maxage => "MAXAGE"
  | samples => "SAMPLES"
  | schedule => "SCHEDULE"
  | libraryname => "LIBRARYNAME"
  | withcode => "WITHCODE"
  | mkstream => "MKSTREAM"
  | entriesread => "ENTRIESREAD"
  | full => "FULL"
  | idle => "IDLE"
  | time => "TIME"
  | retrycount => "RETRYCOUNT"
  | force => "FORCE"
  | justid => "JUSTID"
  | lastid => "LASTID"
  | entriesadded => "ENTRIESADDED"
  | maxdeletedid => "MAXDELETEDID"
  | withscore => "WITHSCORE"

/-- options with a value and options alone, which all go together -/
def grammar (valued alone : List Opt) : Grammar Bytes Opt :=
  ⟨spelled (valued ++ alone) Opt.name, fun k => valued.contains k, fun _ _ => false⟩

/-- `[REPLACE] [ABSTTL] [IDLETIME seconds | FREQ frequency]` -/
def restoreGrammar : Grammar Bytes Opt :=
  { grammar [.idletime, .freq] [.replace, .absttl] with
    excludes := fun a b => (a == .idletime && b == .freq) || (a == .freq && b == .idletime) }

/-- the options of XCLAIM; the client sends no LASTID -/
def claimGrammar : Grammar Bytes Opt := grammar [.idle, .time, .retrycount, .lastid] [.force, .justid]

inductive Name where
  | scan
  | hscan
  | sscan
  | zscan
  | copy
  | restore
  | lpos
  | lmpop
  | blmpop
  | zmpop
  | bzmpop
  | hrandfield
  | zrandmember
  | httl (command : TtlCommand)
  | sintercard
  | zintercard
  | clientKill
  | memoryUsage
  | bgsave
  | functionList
  | xrange
  | xrevrange
  | xgroupCreate
  | xgroupSetid
  | xinfoStream
  | xclaim
  | xautoclaim
  | xsetid
  | zrank
  | zrevrank
deriving DecidableEq

def Name.all : List Name :=
  [scan, hscan, sscan, zscan, copy, restore, lpos, lmpop, blmpop, zmpop, bzmpop, hrandfield, zrandmember, httl .httl,
    httl .hpttl, httl .hexpiretime, httl .hpexpiretime, httl .hpersist, sintercard, zintercard, clientKill, memoryUsage,
    bgsave, functionList, xrange, xrevrange, xgroupCreate, xgroupSetid, xinfoStream, xclaim, xautoclaim, xsetid, zrank,
    zrevrank]

def Name.words : Name → List String
  | scan => ["SCAN"]
  | hscan => ["HSCAN"]
  | sscan => ["SSCAN"]
  | zscan => ["ZSCAN"]
  | copy => ["COPY"]
  | restore => ["RESTORE"]
  | lpos => ["LPOS"]
  | lmpop => ["LMPOP"]
  | blmpop => ["BLMPOP"]
  | zmpop => ["ZMPOP"]
  | bzmpop => ["BZMPOP"]
  | hrandfield => ["HRANDFIELD"]
  | zrandmember => ["ZRANDMEMBER"]
  | httl command => [command.name]
  | sintercard => ["SINTERCARD"]
  | zintercard => ["ZINTERCARD"]
  | clientKill => ["CLIENT", "KILL"]
  | memoryUsage => ["MEMORY", "USAGE"]
  | bgsave => ["BGSAVE"]
  | functionList => ["FUNCTION", "LIST"]
  | xrange => ["XRANGE"]
  | xrevrange => ["XREVRANGE"]
  | xgroupCreate => ["XGROUP", "CREATE"]
  | xgroupSetid => ["XGROUP", "SETID"]
  | xinfoStream => ["XINFO", "STREAM"]
  | xclaim => ["XCLAIM"]
  | xautoclaim => ["XAUTOCLAIM"]
  | xsetid => ["XSETID"]
  | zrank => ["ZRANK"]
  | zrevrank => ["ZREVRANK"]

/-- which parts the server finds behind the name; `isId` is its test for the id of an entry -/
def Name.form (isId : Bytes → Bool) : Name → Form Bytes Opt
  | scan => ⟨1, .absent, 0, grammar [.pattern, .count, .type] [], false⟩
  | hscan => ⟨2, .absent, 0, grammar [.pattern, .count] [.novalues], false⟩
  | sscan => ⟨2, .absent, 0, grammar [.pattern, .count] [], false⟩
  | zscan => ⟨2, .absent, 0, grammar [.pattern, .count] [], false⟩
  | copy => ⟨2, .absent, 0, grammar [.db] [.replace], false⟩
  | restore => ⟨3, .absent, 0, restoreGrammar, false⟩
  | lpos => ⟨2, .absent, 0, grammar [.rank, .count, .maxlen] [], false⟩
  | lmpop => ⟨0, .counted, 1, grammar [.count] [], false⟩
  | blmpop => ⟨1, .counted, 1, grammar [.count] [], false⟩
  | zmpop => ⟨0, .counted, 1, grammar [.count] [], false⟩
  | bzmpop => ⟨1, .counted, 1, grammar [.count] [], false⟩
  | hrandfield => ⟨1, .atMostOne, 0, grammar [] [.withvalues], false⟩
  | zrandmember => ⟨1, .atMostOne, 0, grammar [] [.withscores], false⟩
  | httl _ => ⟨2, .counted, 0, grammar [] [], false⟩
  | sintercard => ⟨0, .counted, 0, grammar [.limit] [], false⟩
  | zintercard => ⟨0, .counted, 0, grammar [.limit] [], false⟩
  | clientKill => ⟨0, .absent, 0, grammar [.addr, .laddr, .id, .type, .user, .skipme, .maxage] [], true⟩
  | memoryUsage => ⟨1, .absent, 0, grammar [.samples] [], false⟩
  | bgsave => ⟨0, .absent, 0, grammar [] [.schedule], false⟩
  | functionList => ⟨0, .absent, 0, grammar [.libraryname] [.withcode], false⟩
  | xrange => ⟨3, .absent, 0, grammar [.count] [], false⟩
  | xrevrange => ⟨3, .absent, 0, grammar [.count] [], false⟩
  | xgroupCreate => ⟨3, .absent, 0, grammar [.entriesread] [.mkstream], false⟩
  | xgroupSetid => ⟨3, .absent, 0, grammar [.entriesread] [], false⟩
  | xinfoStream => ⟨1, .absent, 0, grammar [] [.full], false⟩
  | xclaim => ⟨4, .whileItem isId, 0, claimGrammar, false⟩
  | xautoclaim => ⟨5, .absent, 0, grammar [.count] [.justid], false⟩
  | xsetid => ⟨2, .absent, 0, grammar [.entriesadded, .maxdeletedid] [], false⟩
  | zrank => ⟨2, .absent, 0, grammar [] [.withscore], false⟩
  | zrevrank => ⟨2, .absent, 0, grammar [] [.withscore], false⟩

/-- a word as one of a name, in upper or lower case -/
def sameWord (key w : Bytes) : Bool := decide (w.map upperByte = key)

def table (isId : Bytes → Bool) : Table Bytes Name Opt where
  all := Name.all
  name n := n.words.map asBytes
  form := Name.form isId
  same := sameWord
  own := by decide +kernel
  apart := by decide +kernel

def spelling : Spelling Bytes Opt := ⟨fun k => asBytes k.name, lenArg, parseDigits, parseDigits_lenArg⟩

/-! ### The parts as values -/

/-- the word at a place, as text -/
def textOf (ws : List Bytes) (i : ℕ) : Option String := ws[i]?.map fromUtf8Lossy

/-- the word at a place, as a number -/
def intOf (ws : List Bytes) (i : ℕ) : Option Int := ws[i]?.bind parseInt

/-- `LEFT | RIGHT` -/
def directionOf (ws : List Bytes) : Option String :=
  ws[0]?.bind fun w => if isKeyword "LEFT" w || isKeyword "RIGHT" w then some (fromUtf8Lossy w) else none

/-- `MIN | MAX` -/
def maxOf (ws : List Bytes) : Option Bool :=
  ws[0]?.bind fun w => if isKeyword "MAX" w then some true else if isKeyword "MIN" w then some false else none

/-- `YES | NO` -/
def yesOf (w : Bytes) : Option Bool :=
  if isKeyword "YES" w then some true else if isKeyword "NO" w then some false else none

/-- a timeout, which is no NaN -/
def timeoutOf (parseF64 : Bytes → Option UInt64) (ws : List Bytes) : Option UInt64 :=
  ws[0]?.bind fun w => (parseF64 w).filter fun t => !isNaN t

/-- the value of an option, as text -/
def optionText (k : Opt) (os : List (Given Bytes Opt)) : Option (Option String) :=
  valueAs (fun w => some (fromUtf8Lossy w)) k os

/-- what the server makes of the parts -/
def callOf (parseF64 : Bytes → Option UInt64) (name : Name) (l : Line Bytes Opt) : Option Call :=
  match name with
  | .scan => do
    let cursor ← l.front[0]?.bind parseDigits
    let pattern ← optionText .pattern l.options
    let count ← valueAs parseInt .count l.options
    let type ← optionText .type l.options
    some (.scan cursor ⟨pattern, count, type⟩)
  | .hscan => do
    let key ← textOf l.front 0
    let cursor ← l.front[1]?.bind parseDigits
    let pattern ← optionText .pattern l.options
    let count ← valueAs parseInt .count l.options
    some (.hscan key cursor pattern count (has .novalues l.options))
  | .sscan => do
    let key ← textOf l.front 0
    let cursor ← l.front[1]?.bind parseDigits
    let pattern ← optionText .pattern l.options
    let count ← valueAs parseInt .count l.options
    some (.sscan key cursor pattern count)
  | .zscan => do
    let key ← textOf l.front 0
    let cursor ← l.front[1]?.bind parseDigits
    let pattern ← optionText .pattern l.options
    let count ← valueAs parseInt .count l.options
    some (.zscan key cursor pattern count)
  | .copy => do
    let src ← textOf l.front 0
    let dst ← textOf l.front 1
    let db ← valueAs parseInt .db l.options
    some (.copy src dst db (has .replace l.options))
  | .restore => do
    let key ← textOf l.front 0
    let ttl ← intOf l.front 1
    let serialized ← l.front[2]?
    let idletime ← valueAs parseDigits .idletime l.options
    let frequency ← valueAs parseDigits .freq l.options
    some (.restore key ttl serialized (has .replace l.options) (has .absttl l.options) idletime frequency)
  | .lpos => do
    let key ← textOf l.front 0
    let element ← l.front[1]?
    let rank ← valueAs parseInt .rank l.options
    let count ← valueAs parseInt .count l.options
    let maxlen ← valueAs parseInt .maxlen l.options
    some (.lpos key element rank count maxlen)
  | .lmpop => do
    let direction ← directionOf l.back
    let count ← valueAs parseInt .count l.options
    some (.lmpop (l.items.map fromUtf8Lossy) direction (count.getD 1))
  | .blmpop => do
    let timeout ← timeoutOf parseF64 l.front
    let direction ← directionOf l.back
    let count ← valueAs parseInt .count l.options
    some (.blmpop timeout (l.items.map fromUtf8Lossy) direction (count.getD 1))
  | .zmpop => do
    let max ← maxOf l.back
    let count ← valueAs parseInt .count l.options
    some (.zmpop (l.items.map fromUtf8Lossy) max (count.getD 1))
  | .bzmpop => do
    let timeout ← timeoutOf parseF64 l.front
    let max ← maxOf l.back
    let count ← valueAs parseInt .count l.options
    some (.bzmpop timeout (l.items.map fromUtf8Lossy) max (count.getD 1))
  | .hrandfield => do
    let key ← textOf l.front 0
    let count ← l.items.mapM parseInt
    some (.hrandfield key count.head? (has .withvalues l.options))
  | .zrandmember => do
    let key ← textOf l.front 0
    let count ← l.items.mapM parseInt
    some (.zrandmember key count.head? (has .withscores l.options))
  | .httl command => do
    let key ← textOf l.front 0
    let fields ← l.front[1]?
    if isKeyword "FIELDS" fields then some (.httl command key (l.items.map fromUtf8Lossy)) else none
  | .sintercard => do
    let limit ← valueAs parseInt .limit l.options
    some (.sintercard (l.items.map fromUtf8Lossy) limit)
  | .zintercard => do
    let limit ← valueAs parseInt .limit l.options
    some (.zintercard (l.items.map fromUtf8Lossy) limit)
  | .clientKill => do
    let addr ← optionText .addr l.options
    let laddr ← optionText .laddr l.options
    let clientId ← valueAs parseInt .id l.options
    let clientType ← optionText .type l.options
    let user ← optionText .user l.options
    let skipme ← valueAs yesOf .skipme l.options
    let maxage ← valueAs parseInt .maxage l.options
    some (.clientKill addr laddr clientId clientType user skipme maxage)
  | .memoryUsage => do
    let key ← textOf l.front 0
    let samples ← valueAs parseInt .samples l.options
    some (.memoryUsage key samples)
  | .bgsave => some (.bgsave (has .schedule l.options))
  | .functionList => do
    let library ← optionText .libraryname l.options
    some (.functionList library (has .withcode l.options))
  | .xrange => do
    let key ← textOf l.front 0
    let min ← textOf l.front 1
    let max ← textOf l.front 2
    let count ← valueAs parseInt .count l.options
    some (.xrange key min max count)
  | .xrevrange => do
    let key ← textOf l.front 0
    let max ← textOf l.front 1
    let min ← textOf l.front 2
    let count ← valueAs parseInt .count l.options
    some (.xrevrange key max min count)
  | .xgroupCreate => do
    let key ← textOf l.front 0
    let group ← textOf l.front 1
    let id ← textOf l.front 2
    let entriesRead ← valueAs parseInt .entriesread l.options
    some (.xgroupCreate key group id (has .mkstream l.options) entriesRead)
  | .xgroupSetid => do
    let key ← textOf l.front 0
    let group ← textOf l.front 1
    let id ← textOf l.front 2
    let entriesRead ← valueAs parseInt .entriesread l.options
    some (.xgroupSetid key group id entriesRead)
  | .xinfoStream => do
    let key ← textOf l.front 0
    some (.xinfoStream key (has .full l.options))
  | .xclaim => do
    let key ← textOf l.front 0
    let group ← textOf l.front 1
    let consumer ← textOf l.front 2
    let minIdleTime ← intOf l.front 3
    let idle ← valueAs parseInt .idle l.options
    let timeMs ← valueAs parseInt .time l.options
    let retrycount ← valueAs parseInt .retrycount l.options
    some (.xclaim key group consumer minIdleTime (l.items.map fromUtf8Lossy) idle timeMs retrycount
      (has .force l.options) (has .justid l.options))
  | .xautoclaim => do
    let key ← textOf l.front 0
    let group ← textOf l.front 1
    let consumer ← textOf l.front 2
    let minIdleTime ← intOf l.front 3
    let startId ← textOf l.front 4
    let count ← valueAs parseInt .count l.options
    some (.xautoclaim key group consumer minIdleTime startId count (has .justid l.options))
  | .xsetid => do
    let key ← textOf l.front 0
    let id ← textOf l.front 1
    let entriesAdded ← valueAs parseInt .entriesadded l.options
    let maxDeletedEntryId ← optionText .maxdeletedid l.options
    some (.xsetid key id entriesAdded maxDeletedEntryId)
  | .zrank => do
    let key ← textOf l.front 0
    let member ← l.front[1]?
    some (.zrank key member (has .withscore l.options))
  | .zrevrank => do
    let key ← textOf l.front 0
    let member ← l.front[1]?
    some (.zrevrank key member (has .withscore l.options))

/-- the server's reading of a vector -/
def readCall (parseF64 : Bytes → Option UInt64) (isId : Bytes → Bool) (words : Cmd) : Option Call :=
  (readNamed spelling (table isId) words).bind fun p => callOf parseF64 p.1 p.2

/-! ## The parts of a call -/

def Call.name : Call → Name
  | scan .. => .scan
  | hscan .. => .hscan
  | sscan .. => .sscan
  | zscan .. => .zscan
  | copy .. => .copy
  | restore .. => .restore
  | lpos .. => .lpos
  | lmpop .. => .lmpop
  | blmpop .. => .blmpop
  | zmpop .. => .zmpop
  | bzmpop .. => .bzmpop
  | hrandfield .. => .hrandfield
  | zrandmember .. => .zrandmember
  | httl command .. => .httl command
  | sintercard .. => .sintercard
  | zintercard .. => .zintercard
  | clientKill .. => .clientKill
  | memoryUsage .. => .memoryUsage
  | bgsave .. => .bgsave
  | functionList .. => .functionList
  | xrange .. => .xrange
  | xrevrange .. => .xrevrange
  | xgroupCreate .. => .xgroupCreate
  | xgroupSetid .. => .xgroupSetid
  | xinfoStream .. => .xinfoStream
  | xclaim .. => .xclaim
  | xautoclaim .. => .xautoclaim
  | xsetid .. => .xsetid
  | zrank .. => .zrank
  | zrevrank .. => .zrevrank

/-- an option with a text -/
def texts (k : Opt) (s : Option String) : List (Given Bytes Opt) := optional k (s.map asBytes)

/-- an option with a number -/
def ints (k : Opt) (n : Option Int) : List (Given Bytes Opt) := optional k (n.map intArg)

/-- an option with an unsigned number -/
def lens (k : Opt) (n : Option ℕ) : List (Given Bytes Opt) := optional k (n.map lenArg)

/-- a count, with an option behind it -/
def counted (k : Opt) (front : List Bytes) : Option Int → Bool → Line Bytes Opt
  | some c, b => ⟨front, [intArg c], [], marked k b⟩
  | none, _ => ⟨front, [], [], []⟩

def Call.line (printF64 : UInt64 → Bytes) : Call → Line Bytes Opt
  | scan cursor f => ⟨[lenArg cursor], [], [], texts .pattern f.pattern ++ (ints .count f.count ++ texts .type f.type)⟩
  | hscan key cursor pattern count novalues =>
    ⟨[asBytes key, lenArg cursor], [], [], texts .pattern pattern ++ (ints .count count ++ marked .novalues novalues)⟩
  | sscan key cursor pattern count =>
    ⟨[asBytes key, lenArg cursor], [], [], texts .pattern pattern ++ ints .count count⟩
  | zscan key cursor pattern count =>
    ⟨[asBytes key, lenArg cursor], [], [], texts .pattern pattern ++ ints .count count⟩
  | copy src dst db replace => ⟨[asBytes src, asBytes dst], [], [], ints .db db ++ marked .replace replace⟩
  | restore key ttlMs serialized replace absttl idletime frequency =>
    ⟨[asBytes key, intArg ttlMs, serialized], [], [],
      marked .replace replace ++ (marked .absttl absttl ++ (lens .idletime idletime ++ lens .freq frequency))⟩
  | lpos key element rank count maxlen =>
    ⟨[asBytes key, element], [], [], ints .rank rank ++ (ints .count count ++ ints .maxlen maxlen)⟩
  | lmpop keys direction count => ⟨[], keys.map asBytes, [asBytes direction], ints .count (some count)⟩
  | blmpop timeout keys direction count =>
    ⟨[printF64 timeout], keys.map asBytes, [asBytes direction], ints .count (some count)⟩
  | zmpop keys max count => ⟨[], keys.map asBytes, [asBytes (zmpopDirection max)], ints .count (some count)⟩
  | bzmpop timeout keys max count =>
    ⟨[printF64 timeout], keys.map asBytes, [asBytes (zmpopDirection max)], ints .count (some count)⟩
  | hrandfield key count withvalues => counted .withvalues [asBytes key] count withvalues
  | zrandmember key count withscores => counted .withscores [asBytes key] count withscores
  | httl _ key fields => ⟨[asBytes key, asBytes "FIELDS"], fields.map asBytes, [], []⟩
  | sintercard keys limit => ⟨[], keys.map asBytes, [], ints .limit limit⟩
  | zintercard keys limit => ⟨[], keys.map asBytes, [], ints .limit limit⟩
  | clientKill addr laddr clientId clientType user skipme maxage =>
    ⟨[], [], [], texts .addr addr ++ (texts .laddr laddr ++ (ints .id clientId ++ (texts .type clientType ++
      (texts .user user ++ (texts .skipme (skipme.map fun skip => if skip then "yes" else "no") ++
        ints .maxage maxage)))))⟩
  | memoryUsage key samples => ⟨[asBytes key], [], [], ints .samples samples⟩
  | bgsave schedule => ⟨[], [], [], marked .schedule schedule⟩
  | functionList library withcode => ⟨[], [], [], texts .libraryname library ++ marked .withcode withcode⟩
  | xrange key min max count => ⟨[asBytes key, asBytes min, asBytes max], [], [], ints .count count⟩
  | xrevrange key max min count => ⟨[asBytes key, asBytes max, asBytes min], [], [], ints .count count⟩
  | xgroupCreate key group id mkstream entriesRead =>
    ⟨[asBytes key, asBytes group, asBytes id], [], [], marked .mkstream mkstream ++ ints .entriesread entriesRead⟩
  | xgroupSetid key group id entriesRead =>
    ⟨[asBytes key, asBytes group, asBytes id], [], [], ints .entriesread entriesRead⟩
  | xinfoStream key full => ⟨[asBytes key], [], [], marked .full full⟩
  | xclaim key group consumer minIdleTime messageIds idle timeMs retrycount force justid =>
    ⟨[asBytes key, asBytes group, asBytes consumer, intArg minIdleTime], messageIds.map asBytes, [],
      ints .idle idle ++ (ints .time timeMs ++ (ints .retrycount retrycount ++ (marked .force force ++
        marked .justid justid)))⟩
  | xautoclaim key group consumer minIdleTime startId count justid =>
    ⟨[asBytes key, asBytes group, asBytes consumer, intArg minIdleTime, asBytes startId], [], [],
      ints .count count ++ marked .justid justid⟩
  | xsetid key id entriesAdded maxDeletedEntryId =>
    ⟨[asBytes key, asBytes id], [], [], ints .entriesadded entriesAdded ++ texts .maxdeletedid maxDeletedEntryId⟩
  | zrank key member withscore => ⟨[asBytes key, member], [], [], marked .withscore withscore⟩
  | zrevrank key member withscore => ⟨[asBytes key, member], [], [], marked .withscore withscore⟩

/-! ### What is written -/

/-- the words of options -/
def spoken (os : List (Given Bytes Opt)) : Cmd := os.flatMap (words spelling.keyword)

@[simp] theorem spoken_append (os os' : List (Given Bytes Opt)) : spoken (os ++ os') = spoken os ++ spoken os' :=
  List.flatMap_append

@[simp] theorem spoken_nil : spoken [] = [] := rfl

@[simp] theorem spoken_texts (k : Opt) (s : Option String) : spoken (texts k s) = optText k.name s := by
  cases s <;> rfl

@[simp] theorem spoken_ints (k : Opt) (n : Option Int) : spoken (ints k n) = optArg k.name n := by
  cases n <;> rfl

@[simp] theorem spoken_lens (k : Opt) (n : Option ℕ) : spoken (lens k n) = optArg k.name (n.map Int.ofNat) := by
  cases n <;> rfl

@[simp] theorem spoken_marked (k : Opt) (b : Bool) : spoken (marked k b) = flagArg k.name b := by
  cases b <;> rfl

theorem lpos_eq (key : String) (element : Bytes) (rank count maxlen : Option Int) :
    lpos key element rank count maxlen = [asBytes "LPOS", asBytes key, element] ++ (optArg "RANK" rank ++
      (optArg "COUNT" count ++ optArg "MAXLEN" maxlen)) := by
  cases count <;> rfl

theorem cmdScan_eq (cursor : ℕ) (f : Filters) :
    cmdScan cursor f = [asBytes "SCAN", lenArg cursor] ++ (optText "MATCH" f.pattern ++ (optArg "COUNT" f.count ++
      optText "TYPE" f.type)) := by
  simp only [cmdScan, List.append_assoc]

/-- **Each vector has the form of its command.** -/
theorem cmd_eq_words (printF64 : UInt64 → Bytes) (isId : Bytes → Bool) (c : Call) :
    c.cmd printF64 = c.name.words.map asBytes ++ (c.line printF64).words spelling (c.name.form isId) := by
  have hrest : ∀ l : Line Bytes Opt, l.rest spelling = l.back ++ spoken l.options := fun l => rfl
  cases c
  case scan cursor f =>
    simp [Call.cmd, cmdScan_eq, Call.line, Line.words, hrest]
    rfl
  case lpos key element rank count maxlen =>
    simp [Call.cmd, lpos_eq, Call.line, Line.words, hrest]
    rfl
  case hrandfield key count withvalues =>
    cases count <;> simp [Call.line, counted, Line.words, hrest] <;> rfl
  case zrandmember key count withscores =>
    cases count <;> simp [Call.line, counted, Line.words, hrest] <;> rfl
  all_goals
    simp [Call.cmd, Call.name, Call.line, Name.words, Name.form, Line.words, hrest, Items.words]
    rfl

/-! ### What is read -/

/-- the value of an option that may be there, as what it stands for -/
def valueIn {α : Type} (parse : Bytes → Option α) : Option Bytes → Option (Option α)
  | none => some none
  | some w => (parse w).map some

theorem valueAs_eq {α : Type} (parse : Bytes → Option α) (k : Opt) (os : List (Given Bytes Opt)) :
    valueAs parse k os = valueIn parse (valueOf k os) := by
  unfold valueAs
  cases valueOf k os <;> rfl

@[simp] theorem valueIn_none {α : Type} (parse : Bytes → Option α) : valueIn parse none = some none := rfl

@[simp] theorem valueIn_some {α : Type} (parse : Bytes → Option α) (w : Bytes) :
    valueIn parse (some w) = (parse w).map some := rfl

@[simp] theorem valueIn_text (s : Option String) :
    valueIn (fun w => some (fromUtf8Lossy w)) (s.map asBytes) = some s := by
  cases s <;> simp [valueIn, fromUtf8Lossy_asBytes]

@[simp] theorem valueIn_int (n : Option Int) : valueIn parseInt (n.map intArg) = some n := by
  cases n <;> simp [valueIn, parseInt_intArg]

@[simp] theorem valueIn_len (n : Option ℕ) : valueIn parseDigits (n.map lenArg) = some n := by
  cases n <;> simp [valueIn, parseDigits_lenArg]

@[simp] theorem valueIn_yes (skip : Option Bool) :
    valueIn yesOf (skip.map (asBytes ∘ fun skip => if skip then "yes" else "no")) = some skip := by
  rcases skip with - | - | - <;> decide +kernel

theorem fromUtf8Lossy_comp_asBytes : fromUtf8Lossy ∘ asBytes = id := funext fromUtf8Lossy_asBytes

/-- a direction is one for the server exactly where the client's check passes -/
theorem directionOf_asBytes (d : String) :
    directionOf [asBytes d] = if d.toUpper ≠ "LEFT" ∧ d.toUpper ≠ "RIGHT" then none else some d := by
  simp only [directionOf, List.getElem?_cons_zero, Option.bind_some, isKeyword_asBytes, fromUtf8Lossy_asBytes]
  by_cases hleft : d.toUpper = "LEFT" <;> by_cases hright : d.toUpper = "RIGHT" <;> simp [hleft, hright]

theorem directionOf_ok {d : String} (h : validatePopDirection d = .ok ()) : directionOf [asBytes d] = some d := by
  rw [directionOf_asBytes, if_neg ((Options.guard_ok_iff _).1 h)]

theorem directionOf_error {d : String} (h : validatePopDirection d ≠ .ok ()) : directionOf [asBytes d] = none := by
  rw [directionOf_asBytes, if_pos]
  by_contra hnone
  exact h ((Options.guard_ok_iff _).2 hnone)

theorem maxOf_zmpopDirection (max : Bool) : maxOf [asBytes (zmpopDirection max)] = some max := by
  cases max <;> decide +kernel

theorem timeoutOf_printF64 {printF64 : UInt64 → Bytes} {parseF64 : Bytes → Option UInt64}
    (hparse : ∀ w, parseF64 (printF64 w) = some (oneNaN w)) (t : UInt64) :
    timeoutOf parseF64 [printF64 t] = if isNaN t then none else some t := by
  simp only [timeoutOf, List.getElem?_cons_zero, Option.bind_some, hparse, Option.filter, Options.isNaN_oneNaN]
  cases h : isNaN t with
  | true => rfl
  | false => simp [Options.oneNaN_eq h]

/-- values that the server takes: directions and timeouts -/
def Call.Valued : Call → Prop
  | lmpop _ direction _ => validatePopDirection direction = .ok ()
  | blmpop timeout _ direction _ => isNaN timeout = false ∧ validatePopDirection direction = .ok ()
  | bzmpop timeout _ _ _ => isNaN timeout = false
  | _ => True

/-- what is sent of a call -/
def Call.sent : Call → Call
  | hrandfield key none _ => hrandfield key none false
  | zrandmember key none _ => zrandmember key none false
  | c => c

/-- the parts of a call are read as it is sent -/
theorem callOf_line {printF64 : UInt64 → Bytes} {parseF64 : Bytes → Option UInt64}
    (hparse : ∀ w, parseF64 (printF64 w) = some (oneNaN w)) {c : Call} (h : c.Valued) :
    callOf parseF64 c.name (c.line printF64) = some c.sent := by
  have hfields : isKeyword "FIELDS" (asBytes "FIELDS") = true := by decide
  have htimeout := timeoutOf_printF64 hparse
  cases c
  case hrandfield key count withvalues =>
    cases count <;>
      simp [callOf, Call.name, Call.line, Call.sent, textOf, counted, fromUtf8Lossy_asBytes, parseInt_intArg]
  case zrandmember key count withscores =>
    cases count <;>
      simp [callOf, Call.name, Call.line, Call.sent, textOf, counted, fromUtf8Lossy_asBytes, parseInt_intArg]
  case lmpop keys direction count =>
    simp [callOf, Call.name, Call.line, Call.sent, valueAs_eq, ints, parseInt_intArg, fromUtf8Lossy_comp_asBytes,
      directionOf_ok h]
  case blmpop timeout keys direction count =>
    simp [callOf, Call.name, Call.line, Call.sent, valueAs_eq, ints, parseInt_intArg, fromUtf8Lossy_comp_asBytes,
      directionOf_ok h.2, htimeout, h.1]
  case bzmpop timeout keys max count =>
    simp [callOf, Call.name, Call.line, Call.sent, valueAs_eq, ints, parseInt_intArg, fromUtf8Lossy_comp_asBytes,
      maxOf_zmpopDirection, htimeout, show isNaN timeout = false from h]
  all_goals simp [callOf, Call.name, Call.line, Call.sent, textOf, intOf, optionText, valueAs_eq, texts, ints, lens,
    parseDigits_lenArg, parseInt_intArg, fromUtf8Lossy_asBytes, fromUtf8Lossy_comp_asBytes, maxOf_zmpopDirection,
    hfields]

theorem callOf_line_none {printF64 : UInt64 → Bytes} {parseF64 : Bytes → Option UInt64}
    (hparse : ∀ w, parseF64 (printF64 w) = some (oneNaN w)) {c : Call} (h : ¬ c.Valued) :
    callOf parseF64 c.name (c.line printF64) = none := by
  cases c
  case lmpop keys direction count => simp [callOf, Call.name, Call.line, directionOf_error h]
  case blmpop timeout keys direction count =>
    rw [Call.name, callOf, Call.line, timeoutOf_printF64 hparse]
    cases hnan : isNaN timeout with
    | true => rfl
    | false =>
      have hdirection : validatePopDirection direction ≠ .ok () := fun hok => h ⟨hnan, hok⟩
      rw [directionOf_error hdirection]
      rfl
  case bzmpop timeout keys max count =>
    have hnan : isNaN timeout = true := Bool.not_eq_false _ ▸ h
    rw [Call.name, callOf, Call.line, timeoutOf_printF64 hparse, hnan]
    rfl
  all_goals exact absurd trivial h

/-! ### The form of a call -/

/-- the ids of an XCLAIM are ids for the server -/
def Call.IdsOk (isId : Bytes → Bool) : Call → Prop
  | xclaim _ _ _ _ messageIds .. => ∀ id ∈ messageIds, isId (asBytes id) = true
  | _ => True

theorem known_texts {G : Grammar Bytes Opt} {k : Opt} (h : G.optionOf (asBytes k.name) = some k ∧ G.valued k = true)
    (s : Option String) : Known G spelling.keyword (texts k s) := known_optional h.1 h.2 _

theorem known_ints {G : Grammar Bytes Opt} {k : Opt} (h : G.optionOf (asBytes k.name) = some k ∧ G.valued k = true)
    (n : Option Int) : Known G spelling.keyword (ints k n) := known_optional h.1 h.2 _

theorem known_lens {G : Grammar Bytes Opt} {k : Opt} (h : G.optionOf (asBytes k.name) = some k ∧ G.valued k = true)
    (n : Option ℕ) : Known G spelling.keyword (lens k n) := known_optional h.1 h.2 _

theorem known_alone {G : Grammar Bytes Opt} {k : Opt} (h : G.optionOf (asBytes k.name) = some k ∧ G.valued k = false)
    (b : Bool) : Known G spelling.keyword (marked k b) := known_marked h.1 h.2 b

/-- the server knows the options of a call -/
theorem known_line (printF64 : UInt64 → Bytes) (isId : Bytes → Bool) (c : Call) :
    Known (c.name.form isId).grammar spelling.keyword (c.line printF64).options := by
  have hnone : ∀ G : Grammar Bytes Opt, Known G spelling.keyword [] := fun G o ho => nomatch ho
  cases c
  case hrandfield key count withvalues =>
    cases count with
    | none => exact hnone _
    | some c => exact known_alone (G := grammar [] [.withvalues]) (by decide) withvalues
  case zrandmember key count withscores =>
    cases count with
    | none => exact hnone _
    | some c => exact known_alone (G := grammar [] [.withscores]) (by decide) withscores
  case httl => exact hnone _
  all_goals
    dsimp only [Call.line, Call.name, Name.form]
    repeat' apply known_append
    all_goals
      first
      | exact known_texts (by decide) _
      | exact known_ints (by decide) _
      | exact known_lens (by decide) _
      | exact known_alone (by decide) _

/-- the first word behind the ids of an XCLAIM is an option -/
theorem isId_head {isId : Bytes → Bool} (hid : ∀ w, (claimGrammar.optionOf w).isSome = true → isId w = false)
    {os : List (Given Bytes Opt)} (hos : Known claimGrammar spelling.keyword os) {w : Bytes}
    (hw : (spoken os).head? = some w) : isId w = false := by
  cases os with
  | nil => cases hw
  | cons o os =>
    have hkey : spelling.keyword o.1 = w := Option.some.inj hw
    apply hid
    rw [← hkey, (hos o List.mem_cons_self).1]
    rfl

theorem fits_line (printF64 : UInt64 → Bytes) {isId : Bytes → Bool}
    (hid : ∀ w, (claimGrammar.optionOf w).isSome = true → isId w = false) {c : Call} (hc : c.IdsOk isId) :
    Fits spelling (c.name.form isId) (c.line printF64) := by
  have hknown := known_line printF64 isId c
  cases c
  case hrandfield key count withvalues =>
    cases count with
    | none => exact ⟨rfl, ⟨Nat.zero_le 1, fun _ => rfl⟩, rfl, hknown⟩
    | some c => exact ⟨rfl, ⟨Nat.le_refl 1, fun h => nomatch h⟩, rfl, hknown⟩
  case zrandmember key count withscores =>
    cases count with
    | none => exact ⟨rfl, ⟨Nat.zero_le 1, fun _ => rfl⟩, rfl, hknown⟩
    | some c => exact ⟨rfl, ⟨Nat.le_refl 1, fun h => nomatch h⟩, rfl, hknown⟩
  case xclaim key group consumer minIdleTime messageIds idle timeMs retrycount force justid =>
    refine ⟨rfl, ⟨?_, fun w hw => isId_head hid hknown hw⟩, rfl, hknown⟩
    intro w hw
    obtain ⟨id, hmem, rfl⟩ := List.mem_map.1 hw
    exact hc id hmem
  all_goals
    refine ⟨rfl, ?_, rfl, hknown⟩
    first
    | exact rfl
    | exact trivial

/-- nothing is missing in a call: keys, fields, ids and filters are there, and not both `idletime` and `frequency` -/
def Call.Full : Call → Prop
  | restore _ _ _ _ _ idletime frequency => ¬ (idletime.isSome = true ∧ frequency.isSome = true)
  | lmpop keys _ _ | blmpop _ keys _ _ | zmpop keys _ _ | bzmpop _ keys _ _ => keys ≠ []
  | sintercard keys _ | zintercard keys _ => keys ≠ []
  | httl _ _ fields => fields ≠ []
  | clientKill addr laddr clientId clientType user skipme maxage =>
    ¬ (addr = none ∧ laddr = none ∧ clientId = none ∧ clientType = none ∧ user = none ∧ skipme = none ∧ maxage = none)
  | xclaim _ _ _ _ messageIds .. => messageIds ≠ []
  | _ => True

theorem texts_eq_nil (k : Opt) (s : Option String) : texts k s = [] ↔ s = none := by
  cases s <;> simp [texts, Lib.Options.optional]

theorem ints_eq_nil (k : Opt) (n : Option Int) : ints k n = [] ↔ n = none := by
  cases n <;> simp [ints, Lib.Options.optional]

theorem compatible_grammar (valued alone ks : List Opt) : Compatible (grammar valued alone) ks :=
  List.pairwise_of_forall fun _ _ => rfl

theorem compatible_restore : ∀ replace absttl idletime frequency : Bool,
    Compatible restoreGrammar ((if replace then [.replace] else []) ++ ((if absttl then [.absttl] else []) ++
      ((if idletime then [.idletime] else []) ++ if frequency then [.freq] else []))) ↔
    ¬ (idletime = true ∧ frequency = true) := by
  decide

/-- a line with a list that must have a word -/
theorem complete_list {F : Form Bytes Opt} (hneeded : F.items.needed = true) (hoption : F.needsOption = false)
    (hgrammar : ∀ ks, Compatible F.grammar ks) {l : Line Bytes Opt} {ws : List String} (hl : l.items = ws.map asBytes) :
    Complete F l ↔ ws ≠ [] := by
  constructor
  · rintro ⟨hitems, -, -⟩ rfl
    exact hitems hneeded hl
  · intro hws
    refine ⟨fun _ hnone => hws ?_, fun h => ?_, hgrammar _⟩
    · exact List.map_eq_nil_iff.1 (hl.symm.trans hnone)
    · rw [hoption] at h
      cases h

theorem complete_line_iff (printF64 : UInt64 → Bytes) (isId : Bytes → Bool) (c : Call) :
    Complete (c.name.form isId) (c.line printF64) ↔ c.Full := by
  cases c
  case restore key ttlMs serialized replace absttl idletime frequency =>
    have hkeys := compatible_restore replace absttl idletime.isSome frequency.isSome
    refine Iff.trans ⟨fun h => h.compatible, fun h => ⟨fun h => (nomatch h), fun h => (nomatch h), h⟩⟩ ?_
    simp only [Call.line, lens, keys_append, keys_optional, keys_marked, Option.isSome_map]
    exact hkeys
  case clientKill addr laddr clientId clientType user skipme maxage =>
    refine Iff.trans ⟨fun h => h.option rfl, fun h => ⟨fun h => (nomatch h), fun _ => h, compatible_grammar _ _ _⟩⟩ ?_
    simp only [Call.line, Call.Full, ne_eq, List.append_eq_nil_iff, texts_eq_nil, ints_eq_nil, Option.map_eq_none_iff]
  case lmpop => exact complete_list rfl rfl (compatible_grammar _ _) rfl
  case blmpop => exact complete_list rfl rfl (compatible_grammar _ _) rfl
  case zmpop => exact complete_list rfl rfl (compatible_grammar _ _) rfl
  case bzmpop => exact complete_list rfl rfl (compatible_grammar _ _) rfl
  case sintercard => exact complete_list rfl rfl (compatible_grammar _ _) rfl
  case zintercard => exact complete_list rfl rfl (compatible_grammar _ _) rfl
  case httl => exact complete_list rfl rfl (compatible_grammar _ _) rfl
  case xclaim => exact complete_list rfl rfl (compatible_grammar _ _) rfl
  all_goals exact ⟨fun _ => trivial, fun _ => ⟨fun h => (nomatch h), fun h => (nomatch h), compatible_grammar _ _ _⟩⟩

/-! ## What the server makes of a call -/

theorem mem_all (n : Name) : n ∈ Name.all := by
  rcases n with - | - | - | - | - | - | - | - | - | - | - | - | - | command <;> try decide
  cases command <;> decide

section Calls

variable {printF64 : UInt64 → Bytes} {parseF64 : Bytes → Option UInt64} {isId : Bytes → Bool}
  (hparse : ∀ w, parseF64 (printF64 w) = some (oneNaN w))
  (hid : ∀ w, (claimGrammar.optionOf w).isSome = true → isId w = false)

/-- the line of a call, by the form of its command -/
theorem readCall_eq (printF64 : UInt64 → Bytes) (parseF64 : Bytes → Option UInt64) (isId : Bytes → Bool) (c : Call) :
    readCall parseF64 isId (c.cmd printF64) =
      (readLine spelling (c.name.form isId) ((c.line printF64).words spelling (c.name.form isId))).bind
        fun l => callOf parseF64 c.name l := by
  have hnamed := readNamed_append (S := spelling) (table isId) (mem_all c.name)
    ((c.line printF64).words spelling (c.name.form isId))
  rw [readCall, cmd_eq_words printF64 isId c]
  show (readNamed spelling (table isId) ((table isId).name c.name ++ _)).bind _ = _
  rw [hnamed, Option.bind_map]
  rfl

include hparse hid

/-- **The server reads a call as it is sent, where it takes it.** -/
theorem readCall_cmd {c : Call} (hids : c.IdsOk isId) :
    (c.Full ∧ c.Valued → readCall parseF64 isId (c.cmd printF64) = some c.sent) ∧
      (¬ (c.Full ∧ c.Valued) → readCall parseF64 isId (c.cmd printF64) = none) := by
  classical
  have hfits := fits_line printF64 hid hids
  rw [readCall_eq, readLine_words hfits, if_congr (complete_line_iff printF64 isId c) rfl rfl]
  constructor
  · rintro ⟨hfull, hvalued⟩
    rw [if_pos hfull, Option.bind_some, callOf_line hparse hvalued]
  · intro hnot
    by_cases hfull : c.Full
    · have hvalued : ¬ c.Valued := fun h => hnot ⟨hfull, h⟩
      rw [if_pos hfull, Option.bind_some, callOf_line_none hparse hvalued]
    · rw [if_neg hfull]
      rfl

omit hparse hid in
/-- an XCLAIM that is read as it was made has ids only -/
theorem idsOk_of_readCall {c : Call} (h : readCall parseF64 isId (c.cmd printF64) = some c) : c.IdsOk isId := by
  cases c
  case xclaim key group consumer minIdleTime messageIds idle timeMs retrycount force justid =>
    rw [readCall_eq] at h
    obtain ⟨l, hline, hcall⟩ := Option.bind_eq_some_iff.1 h
    have hitems := items_of_readLine rfl hline
    have hids : l.items.map fromUtf8Lossy = messageIds := by
      simp only [Call.name, callOf, Option.bind_eq_bind, Option.bind_eq_some_iff, Option.some.injEq,
        Call.xclaim.injEq] at hcall
      obtain ⟨_, _, _, _, _, _, _, _, _, _, _, _, _, _, -, -, -, -, hids, -⟩ := hcall
      exact hids
    -- as many ids as words, at the front of the words behind the idle time
    have hlength : l.items.length = (messageIds.map asBytes).length := by
      rw [← hids, List.length_map, List.length_map]
    have hprefix : l.items <+: messageIds.map asBytes ++ spoken (ints .idle idle ++ (ints .time timeMs ++
        (ints .retrycount retrycount ++ (marked .force force ++ marked .justid justid)))) := by
      rw [hitems]
      exact List.takeWhile_prefix isId
    have hsame : l.items = messageIds.map asBytes := by
      rw [List.prefix_iff_eq_take.1 hprefix, hlength, List.take_left]
    intro id hid
    have hmem : asBytes id ∈ l.items := hsame ▸ List.mem_map_of_mem hid
    rw [hitems] at hmem
    exact List.all_eq_true.1 List.all_takeWhile _ hmem
  all_goals trivial

/-- **Which calls are read as they were made.** The server reads a call as it is sent where it takes it, and refuses it
otherwise, unless words among the ids of an XCLAIM are no ids. It reads the call that was made exactly where nothing is
missing, all values are of their kind, the ids are ids and no option was left behind for want of a count. -/
theorem calls_read_exact :
    (∀ c : Call, c.IdsOk isId →
      (c.Full ∧ c.Valued → readCall parseF64 isId (c.cmd printF64) = some c.sent) ∧
        (¬ (c.Full ∧ c.Valued) → readCall parseF64 isId (c.cmd printF64) = none)) ∧
    ∀ c : Call, readCall parseF64 isId (c.cmd printF64) = some c ↔
      c.IdsOk isId ∧ c.Full ∧ c.Valued ∧ c.sent = c := by
  refine ⟨fun c hids => readCall_cmd hparse hid hids, fun c => ⟨fun h => ?_, ?_⟩⟩
  · have hids := idsOk_of_readCall h
    obtain ⟨htaken, hrefused⟩ := readCall_cmd hparse hid hids
    by_cases hall : c.Full ∧ c.Valued
    · have hsent : c.sent = c := Option.some.inj ((htaken hall).symm.trans h)
      exact ⟨hids, hall.1, hall.2, hsent⟩
    · rw [hrefused hall] at h
      cases h
  · rintro ⟨hids, hfull, hvalued, hsent⟩
    rw [(readCall_cmd hparse hid hids).1 ⟨hfull, hvalued⟩, hsent]

end Calls

/-- milliseconds in digits, or milliseconds and a number behind a hyphen, each of 64 bits -/
def streamId : Bytes → Bool
  | [] => false
  | d :: rest =>
    let number := fun digits : Bytes => (parseDigits digits).any (· < 2 ^ 64)
    let seq := (d :: rest).dropWhile (· ≠ 45)
    decide (48 ≤ d ∧ d ≤ 57) && number ((d :: rest).takeWhile (· ≠ 45)) && (seq.isEmpty || number seq.tail)

/-- an option starts with a letter, an id with a digit -/
theorem streamId_of_option (w : Bytes) (hw : (claimGrammar.optionOf w).isSome = true) : streamId w = false := by
  obtain ⟨k, hk⟩ := Option.isSome_iff_exists.1 hw
  have hspelled : isKeyword k.name w = true := by
    have h := List.find?_some hk
    exact h
  have hkeyword : w.map upperByte = asBytes k.name := of_decide_eq_true hspelled
  cases w with
  | nil => rfl
  | cons d rest =>
    have hfirst : (asBytes k.name).head? = some (upperByte d) := by
      rw [← hkeyword]
      rfl
    have hletter : ∀ k : Opt, ((asBytes k.name).head?.any fun b => decide (65 ≤ b)) = true := by
      intro k
      cases k <;> decide
    have hupper : 65 ≤ upperByte d := by
      have h := hletter k
      rw [hfirst] at h
      exact of_decide_eq_true h
    have hdigit : ¬ (48 ≤ d ∧ d ≤ 57) := by
      rintro ⟨-, hd⟩
      have hd' : d.toNat ≤ 57 := UInt8.le_iff_toNat_le.1 hd
      have hlow : ¬ (97 ≤ d ∧ d ≤ 122) := fun h => by
        have h' : 97 ≤ d.toNat := UInt8.le_iff_toNat_le.1 h.1
        omega
      rw [upperByte, if_neg hlow] at hupper
      have hupper' : 65 ≤ d.toNat := UInt8.le_iff_toNat_le.1 hupper
      omega
    simp [streamId, hdigit]

/-- an XCLAIM of two entries, with names that spell options -/
def claimCall : Call :=
  .xclaim "FORCE" "IDLE" "1-1" (-5) ["1526569495631-0", "7"] (some 0) none (some 3) true false

theorem calls_read_exact_xclaim :
    readCall parseF64 streamId (claimCall.cmd printF64) = some claimCall :=
  ((calls_read_exact parseF64_printF64 streamId_of_option).2 claimCall).2
    ⟨show ∀ id ∈ ["1526569495631-0", "7"], streamId (asBytes id) = true by decide +kernel,
      by simp [claimCall, Call.Full], trivial, rfl⟩

end RedisRsPy.Commands.Calls
