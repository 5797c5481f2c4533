/-
Which commands give Python bytes: the replies of a command that `carries` may hold some, provided the command `asks` the
server at all, and of the others none.

The crate is a parameter of the model. `ReadsBytes` is what it makes of bulk strings and of the few replies around them
that show that a command carries.

Results:
- `holds_or_free`: some reply to a command that carries comes out with bytes, no reply to any other does;
- `asks_iff`, `settled_before`: what comes before the server has nothing to decode, and is there where the command does
  not ask.
-/
import RedisRsPy.Commands.Closed

namespace RedisRsPy.Commands

open Lib.Fallible

/-! ## Outcomes -/

/-- with a client that decodes, the command gives what it gives without, decoded, and no bytes -/
def Uniform (codec : Codec) (decoded plain : PyRes) : Prop :=
  decoded = plain >>= decodeWalk codec ∧ ∀ x, decoded = .ok x → bytesFree x = true

theorem uniform_of_eq {codec : Codec} {decoded plain : PyRes} (h : decoded = plain >>= decodeWalk codec) :
    Uniform codec decoded plain := by
  refine ⟨h, fun x hx => ?_⟩
  obtain ⟨y, -, hy⟩ := bind_ok_iff.1 (h.symm.trans hx)
  exact bytesFree_of_decodeWalk codec hy

/-- decoding would change nothing -/
def Settled (res : PyRes) : Prop := ∀ x, res = .ok x → bytesFree x = true ∧ WellKeyed x

theorem settled_ok {x : PyObj} (hfree : bytesFree x = true) (hkeyed : WellKeyed x) : Settled (.ok x) := by
  intro y hy
  cases hy
  exact ⟨hfree, hkeyed⟩

theorem settled_error (e : Exn) : Settled (.error e) := fun _ h => nomatch h

theorem Settled.decode {res : PyRes} (h : Settled res) (codec : Codec) : res >>= decodeWalk codec = res := by
  cases res with
  | error e => rfl
  | ok x => exact decodeWalk_of_bytesFree codec x (h x rfl).2 (h x rfl).1

theorem Settled.uniform {res : PyRes} (h : Settled res) (codec : Codec) : Uniform codec res res :=
  uniform_of_eq (h.decode codec).symm

/-! ## The crate -/

/-- how the crate reads bulk strings, simple strings and doubles as the types that hold bytes -/
structure Std.ReadsBytes (S : Std) : Prop where
  string : ∀ s, S.fromRedisValue .string (.simpleString s) = .ok s
  bytes : ∀ b, S.fromRedisValue .bytes (.bulkString b) = .ok b
  optBytes : ∀ b, S.fromRedisValue (.opt .bytes) (.bulkString b) = .ok (some b)
  bytesList : ∀ b, S.fromRedisValue (.vec .bytes) (.array [.bulkString b]) = .ok [b]
  optBytesList : ∀ b, S.fromRedisValue (.opt (.vec .bytes)) (.array [.bulkString b]) = .ok (some [b])
  bytesOrNoneList : ∀ b, S.fromRedisValue (.vec (.opt .bytes)) (.array [.bulkString b]) = .ok [some b]
  scored : ∀ b f,
    S.fromRedisValue (.vec (.pair .bytes .f64)) (.array [.array [.bulkString b, .double f]]) = .ok [(b, f)]
  keyed : ∀ k b f,
    S.fromRedisValue (.opt (.triple .bytes .bytes .f64)) (.array [.bulkString k, .bulkString b, .double f]) =
      .ok (some (k, b, f))

/-! ## Rows -/

namespace Row

/-- on some reply, what the sync method makes of it holds bytes -/
def Holds (r : Row) : Prop := ∃ reply x o, r.fetch reply = .ok x ∧ r.sync x = .ok o ∧ bytesFree o = false

/-- there is nothing to decode in what the sync method makes of a reply -/
def Free (r : Row) : Prop := ∀ x, Settled (r.sync x)

/-- a row by whether its command carries -/
def HoldsOrFree (r : Row) : Bool → Prop
  | true => r.Holds
  | false => r.Free

variable {S : Std} {r : Row}

theorem Agrees.wellKeyed (h : r.Agrees S) {x : r.T} {o : PyObj} (hx : r.sync x = .ok o) : WellKeyed o :=
  wellKeyed_intoPy S ((h.convert x).trans hx)

theorem Agrees.decodes_or_free (h : r.Agrees S) : r.decodes = true ∨ r.Free := by
  rcases h.decodes with hd | hfree
  · exact .inl hd
  · exact .inr fun x o hx => ⟨hfree x o hx, h.wellKeyed hx⟩

end Row

section Shapes

variable {S : Std}

theorem free_of_agrees {r : Row} (h : r.Agrees S) (hd : r.decodes = false) : r.HoldsOrFree false :=
  h.decodes_or_free.resolve_left fun htrue => nomatch hd.symm.trans htrue

theorem holds_bytes (hS : S.ReadsBytes) : (bytes S).Holds := ⟨_, _, _, hS.bytes [], rfl, rfl⟩

theorem holds_optBytes (hS : S.ReadsBytes) : (optBytes S).Holds := ⟨_, _, _, hS.optBytes [], rfl, rfl⟩

theorem holds_bytesList (hS : S.ReadsBytes) : (bytesList S).Holds := ⟨_, _, _, hS.bytesList [], rfl, rfl⟩

theorem holds_optBytesList (hS : S.ReadsBytes) : (optBytesList S).Holds := ⟨_, _, _, hS.bytesOrNoneList [], rfl, rfl⟩

theorem holds_setOfBytes (hS : S.ReadsBytes) : (setOfBytes S).Holds := ⟨_, _, _, hS.bytesList [], rfl, rfl⟩

theorem holds_scoredMembers (hS : S.ReadsBytes) : (scoredMembers S).Holds := ⟨_, _, _, hS.scored [] 0, rfl, rfl⟩

theorem holds_value : (value S).Holds := ⟨.bulkString [], _, _, rfl, rfl, rfl⟩

theorem holds_hgetall (hS : S.ReadsBytes) : (fetches (hgetall S) bytesPairsPy .bytesPairs).Holds := by
  refine ⟨.map [(.bulkString [], .bulkString [])], [([], [])], _, ?_, rfl, rfl⟩
  show [(Value.bulkString [], Value.bulkString [])].mapM (fieldAndValue S) = _
  rw [List.mapM_cons, fieldAndValue, hS.bytes]
  rfl

theorem holds_listPop (hS : S.ReadsBytes) (count : Option ℕ) : (Lists.pop S count).Holds := by
  cases count with
  | none => exact ⟨_, _, _, hS.optBytes [], rfl, rfl⟩
  | some _ => exact ⟨_, _, _, hS.optBytesList [], rfl, rfl⟩

theorem holds_listMultiPop (hS : S.ReadsBytes) : (Lists.multiPop S).Holds := by
  have hread : lmpop S (.array [.simpleString "", .array [.bulkString []]]) = .ok (some ("", [[]])) := by
    rw [lmpop, hS.string, hS.bytesList]
    rfl
  exact ⟨.array [.simpleString "", .array [.bulkString []]], some ("", [[]]), _, hread, rfl, rfl⟩

theorem bpopInner_pair (hS : S.ReadsBytes) :
    bpopInner S (.array [.simpleString "", .bulkString []]) = .ok (some ("", [])) := by
  rw [bpopInner, hS.string, hS.bytes]
  rfl

theorem holds_listBlockingPop (hS : S.ReadsBytes) : (Lists.blockingPop S).Holds :=
  ⟨.array [.simpleString "", .bulkString []], some ("", []), _, bpopInner_pair hS, rfl, rfl⟩

theorem holds_hrandfield (count : Option Int) (withvalues : Bool) : (Hashes.hrandfield S count withvalues).Holds := by
  cases count with
  | none => exact ⟨.bulkString [], _, _, rfl, rfl, rfl⟩
  | some _ => cases withvalues <;> exact ⟨.array [.bulkString [], .bulkString []], _, _, rfl, rfl, rfl⟩

theorem holds_hscan (novalues : Bool) : (Hashes.hscan novalues).Holds := by
  cases novalues <;> exact ⟨.array [.int 0, .array [.bulkString [], .bulkString []]], _, _, rfl, rfl, rfl⟩

theorem holds_spop (hS : S.ReadsBytes) (count : Option Int) : (Sets.spop S count).Holds := by
  cases count with
  | none => exact holds_optBytes hS
  | some _ => exact holds_setOfBytes hS

theorem holds_srandmember (hS : S.ReadsBytes) (count : Option Int) : (Sets.srandmember S count).Holds := by
  cases count with
  | none => exact holds_optBytes hS
  | some n =>
    show (if n < 0 then bytesList S else setOfBytes S).Holds
    split
    · exact holds_bytesList hS
    · exact holds_setOfBytes hS

theorem holds_sscan : Sets.sscan.Holds := ⟨.array [.int 0, .array [.bulkString []]], _, _, rfl, rfl, rfl⟩

theorem holds_members (hS : S.ReadsBytes) (withscores : Bool) : (Zsets.members S withscores).Holds := by
  cases withscores with
  | false => exact holds_bytesList hS
  | true => exact holds_scoredMembers hS

theorem holds_zsetMultiPop : (Zsets.multiPop S).Holds :=
  ⟨.array [.simpleString "", .array [.array [.bulkString [], .double 0]]], _, _, rfl, rfl, rfl⟩

theorem holds_zsetBlockingPop (hS : S.ReadsBytes) : (Zsets.blockingPop S).Holds := ⟨_, _, _, hS.keyed [] [] 0, rfl, rfl⟩

theorem holds_zrandmember (count : Option Int) (withscores : Bool) : (Zsets.zrandmember S count withscores).Holds := by
  cases count with
  | none => exact ⟨.bulkString [], _, _, rfl, rfl, rfl⟩
  | some _ => cases withscores <;> exact ⟨.array [.bulkString [], .double 0], _, _, rfl, rfl, rfl⟩

theorem holds_zscan : (Zsets.zscan S).Holds :=
  ⟨.array [.int 0, .array [.bulkString [], .double 0]], _, _, rfl, rfl, rfl⟩

theorem free_zmscore (members : List Bytes) : (Zsets.zmscore S members).Free := by
  intro v o ho
  have hscores : Zsets.zmscorePy S v = .ok o := ho
  unfold Zsets.zmscorePy at hscores
  cases hread : S.fromRedisValue (.vec (.opt .f64)) v with
  | error e =>
    rw [hread] at hscores
    exact nomatch hscores
  | ok items =>
    rw [hread] at hscores
    cases hscores
    have hfree : ∀ score, bytesFree (optPy .float score) = true := bytesFree_optPy fun _ => rfl
    have hkeyed : ∀ score, WellKeyed (optPy .float score) := wellKeyed_optPy fun _ => trivial
    exact ⟨bytesFree_listPy hfree items, wellKeyed_map hkeyed items⟩

/-- one entry without fields -/
def oneEntry : Value := .array [.array [.bulkString [], .array []]]

theorem holds_entries : (renders S flattenXrangeReply .streamEntries).Holds := ⟨oneEntry, _, _, rfl, rfl, rfl⟩

theorem holds_xread (streams : List Arg) (block : Option Int) : (Streams.xread S streams block).Holds :=
  ⟨oneEntry, _, _, rfl, rfl, rfl⟩

theorem holds_xpending (min max : Option String) (count : Option Int) : (Streams.xpending S min max count).Holds := by
  unfold Streams.xpending
  dsimp only
  split
  · exact ⟨.array [.array [.bulkString [], .bulkString [], .int 0, .int 0]], _, _, rfl, rfl, rfl⟩
  · exact ⟨.array [.int 1, .bulkString [], .bulkString [], .nil], _, _, rfl, rfl, rfl⟩

theorem holds_xclaim (justid : Bool) : (Streams.xclaim S justid).Holds := by
  cases justid with
  | false => exact ⟨oneEntry, _, _, rfl, rfl, rfl⟩
  | true => exact ⟨.array [.bulkString []], _, _, rfl, rfl, rfl⟩

theorem holds_xautoclaim (justid : Bool) : (Streams.xautoclaim S justid).Holds := by
  cases justid <;> exact ⟨.array [.bulkString [], .nil], _, _, rfl, rfl, rfl⟩

/-- one field of XINFO -/
def oneField : Value := .map [(.bulkString [], .nil)]

theorem holds_xinfoStream : (renders S mapPairsFromValue .streamInfoStream).Holds := ⟨oneField, _, _, rfl, rfl, rfl⟩

theorem holds_status (hS : S.ReadsBytes) : (Admin.status S).Holds := ⟨_, _, _, hS.string "", rfl, rfl⟩

theorem holds_scan : Admin.scan.Holds := ⟨oneKey, _, _, rfl, rfl, rfl⟩

theorem holds_text : Admin.text.Holds := ⟨.nil, _, _, rfl, rfl, rfl⟩

end Shapes

/-! ## Commands that carry -/

/-- the replies of the command may hold bytes -/
def carries : Client → Command → Bool
  | _, .strings c => match c with
    | .get | .set _ | .ping (some _) | .getex _ | .getdel | .getrange | .mget _ | .dump => true
    | _ => false
  | _, .lists c => match c with
    | .lpop _ | .rpop _ | .lrange | .lmove | .lindex | .lmpop _ | .blpop | .brpop | .blmove | .blmpop _ => true
    | _ => false
  | _, .hashes c => match c with
    | .hget | .hgetall | .hmget _ | .hkeys | .hvals | .hrandfield .. | .hscan _ => true
    | _ => false
  | _, .sets c => match c with
    | .smembers | .spop _ | .srandmember _ | .sinter | .sunion | .sdiff | .sscan => true
    | _ => false
  -- the sync method reads the scores, the async one passes on what came
  | .redis, .zsets (.zmscore _) => false
  | .asyncRedis, .zsets (.zmscore _) => true
  | _, .zsets c => match c with
    | .zrange _ | .zrangebyscore .. | .zrevrangebyscore .. | .zrangebylex .. | .zrevrangebylex .. | .zpopmin | .zpopmax
    | .zmpop _ | .bzpopmin | .bzpopmax | .bzmpop _ | .zrandmember .. | .zscan | .zunion .. | .zinter .. | .zdiff .. => true
    | _ => false
  | _, .streams c => match c with
    | .xrange | .xrevrange | .xread .. | .xreadgroup .. | .xinfoStream | .xinfoGroups | .xinfoConsumers | .xpending ..
    | .xclaim _ | .xautoclaim _ => true
    | _ => false
  | _, .scripts c => match c with
    | .eval | .evalsha | .evalRo | .evalshaRo | .fcall | .fcallRo | .functionDump | .functionList | .functionStats => true
    | _ => false
  -- the sync methods give the status as bytes, the async ones drop it
  | .redis, .admin .bgsave | .redis, .admin .bgrewriteaof => true
  | _, .admin c => match c with
    | .scan | .keys | .randomkey | .info | .configGet | .clientGetname | .clientInfo | .clientList | .objectEncoding
    | .objectHelp | .echo _ | .waitaof => true
    | _ => false

/-- the command comes to ask the server: its arguments pass the checks, and no empty list of them is answered without it -/
def asks (c : Command) : Bool :=
  match checkedFirst .redis c with
  | .error _ => false
  | .ok _ => !(answersItself c || answersPastGuard c)

/-! ### What the replies come to -/

variable {S : Std}

theorem strings_holds_or_free (hS : S.ReadsBytes) (c : Strings.Cmd) :
    (Strings.row S c).HoldsOrFree (carries .redis (.strings c)) := by
  cases c with
  | get | getex _ | getdel | dump => exact holds_optBytes hS
  | set opts => exact ⟨.bulkString [], .bulkString [], _, rfl, rfl, rfl⟩
  | ping message =>
    cases message with
    | none => exact free_of_agrees (Strings.agrees (.ping none)) rfl
    | some _ => exact holds_bytes hS
  | getrange => exact holds_bytes hS
  | mget _ => exact holds_optBytesList hS
  | _ => exact free_of_agrees (Strings.agrees _) rfl

theorem lists_holds_or_free (hS : S.ReadsBytes) (c : Lists.Cmd) :
    (Lists.row S c).HoldsOrFree (carries .redis (.lists c)) := by
  cases c with
  | lpop count | rpop count => exact holds_listPop hS count
  | lrange => exact holds_bytesList hS
  | lmove | lindex | blmove => exact holds_optBytes hS
  | lmpop _ | blmpop _ => exact holds_listMultiPop hS
  | blpop | brpop => exact holds_listBlockingPop hS
  | lpos count => cases count <;> exact free_of_agrees (Lists.agrees nofun nofun) rfl
  | _ => exact free_of_agrees (Lists.agrees nofun nofun) rfl

theorem hashes_holds_or_free (hS : S.ReadsBytes) (c : Hashes.Cmd) :
    (Hashes.row S c).HoldsOrFree (carries .redis (.hashes c)) := by
  cases c with
  | hget => exact holds_optBytes hS
  | hgetall => exact holds_hgetall hS
  | hmget _ => exact holds_optBytesList hS
  | hkeys | hvals => exact holds_bytesList hS
  | hrandfield count withvalues => exact holds_hrandfield count withvalues
  | hscan novalues => exact holds_hscan novalues
  | _ => exact free_of_agrees (Hashes.agrees rfl) rfl

theorem sets_holds_or_free (hS : S.ReadsBytes) (c : Sets.Cmd) :
    (Sets.row S c).HoldsOrFree (carries .redis (.sets c)) := by
  cases c with
  | smembers | sinter | sunion | sdiff => exact holds_setOfBytes hS
  | spop count => exact holds_spop hS count
  | srandmember count => exact holds_srandmember hS count
  | sscan => exact holds_sscan
  | _ => exact free_of_agrees (Sets.agrees nofun) rfl

theorem zsets_holds_or_free (hS : S.ReadsBytes) (c : Zsets.Cmd) :
    (Zsets.row S c).HoldsOrFree (carries .redis (.zsets c)) := by
  cases c with
  | zrange opts => exact holds_members hS opts.withscores
  | zrangebyscore withscores _ _ | zrevrangebyscore withscores _ _ => exact holds_members hS withscores
  | zunion _ withscores | zinter _ withscores | zdiff _ withscores => exact holds_members hS withscores
  | zrangebylex _ _ | zrevrangebylex _ _ => exact holds_bytesList hS
  | zpopmin | zpopmax => exact holds_scoredMembers hS
  | zmpop _ | bzmpop _ => exact holds_zsetMultiPop
  | bzpopmin | bzpopmax => exact holds_zsetBlockingPop hS
  | zrandmember count withscores => exact holds_zrandmember count withscores
  | zscan => exact holds_zscan
  | zmscore members => exact free_zmscore members
  | zadd mapping flags =>
    refine free_of_agrees (Zsets.agrees_zadd mapping flags) ?_
    show (if flags.incr then undecoded (reads S (.opt .f64) (optPy .float) .optScore) else int S).decodes = false
    split <;> rfl
  | _ => exact free_of_agrees (Zsets.agrees rfl) rfl

theorem streams_holds_or_free (c : Streams.Cmd) : (Streams.row S c).HoldsOrFree (carries .redis (.streams c)) := by
  cases c with
  | xrange | xrevrange => exact holds_entries
  | xread streams block | xreadgroup streams block => exact holds_xread streams block
  | xinfoStream => exact holds_xinfoStream
  | xinfoGroups | xinfoConsumers => exact ⟨.array [oneField], _, _, rfl, rfl, rfl⟩
  | xpending min max count => exact holds_xpending min max count
  | xclaim justid => exact holds_xclaim justid
  | xautoclaim justid => exact holds_xautoclaim justid
  | _ => exact free_of_agrees (Streams.agrees _) rfl

theorem scripts_holds_or_free (hS : S.ReadsBytes) (c : Scripts.Cmd) :
    (Scripts.row S c).HoldsOrFree (carries .redis (.scripts c)) := by
  cases c with
  | eval | evalsha | evalRo | evalshaRo | fcall | fcallRo | functionList | functionStats => exact holds_value
  | functionDump => exact holds_bytes hS
  | _ => exact free_of_agrees (Scripts.agrees _) rfl

theorem admin_holds_or_free (hS : S.ReadsBytes) (c : Admin.Cmd) :
    (Admin.row S c).HoldsOrFree (carries .redis (.admin c)) := by
  cases c with
  | scan => exact holds_scan
  | keys => exact holds_bytesList hS
  | randomkey | clientGetname | objectEncoding => exact holds_optBytes hS
  | info | clientInfo => exact holds_text
  | configGet => exact ⟨.map [(.bulkString [], .bulkString [])], _, _, rfl, rfl, rfl⟩
  | clientList => exact ⟨.bulkString [97, 61], _, _, rfl, rfl, rfl⟩
  | objectHelp => exact ⟨.array [.bulkString []], _, _, rfl, rfl, rfl⟩
  | echo _ => exact holds_bytes hS
  | waitaof => exact ⟨.bulkString [], _, _, rfl, rfl, rfl⟩
  | bgsave | bgrewriteaof => exact holds_status hS
  | _ => exact free_of_agrees (Admin.agrees rfl) rfl

/-- **Which commands carry.** Some reply to a command that carries comes out of the sync method with bytes; no reply to
another command does. -/
theorem holds_or_free (hS : S.ReadsBytes) (c : Command) : (row S c).HoldsOrFree (carries .redis c) := by
  cases c with
  | strings c => exact strings_holds_or_free hS c
  | lists c => exact lists_holds_or_free hS c
  | hashes c => exact hashes_holds_or_free hS c
  | sets c => exact sets_holds_or_free hS c
  | zsets c => exact zsets_holds_or_free hS c
  | streams c => exact streams_holds_or_free c
  | scripts c => exact scripts_holds_or_free hS c
  | admin c => exact admin_holds_or_free hS c

/-! ### What comes before the server -/

/-- what a sync method gives before it asks the server, by the checks of its arguments and by whether it answers without
the server: there is nothing to decode in it -/
def Early (outcome : Arg) (self : Bool) (first : Option PyRes) : Prop :=
  match outcome, self with
  | .error e, _ => first = some (.error e)
  | .ok _, true => ∃ x, first = some (.ok x) ∧ bytesFree x = true ∧ WellKeyed x
  | .ok _, false => first = none

theorem early_check {outcome : Arg} {self : Bool} {rest : List Step} (h : Early (.ok ()) self (before false rest)) :
    Early outcome self (before false (.check outcome :: rest)) := by
  cases outcome with
  | error e => exact rfl
  | ok _ => exact h

theorem early_ret {self later : Bool} {x : PyObj} {rest : List Step} (hfree : bytesFree x = true) (hkeyed : WellKeyed x)
    (h : Early (.ok ()) later (before false rest)) : Early (.ok ()) (self || later) (before false (.ret self x :: rest)) := by
  cases self with
  | false => exact h
  | true => exact ⟨x, rfl, hfree, hkeyed⟩

theorem early_last {self : Bool} {x : PyObj} (hfree : bytesFree x = true) (hkeyed : WellKeyed x) :
    Early (.ok ()) (before false [.ret self x]).isSome (before false [.guard, .ret self x]) := by
  cases self with
  | false => exact rfl
  | true => exact ⟨x, rfl, hfree, hkeyed⟩

/-- the guard of an open client and what follows it -/
theorem early_guard (c : Command) :
    Early (.ok ()) (answersPastGuard c) (before false (if pastGuard .redis c then [] else .guard :: pastGuardSteps c)) := by
  have hpast : ∀ past : Bool, before false (if past then [] else [.guard]) = none := fun past => by cases past <;> rfl
  cases c with
  | strings c =>
    cases c with
    | mget _ | mset _ | msetnx _ => exact early_last rfl trivial
    | _ => exact rfl
  | _ => exact hpast _

theorem bytesFree_ownAnswer (c : Command) : bytesFree (ownAnswer c) = true := by
  unfold ownAnswer
  split <;> rfl

theorem wellKeyed_ownAnswer (c : Command) : WellKeyed (ownAnswer c) := by
  unfold ownAnswer
  split <;> trivial

theorem early (c : Command) :
    Early (checkedFirst .redis c) (answersItself c || answersPastGuard c) (before false (row S c).syncSteps) := by
  have hopens : before false (row S c).syncSteps = before false (opening .redis c) := opens .redis c false (.inl rfl)
  rw [hopens]
  exact early_check (early_ret (bytesFree_ownAnswer c) (wellKeyed_ownAnswer c) (early_guard c))

/-- a command asks where nothing comes before the server -/
theorem asks_iff {c : Command} : asks c = true ↔ before false (row S c).syncSteps = none := by
  have hearly := early (S := S) c
  unfold asks
  cases hcheck : checkedFirst .redis c with
  | error e =>
    rw [hcheck] at hearly
    have hfirst : before false (row S c).syncSteps = some (.error e) := hearly
    rw [hfirst]
    exact iff_of_false (fun h => nomatch h) fun h => (nomatch h)
  | ok _ =>
    cases hself : answersItself c || answersPastGuard c with
    | false =>
      rw [hcheck, hself] at hearly
      exact iff_of_true rfl hearly
    | true =>
      rw [hcheck, hself] at hearly
      obtain ⟨x, hx, -⟩ := hearly
      rw [hx]
      exact iff_of_false (fun h => nomatch h) fun h => (nomatch h)

/-- what comes before the server has nothing to decode -/
theorem settled_before {c : Command} {res : PyRes} (h : before false (row S c).syncSteps = some res) : Settled res := by
  have hearly := early (S := S) c
  rw [h] at hearly
  cases hcheck : checkedFirst .redis c with
  | error e =>
    rw [hcheck] at hearly
    cases hearly
    exact settled_error e
  | ok _ =>
    cases hself : answersItself c || answersPastGuard c with
    | false =>
      rw [hcheck, hself] at hearly
      exact nomatch hearly
    | true =>
      rw [hcheck, hself] at hearly
      obtain ⟨x, hx, hfree, hkeyed⟩ := hearly
      cases hx
      exact settled_ok hfree hkeyed

end RedisRsPy.Commands
