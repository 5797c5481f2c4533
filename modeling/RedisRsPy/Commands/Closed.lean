/-
Closed clients: what a command method does once `close()` or `aclose()` has returned.

The guard that refuses a closed client stands in `sync_op!` and `async_op!`, and in `AsyncRedis::blmpop`. A method refuses
where it comes to its guard: not where it goes to the server past the macros (`pastGuard`), not where a check of the
arguments raises first (`checkedFirst`), and not where the sync method answers an empty list by itself (`answersItself`).
MGET, MSET and MSETNX answer an empty list past it (`pastGuardSteps`), so that they refuse first.

Results:
- `closed_iff`: a client is closed after a run exactly where the run closed it;
- `opens`: what every method does before the server, in one order of steps;
- `refuses_iff`: a call on a closed client is refused exactly where the method is `Guarded`;
- `refused_after_close_iff`: so in every run, for all calls after a close. `blpop_after_close` is a call that is not.
-/
import RedisRsPy.Commands.All
import RedisRsPy.Lib.Runs

namespace RedisRsPy.Commands

/-! ## Runs of a client -/

inductive Client where
  | redis
  | asyncRedis

/-- the command methods of a client -/
inductive Method : Client → Type where
  | command {k : Client} (c : Command) : Method k
  | select (dbIndex connected : ℕ) : Method .redis
  | awaitAlias : Method .asyncRedis

def Method.row (S : Std) {k : Client} : Method k → Row
  | .command c => Commands.row S c
  | .select dbIndex connected => Admin.select S dbIndex connected
  | .awaitAlias => Admin.awaitAlias S

def answer (S : Std) (decode : Option Codec) (server : Server) (closed : Bool) : {k : Client} → Method k → Answer
  | .redis, m => (m.row S).syncCall closed decode server
  | .asyncRedis, m => (m.row S).asyncCall S closed decode server

inductive Event (k : Client) where
  /-- `close()` or `aclose()` returns -/
  | close
  | call (m : Method k) (server : Server)

/-- whether the client is closed -/
def step {k : Client} (closed : Bool) : Event k → Bool
  | .close => true
  | .call _ _ => closed

/-- `ValueError("closed")` at once, and nothing sent -/
def refused : Answer := ⟨true, .error closedError, false⟩

theorem step_eq_true_iff {k : Client} {closed : Bool} {e : Event k} :
    step closed e = true ↔ closed = true ∨ e = .close := by
  cases e with
  | close => exact iff_of_true rfl (.inr rfl)
  | call m server => exact ⟨.inl, fun h => h.resolve_right fun he => (nomatch he)⟩

/-- a client stays closed -/
theorem closed_iff {k : Client} {closed : Bool} {events : List (Event k)} :
    Lib.run step closed events = true ↔ closed = true ∨ .close ∈ events := by
  induction events generalizing closed with
  | nil => simp
  | cons e events ih => rw [Lib.run_cons, ih, step_eq_true_iff, List.mem_cons, or_assoc, eq_comm (a := e)]

/-! ## Methods that refuse -/

/-- methods that reach the server past the guard -/
def pastGuard : Client → Command → Bool
  | .redis, .lists .blpop | .redis, .lists .brpop | .redis, .lists .blmove | .redis, .lists (.blmpop _) => true
  | .redis, .streams (.xread ..) | .redis, .streams (.xreadgroup ..) => true
  | .redis, .zsets .bzpopmin | .redis, .zsets .bzpopmax | .redis, .zsets (.bzmpop _) => true
  | .asyncRedis, .lists .blpop | .asyncRedis, .lists .brpop | .asyncRedis, .lists .blmove => true
  | .asyncRedis, .hashes (.hrandfield ..) | .asyncRedis, .hashes (.hscan _) => true
  | .asyncRedis, .zsets .bzpopmin | .asyncRedis, .zsets .bzpopmax | .asyncRedis, .zsets (.bzmpop _) => true
  | .asyncRedis, .zsets (.zrandmember ..) => true
  | _, _ => false

/-- a sync method has an empty list of arguments, and answers it before its guard -/
def answersItself : Command → Bool
  | .strings (.delete l) | .strings (.exists l) | .strings (.unlink l) => l.isEmpty
  | .hashes (.hdel l) => l.isEmpty
  | .hashes (.hmget fields) => noKeys fields
  | .sets (.sadd l) | .sets (.srem l) | .sets (.smismember l) => l.isEmpty
  | .zsets (.zrem l) | .zsets (.zmscore l) => l.isEmpty
  | .streams (.xdel l) | .streams (.xack l) => l.isEmpty
  | _ => false

/-- past the guard, the method of the connection answers an empty list without the server -/
def pastGuardSteps : Command → List Step
  | .strings (.mget keys) => [.ret (noKeys keys) (.list [])]
  | .strings (.mset mapping) => [.ret mapping.isEmpty .none]
  | .strings (.msetnx mapping) => [.ret mapping.isEmpty (.bool true)]
  | _ => []

def answersPastGuard (c : Command) : Bool := (before false (pastGuardSteps c)).isSome

/-- what the checks of the arguments before the guard come to -/
def checkedFirst : Client → Command → Arg
  | _, .strings (.set opts) => Strings.validateSetKwargs opts
  | _, .strings (.getex opts) => Strings.validateGetex opts
  | _, .strings (.mget keys) => do let _ ← flattenKeys keys
  | _, .strings (.expire flags) | _, .strings (.pexpire flags) => Strings.validateExpireFlags flags
  | _, .strings (.expireat flags) | _, .strings (.pexpireat flags) => Strings.validateExpireFlags flags
  | _, .lists (.linsert where_) => Lists.validateWhere where_
  | _, .lists (.lmpop direction) => Lists.validatePopDirection direction
  | .redis, .lists (.blmpop direction) => Lists.validatePopDirection direction
  | _, .hashes (.hset items mapping) => Hashes.collectFieldValuePairs items mapping
  | _, .hashes (.hmget fields) => do let _ ← flattenKeys fields
  | _, .hashes (.hmset warned mapping) => do warned; Hashes.mappingToPairs mapping
  | _, .hashes (.hexpire flags) | _, .hashes (.hpexpire flags) => Hashes.validateTtlModifiers flags
  | _, .hashes (.hexpireat flags) | _, .hashes (.hpexpireat flags) => Hashes.validateTtlModifiers flags
  | _, .zsets (.zadd mapping flags) => do
    Zsets.collectZaddPairs mapping
    Zsets.validateZaddFlags flags mapping.length
  | _, .zsets (.zrange opts) => Zsets.validateZrange opts
  | _, .zsets (.zrangestore opts) => Zsets.validateZrange { opts with withscores := false }
  | _, .zsets (.zrangebyscore _ offset num) | _, .zsets (.zrevrangebyscore _ offset num) => Zsets.validateLimit offset num
  | _, .zsets (.zrangebylex offset num) | _, .zsets (.zrevrangebylex offset num) => Zsets.validateLimit offset num
  | _, .zsets (.zmpop direction) | _, .zsets (.bzmpop direction) => Zsets.validateZmpopDirection direction
  | _, .zsets (.zunion args _) | _, .zsets (.zinter args _) => Zsets.validateZsetOpArgs args
  | _, .zsets (.zunionstore args) | _, .zsets (.zinterstore args) => Zsets.validateZsetOpArgs args
  | _, .zsets (.zdiff keys _) => Zsets.validateKeys keys
  | .redis, .zsets (.zdiffstore keys) | .redis, .zsets (.zintercard keys) => Zsets.validateKeys keys
  | _, .streams (.xadd args) => Streams.validateXadd args
  | _, .streams (.xread streams _) | _, .streams (.xreadgroup streams _) => extractAll streams
  | _, .streams (.xtrim maxlen minid) => Streams.validateXtrim maxlen minid
  | _, .scripts (.scriptFlush mode) | _, .scripts (.functionFlush mode) => Scripts.validateFlushMode mode
  | _, .scripts (.functionRestore policy) => Scripts.validateRestorePolicy policy
  | _, .admin (.configSet nameOrMapping val) => Admin.configSetExtractPairs nameOrMapping val
  | _, .admin (.clientNoEvict mode) | _, .admin (.clientNoTouch mode) => Admin.validateOnOffMode mode
  | _, .admin (.echo message) => message
  | _, _ => .ok ()

/-- a check lets the call come to what follows, or raises the very error of the guard -/
def Past (outcome : Arg) (rest : Prop) : Prop :=
  match outcome with
  | .error e => e = closedError
  | .ok _ => rest

/-- when a method refuses a closed client -/
def Guarded {k : Client} : Method k → Prop
  | .command c => Past (checkedFirst k c) (pastGuard k c = false ∧ ∀ _ : k = .redis, answersItself c = false)
  | .select _ _ => False
  | .awaitAlias => True

/-! ## The steps before the server -/

/-- the steps of the method of a client -/
def stepsOf : Client → Row → List Step
  | .redis, r => r.syncSteps
  | .asyncRedis, r => r.asyncSteps

/-- what a method gives where it answers by itself -/
def ownAnswer : Command → PyObj
  | .hashes (.hmget _) | .sets (.smismember _) | .zsets (.zmscore _) => .list []
  | _ => .int 0

/-- the async method leaves its own answer to its task, past the guard -/
def answersFirst : Client → Command → Bool
  | .redis, c => answersItself c
  | .asyncRedis, _ => false

/-- the checks, the answer of the method itself, the guard and what follows it -/
def opening (k : Client) (c : Command) : List Step :=
  .check (checkedFirst k c) :: .ret (answersFirst k c) (ownAnswer c) ::
    if pastGuard k c then [] else .guard :: pastGuardSteps c

/-- the steps come to what the opening comes to. An open async client is left out: the async BLMPOP alone has its guard in
front of a check -/
def Opens (k : Client) (c : Command) (steps : List Step) : Prop :=
  ∀ closed, k = .redis ∨ closed = true → before closed steps = before closed (opening k c)

theorem before_check {closed : Bool} {outcome : Arg} {rest rest' : List Step}
    (h : before closed rest = before closed rest') :
    before closed (.check outcome :: rest) = before closed (.check outcome :: rest') := by
  cases outcome with
  | error e => rfl
  | ok _ => exact h

/-! ### Family by family -/

variable {S : Std}

theorem strings_opens (k : Client) (c : Strings.Cmd) : Opens k (.strings c) (stepsOf k (Strings.row S c)) := by
  intro closed hclosed
  cases c with
  | set _ | getex _ | expire _ | pexpire _ | expireat _ | pexpireat _ => cases k <;> exact before_check rfl
  | mget _ =>
    cases k with
    | redis => exact before_check rfl
    | asyncRedis =>
      have hclosed : closed = true := hclosed.resolve_left nofun
      rw [hclosed]
      exact before_check rfl
  | mset _ | msetnx _ =>
    cases k with
    | redis => rfl
    | asyncRedis =>
      have hclosed : closed = true := hclosed.resolve_left nofun
      rw [hclosed]
      rfl
  | ping message => cases message <;> cases k <;> rfl
  | _ => cases k <;> rfl

theorem lists_opens (k : Client) (c : Lists.Cmd) : Opens k (.lists c) (stepsOf k (Lists.row S c)) := by
  intro closed hclosed
  cases c with
  | linsert _ | lmpop _ => cases k <;> exact before_check rfl
  | blmpop direction =>
    cases k with
    | redis => exact before_check rfl
    | asyncRedis =>
      have hclosed : closed = true := hclosed.resolve_left nofun
      rw [hclosed]
      rfl
  | lpop count | rpop count | lpos count => cases count <;> cases k <;> rfl
  | _ => cases k <;> rfl

theorem hashes_opens (k : Client) (c : Hashes.Cmd) : Opens k (.hashes c) (stepsOf k (Hashes.row S c)) := by
  intro closed _
  cases c with
  | hset _ _ | hmget _ | hmset _ _ | hexpire _ | hpexpire _ | hexpireat _ | hpexpireat _ =>
    cases k <;> exact before_check rfl
  | _ => cases k <;> rfl

theorem srandmember_steps (k : Client) (count : Option Int) : stepsOf k (Sets.srandmember S count) = [.guard] := by
  cases count with
  | none => cases k <;> rfl
  | some n =>
    show stepsOf k (if n < 0 then bytesList S else setOfBytes S) = _
    split <;> cases k <;> rfl

theorem sets_opens (k : Client) (c : Sets.Cmd) : Opens k (.sets c) (stepsOf k (Sets.row S c)) := by
  intro closed _
  cases c with
  | spop count => cases count <;> cases k <;> rfl
  | srandmember count =>
    have hsteps : stepsOf k (Sets.row S (.srandmember count)) = [.guard] := srandmember_steps k count
    rw [hsteps]
    cases k <;> rfl
  | _ => cases k <;> rfl

theorem members_checked {closed : Bool} (k : Client) (outcome : Arg) (withscores : Bool) (x : PyObj) :
    before closed (stepsOf k ((Zsets.members S withscores).checked outcome)) =
      before closed [.check outcome, .ret false x, .guard] := by
  cases withscores <;> cases k <;> exact before_check rfl

theorem zsets_opens (k : Client) (c : Zsets.Cmd) : Opens k (.zsets c) (stepsOf k (Zsets.row S c)) := by
  intro closed _
  cases c with
  | zadd mapping flags => cases k <;> refine before_check ?_ <;> split <;> rfl
  | zrange opts => cases k <;> exact members_checked _ _ _ _
  | zrangebyscore withscores _ _ | zrevrangebyscore withscores _ _ => cases k <;> exact members_checked _ _ _ _
  | zunion _ withscores | zinter _ withscores | zdiff _ withscores => cases k <;> exact members_checked _ _ _ _
  | zrangestore _ | zrangebylex _ _ | zrevrangebylex _ _ | zmpop _ | bzmpop _ | zunionstore _ | zinterstore _ =>
    cases k <;> exact before_check rfl
  | zdiffstore _ | zintercard _ =>
    cases k with
    | redis => exact before_check rfl
    | asyncRedis => rfl
  | _ => cases k <;> rfl

theorem xpending_steps (k : Client) (min max : Option String) (count : Option Int) :
    stepsOf k (Streams.xpending S min max count) = [.guard] := by
  unfold Streams.xpending
  dsimp only
  split <;> cases k <;> rfl

theorem streams_opens (k : Client) (c : Streams.Cmd) : Opens k (.streams c) (stepsOf k (Streams.row S c)) := by
  intro closed _
  cases c with
  | xadd _ | xtrim _ _ | xread _ _ | xreadgroup _ _ => cases k <;> exact before_check rfl
  | xpending min max count =>
    have hsteps : stepsOf k (Streams.row S (.xpending min max count)) = [.guard] := xpending_steps k min max count
    rw [hsteps]
    cases k <;> rfl
  | xclaim justid => cases justid <;> cases k <;> rfl
  | _ => cases k <;> rfl

theorem scripts_opens (k : Client) (c : Scripts.Cmd) : Opens k (.scripts c) (stepsOf k (Scripts.row S c)) := by
  intro closed _
  cases c with
  | scriptFlush _ | functionFlush _ | functionRestore _ => cases k <;> exact before_check rfl
  | _ => cases k <;> rfl

theorem admin_opens (k : Client) (c : Admin.Cmd) : Opens k (.admin c) (stepsOf k (Admin.row S c)) := by
  intro closed _
  cases c with
  | configSet _ _ | clientNoEvict _ | clientNoTouch _ | echo _ => cases k <;> exact before_check rfl
  | _ => cases k <;> rfl

/-- **One order of steps.** A method checks, then answers by itself, then comes to its guard. -/
theorem opens (k : Client) (c : Command) : Opens k c (stepsOf k (row S c)) := by
  cases c with
  | strings c => exact strings_opens k c
  | lists c => exact lists_opens k c
  | hashes c => exact hashes_opens k c
  | sets c => exact sets_opens k c
  | zsets c => exact zsets_opens k c
  | streams c => exact streams_opens k c
  | scripts c => exact scripts_opens k c
  | admin c => exact admin_opens k c

/-! ### Steps that refuse -/

/-- the steps of a method come to its guard -/
def Refuses (steps : List Step) : Prop := before true steps = some (.error closedError)

/-- an opening refuses past its checks where it keeps its guard and does not answer by itself -/
theorem refuses_ret_iff (here past : Bool) (x : PyObj) (rest : List Step) :
    Refuses (.ret here x :: if past then [] else .guard :: rest) ↔ past = false ∧ here = false := by
  cases here with
  | false =>
    cases past with
    | false => exact iff_of_true rfl ⟨rfl, rfl⟩
    | true => exact iff_of_false (fun h => nomatch h) fun h => (nomatch h.1)
  | true => exact iff_of_false (fun h => nomatch h) fun h => (nomatch h.2)

theorem refuses_check_iff {outcome : Arg} {rest : List Step} {P : Prop} (h : Refuses rest ↔ P) :
    Refuses (.check outcome :: rest) ↔ Past outcome P := by
  cases outcome with
  | error e =>
    show some (Except.error e) = some (.error closedError) ↔ e = closedError
    rw [Option.some.injEq, Except.error.injEq]
  | ok _ => exact h

theorem answersFirst_eq_false_iff {k : Client} {c : Command} :
    answersFirst k c = false ↔ ∀ _ : k = .redis, answersItself c = false := by
  cases k with
  | redis => exact ⟨fun h _ => h, fun h => h rfl⟩
  | asyncRedis => exact iff_of_true rfl nofun

theorem opening_refuses_iff {k : Client} {c : Command} : Refuses (opening k c) ↔ Guarded (k := k) (.command c) := by
  refine refuses_check_iff ((refuses_ret_iff _ _ _ _).trans ?_)
  rw [answersFirst_eq_false_iff]

theorem steps_refuse_iff {k : Client} (m : Method k) : Refuses (stepsOf k (m.row S)) ↔ Guarded m := by
  cases m with
  | command c =>
    show before true (stepsOf k (row S c)) = some (.error closedError) ↔ _
    rw [opens k c true (.inr rfl)]
    exact opening_refuses_iff
  | select dbIndex connected =>
    refine iff_of_false (fun h => ?_) id
    by_cases hdb : dbIndex = connected <;> simp [Refuses, stepsOf, Method.row, Admin.select, before, hdb, closedError] at h
  | awaitAlias => exact iff_of_true rfl trivial

/-! ## Calls after a close -/

theorem toPyErr_ne_closed (e : RedisError) : toPyErr e ≠ closedError := fun h => nomatch h

/-- no failure to connect looks like the error of the guard -/
theorem connectErr_ne (c : Command) (e : RedisError) : (row S c).connectErr e ≠ closedError := by
  rcases agrees_or_differs (S := S) c with h | h
  · rw [h.connectErr]
    exact toPyErr_ne_closed e
  · cases h with
    | bzpopmin | bzpopmax | bzmpop _ =>
      -- a `ConnectionError` of Python, where the guard raises a `ValueError`
      exact fun h => nomatch (Exn.builtin.inj h).1
    | _ => exact toPyErr_ne_closed e

theorem Method.connectErr_ne {k : Client} (m : Method k) (e : RedisError) : (m.row S).connectErr e ≠ closedError := by
  cases m with
  | command c => exact RedisRsPy.Commands.connectErr_ne c e
  | select _ _ | awaitAlias => exact toPyErr_ne_closed e

/-- a sync method refuses in its steps or not at all: past them it sends, or fails to connect -/
theorem syncCall_eq_refused_iff {r : Row} (hne : ∀ e, r.connectErr e ≠ closedError) (decode : Option Codec)
    (server : Server) : r.syncCall true decode server = refused ↔ Refuses r.syncSteps := by
  unfold Row.syncCall Refuses
  cases before true r.syncSteps with
  | some res => simp [refused]
  | none =>
    refine iff_of_false (fun h => ?_) fun h => (nomatch h)
    obtain ⟨-, hresult, hsent⟩ := Answer.mk.inj h
    cases hconnected : r.connected server with
    | error e =>
      have herr : r.syncReply decode server = .error (r.connectErr e) := by
        unfold Row.syncReply
        rw [hconnected]
        rfl
      exact hne e (Except.error.inj (herr.symm.trans hresult))
    | ok u =>
      rw [hconnected] at hsent
      exact nomatch hsent

theorem asyncCall_eq_refused_iff {r : Row} (decode : Option Codec) (server : Server) :
    r.asyncCall S true decode server = refused ↔ Refuses r.asyncSteps := by
  unfold Row.asyncCall Refuses
  cases before true r.asyncSteps with
  | some res => simp [refused]
  | none => exact iff_of_false (fun h => nomatch (Answer.mk.inj h).1) fun h => (nomatch h)

/-- **The guard decides.** A call on a closed client is refused exactly where its method comes to its guard. -/
theorem refuses_iff {k : Client} (decode : Option Codec) (server : Server) (m : Method k) :
    answer S decode server true m = refused ↔ Guarded m := by
  rw [← steps_refuse_iff (S := S)]
  cases k with
  | redis => exact syncCall_eq_refused_iff m.connectErr_ne decode server
  | asyncRedis => exact asyncCall_eq_refused_iff decode server

/-- **Closed means closed, for guarded methods.** In every run of a client, each call after a close raises
`ValueError("closed")` and sends nothing exactly where each such call is of a guarded method. -/
theorem refused_after_close_iff (k : Client) (decode : Option Codec) (events : List (Event k)) :
    (∀ earlier m server later, events = earlier ++ .call m server :: later → .close ∈ earlier →
        answer S decode server (Lib.run step false earlier) m = refused) ↔
      ∀ earlier m server later, events = earlier ++ .call m server :: later → .close ∈ earlier → Guarded m := by
  refine forall_congr' fun earlier => forall_congr' fun m => forall_congr' fun server => forall_congr' fun later =>
    forall_congr' fun hevents => forall_congr' fun hclose => ?_
  rw [closed_iff.2 (.inr hclose)]
  exact refuses_iff decode server m

/-- BLPOP on a closed client goes out and waits -/
theorem blpop_after_close :
    answer bareStd none ⟨.ok (), .ok .nil⟩ (Lib.run step false [Event.close (k := .redis)])
        (.command (.lists .blpop) : Method .redis) = ⟨true, .ok .none, true⟩ ∧
      (⟨true, .ok .none, true⟩ : Answer) ≠ refused := by
  refine ⟨rfl, fun h => ?_⟩
  exact nomatch (Answer.mk.inj h).2.2

end RedisRsPy.Commands
