/-
`decode_responses` on every client: `Redis`, `AsyncRedis`, the clients of `Sentinel.master_for` and `slave_for` and their
async siblings, `RedisCluster` and `AsyncRedisCluster`.

A client holds the setting in its field `decode`, and each method is to honour it. `build_redis_conn` and
`build_async_redis` leave the field empty. On the other clients the methods that do not decode are WAITAOF of `Redis`,
HRANDFIELD and HSCAN of `AsyncRedis`, and many of `RedisCluster`.

Results:
- `decode_uniform_iff`: whatever the server replies, a method of a client that is to decode gives what a client without
  the setting gives, decoded, exactly where the method `Keeps` the setting;
- `hrandfield_undecoded`: bytes from a client that is to decode.

Premise: `ReadsBytes`, what the crate makes of bulk strings.
-/
import RedisRsPy.Commands.Cluster

namespace RedisRsPy.Commands

/-! ## Clients -/

inductive Facade where
  | client (k : Client)
  /-- what `master_for` and `slave_for` return -/
  | sentinel (k : Client)
  | cluster (k : Client)

structure Keywords where
  decodeResponses : Bool
  /-- `encoding` and `encoding_errors` -/
  codec : Codec

namespace Facade

/-- the field `decode` of a new client -/
def decode : Facade → Keywords → Option Codec
  | .sentinel _, _ => none
  | _, kw => if kw.decodeResponses then some kw.codec else none

def Method : Facade → Type
  | .client k => Commands.Method k
  | .sentinel k => Commands.Method k
  | .cluster .redis => Cluster.Cmd
  | .cluster .asyncRedis => Cluster.AsyncCmd

/-- what a client talks to -/
def Backend : Facade → Type
  | .client _ => Server
  | .sentinel _ => Server
  | .cluster _ => Cluster.Nodes

/-- what a method gives, or what awaiting it gives -/
def result (S : Std) (kw : Keywords) (closed : Bool) : (f : Facade) → f.Backend → f.Method → PyRes
  | .client k, server, m => (answer S (decode (.client k) kw) server closed m).result
  | .sentinel k, server, m => (answer S (decode (.sentinel k) kw) server closed m).result
  | .cluster .redis, nodes, c => (Cluster.Cmd.call S c).result closed (decode (.cluster .redis) kw) nodes
  | .cluster .asyncRedis, nodes, c => (Cluster.AsyncCmd.call S c).result closed (decode (.cluster .asyncRedis) kw) nodes

end Facade

/-! ## Methods that keep the setting -/

def keeps : Client → Command → Bool
  | .redis, .admin .waitaof => false
  | .asyncRedis, .hashes (.hrandfield ..) => false
  | .asyncRedis, .hashes (.hscan _) => false
  | _, _ => true

/-- the method honours the setting of its client, or nothing it gives has bytes -/
def Facade.Keeps : (f : Facade) → f.Method → Prop
  | .client k, m => match (m : Commands.Method k) with
    | .command c => keeps k c = true
    | _ => True
  | .sentinel k, m => match (m : Commands.Method k) with
    | .command c => carries k c = false ∨ asks c = false
    | _ => True
  | .cluster .redis, c => Cluster.Cmd.keeps c = true
  | .cluster .asyncRedis, _ => True

/-! ## Calls -/

variable {S : Std} {codec : Codec}

/-- a closed client gives what an open one gives, or the error of the guard -/
theorem before_true (steps : List Step) :
    before true steps = before false steps ∨ before true steps = some (.error closedError) := by
  induction steps with
  | nil => exact .inl rfl
  | cons s rest ih =>
    cases s with
    | check outcome =>
      cases outcome with
      | error e => exact .inl rfl
      | ok _ => exact ih
    | ret here x =>
      cases here with
      | true => exact .inl rfl
      | false => exact ih
    | guard => exact .inr rfl

theorem answer_congr {k : Client} {m : Method k} {closed closed' : Bool}
    (h : before closed (stepsOf k (m.row S)) = before closed' (stepsOf k (m.row S))) (decode : Option Codec)
    (server : Server) : answer S decode server closed m = answer S decode server closed' m := by
  cases k with
  | redis =>
    have hsteps : before closed (m.row S).syncSteps = before closed' (m.row S).syncSteps := h
    show (m.row S).syncCall closed decode server = (m.row S).syncCall closed' decode server
    unfold Row.syncCall
    rw [hsteps]
  | asyncRedis =>
    have hsteps : before closed (m.row S).asyncSteps = before closed' (m.row S).asyncSteps := h
    show (m.row S).asyncCall S closed decode server = (m.row S).asyncCall S closed' decode server
    unfold Row.asyncCall
    rw [hsteps]

theorem result_of_before {k : Client} {m : Method k} {closed : Bool} {res : PyRes}
    (h : before closed (stepsOf k (m.row S)) = some res) (decode : Option Codec) (server : Server) :
    (answer S decode server closed m).result = res := by
  cases k with
  | redis =>
    have hsteps : before closed (m.row S).syncSteps = some res := h
    show ((m.row S).syncCall closed decode server).result = res
    unfold Row.syncCall
    rw [hsteps]
  | asyncRedis =>
    have hsteps : before closed (m.row S).asyncSteps = some res := h
    show ((m.row S).asyncCall S closed decode server).result = res
    unfold Row.asyncCall
    rw [hsteps]

theorem uniform_closed {k : Client} {m : Method k} {d d' : Option Codec}
    (h : ∀ server, Uniform codec (answer S d server false m).result (answer S d' server false m).result) (closed : Bool)
    (server : Server) : Uniform codec (answer S d server closed m).result (answer S d' server closed m).result := by
  cases closed with
  | false => exact h server
  | true =>
    rcases before_true (stepsOf k (m.row S)) with hopen | hrefused
    · rw [answer_congr hopen, answer_congr hopen]
      exact h server
    · rw [result_of_before hrefused, result_of_before hrefused]
      exact uniform_of_eq rfl

namespace Row

variable {r : Row}

theorem sync_uniform (hbefore : ∀ res, before false r.syncSteps = some res → Settled res) (h : r.decodes = true ∨ r.Free)
    (server : Server) :
    Uniform codec (r.syncCall false (some codec) server).result (r.syncCall false none server).result := by
  unfold syncCall
  cases hfirst : before false r.syncSteps with
  | some res => exact (hbefore res hfirst).uniform codec
  | none =>
    refine uniform_of_eq ?_
    show r.syncReply (some codec) server = r.syncReply none server >>= decodeWalk codec
    unfold syncReply
    cases r.connected server with
    | error e => rfl
    | ok _ =>
      cases server.reply >>= r.fetch with
      | error e => rfl
      | ok x =>
        show r.syncObject (some codec) x = r.syncObject none x >>= decodeWalk codec
        unfold syncObject
        cases hx : r.sync x with
        | error e => rfl
        | ok o =>
          show (if r.decodes then decodeWalk codec o else .ok o) =
            (if r.decodes then Except.ok o else .ok o) >>= decodeWalk codec
          rw [ite_self]
          show _ = decodeWalk codec o
          rcases h with hd | hfree
          · rw [hd]
            rfl
          · have hsettled := hfree x
            rw [hx] at hsettled
            have hwalk : decodeWalk codec o = .ok o := hsettled.decode codec
            rw [hwalk, ite_self]

theorem async_uniform (hbefore : ∀ res, before false r.asyncSteps = some res → Settled res) (h : r.wraps = true)
    (server : Server) :
    Uniform codec (r.asyncCall S false (some codec) server).result (r.asyncCall S false none server).result := by
  unfold asyncCall
  cases hfirst : before false r.asyncSteps with
  | some res => exact (hbefore res hfirst).uniform codec
  | none =>
    refine uniform_of_eq ?_
    show r.awaited S (some codec) (r.asyncRaw server) = r.awaited S none (r.asyncRaw server) >>= decodeWalk codec
    unfold awaited
    rw [h]
    cases (r.asyncRaw server).intoPy S <;> rfl

theorem sync_settled (hbefore : ∀ res, before false r.syncSteps = some res → Settled res)
    (h : before false r.syncSteps = none → r.Free) (server : Server) : Settled (r.syncCall false none server).result := by
  unfold syncCall
  cases hfirst : before false r.syncSteps with
  | some res => exact hbefore res hfirst
  | none =>
    show Settled (r.syncReply none server)
    unfold syncReply
    cases r.connected server with
    | error e => exact settled_error _
    | ok _ =>
      cases server.reply >>= r.fetch with
      | error e => exact settled_error _
      | ok x =>
        have hplain : r.syncObject none x = r.sync x := by
          unfold syncObject
          cases r.sync x with
          | error e => rfl
          | ok o => exact ite_self _
        show Settled (r.syncObject none x)
        rw [hplain]
        exact h hfirst x

theorem async_settled (hbefore : ∀ res, before false r.asyncSteps = some res → Settled res) {server : Server}
    (h : before false r.asyncSteps = none → Settled ((r.asyncRaw server).intoPy S)) :
    Settled (r.asyncCall S false none server).result := by
  unfold asyncCall
  cases hfirst : before false r.asyncSteps with
  | some res => exact hbefore res hfirst
  | none =>
    have hplain : r.awaited S none (r.asyncRaw server) = (r.asyncRaw server).intoPy S := by
      unfold awaited
      cases (r.asyncRaw server).intoPy S with
      | error e => rfl
      | ok o => exact ite_self _
    show Settled (r.awaited S none (r.asyncRaw server))
    rw [hplain]
    exact h hfirst

/-- bytes of a reply reach the caller of a sync method that does not decode -/
theorem sync_shows (hbefore : before false r.syncSteps = none) {decode : Option Codec}
    (h : r.decodes = false ∨ decode = none) (hholds : r.Holds) :
    ∃ server o, bytesFree o = false ∧ (r.syncCall false decode server).result = .ok o := by
  obtain ⟨reply, x, o, hfetch, hsync, hbytes⟩ := hholds
  refine ⟨⟨.ok (), .ok reply⟩, o, hbytes, ?_⟩
  have hconnected : r.connected ⟨.ok (), .ok reply⟩ = .ok () := ite_self _
  unfold syncCall
  rw [hbefore]
  show r.syncReply decode ⟨.ok (), .ok reply⟩ = .ok o
  unfold syncReply
  rw [hconnected]
  show handle (r.fetch reply) _ (r.syncObject decode) = .ok o
  rw [hfetch]
  show r.syncObject decode x = .ok o
  unfold syncObject
  rw [hsync]
  show (if r.decodes then maybeDecode decode o else .ok o) = .ok o
  rcases h with hd | hnone
  · rw [hd]
    rfl
  · rw [hnone]
    exact ite_self _

/-- bytes of a reply reach who awaits an async method that does not decode -/
theorem async_shows (hbefore : before false r.asyncSteps = none) (htask : r.task = none) {decode : Option Codec}
    (h : r.wraps = false ∨ decode = none) (reply : Value) {x : r.T} {o : PyObj} (hfetch : r.fetch reply = .ok x)
    (hraw : (r.async x).intoPy S = .ok o) (hbytes : bytesFree o = false) :
    ∃ server o, bytesFree o = false ∧ (r.asyncCall S false decode server).result = .ok o := by
  refine ⟨⟨.ok (), .ok reply⟩, o, hbytes, ?_⟩
  have hconnected : r.connected ⟨.ok (), .ok reply⟩ = .ok () := ite_self _
  unfold asyncCall
  rw [hbefore]
  show r.awaited S decode (r.asyncRaw ⟨.ok (), .ok reply⟩) = .ok o
  have hsent : r.asyncRaw ⟨.ok (), .ok reply⟩ = r.async x := by
    unfold asyncRaw
    rw [htask, hconnected]
    show handle (r.fetch reply) _ r.async = _
    rw [hfetch]
    rfl
  unfold awaited
  rw [hsent, hraw]
  show (if r.wraps then maybeDecode decode o else .ok o) = .ok o
  rcases h with hd | hnone
  · rw [hd]
    rfl
  · rw [hnone]
    exact ite_self _

end Row

/-! ## Commands of `Redis` and `AsyncRedis` -/

theorem agrees_of_not_differs {c : Command} (h : ¬ Differs c) : (row S c).Agrees S :=
  (agrees_or_differs c).resolve_right h

theorem decodes_or_free {c : Command} (h : keeps .redis c = true) : (row S c).decodes = true ∨ (row S c).Free := by
  rcases agrees_or_differs (S := S) c with hrow | hdiffers
  · exact hrow.decodes_or_free
  · cases hdiffers with
    | zmscore members => exact .inr (free_zmscore members)
    | waitaof => exact nomatch h
    | _ => exact .inl rfl

theorem redis_uniform {c : Command} (h : keeps .redis c = true) (server : Server) :
    Uniform codec ((row S c).syncCall false (some codec) server).result ((row S c).syncCall false none server).result :=
  Row.sync_uniform (fun _ => settled_before) (decodes_or_free h) server

/-- an async method that stops at its checks has nothing to decode -/
theorem settled_check (outcome : Arg) (res : PyRes) (h : before false [.check outcome] = some res) : Settled res := by
  cases outcome with
  | error e =>
    cases h
    exact settled_error e
  | ok _ => exact nomatch h

theorem settled_none {steps : List Step} (hnone : before false steps = none) (res : PyRes)
    (h : before false steps = some res) : Settled res :=
  nomatch hnone.symm.trans h

theorem asyncRedis_uniform {c : Command} (h : keeps .asyncRedis c = true) (server : Server) :
    Uniform codec ((row S c).asyncCall S false (some codec) server).result
      ((row S c).asyncCall S false none server).result := by
  by_cases hdiffers : Differs c
  · cases hdiffers with
    | hrandfield count withvalues => exact nomatch h
    | hscan novalues => exact nomatch h
    | bzmpop direction => exact Row.async_uniform (settled_check _) rfl server
    | _ => exact Row.async_uniform (settled_none rfl) rfl server
  · have hrow := agrees_of_not_differs (S := S) hdiffers
    rw [hrow.same, hrow.same]
    exact Row.sync_uniform (fun _ => settled_before) hrow.decodes_or_free server

theorem redis_settled (hS : S.ReadsBytes) {c : Command} (h : carries .redis c = false ∨ asks c = false) (server : Server) :
    Settled ((row S c).syncCall false none server).result := by
  refine Row.sync_settled (fun _ => settled_before) (fun hfirst => ?_) server
  have hcarries : carries .redis c = false := h.resolve_right fun hasks => nomatch hasks.symm.trans (asks_iff.2 hfirst)
  have hholds := holds_or_free hS c
  rw [hcarries] at hholds
  exact hholds

theorem redis_shows (hS : S.ReadsBytes) {c : Command} (hcarries : carries .redis c = true) (hasks : asks c = true) :
    ∃ server o, bytesFree o = false ∧ ((row S c).syncCall false none server).result = .ok o := by
  have hholds := holds_or_free hS c
  rw [hcarries] at hholds
  exact Row.sync_shows (asks_iff.1 hasks) (.inr rfl) hholds

theorem carries_eq {c : Command} (h : ¬ Differs c) : carries .asyncRedis c = carries .redis c := by
  cases c with
  | zsets c =>
    cases c with
    | zmscore members => exact absurd (.zmscore members) h
    | _ => rfl
  | admin c =>
    cases c with
    | bgsave => exact absurd .bgsave h
    | bgrewriteaof => exact absurd .bgrewriteaof h
    | _ => rfl
  | _ => rfl

theorem hrandfield_shows {decode : Option Codec} (count : Option Int) (withvalues : Bool) :
    ∃ server o, bytesFree o = false ∧
      ((Hashes.hrandfield S count withvalues).asyncCall S false decode server).result = .ok o := by
  obtain ⟨reply, x, o, hfetch, hsync, hbytes⟩ := holds_hrandfield (S := S) count withvalues
  exact Row.async_shows rfl rfl (.inl rfl) reply hfetch hsync hbytes

/-- a page of SSCAN, ZSCAN and HSCAN -/
def page (items : List Value) : Value := .array [.int 0, .array items]

theorem hscan_shows {decode : Option Codec} (novalues : Bool) :
    ∃ server o, bytesFree o = false ∧ ((Hashes.hscan novalues).asyncCall S false decode server).result = .ok o := by
  have hbytes : bytesFree (renderHscan 0 (.array [.bulkString [], .bulkString []]) novalues) = false := by
    cases novalues <;> rfl
  exact Row.async_shows rfl rfl (.inl rfl) (page [.bulkString [], .bulkString []]) rfl rfl hbytes

/-- the status of BGSAVE is read, and dropped -/
theorem status_settled (server : Server) : Settled ((Admin.status S).asyncCall S false none server).result := by
  refine Row.async_settled (settled_none rfl) fun _ => ?_
  show Settled ((handle (server.reply >>= S.fromRedisValue .string) classify fun _ => RawResult.nil).intoPy S)
  cases server.reply >>= S.fromRedisValue .string with
  | error e => exact settled_error _
  | ok _ => exact settled_ok rfl trivial

theorem asyncRedis_settled (hS : S.ReadsBytes) {c : Command} (h : carries .asyncRedis c = false ∨ asks c = false)
    (server : Server) : Settled ((row S c).asyncCall S false none server).result := by
  by_cases hdiffers : Differs c
  · cases hdiffers with
    | bgsave | bgrewriteaof => exact status_settled server
    | bzmpop direction =>
      have hasks : asks (.zsets (.bzmpop direction)) = false := h.resolve_left nofun
      refine Row.async_settled (settled_check _) fun hfirst => ?_
      exact nomatch hasks.symm.trans ((asks_iff (S := S)).2 hfirst)
    | zmscore members =>
      have hasks : asks (.zsets (.zmscore members)) = false := h.resolve_left nofun
      cases members with
      | nil => exact settled_ok rfl trivial
      | cons m rest => exact nomatch hasks
    | _ => exact h.elim (fun h => nomatch h) fun h => (nomatch h)
  · rw [(agrees_of_not_differs hdiffers).same]
    rw [carries_eq hdiffers] at h
    exact redis_settled hS h server

theorem asyncRedis_shows (hS : S.ReadsBytes) {c : Command} (hcarries : carries .asyncRedis c = true)
    (hasks : asks c = true) :
    ∃ server o, bytesFree o = false ∧ ((row S c).asyncCall S false none server).result = .ok o := by
  by_cases hdiffers : Differs c
  · cases hdiffers with
    | blpop | brpop =>
      exact Row.async_shows rfl rfl (.inr rfl) (.array [.simpleString "", .bulkString []]) (bpopInner_pair hS) rfl rfl
    | hrandfield count withvalues => exact hrandfield_shows count withvalues
    | hscan novalues => exact hscan_shows novalues
    | sscan => exact Row.async_shows rfl rfl (.inr rfl) (page [.bulkString []]) rfl rfl rfl
    | zscan => exact Row.async_shows rfl rfl (.inr rfl) (page [.bulkString [], .double 0]) rfl rfl rfl
    | zmscore members =>
      cases members with
      | nil => exact nomatch hasks
      | cons m rest => exact Row.async_shows rfl rfl (.inr rfl) (.bulkString []) rfl rfl rfl
    | bzpopmin | bzpopmax => exact Row.async_shows rfl rfl (.inr rfl) _ (hS.keyed [] [] 0) rfl rfl
    | bzmpop direction =>
      have hfirst : before false (row S (.zsets (.bzmpop direction))).asyncSteps = none := (asks_iff (S := S)).1 hasks
      exact Row.async_shows hfirst rfl (.inr rfl)
        (.array [.simpleString "", .array [.array [.bulkString [], .double 0]]]) rfl rfl rfl
    | scan => exact Row.async_shows rfl rfl (.inr rfl) oneKey rfl rfl rfl
    | waitaof => exact Row.async_shows rfl rfl (.inr rfl) (.bulkString []) rfl rfl rfl
    | bgsave | bgrewriteaof => exact nomatch hcarries
  · obtain ⟨server, o, hbytes, hres⟩ := redis_shows hS ((carries_eq hdiffers).symm.trans hcarries) hasks
    exact ⟨server, o, hbytes, ((agrees_of_not_differs hdiffers).same none server).trans hres⟩

/-! ## Methods of all clients -/

theorem not_uniform {decoded plain : PyRes} {o : PyObj} (hbytes : bytesFree o = false) (h : decoded = .ok o) :
    ¬ Uniform codec decoded plain := fun huniform => nomatch hbytes.symm.trans (huniform.2 o h)

/-- SELECT never asks the server -/
theorem select_result (dbIndex connected : ℕ) :
    ∃ res, Settled res ∧ ∀ decode server, (answer S decode server false (.select dbIndex connected)).result = res := by
  by_cases hdb : dbIndex = connected
  · refine ⟨.ok (.bool true), settled_ok rfl trivial, result_of_before ?_⟩
    show before false (Admin.select S dbIndex connected).syncSteps = _
    simp [Admin.select, before, hdb]
  · obtain ⟨e, hfirst⟩ : ∃ e, before false (Admin.select S dbIndex connected).syncSteps = some (.error e) := by
      simp [Admin.select, before, hdb]
    exact ⟨.error e, settled_error e, result_of_before (k := .redis) hfirst⟩

theorem client_uniform {k : Client} {m : Method k} (h : Facade.Keeps (.client k) m) (server : Server) :
    Uniform codec (answer S (some codec) server false m).result (answer S none server false m).result := by
  cases m with
  | command c =>
    cases k with
    | redis => exact redis_uniform h server
    | asyncRedis => exact asyncRedis_uniform h server
  | select dbIndex connected =>
    obtain ⟨res, hsettled, hres⟩ := select_result (S := S) dbIndex connected
    rw [hres, hres]
    exact hsettled.uniform codec
  | awaitAlias => exact asyncRedis_uniform (c := .admin .wait) rfl server

theorem client_shows (codec : Codec) {k : Client} {c : Command} (h : keeps k c = false) :
    ∃ server o, bytesFree o = false ∧ (answer S (some codec) server false (.command c : Method k)).result = .ok o := by
  cases k with
  | redis =>
    cases c with
    | admin c =>
      cases c with
      | waitaof => exact Row.sync_shows rfl (.inl rfl) ⟨.bulkString [], _, _, rfl, rfl, rfl⟩
      | _ => exact nomatch h
    | _ => exact nomatch h
  | asyncRedis =>
    cases c with
    | hashes c =>
      cases c with
      | hrandfield count withvalues => exact hrandfield_shows count withvalues
      | hscan novalues => exact hscan_shows novalues
      | _ => exact nomatch h
    | _ => exact nomatch h

theorem sentinel_settled (hS : S.ReadsBytes) {k : Client} {m : Method k} (h : Facade.Keeps (.sentinel k) m)
    (server : Server) : Settled (answer S none server false m).result := by
  cases m with
  | command c =>
    cases k with
    | redis => exact redis_settled hS h server
    | asyncRedis => exact asyncRedis_settled hS h server
  | select dbIndex connected =>
    obtain ⟨res, hsettled, hres⟩ := select_result (S := S) dbIndex connected
    rw [hres]
    exact hsettled
  | awaitAlias => exact asyncRedis_settled hS (c := .admin .wait) (.inl rfl) server

theorem sentinel_shows (hS : S.ReadsBytes) {k : Client} {c : Command} (hcarries : carries k c = true)
    (hasks : asks c = true) :
    ∃ server o, bytesFree o = false ∧ (answer S none server false (.command c : Method k)).result = .ok o := by
  cases k with
  | redis => exact redis_shows hS hcarries hasks
  | asyncRedis => exact asyncRedis_shows hS hcarries hasks

theorem client_uniform_iff {k : Client} (m : Method k) :
    (∀ closed server, Uniform codec (answer S (some codec) server closed m).result (answer S none server closed m).result) ↔
      Facade.Keeps (.client k) m := by
  refine ⟨fun h => ?_, fun h => uniform_closed (client_uniform h)⟩
  cases m with
  | command c =>
    show keeps k c = true
    by_contra hkeeps
    obtain ⟨server, o, hbytes, hres⟩ := client_shows (S := S) codec (eq_false_of_ne_true hkeeps)
    exact not_uniform hbytes hres (h false server)
  | select _ _ | awaitAlias => exact trivial

theorem sentinel_uniform_iff (hS : S.ReadsBytes) {k : Client} (m : Method k) :
    (∀ closed server, Uniform codec (answer S none server closed m).result (answer S none server closed m).result) ↔
      Facade.Keeps (.sentinel k) m := by
  refine ⟨fun h => ?_, fun h => uniform_closed fun server => (sentinel_settled hS h server).uniform codec⟩
  cases m with
  | command c =>
    show carries k c = false ∨ asks c = false
    by_contra hkeeps
    obtain ⟨hcarries, hasks⟩ := not_or.1 hkeeps
    obtain ⟨server, o, hbytes, hres⟩ :=
      sentinel_shows hS (eq_true_of_ne_false hcarries) (eq_true_of_ne_false hasks)
    exact not_uniform hbytes hres (h false server)
  | select _ _ | awaitAlias => exact trivial

theorem cluster_uniform_iff (hS : S.ReadsBytes) (c : Cluster.Cmd) :
    (∀ closed nodes, Uniform codec ((c.call S).result closed (some codec) nodes) ((c.call S).result closed none nodes)) ↔
      c.keeps = true := by
  refine ⟨fun h => ?_, fun h => (Cluster.quiet_of_keeps h).uniform codec⟩
  by_contra hkeeps
  obtain ⟨nodes, o, hbytes, hres⟩ := (Cluster.leaks_of_not_keeps hS (eq_false_of_ne_true hkeeps)).shows
  exact not_uniform hbytes (hres (some codec)) (h false nodes)

theorem asyncCluster_quiet (c : Cluster.AsyncCmd) : (c.call S).Quiet := by
  cases c <;> exact .inl rfl

/-- **The setting of a client.** Whatever a server replies, a method of a client that is to decode gives what one of a
client that is not gives, decoded, and no bytes, exactly where the method keeps the setting. -/
theorem decode_uniform_iff (hS : S.ReadsBytes) (codec : Codec) (f : Facade) (m : f.Method) :
    (∀ closed backend, Uniform codec (f.result S ⟨true, codec⟩ closed backend m)
      (f.result S ⟨false, codec⟩ closed backend m)) ↔ f.Keeps m := by
  cases f with
  | client k => exact client_uniform_iff m
  | sentinel k => exact sentinel_uniform_iff hS m
  | cluster k =>
    cases k with
    | redis => exact cluster_uniform_iff hS m
    | asyncRedis => exact iff_of_true ((asyncCluster_quiet m).uniform codec) trivial

/-! ## A method that decodes and one that does not -/

/-- the crate, on replies that are what is asked for -/
def readAs : (t : Ty) → Value → RedisResult t.denote
  | .string, .simpleString s => .ok s
  | .i64, .int n => .ok n
  | .f64, .double f => .ok f
  | .bytes, .bulkString b => .ok b
  | .opt _, .nil => .ok none
  | .opt t, v => (readAs t v).map some
  | .vec t, .array items => items.mapM (readAs t)
  | .pair a b, .array [v, w] => do
    let x ← readAs a v
    let y ← readAs b w
    return (x, y)
  | .triple a b c, .array [u, v, w] => do
    let x ← readAs a u
    let y ← readAs b v
    let z ← readAs c w
    return (x, y, z)
  | _, _ => .error (.fromParts .parse "Response was of incompatible type" "not read here")

def readingStd : Std := { bareStd with fromRedisValue := readAs }

theorem readsBytes_readingStd : readingStd.ReadsBytes where
  string _ := rfl
  bytes _ := rfl
  optBytes _ := rfl
  bytesList _ := rfl
  optBytesList _ := rfl
  bytesOrNoneList _ := rfl
  scored _ _ := rfl
  keyed _ _ _ := rfl

/-- `latin-1` -/
def latin1 : Codec := fun b => .ok (String.ofList (b.map fun c => Char.ofNat c.toNat))

theorem get_decodes :
    Uniform latin1
      (Facade.result readingStd ⟨true, latin1⟩ false (.client .redis) ⟨.ok (), .ok (.bulkString [118])⟩
        (.command (.strings .get)))
      (Facade.result readingStd ⟨false, latin1⟩ false (.client .redis) ⟨.ok (), .ok (.bulkString [118])⟩
        (.command (.strings .get))) :=
  (decode_uniform_iff readsBytes_readingStd latin1 (.client .redis) (.command (.strings .get))).2 rfl false
    ⟨.ok (), .ok (.bulkString [118])⟩

/-- HRANDFIELD of an `AsyncRedis` that is to decode gives `b"f"` -/
theorem hrandfield_undecoded :
    Facade.result readingStd ⟨true, latin1⟩ false (.client .asyncRedis) ⟨.ok (), .ok (.bulkString [102])⟩
        (.command (.hashes (.hrandfield none false))) = .ok (.bytes [102]) ∧
      ¬ Uniform latin1
        (Facade.result readingStd ⟨true, latin1⟩ false (.client .asyncRedis) ⟨.ok (), .ok (.bulkString [102])⟩
          (.command (.hashes (.hrandfield none false))))
        (Facade.result readingStd ⟨false, latin1⟩ false (.client .asyncRedis) ⟨.ok (), .ok (.bulkString [102])⟩
          (.command (.hashes (.hrandfield none false)))) :=
  ⟨rfl, not_uniform rfl rfl⟩

end RedisRsPy.Commands
