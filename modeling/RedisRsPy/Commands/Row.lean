/-
A command as a row: what its sync method on `Redis` and its async method on `AsyncRedis` do, side by side.

Both methods go through the same stages. First come the steps before the server is asked: checks of the arguments, an
answer that needs no server, and the guard of `sync_op!` and `async_op!` that refuses a closed client. Then a blocking
command takes its connection, the reply is fetched as some type, and what was fetched becomes a Python object: at once
(`sync`), or as a raw result that the task sends (`async`). Last, the object is decoded as the client is set up
(`maybe_decode`, `maybe_wrap`). An async method may also answer inside its task without asking the server (`task`).

Results:
- `Agrees.same`: a row whose stages match gives the same result on both clients;
- `agrees_reads`, `Agrees.checked`, `Agrees.onEmpty`: the stages match in each kind of row that both methods share;
- `same_iff`: where the conversions differ, they decide.
-/
import RedisRsPy.Commands.RawResult

namespace RedisRsPy.Commands

/-! ## Steps before the server -/

inductive Step where
  | check (outcome : Except Exn Unit)
  | ret (here : Bool) (x : PyObj)
  | guard

/-- what the guard raises -/
def closedError : Exn := .builtin .ValueError "closed"

/-- what the method gives before it asks the server, if anything -/
def before (closed : Bool) : List Step → Option PyRes
  | [] => none
  | .check (.error e) :: _ => some (.error e)
  | .check (.ok _) :: rest => before closed rest
  | .ret true x :: _ => some (.ok x)
  | .ret false _ :: rest => before closed rest
  | .guard :: rest => if closed then some (.error closedError) else before closed rest

/-! ## Rows -/

structure Row where
  T : Type
  fetch : Value → RedisResult T
  sync : T → PyRes
  async : T → RawResult
  syncSteps : List Step := [.guard]
  asyncSteps : List Step := [.guard]
  task : Option RawResult := none
  blocking : Bool := false
  /-- what a sync method raises when there is no connection for blocking -/
  connectErr : RedisError → Exn := toPyErr
  /-- the sync method ends in `maybe_decode` -/
  decodes : Bool := true
  /-- the async method ends in `maybe_wrap` -/
  wraps : Bool := true

/-- the server: whether it lets a blocking command connect, and its reply -/
structure Server where
  connect : RedisResult Unit
  reply : RedisResult Value

/-- what a call comes to: whether the result is there when the method returns or only when it is awaited, the result,
and whether the command was sent -/
structure Answer where
  atOnce : Bool
  result : PyRes
  sent : Bool

/-- `match` on a Rust `Result` -/
def handle {α β : Type} (res : RedisResult α) (err : RedisError → β) (ok : α → β) : β :=
  match res with
  | .error e => err e
  | .ok x => ok x

namespace Row

variable (S : Std) (r : Row)

def connected (server : Server) : RedisResult Unit := if r.blocking then server.connect else .ok ()

/-- what the sync method makes of what it fetched -/
def syncObject (decode : Option Codec) (x : r.T) : PyRes := do
  let o ← r.sync x
  if r.decodes then maybeDecode decode o else return o

def syncReply (decode : Option Codec) (server : Server) : PyRes :=
  handle (r.connected server) (fun e => .error (r.connectErr e)) fun _ =>
    handle (server.reply >>= r.fetch) (fun e => .error (toPyErr e)) (r.syncObject decode)

/-- what the task sends -/
def asyncRaw (server : Server) : RawResult :=
  match r.task with
  | some raw => raw
  | none => handle (r.connected server) classify fun _ => handle (server.reply >>= r.fetch) classify r.async

/-- what awaiting makes of what the task sent -/
def awaited (decode : Option Codec) (raw : RawResult) : PyRes := do
  let o ← raw.intoPy S
  if r.wraps then maybeDecode decode o else return o

def asyncReply (decode : Option Codec) (server : Server) : PyRes := r.awaited S decode (r.asyncRaw server)

/-- the method of `Redis` -/
def syncCall (closed : Bool) (decode : Option Codec) (server : Server) : Answer :=
  match before closed r.syncSteps with
  | some res => ⟨true, res, false⟩
  | none => ⟨true, r.syncReply decode server, (r.connected server).isOk⟩

/-- the method of `AsyncRedis`, and what awaiting gives -/
def asyncCall (closed : Bool) (decode : Option Codec) (server : Server) : Answer :=
  match before closed r.asyncSteps with
  | some res => ⟨true, res, false⟩
  | none => ⟨false, r.asyncReply S decode server, r.task.isNone && (r.connected server).isOk⟩

/-! ## Rows whose methods agree -/

/-- the steps come to the same thing -/
def StepsAgree : Prop :=
  ∀ decode, before false r.syncSteps = match before false r.asyncSteps with
    | some res => some res
    | none => r.task.map fun raw => raw.intoPy S >>= maybeDecode decode

structure Agrees : Prop where
  convert : ∀ x, (r.async x).intoPy S = r.sync x
  wraps : r.wraps = true
  decodes : r.decodes = true ∨ ∀ x o, r.sync x = .ok o → bytesFree o = true
  connectErr : r.connectErr = toPyErr
  steps : r.StepsAgree S

variable {S r}

/-- decoding what a sync method leaves undecoded changes nothing -/
theorem Agrees.decode (h : r.Agrees S) (decode : Option Codec) (x : r.T) :
    r.syncObject decode x = r.sync x >>= maybeDecode decode := by
  unfold syncObject
  cases hx : r.sync x with
  | error e => rfl
  | ok o =>
    show (if r.decodes then maybeDecode decode o else .ok o) = maybeDecode decode o
    rcases h.decodes with hd | hfree
    · rw [hd]
      rfl
    · have hkeyed : WellKeyed o := wellKeyed_intoPy S ((h.convert x).trans hx)
      rw [maybeDecode_of_bytesFree decode hkeyed (hfree x o hx), ite_self]

theorem Agrees.reply (h : r.Agrees S) (htask : r.task = none) (decode : Option Codec) (server : Server) :
    r.asyncReply S decode server = r.syncReply decode server := by
  unfold asyncReply asyncRaw awaited syncReply
  rw [htask, h.wraps, h.connectErr]
  cases r.connected server with
  | error e => rfl
  | ok _ =>
    cases server.reply >>= r.fetch with
    | error e => rfl
    | ok x =>
      show (r.async x).intoPy S >>= maybeDecode decode = _
      rw [h.convert x]
      exact (h.decode decode x).symm

/-- **Matching stages.** On an open client the two methods of such a row give the same result. -/
theorem Agrees.same (h : r.Agrees S) (decode : Option Codec) (server : Server) :
    (r.asyncCall S false decode server).result = (r.syncCall false decode server).result := by
  have hsteps := h.steps decode
  unfold asyncCall syncCall
  cases hbefore : before false r.asyncSteps with
  | some res =>
    rw [hbefore] at hsteps
    rw [hsteps]
  | none =>
    rw [hbefore] at hsteps
    cases htask : r.task with
    | none =>
      rw [htask] at hsteps
      rw [hsteps]
      exact h.reply htask decode server
    | some raw =>
      rw [htask] at hsteps
      rw [hsteps]
      show r.asyncReply S decode server = raw.intoPy S >>= maybeDecode decode
      unfold asyncReply asyncRaw awaited
      rw [htask, h.wraps]
      rfl

/-! ## Rows whose methods differ -/

/-- what reaches the conversions -/
def received (r : Row) (server : Server) : RedisResult r.T := do
  r.connected server
  let v ← server.reply
  r.fetch v

/-- **Conversions decide.** Where nothing comes before the server and both methods raise the same without a connection,
they give the same outcome exactly where they make the same of what they received. -/
theorem same_iff (hsync : before false r.syncSteps = none) (hasync : before false r.asyncSteps = none)
    (htask : r.task = none) (herr : r.connectErr = toPyErr) (decode : Option Codec) (server : Server) :
    SameOutcome (r.syncCall false decode server).result (r.asyncCall S false decode server).result ↔
      ∀ x, r.received server = .ok x → SameOutcome (r.syncObject decode x) (r.awaited S decode (r.async x)) := by
  unfold syncCall asyncCall
  rw [hsync, hasync]
  show SameOutcome (r.syncReply decode server) (r.asyncReply S decode server) ↔ _
  unfold syncReply asyncReply asyncRaw received
  rw [htask, herr]
  cases r.connected server with
  | error e => exact ⟨fun _ _ h => (nomatch h), fun _ => rfl⟩
  | ok _ =>
    cases server.reply >>= r.fetch with
    | error e => exact ⟨fun _ _ h => (nomatch h), fun _ => rfl⟩
    | ok x =>
      refine ⟨fun h y hy => ?_, fun h => h x rfl⟩
      cases hy
      exact h

/-! ## Arguments -/

/-- both methods check the arguments first -/
def checked (outcome : Except Exn Unit) (r : Row) : Row :=
  { r with syncSteps := .check outcome :: r.syncSteps, asyncSteps := .check outcome :: r.asyncSteps }

/-- the sync method answers an empty list before its guard, the async method in its task -/
def onEmpty (empty : Bool) (x : PyObj) (raw : RawResult) (r : Row) : Row :=
  { r with syncSteps := .ret empty x :: r.syncSteps, task := if empty then some raw else r.task }

/-- the method of the connection answers an empty list without the server, past the guard of both clients -/
def onNone (empty : Bool) (x : PyObj) (raw : RawResult) (r : Row) : Row :=
  { r with syncSteps := r.syncSteps ++ [.ret empty x], task := if empty then some raw else r.task }

theorem Agrees.checked (h : r.Agrees S) (outcome : Except Exn Unit) : (r.checked outcome).Agrees S where
  convert := h.convert
  wraps := h.wraps
  decodes := h.decodes
  connectErr := h.connectErr
  steps := by
    intro decode
    cases outcome with
    | error e => rfl
    | ok _ => exact h.steps decode

theorem Agrees.onEmpty (h : r.Agrees S) (hasync : r.asyncSteps = [.guard]) (empty : Bool) {x : PyObj} {raw : RawResult}
    (hraw : raw.intoPy S = .ok x) (hfree : bytesFree x = true) : (r.onEmpty empty x raw).Agrees S where
  convert := h.convert
  wraps := h.wraps
  decodes := h.decodes
  connectErr := h.connectErr
  steps := by
    intro decode
    cases empty with
    | false => exact h.steps decode
    | true =>
      show some (.ok x) = match before false r.asyncSteps with
        | some res => some res
        | none => some (raw.intoPy S >>= maybeDecode decode)
      rw [hasync, hraw]
      exact congrArg some (maybeDecode_of_bytesFree decode (wellKeyed_intoPy S hraw) hfree).symm

theorem Agrees.onNone (h : r.Agrees S) (hsync : r.syncSteps = [.guard]) (hasync : r.asyncSteps = [.guard])
    (htask : r.task = none) (empty : Bool) {x : PyObj} {raw : RawResult} (hraw : raw.intoPy S = .ok x)
    (hfree : bytesFree x = true) : (r.onNone empty x raw).Agrees S where
  convert := h.convert
  wraps := h.wraps
  decodes := h.decodes
  connectErr := h.connectErr
  steps := by
    intro decode
    show before false (r.syncSteps ++ [.ret empty x]) = match before false r.asyncSteps with
      | some res => some res
      | none => (if empty then some raw else r.task).map fun raw => raw.intoPy S >>= maybeDecode decode
    rw [hsync, hasync, htask]
    cases empty with
    | false => rfl
    | true =>
      show some (.ok x) = some (raw.intoPy S >>= maybeDecode decode)
      rw [hraw]
      exact congrArg some (maybeDecode_of_bytesFree decode (wellKeyed_intoPy S hraw) hfree).symm

/-- a reply fetched as it is -/
theorem fetched_value_iff {server : Server} {v : Value} :
    (server.reply >>= (.ok : Value → RedisResult Value)) = .ok v ↔ server.reply = .ok v := by
  cases server.reply <;> exact Iff.rfl

/-! ## Blocking commands -/

/-- both methods go to the connection for blocking commands themselves, past the macros and their guard -/
def bypassing (r : Row) : Row := { r with syncSteps := [], asyncSteps := [], blocking := true }

theorem Agrees.bypassing (h : r.Agrees S) (htask : r.task = none) : r.bypassing.Agrees S where
  convert := h.convert
  wraps := h.wraps
  decodes := h.decodes
  connectErr := h.connectErr
  steps := by
    intro decode
    show none = r.task.map _
    rw [htask]
    rfl

/-- the sync method makes a `ConnectionError` of Python itself out of a failure to connect -/
def connecting (r : Row) : Row :=
  { r.bypassing with connectErr := fun e => .builtin .ConnectionError e.text }

theorem connecting_same_iff (h : r.Agrees S) (htask : r.task = none) (decode : Option Codec) (server : Server) :
    SameOutcome (r.connecting.syncCall false decode server).result (r.connecting.asyncCall S false decode server).result ↔
      ∃ u, server.connect = .ok u := by
  cases hconnect : server.connect with
  | error e =>
    refine iff_of_false ?_ fun ⟨_, hu⟩ => (nomatch hu)
    show ¬ SameOutcome (r.connecting.syncReply decode server) (r.connecting.asyncReply S decode server)
    have hrow : r.connecting.connected server = .error e := hconnect
    have htask' : r.connecting.task = none := htask
    unfold syncReply asyncReply asyncRaw awaited
    rw [htask', hrow]
    intro hsame
    exact nomatch (hsame : (Sum.inr Builtin.ConnectionError : ExceptionClass ⊕ Builtin) = .inl (classifyError e))
  | ok u =>
    refine iff_of_true (sameOutcome_of_eq ?_) ⟨u, rfl⟩
    -- with a connection, the error that tells the two methods apart is not raised
    have hsync : r.connecting.syncCall false decode server = r.bypassing.syncCall false decode server := by
      show (⟨true, r.connecting.syncReply decode server, _⟩ : Answer) = ⟨true, r.bypassing.syncReply decode server, _⟩
      have hrow : r.connecting.connected server = .ok u := hconnect
      have hrow' : r.bypassing.connected server = .ok u := hconnect
      unfold syncReply
      rw [hrow, hrow']
      rfl
    rw [hsync]
    exact ((h.bypassing htask).same decode server).symm

/-- a failed check is the same on both clients -/
theorem checked_same_iff (outcome : Except Exn Unit) (decode : Option Codec) (server : Server) :
    SameOutcome ((r.checked outcome).syncCall false decode server).result
        ((r.checked outcome).asyncCall S false decode server).result ↔
      (∃ e, outcome = .error e) ∨
        SameOutcome (r.syncCall false decode server).result (r.asyncCall S false decode server).result := by
  cases outcome with
  | error e => exact iff_of_true (sameOutcome_of_eq rfl) (.inl ⟨e, rfl⟩)
  | ok u =>
    refine ⟨.inr, fun h => ?_⟩
    rcases h with ⟨_, he⟩ | h
    · exact nomatch he
    · exact h

end Row

/-! ## Shapes -/

section Shapes

variable (S : Std)

def fetches {α : Type} (fetch : Value → RedisResult α) (sync : α → PyObj) (async : α → RawResult) : Row where
  T := α
  fetch := fetch
  sync x := .ok (sync x)
  async := async

/-- the reply is read as a type of the crate -/
def reads (t : Ty) : (t.denote → PyObj) → (t.denote → RawResult) → Row := fetches (S.fromRedisValue t)

/-- the reply is taken apart by the driver itself -/
def parses {α : Type} (parse : Value → α) (sync : α → PyRes) (async : α → RawResult) : Row where
  T := Value
  fetch := .ok
  sync v := sync (parse v)
  async v := async (parse v)

/-- the sync method returns without `maybe_decode` -/
def undecoded (r : Row) : Row := { r with decodes := false }

variable {S}

theorem agrees_fetches {α : Type} {fetch : Value → RedisResult α} {sync : α → PyObj} {async : α → RawResult}
    (h : ∀ x, (async x).intoPy S = .ok (sync x)) : (fetches fetch sync async).Agrees S :=
  ⟨h, rfl, .inl rfl, rfl, fun _ => rfl⟩

theorem agrees_reads {t : Ty} {sync : t.denote → PyObj} {async : t.denote → RawResult}
    (h : ∀ x, (async x).intoPy S = .ok (sync x)) : (reads S t sync async).Agrees S :=
  agrees_fetches h

theorem agrees_parses {α : Type} {parse : Value → α} {sync : α → PyRes} {async : α → RawResult}
    (h : ∀ a, (async a).intoPy S = sync a) : (parses parse sync async).Agrees S :=
  ⟨fun v => h (parse v), rfl, .inl rfl, rfl, fun _ => rfl⟩

theorem agrees_undecoded {r : Row} (h : r.Agrees S) (hfree : ∀ x o, r.sync x = .ok o → bytesFree o = true) :
    (undecoded r).Agrees S :=
  ⟨h.convert, h.wraps, .inr hfree, h.connectErr, h.steps⟩

/-- what comes in a plain variant has nothing to decode -/
theorem agrees_undecoded_of_plain {r : Row} (h : r.Agrees S) (hplain : ∀ x, (r.async x).plain = true) :
    (undecoded r).Agrees S :=
  agrees_undecoded h fun x _ hx => bytesFree_of_plain S (hplain x) ((h.convert x).trans hx)

end Shapes

end RedisRsPy.Commands
