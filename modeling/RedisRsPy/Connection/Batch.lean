/-
A batch on a sentinel connection (`ValkeyConnInner::pipeline_exec` without a transaction, in `connection.rs`), against its
commands sent one by one through `dispatch_cmd!`.

Both meet the cluster as it is when the call is made: which connections are alive, what the sentinels answer, and how each
node replies to a command, which may depend on the commands before. The redis crate sends a batch whole and reports its
error replies in one error.

Results:
- `dispatch_once`: one by one, a command is applied by one node at most;
- `dispatchAll_found`: on the master that the sentinels report, the retry changes nothing;
- `batch_same_iff`: a batch gives what its commands give one by one exactly where no command fails on the cached node with
  an error of the failover class, or the first that does would not be helped by a rediscovery: no address is found or it
  cannot be connected to, or the node there fails a command that is left, with an error of the same class.
-/
import RedisRsPy.Connection.Reserved
import RedisRsPy.Connection.Retry

namespace RedisRsPy.Connection.Batch

open Retry

variable {σ : Type}

/-! ## The cluster -/

/-- the cluster at the moment of a call -/
structure Cluster (σ : Type) where
  /-- whether a connection is alive -/
  link : ConnectionManager → Except ConnectionFailure Unit
  /-- the reply of a node, and the data after it -/
  reply : ConnectionManager → BufferedCmd → σ → RedisResult Value × σ
  /-- a node that answers with an error of the failover class has not applied the command -/
  refuses : ∀ {m cmd s e}, (reply m cmd s).1 = .error e → isFailoverError e = true → (reply m cmd s).2 = s
  /-- the sentinels -/
  answers : ℕ → SentinelAnswer

/-- `query_async` of one command -/
def Cluster.send (cluster : Cluster σ) (m : ConnectionManager) (cmd : BufferedCmd) (s : σ) : RedisResult Value × σ :=
  match cluster.link m with
  | .error f => (.error f.error, s)
  | .ok () => cluster.reply m cmd s

/-! ## One by one -/

/-- the Sentinel arm of `dispatch_cmd!` -/
def dispatch (cluster : Cluster σ) (c : SentinelConn) (cmd : BufferedCmd) (s : σ) :
    RedisResult Value × SentinelConn × σ :=
  match cluster.send c.inner cmd s with
  | (.ok v, s) => (.ok v, c, s)
  | (.error e, s) =>
    if isFailoverError e then
      match c.rediscover cluster.answers with
      | (.ok (), c) => ((cluster.send c.inner cmd s).1, c, (cluster.send c.inner cmd s).2)
      | (.error re, c) => (.error re, c, s)
    else (.error e, c, s)

/-- the results of commands, each dispatched after the one before -/
def dispatchAll (cluster : Cluster σ) : SentinelConn → List BufferedCmd → σ → List (RedisResult Value)
  | _, [], _ => []
  | c, cmd :: cmds, s =>
    (dispatch cluster c cmd s).1 :: dispatchAll cluster (dispatch cluster c cmd s).2.1 cmds (dispatch cluster c cmd s).2.2

/-- the values, or the first error -/
def collect : List (RedisResult Value) → RedisResult (List Value)
  | [] => .ok []
  | r :: rest => do
    let v ← r
    let vs ← collect rest
    return v :: vs

/-! ## The batch -/

/-- the replies of one node to all commands -/
def replies (cluster : Cluster σ) (m : ConnectionManager) : List BufferedCmd → σ → List (RedisResult Value)
  | [], _ => []
  | cmd :: cmds, s => (cluster.reply m cmd s).1 :: replies cluster m cmds (cluster.reply m cmd s).2

def error? : RedisResult Value → Option RedisError
  | .error e => some e
  | .ok _ => none

/-- `query_async` of a pipe: nothing is sent for no commands, and error replies are reported together -/
def queryPipe (batchError : RedisError → List RedisError → RedisError) (cluster : Cluster σ) (m : ConnectionManager)
    (cmds : List BufferedCmd) (s : σ) : RedisResult (List Value) :=
  if cmds.isEmpty then .ok []
  else
    match cluster.link m with
    | .error f => .error f.error
    | .ok () =>
      match collect (replies cluster m cmds s) with
      | .ok vs => .ok vs
      | .error e => .error (batchError e ((replies cluster m cmds s).filterMap error?))

/-- the Sentinel arm of `pipeline_exec`, with `transaction` false -/
def pipelineExec (batchError : RedisError → List RedisError → RedisError) (cluster : Cluster σ) (c : SentinelConn)
    (cmds : List BufferedCmd) (s : σ) : RedisResult (List Value) :=
  queryPipe batchError cluster c.inner cmds s

/-- equal values, or errors of one class -/
def Same (r r' : RedisResult (List Value)) : Prop :=
  match r, r' with
  | .ok vs, .ok vs' => vs = vs'
  | .error e, .error e' => classifyError e = classifyError e'
  | _, _ => False

/-! ## One application -/

/-- a command that fails with an error of the failover class has changed nothing -/
theorem send_refused {cluster : Cluster σ} {m : ConnectionManager} {cmd : BufferedCmd} {s s' : σ} {e : RedisError}
    (h : cluster.send m cmd s = (.error e, s')) (he : isFailoverError e = true) : s' = s := by
  unfold Cluster.send at h
  cases hlink : cluster.link m with
  | error f =>
    rw [hlink] at h
    exact (Prod.mk.inj h).2.symm
  | ok _ =>
    rw [hlink] at h
    have hsame := cluster.refuses (congrArg Prod.fst h) he
    exact (congrArg Prod.snd h).symm.trans hsame

/-- **At most once.** The data after a dispatch is the data before, or what one node made of the command. -/
theorem dispatch_once (cluster : Cluster σ) (c : SentinelConn) (cmd : BufferedCmd) (s : σ) :
    (dispatch cluster c cmd s).2.2 = s ∨ ∃ m, (dispatch cluster c cmd s).2.2 = (cluster.reply m cmd s).2 := by
  have hsend (m : ConnectionManager) : (cluster.send m cmd s).2 = s ∨ (cluster.send m cmd s).2 = (cluster.reply m cmd s).2 := by
    unfold Cluster.send
    cases cluster.link m with
    | error f => exact .inl rfl
    | ok _ => exact .inr rfl
  unfold dispatch
  rcases hfirst : cluster.send c.inner cmd s with ⟨e | v, s'⟩
  · by_cases hfail : isFailoverError e = true
    · obtain rfl := send_refused hfirst hfail
      simp only [hfail, if_true]
      rcases c.rediscover cluster.answers with ⟨re | _, c'⟩
      · exact .inl rfl
      · rcases hsend c'.inner with h | h
        · exact .inl h
        · exact .inr ⟨c'.inner, h⟩
    · have h := hsend c.inner
      rw [hfirst] at h
      simp only [hfail]
      exact h.imp id fun h => ⟨c.inner, h⟩
  · have h := hsend c.inner
    rw [hfirst] at h
    exact h.imp id fun h => ⟨c.inner, h⟩

/-! ## Equal results -/

theorem Same.refl (r : RedisResult (List Value)) : Same r r := by
  cases r <;> rfl

theorem Same.symm {r r' : RedisResult (List Value)} (h : Same r r') : Same r' r := by
  cases r <;> cases r' <;> first | exact Eq.symm h | exact h

theorem Same.trans {r r' r'' : RedisResult (List Value)} (h : Same r r') (h' : Same r' r'') : Same r r'' := by
  cases r <;> cases r' <;> cases r'' <;> first | exact Eq.trans h h' | exact absurd h id | exact absurd h' id

theorem Same.left_iff {r r' : RedisResult (List Value)} (h : Same r r') (x : RedisResult (List Value)) :
    Same r x ↔ Same r' x := ⟨h.symm.trans, h.trans⟩

/-- a value in front -/
theorem same_cons_iff (v : Value) (r r' : RedisResult (List Value)) :
    Same (r >>= fun vs => .ok (v :: vs)) (r' >>= fun vs => .ok (v :: vs)) ↔ Same r r' := by
  cases r with
  | error e => cases r' <;> exact Iff.rfl
  | ok vs =>
    cases r' with
    | error e => exact Iff.rfl
    | ok vs' =>
      show v :: vs = v :: vs' ↔ vs = vs'
      exact List.cons_inj_right v

/-! ## The batch on one node -/

/-- the results of commands on one connection, without a retry -/
def sendAll (cluster : Cluster σ) (m : ConnectionManager) : List BufferedCmd → σ → List (RedisResult Value)
  | [], _ => []
  | cmd :: cmds, s => (cluster.send m cmd s).1 :: sendAll cluster m cmds (cluster.send m cmd s).2

theorem sendAll_alive {cluster : Cluster σ} {m : ConnectionManager} (h : cluster.link m = .ok ()) (cmds : List BufferedCmd)
    (s : σ) : sendAll cluster m cmds s = replies cluster m cmds s := by
  induction cmds generalizing s with
  | nil => rfl
  | cons cmd cmds ih =>
    have hsend : cluster.send m cmd s = cluster.reply m cmd s := by
      rw [Cluster.send, h]
    rw [sendAll, replies, hsend, ih]

theorem queryPipe_same {batchError : RedisError → List RedisError → RedisError}
    (hbatch : ∀ e es, classifyError (batchError e es) = classifyError e) (cluster : Cluster σ) (m : ConnectionManager)
    (cmds : List BufferedCmd) (s : σ) : Same (queryPipe batchError cluster m cmds s) (collect (sendAll cluster m cmds s)) := by
  cases cmds with
  | nil => exact Same.refl (.ok [])
  | cons cmd cmds =>
    show Same (match cluster.link m with
      | .error f => .error f.error
      | .ok () => _) _
    cases hlink : cluster.link m with
    | error f =>
      have hsend : cluster.send m cmd s = (.error f.error, s) := by
        rw [Cluster.send, hlink]
      rw [sendAll, hsend]
      exact Same.refl (.error f.error)
    | ok _ =>
      rw [sendAll_alive hlink]
      cases hcollect : collect (replies cluster m (cmd :: cmds) s) with
      | ok vs => exact Same.refl (.ok vs)
      | error e => exact hbatch e _

/-- the first error a node gives to these commands -/
def firstError (cluster : Cluster σ) (m : ConnectionManager) : List BufferedCmd → σ → Option RedisError
  | [], _ => none
  | cmd :: cmds, s =>
    match cluster.send m cmd s with
    | (.ok _, s') => firstError cluster m cmds s'
    | (.error e, _) => some e

theorem collect_sendAll (cluster : Cluster σ) (m : ConnectionManager) (cmds : List BufferedCmd) (s : σ) :
    match firstError cluster m cmds s with
    | some e => collect (sendAll cluster m cmds s) = .error e
    | none => ∃ vs, collect (sendAll cluster m cmds s) = .ok vs := by
  induction cmds generalizing s with
  | nil => exact ⟨[], rfl⟩
  | cons cmd cmds ih =>
    rcases hsend : cluster.send m cmd s with ⟨e | v, s'⟩
    · rw [firstError, hsend, sendAll, hsend]
      rfl
    · rw [firstError, hsend, sendAll, hsend]
      have hrest := ih s'
      cases hfirst : firstError cluster m cmds s' with
      | some e =>
        rw [hfirst] at hrest
        simp only [hfirst, collect]
        rw [hrest]
        rfl
      | none =>
        rw [hfirst] at hrest
        obtain ⟨vs, hvs⟩ := hrest
        simp only [hfirst, collect]
        rw [hvs]
        exact ⟨v :: vs, rfl⟩

theorem same_error_iff {e : RedisError} {cluster : Cluster σ} {m : ConnectionManager} {cmds : List BufferedCmd} {s : σ} :
    Same (.error e) (collect (sendAll cluster m cmds s)) ↔
      ∃ e', firstError cluster m cmds s = some e' ∧ classifyError e = classifyError e' := by
  have hcollect := collect_sendAll cluster m cmds s
  cases hfirst : firstError cluster m cmds s with
  | some e' =>
    rw [hfirst] at hcollect
    rw [hcollect]
    exact ⟨fun h => ⟨e', rfl, h⟩, fun ⟨_, he, h⟩ => Option.some.inj he ▸ h⟩
  | none =>
    rw [hfirst] at hcollect
    obtain ⟨vs, hvs⟩ := hcollect
    rw [hvs]
    exact iff_of_false id fun ⟨_, he, _⟩ => (nomatch he)

/-! ## Where the two agree -/

/-- a rediscovery does not help these commands, the first of which has met an error of this class: it ends in such an
error, or the node it finds gives the commands one -/
def RecoveryFails (cluster : Cluster σ) (c : SentinelConn) (e : RedisError) (cmds : List BufferedCmd) (s : σ) : Prop :=
  match c.params.choice cluster.answers with
  | none => classifyError e = classifyError noneRediscovered
  | some (a, addr) =>
    match a.connect (c.params.manager addr) with
    | .error re => classifyError e = classifyError re
    | .ok m => ∃ e', firstError cluster m cmds s = some e' ∧ classifyError e = classifyError e'

/-- the first command that fails on the cached node does not fail with an error of the failover class, or a rediscovery
does not help -/
def Harmless (cluster : Cluster σ) (c : SentinelConn) : List BufferedCmd → σ → Prop
  | [], _ => True
  | cmd :: cmds, s =>
    match cluster.send c.inner cmd s with
    | (.ok _, s') => Harmless cluster c cmds s'
    | (.error e, s') => isFailoverError e = true → RecoveryFails cluster c e (cmd :: cmds) s'

/-- on the connection that a rediscovery has made, another rediscovery changes nothing, so neither does the retry -/
theorem dispatch_found {cluster : Cluster σ} {c : SentinelConn} (hfound : c.rediscover cluster.answers = (.ok (), c))
    (cmd : BufferedCmd) (s : σ) :
    dispatch cluster c cmd s = ((cluster.send c.inner cmd s).1, c, (cluster.send c.inner cmd s).2) := by
  rcases hsend : cluster.send c.inner cmd s with ⟨e | v, s'⟩
  · by_cases he : isFailoverError e = true
    · obtain rfl := send_refused hsend he
      simp [dispatch, hsend, he, hfound]
    · simp [dispatch, hsend, he]
  · simp [dispatch, hsend]

theorem dispatchAll_found {cluster : Cluster σ} {c : SentinelConn} (hfound : c.rediscover cluster.answers = (.ok (), c))
    (cmds : List BufferedCmd) (s : σ) : dispatchAll cluster c cmds s = sendAll cluster c.inner cmds s := by
  induction cmds generalizing s with
  | nil => rfl
  | cons cmd cmds ih => rw [dispatchAll, sendAll, dispatch_found hfound, ih]

/-- what the commands come to one by one, from the first that fails with an error of the failover class on -/
theorem same_dispatchAll_failover_iff {cluster : Cluster σ} {c : SentinelConn} {cmd : BufferedCmd} {s s' : σ}
    {e : RedisError} (hsend : cluster.send c.inner cmd s = (.error e, s')) (he : isFailoverError e = true)
    (cmds : List BufferedCmd) :
    Same (.error e) (collect (dispatchAll cluster c (cmd :: cmds) s)) ↔ RecoveryFails cluster c e (cmd :: cmds) s' := by
  have hspec := rediscover_spec c cluster.answers
  have hdispatch : dispatch cluster c cmd s =
      match c.rediscover cluster.answers with
      | (.ok (), c') => ((cluster.send c'.inner cmd s').1, c', (cluster.send c'.inner cmd s').2)
      | (.error re, c') => (.error re, c', s') := by
    rw [dispatch, hsend]
    exact if_pos he
  unfold RecoveryFails
  cases hchoice : c.params.choice cluster.answers with
  | none =>
    simp only [hchoice] at hspec
    rw [dispatchAll, hdispatch, hspec]
    exact Iff.rfl
  | some choice =>
    obtain ⟨a, addr⟩ := choice
    simp only [hchoice] at hspec
    cases hconnect : a.connect (c.params.manager addr) with
    | error re =>
      simp only [hconnect] at hspec ⊢
      rw [dispatchAll, hdispatch, hspec]
      exact Iff.rfl
    | ok m =>
      simp only [hconnect] at hspec ⊢
      have hfound : (c.params.sentinelConn m).rediscover cluster.answers = (.ok (), c.params.sentinelConn m) := by
        have hagain := rediscover_spec (c.params.sentinelConn m) cluster.answers
        have hparams : (c.params.sentinelConn m).params = c.params := rfl
        simpa only [hparams, hchoice, hconnect] using hagain
      have hall : dispatchAll cluster c (cmd :: cmds) s = sendAll cluster m (cmd :: cmds) s' := by
        rw [dispatchAll, hdispatch, hspec, sendAll]
        simp only [dispatchAll_found hfound]
        rfl
      rw [hall]
      exact same_error_iff

theorem sendAll_same_iff (cluster : Cluster σ) (c : SentinelConn) (cmds : List BufferedCmd) (s : σ) :
    Same (collect (sendAll cluster c.inner cmds s)) (collect (dispatchAll cluster c cmds s)) ↔ Harmless cluster c cmds s := by
  induction cmds generalizing s with
  | nil => exact iff_of_true (Same.refl (.ok [])) trivial
  | cons cmd cmds ih =>
    rcases hsend : cluster.send c.inner cmd s with ⟨e | v, s'⟩
    · have hbatch : collect (sendAll cluster c.inner (cmd :: cmds) s) = .error e := by
        rw [sendAll, hsend]
        rfl
      rw [hbatch, Harmless, hsend]
      by_cases he : isFailoverError e = true
      · have hiff := same_dispatchAll_failover_iff hsend he cmds
        exact hiff.trans ⟨fun h _ => h, fun h => h he⟩
      · have hdispatch : dispatch cluster c cmd s = (.error e, c, s') := by
          rw [dispatch, hsend]
          exact if_neg he
        rw [dispatchAll, hdispatch]
        exact iff_of_true (Same.refl (.error e)) fun h => absurd h he
    · have hdispatch : dispatch cluster c cmd s = (.ok v, c, s') := by
        rw [dispatch, hsend]
      rw [sendAll, dispatchAll, hdispatch, hsend, Harmless, hsend]
      exact (same_cons_iff v _ _).trans (ih s')

/-- **Batches.** A batch without a transaction gives the values, or fails with an error of the class, that its commands give
one by one, exactly where they meet no failover or a rediscovery does not help. The crate reports the errors of a batch in
one error of the class of the first. -/
theorem batch_same_iff {batchError : RedisError → List RedisError → RedisError}
    (hbatch : ∀ e es, classifyError (batchError e es) = classifyError e) (cluster : Cluster σ) (c : SentinelConn)
    (cmds : List BufferedCmd) (s : σ) :
    Same (pipelineExec batchError cluster c cmds s) (collect (dispatchAll cluster c cmds s)) ↔ Harmless cluster c cmds s :=
  ((queryPipe_same hbatch cluster c.inner cmds s).left_iff _).trans (sendAll_same_iff cluster c cmds s)

/-! ## A demoted master -/

def readOnly : RedisError :=
  ⟨.server .readOnly, some "READONLY", false, false, false, "READONLY: You can't write against a read only replica."⟩

/-- the master that the sentinels report takes commands, any other node has been demoted -/
def demoted : Cluster Unit where
  link _ := .ok ()
  reply m _ _ := if m = toMaster.inner then (.ok .okay, ()) else (.error readOnly, ())
  refuses _ _ := rfl
  answers := healthy

/-- a client that still holds the old master -/
def oldMaster : SentinelConn := twoSentinels.sentinelConn (twoSentinels.manager ("10.0.0.9", "6379"))

def setCmd : BufferedCmd := ("SET", [[107], [118]])

/-- the batch fails where its command, sent alone, is taken by the new master -/
theorem batch_not_recovered :
    pipelineExec (fun e _ => e) demoted oldMaster [setCmd] () = .error readOnly ∧
      collect (dispatchAll demoted oldMaster [setCmd] ()) = .ok [.okay] ∧
      ¬ Same (pipelineExec (fun e _ => e) demoted oldMaster [setCmd] ()) (collect (dispatchAll demoted oldMaster [setCmd] ())) := by
  have hbatch : pipelineExec (fun e _ => e) demoted oldMaster [setCmd] () = .error readOnly := rfl
  have hsingle : collect (dispatchAll demoted oldMaster [setCmd] ()) = .ok [.okay] := rfl
  refine ⟨hbatch, hsingle, ?_⟩
  rw [hbatch, hsingle]
  exact id

/-- a client that holds the new master -/
theorem batch_to_master :
    Same (pipelineExec (fun e _ => e) demoted toMaster [setCmd] ()) (collect (dispatchAll demoted toMaster [setCmd] ())) :=
  (batch_same_iff (fun _ _ => rfl) demoted toMaster [setCmd] ()).2 trivial

end RedisRsPy.Connection.Batch
