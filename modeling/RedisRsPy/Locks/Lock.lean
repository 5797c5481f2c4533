/-
`Lock` (`facade/sync.rs`) and the server key under it.

A method of a `Lock` works on its own copy of the token and makes one round trip at a time: `acquire` repeats SET NX
until it is answered OK or gives up, `release` and `extend` each run one script. Between the request, the server's step
and the moment the method goes on, other clients run. A method in progress is a `Phase`; the functions here make its
three moves: the call, the server's answer, and what the method does with the answer.

Results:
- `serve_cases`: what one server step does to the key, by the request;
- `resume_cases`: what a method does with an answer: the result, and the token its object keeps.
-/
import RedisRsPy.Errors

namespace RedisRsPy.Locks

/-! ## The server -/

/-- the lock's key: its value and the milliseconds it was last given to live, none without expiry -/
structure Key (τ : Type) where
  value : τ
  ttl : Option Int
deriving DecidableEq, Repr

variable {τ : Type}

/-- `SET name value [PX px] NX` -/
def setNx (key : Option (Key τ)) (value : τ) (px : Option Int) : Value × Option (Key τ) :=
  match key with
  | none => (.okay, some ⟨value, px⟩)
  | some k => (.nil, some k)

/-- `PEXPIRE`: a time to live that is not positive deletes the key -/
def pexpire (k : Key τ) (millis : Int) : Option (Key τ) :=
  if 0 < millis then some { k with ttl := some millis } else none

/-- `LOCK_RELEASE_LUA` -/
def releaseScript [DecidableEq τ] (key : Option (Key τ)) (token : τ) : Value × Option (Key τ) :=
  match key with
  | none => (.int 0, none)
  | some k => if k.value = token then (.int 1, none) else (.int 0, some k)

/-- `LOCK_EXTEND_LUA` -/
def extendScript [DecidableEq τ] (key : Option (Key τ)) (token : τ) (millis : Int) : Value × Option (Key τ) :=
  match key with
  | none => (.int 0, none)
  | some k => if k.value = token then (.int 1, pexpire k millis) else (.int 0, some k)

/-- the key's time to live runs out -/
def expire (key : Option (Key τ)) : Option (Key τ) :=
  match key with
  | none => none
  | some k => if k.ttl = none then some k else none

/-! ## The object -/

/-- the fields of a `Lock` its methods read; `token` is state of its own -/
structure Lock where
  timeout : Option Float
  sleep : Float
  blocking : Bool
  blockingTimeout : Option Float

/-- the defaults of `Redis.lock` -/
def Lock.default : Lock := ⟨none, 0.1, true, none⟩

/-- `(s * 1000.0) as i64` -/
def millis (s : Float) : Int := (s * 1000.0).toModel.toInt64.toInt

/-- the PX argument of a lock's SET -/
def Lock.px (lock : Lock) : Option Int :=
  let px := (lock.timeout.map millis).getD 0
  if 0 < px then some px else none

theorem px_of_no_timeout {lock : Lock} (h : lock.timeout = none) : lock.px = none := by
  simp [Lock.px, h]

/-- what a method raises -/
inductive LockFault where
  | lockNotOwned (msg : String)
  | redis (e : Fault)
  | notAnInteger
  | panicked

/-- how a call ends -/
inductive Outcome where
  | bool (b : Bool)
  | unit
  | raised (e : LockFault)

/-! ## A method in progress -/

/-- the locals of a method across its round trip -/
inductive Op (τ : Type) where
  | acquire (blocking : Bool) (deadline : Option Float) (token : τ) (px : Option Int)
  | release (token : τ)
  | extend (token : τ) (millis : Int)

def Op.token : Op τ → τ
  | .acquire _ _ token _ => token
  | .release token => token
  | .extend token _ => token

inductive Phase (τ : Type) where
  | sent (op : Op τ)
  | answered (op : Op τ) (reply : Except RedisError Value)
  | ended (out : Outcome)

/-- `Lock.acquire`, up to its first SET; `token` is the argument or a generated one -/
def Lock.acquire (lock : Lock) (now : Float) (blocking : Option Bool) (blockingTimeout : Option Float) (token : τ) :
    Phase τ :=
  .sent (.acquire (blocking.getD lock.blocking) ((blockingTimeout.or lock.blockingTimeout).map (now + ·)) token lock.px)

/-- `Lock.release`, up to its script -/
def release (held : Option τ) : Phase τ :=
  match held with
  | none => .ended (.raised (.lockNotOwned "Cannot release an unlocked lock"))
  | some token => .sent (.release token)

/-- `Lock.extend`, up to its script -/
def extend (held : Option τ) (additionalTime : Float) : Phase τ :=
  match held with
  | none => .ended (.raised (.lockNotOwned "Cannot extend an unlocked lock"))
  | some token => .sent (.extend token (millis additionalTime))

/-- the server runs a request -/
def Op.serve [DecidableEq τ] (op : Op τ) (key : Option (Key τ)) : Value × Option (Key τ) :=
  match op with
  | .acquire _ _ token px => setNx key token px
  | .release token => releaseScript key token
  | .extend token ms => extendScript key token ms

/-- the truth of what `set_value_to_py` makes of the answer to a SET without GET -/
def isTruthy : Value → Bool
  | .nil => false
  | .bulkString b => !b.isEmpty
  | _ => true

/-- `result.extract::<i64>()` -/
def extract : Value → Option Int
  | .int n => some n
  | _ => none

/-- `now_secs() >= d` for a deadline that is set -/
def expired (deadline : Option Float) (now : Float) : Bool :=
  deadline.any fun d => decide (d ≤ now)

/-- `Duration::from_secs_f64` panics on a value that is negative, too large or not a number -/
def sleepPanics (sleep : Float) : Bool :=
  !(decide (0 ≤ sleep) && decide (sleep < 18446744073709551616))

/-- a method goes on with the answer it got: its next phase, and the token its object keeps -/
def resume (lock : Lock) (now : Float) (held : Option τ) (op : Op τ) (reply : Except RedisError Value) :
    Phase τ × Option τ :=
  match reply with
  | .error e => (.ended (.raised (.redis (toPyErr e))), held)
  | .ok v =>
    match op with
    | .acquire blocking deadline token _ =>
      if isTruthy v then (.ended (.bool true), some token)
      else if !blocking then (.ended (.bool false), held)
      else if expired deadline now then (.ended (.bool false), held)
      else if sleepPanics lock.sleep then (.ended (.raised .panicked), held)
      else (.sent op, held)
    | .release _ =>
      match extract v with
      | none => (.ended (.raised .notAnInteger), held)
      | some n =>
        if n = 0 then (.ended (.raised (.lockNotOwned "Cannot release a lock owned by someone else")), held)
        else (.ended .unit, none)
    | .extend _ _ =>
      match extract v with
      | none => (.ended (.raised .notAnInteger), held)
      | some n => (.ended (.bool (decide (0 < n))), held)

/-! ## What the moves can do -/

/-- what a server step does to the key -/
inductive ServeMove : Op τ → Option (Key τ) → Value → Option (Key τ) → Prop
  | taken (blocking : Bool) (deadline : Option Float) (token : τ) (px : Option Int) :
      ServeMove (.acquire blocking deadline token px) none .okay (some ⟨token, px⟩)
  | refused (blocking : Bool) (deadline : Option Float) (token : τ) (px : Option Int) (k : Key τ) :
      ServeMove (.acquire blocking deadline token px) (some k) .nil (some k)
  | deleted (token : τ) (ttl : Option Int) : ServeMove (.release token) (some ⟨token, ttl⟩) (.int 1) none
  | prolonged (token : τ) (ttl : Option Int) (ms : Int) :
      ServeMove (.extend token ms) (some ⟨token, ttl⟩) (.int 1) (pexpire ⟨token, ttl⟩ ms)
  | missed {op : Op τ} {key : Option (Key τ)} (hop : op = .release op.token ∨ ∃ ms, op = .extend op.token ms)
      (hkey : ∀ k, key = some k → k.value ≠ op.token) : ServeMove op key (.int 0) key

theorem serve_cases [DecidableEq τ] (op : Op τ) (key : Option (Key τ)) :
    ServeMove op key (op.serve key).1 (op.serve key).2 := by
  cases op with
  | acquire blocking deadline token px =>
    cases key with
    | none => exact .taken blocking deadline token px
    | some k => exact .refused blocking deadline token px k
  | release token =>
    cases key with
    | none => exact .missed (.inl rfl) (by simp)
    | some k =>
      obtain ⟨value, ttl⟩ := k
      by_cases h : value = token
      · subst h
        simpa [Op.serve, releaseScript] using ServeMove.deleted value ttl
      · have hmissed : ServeMove (.release token) (some ⟨value, ttl⟩) (.int 0) (some ⟨value, ttl⟩) :=
          .missed (.inl rfl) (by simpa [Op.token] using h)
        simpa [Op.serve, releaseScript, h] using hmissed
  | extend token ms =>
    cases key with
    | none => exact .missed (.inr ⟨ms, rfl⟩) (by simp)
    | some k =>
      obtain ⟨value, ttl⟩ := k
      by_cases h : value = token
      · subst h
        simpa [Op.serve, extendScript] using ServeMove.prolonged value ttl ms
      · have hmissed : ServeMove (.extend token ms) (some ⟨value, ttl⟩) (.int 0) (some ⟨value, ttl⟩) :=
          .missed (.inr ⟨ms, rfl⟩) (by simpa [Op.token] using h)
        simpa [Op.serve, extendScript, h] using hmissed

/-- what a method does with its answer -/
inductive ResumeMove (lock : Lock) (now : Float) (held : Option τ) :
    Op τ → Except RedisError Value → Phase τ → Option τ → Prop
  | failed (op : Op τ) (e : RedisError) :
      ResumeMove lock now held op (.error e) (.ended (.raised (.redis (toPyErr e)))) held
  | acquired {blocking : Bool} {deadline : Option Float} {token : τ} {px : Option Int} {v : Value}
      (hv : isTruthy v = true) :
      ResumeMove lock now held (.acquire blocking deadline token px) (.ok v) (.ended (.bool true)) (some token)
  | gaveUp {blocking : Bool} {deadline : Option Float} {token : τ} {px : Option Int} {v : Value}
      (hv : isTruthy v = false) (hgive : (!blocking || expired deadline now) = true) :
      ResumeMove lock now held (.acquire blocking deadline token px) (.ok v) (.ended (.bool false)) held
  | panicked {blocking : Bool} {deadline : Option Float} {token : τ} {px : Option Int} {v : Value}
      (hv : isTruthy v = false) (hwait : (!blocking || expired deadline now) = false)
      (hsleep : sleepPanics lock.sleep = true) :
      ResumeMove lock now held (.acquire blocking deadline token px) (.ok v) (.ended (.raised .panicked)) held
  | again {blocking : Bool} {deadline : Option Float} {token : τ} {px : Option Int} {v : Value}
      (hv : isTruthy v = false) (hwait : (!blocking || expired deadline now) = false)
      (hsleep : sleepPanics lock.sleep = false) :
      ResumeMove lock now held (.acquire blocking deadline token px) (.ok v) (.sent (.acquire blocking deadline token px)) held
  | garbled {op : Op τ} {v : Value} (hop : op = .release op.token ∨ ∃ ms, op = .extend op.token ms)
      (hv : extract v = none) : ResumeMove lock now held op (.ok v) (.ended (.raised .notAnInteger)) held
  | notOwned {token : τ} {v : Value} (hv : extract v = some 0) :
      ResumeMove lock now held (.release token) (.ok v)
        (.ended (.raised (.lockNotOwned "Cannot release a lock owned by someone else"))) held
  | released {token : τ} {v : Value} {n : Int} (hv : extract v = some n) (hn : n ≠ 0) :
      ResumeMove lock now held (.release token) (.ok v) (.ended .unit) none
  | extended {token : τ} {ms : Int} {v : Value} {n : Int} (hv : extract v = some n) :
      ResumeMove lock now held (.extend token ms) (.ok v) (.ended (.bool (decide (0 < n)))) held

theorem resume_cases (lock : Lock) (now : Float) (held : Option τ) (op : Op τ) (reply : Except RedisError Value) :
    ResumeMove lock now held op reply (resume lock now held op reply).1 (resume lock now held op reply).2 := by
  cases reply with
  | error e => exact .failed op e
  | ok v =>
    cases op with
    | acquire blocking deadline token px =>
      cases hv : isTruthy v with
      | true => simpa [resume, hv] using ResumeMove.acquired hv
      | false =>
        simp only [resume, hv, Bool.false_eq_true, if_false]
        split_ifs with hb hd hs
        · exact .gaveUp hv (by simp [hb])
        · exact .gaveUp hv (by simp [hd])
        · exact .panicked hv (by simp [hb, hd]) hs
        · exact .again hv (by simp [hb, hd]) (by simpa using hs)
    | release token =>
      cases hv : extract v with
      | none =>
        simp only [resume, hv]
        exact .garbled (.inl rfl) hv
      | some n =>
        by_cases hn : n = 0
        · subst hn
          simpa [resume, hv] using ResumeMove.notOwned hv
        · simpa [resume, hv, hn] using ResumeMove.released hv hn
    | extend token ms =>
      cases hv : extract v with
      | none =>
        simp only [resume, hv]
        exact .garbled (.inr ⟨ms, rfl⟩) hv
      | some n => simpa [resume, hv] using ResumeMove.extended hv

end RedisRsPy.Locks
