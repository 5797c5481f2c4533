/-
`with redis.lock(name)` over any number of clients, without expiry.

Each client owns one `Lock` object and runs with-statements on it, one after the other: `__enter__` acquires, the body
runs, `__exit__` releases. The server steps and the clients' own moves interleave in any order; the server may refuse a
request, and an answer may be lost after the request has taken effect.

`__enter__` drops the result of `acquire`, so a client whose `acquire` returned False runs its body without the lock.

Results:
- `act_cases`: what one move of one client does to the key and to its own claim on it;
- `mutual_exclusion`: on the runs where no `acquire` returns False into `__enter__`, at most one client is in its body.
Witness (`two_bodies`): one client blocks, the other does not, and both are in their bodies.
-/
import RedisRsPy.Lib.Runs
import RedisRsPy.Locks.Lock

namespace RedisRsPy.Locks

open Lib

variable {τ : Type} [DecidableEq τ]

/-! ## One client -/

/-- where a client stands in its with-statement -/
inductive Stage (τ : Type) where
  | outside
  | entering (p : Phase τ)
  | body
  | exiting (p : Phase τ)

structure Client (τ : Type) where
  lock : Lock
  held : Option τ
  stage : Stage τ

/-- what becomes of a request: run, refused by the server, or run with its answer lost -/
inductive Fate where
  | served
  | refused (e : RedisError)
  | lost (e : RedisError)

/-- a request meets its fate -/
def Phase.answer (p : Phase τ) (key : Option (Key τ)) (fate : Fate) : Phase τ × Option (Key τ) :=
  match p with
  | .sent op =>
    match fate with
    | .served => (.answered op (.ok (op.serve key).1), (op.serve key).2)
    | .refused e => (.answered op (.error e), key)
    | .lost e => (.answered op (.error e), (op.serve key).2)
  | p => (p, key)

/-- `__enter__`: `acquire(..)?; Ok(slf)` -/
def entered : Phase τ → Stage τ
  | .ended (.raised _) => .outside
  | .ended _ => .body
  | p => .entering p

/-- `__exit__`: `release()?; Ok(false)` -/
def exited : Phase τ → Stage τ
  | .ended _ => .outside
  | p => .exiting p

inductive Act (τ : Type) where
  | enter (now : Float) (token : τ)
  | answer (fate : Fate)
  | resume (now : Float)
  | leave

/-- one move of a client; a move that does not fit its stage changes nothing -/
def Client.act (c : Client τ) (key : Option (Key τ)) (a : Act τ) : Client τ × Option (Key τ) :=
  match c.stage, a with
  | .outside, .enter now token => ({ c with stage := entered (c.lock.acquire now none none token) }, key)
  | .entering p, .answer fate => ({ c with stage := .entering (p.answer key fate).1 }, (p.answer key fate).2)
  | .exiting p, .answer fate => ({ c with stage := .exiting (p.answer key fate).1 }, (p.answer key fate).2)
  | .entering (.answered op reply), .resume now =>
    let (p, held) := resume c.lock now c.held op reply
    ({ c with held := held, stage := entered p }, key)
  | .exiting (.answered op reply), .resume now =>
    let (p, held) := resume c.lock now c.held op reply
    ({ c with held := held, stage := exited p }, key)
  | .body, .leave => ({ c with stage := exited (release c.held) }, key)
  | _, _ => (c, key)

/-! ## All clients on one key -/

variable {ι : Type} [DecidableEq ι]

structure World (ι τ : Type) where
  key : Option (Key τ)
  clients : ι → Client τ

inductive Event (ι τ : Type) where
  | client (i : ι) (a : Act τ)
  | expire

def step (w : World ι τ) (e : Event ι τ) : World ι τ :=
  match e with
  | .client i a =>
    ⟨((w.clients i).act w.key a).2, Function.update w.clients i ((w.clients i).act w.key a).1⟩
  | .expire => { w with key := expire w.key }

def World.inBody (w : World ι τ) (i : ι) : Bool :=
  match (w.clients i).stage with
  | .body => true
  | _ => false

/-- at most one client executes the body of its with-block -/
def MutualExclusion (w : World ι τ) : Prop := ∀ i j, w.inBody i = true → w.inBody j = true → i = j

/-- nobody is in a with-statement, and no lock has a timeout -/
structure Idle (w : World ι τ) : Prop where
  outside : ∀ i, (w.clients i).stage = .outside
  timeout : ∀ i, (w.clients i).lock.timeout = none

/-- the `acquire` of `__enter__` is about to return False: its SET was refused, and it does not wait any longer -/
def Client.gaveUp (c : Client τ) (now : Float) : Bool :=
  match c.stage with
  | .entering (.answered (.acquire blocking deadline _ _) (.ok v)) =>
    !isTruthy v && (!blocking || expired deadline now)
  | _ => false

/-- the discipline: no `acquire` of an `__enter__` returns False -/
def Acquires (w : World ι τ) (e : Event ι τ) : Prop :=
  match e with
  | .client i (.resume now) => (w.clients i).gaveUp now = false
  | _ => True

instance (w : World ι τ) (e : Event ι τ) : Decidable (Acquires w e) :=
  match e with
  | .client i (.resume now) => inferInstanceAs (Decidable ((w.clients i).gaveUp now = false))
  | .client _ (.enter _ _) | .client _ (.answer _) | .client _ .leave | .expire => inferInstanceAs (Decidable True)

/-! ## What a client's stage says of the key -/

/-- the client has the lock, under this token -/
inductive Holds (token : τ) : Client τ → Prop
  | acquired {lock : Lock} {held : Option τ} {blocking : Bool} {deadline : Option Float} {px : Option Int} {v : Value}
      (hv : isTruthy v = true) :
      Holds token ⟨lock, held, .entering (.answered (.acquire blocking deadline token px) (.ok v))⟩
  | inside {lock : Lock} : Holds token ⟨lock, some token, .body⟩
  | leaving {lock : Lock} {held : Option τ} : Holds token ⟨lock, held, .exiting (.sent (.release token))⟩

/-- a client without timeout in one of the stages a with-statement goes through when `acquire` never returns False -/
inductive Sane : Client τ → Prop
  | outside {lock : Lock} {held : Option τ} : Sane ⟨lock, held, .outside⟩
  | asking {lock : Lock} {held : Option τ} {blocking : Bool} {deadline : Option Float} {token : τ} :
      Sane ⟨lock, held, .entering (.sent (.acquire blocking deadline token none))⟩
  | asked {lock : Lock} {held : Option τ} {blocking : Bool} {deadline : Option Float} {token : τ}
      {reply : Except RedisError Value} :
      Sane ⟨lock, held, .entering (.answered (.acquire blocking deadline token none) reply)⟩
  | body {lock : Lock} {token : τ} : Sane ⟨lock, some token, .body⟩
  | leaving {lock : Lock} {held : Option τ} {token : τ} : Sane ⟨lock, held, .exiting (.sent (.release token))⟩
  | left {lock : Lock} {held : Option τ} {token : τ} {reply : Except RedisError Value} :
      Sane ⟨lock, held, .exiting (.answered (.release token) reply)⟩

/-- what one move does to the key and to the client's claim on it -/
inductive Effect (c c' : Client τ) (key key' : Option (Key τ)) : Prop
  | quiet (hkey : key' = key) (hheld : ∀ t, Holds t c' → Holds t c)
  | took (token : τ) (hfree : key = none) (hkey : key' = some ⟨token, none⟩) (hheld : ∀ t, Holds t c' → t = token)
  | freed (token : τ) (hheld : Holds token c) (hfree : ∀ t, ¬ Holds t c')

omit [DecidableEq τ] in
theorem sane_of_outside {c : Client τ} (h : c.stage = .outside) : Sane c := by
  obtain ⟨lock, held, stage⟩ := c
  cases h
  exact .outside

variable {lock : Lock} {held : Option τ} {key : Option (Key τ)}

/-- a SET NX meets its fate -/
theorem effect_asking (blocking : Bool) (deadline : Option Float) (token : τ) (fate : Fate) :
    Effect ⟨lock, held, .entering (.sent (.acquire blocking deadline token none))⟩
      ⟨lock, held, .entering ((Phase.sent (.acquire blocking deadline token none)).answer key fate).1⟩ key
      ((Phase.sent (.acquire blocking deadline token none)).answer key fate).2 := by
  have hserve := serve_cases (.acquire blocking deadline token none) key
  cases fate with
  | refused e => exact .quiet rfl fun t h => by cases h
  | served =>
    simp only [Phase.answer]
    generalize Op.serve (.acquire blocking deadline token none) key = answer at hserve ⊢
    obtain ⟨v, key'⟩ := answer
    cases hserve with
    | taken =>
      refine .took token rfl rfl fun t h => ?_
      cases h with
      | acquired hv => rfl
    | refused =>
      refine .quiet rfl fun t h => ?_
      cases h with
      | acquired hv => exact absurd hv Bool.false_ne_true
    | missed hop => exact absurd hop (by simp)
  | lost e =>
    simp only [Phase.answer]
    generalize Op.serve (.acquire blocking deadline token none) key = answer at hserve ⊢
    obtain ⟨v, key'⟩ := answer
    cases hserve with
    | taken => exact .took token rfl rfl fun t h => by cases h
    | refused => exact .quiet rfl fun t h => by cases h
    | missed hop => exact absurd hop (by simp)

omit [DecidableEq τ] in
/-- the `acquire` of an `__enter__` goes on -/
theorem effect_asked {blocking : Bool} {deadline : Option Float} {token : τ} {reply : Except RedisError Value}
    {now : Float} {p : Phase τ} {held' : Option τ}
    (hmove : ResumeMove lock now held (.acquire blocking deadline token none) reply p held')
    (hgave : Client.gaveUp (⟨lock, held, .entering (.answered (.acquire blocking deadline token none) reply)⟩ : Client τ)
      now = false) :
    Sane ⟨lock, held', entered p⟩ ∧
      Effect ⟨lock, held, .entering (.answered (.acquire blocking deadline token none) reply)⟩
        ⟨lock, held', entered p⟩ key key := by
  cases hmove with
  | failed => exact ⟨.outside, .quiet rfl fun t h => by cases h⟩
  | acquired hv =>
    refine ⟨.body, .quiet rfl fun t h => ?_⟩
    cases h with
    | inside => exact .acquired hv
  | gaveUp hv hgive => simp [Client.gaveUp, hv, hgive] at hgave
  | panicked => exact ⟨.outside, .quiet rfl fun t h => by cases h⟩
  | again => exact ⟨.asking, .quiet rfl fun t h => by cases h⟩
  | garbled hop => exact absurd hop (by simp)

/-- **One move of one client**, when its `acquire` does not return False -/
theorem act_cases {c : Client τ} {a : Act τ} (hsane : Sane c) (htimeout : c.lock.timeout = none)
    (hacquires : ∀ now, a = .resume now → c.gaveUp now = false) :
    Sane (c.act key a).1 ∧ Effect c (c.act key a).1 key (c.act key a).2 := by
  cases hsane with
  | @outside lock held =>
    cases a with
    | enter now token =>
      refine ⟨?_, .quiet rfl fun t h => by cases h⟩
      simp only [Client.act, Lock.acquire, entered, px_of_no_timeout htimeout]
      exact .asking
    | _ => exact ⟨.outside, .quiet rfl fun t h => h⟩
  | @asking lock held blocking deadline token =>
    cases a with
    | answer fate => exact ⟨by cases fate <;> exact .asked, effect_asking blocking deadline token fate⟩
    | _ => exact ⟨.asking, .quiet rfl fun t h => h⟩
  | @asked lock held blocking deadline token reply =>
    cases a with
    | resume now => exact effect_asked (resume_cases lock now held _ reply) (hacquires now rfl)
    | _ => exact ⟨.asked, .quiet rfl fun t h => h⟩
  | @body lock token =>
    cases a with
    | leave =>
      refine ⟨.leaving, .quiet rfl fun t h => ?_⟩
      cases h with
      | leaving => exact .inside
    | _ => exact ⟨.body, .quiet rfl fun t h => h⟩
  | @leaving lock held token =>
    cases a with
    | answer fate =>
      refine ⟨by cases fate <;> exact .left, ?_⟩
      cases fate with
      | refused e => exact .quiet rfl fun t h => by cases h
      | served => exact .freed token .leaving fun t h => by cases h
      | lost e => exact .freed token .leaving fun t h => by cases h
    | _ => exact ⟨.leaving, .quiet rfl fun t h => h⟩
  | @left lock held token reply =>
    cases a with
    | resume now =>
      have hmove := resume_cases lock now held (.release token) reply
      simp only [Client.act]
      generalize resume lock now held (.release token) reply = next at hmove ⊢
      obtain ⟨p, held'⟩ := next
      cases hmove <;> exact ⟨.outside, .quiet rfl fun t h => by cases h⟩
    | _ => exact ⟨.left, .quiet rfl fun t h => h⟩

theorem act_lock (c : Client τ) (key : Option (Key τ)) (a : Act τ) : (c.act key a).1.lock = c.lock := by
  unfold Client.act
  split <;> rfl

/-! ## The invariant -/

/-- the key is what each client takes it to be, and one client at most has it -/
structure Guarded (w : World ι τ) : Prop where
  timeout : ∀ i, (w.clients i).lock.timeout = none
  sane : ∀ i, Sane (w.clients i)
  owned : ∀ i t, Holds t (w.clients i) → w.key = some ⟨t, none⟩
  unique : ∀ i j s t, Holds s (w.clients i) → Holds t (w.clients j) → i = j

omit [DecidableEq τ] [DecidableEq ι] in
theorem guarded_idle {w : World ι τ} (h : Idle w) : Guarded w := by
  have hnone : ∀ i t, ¬ Holds t (w.clients i) := by
    intro i t hh
    have hstage := h.outside i
    generalize w.clients i = c at hh hstage
    cases hh <;> cases hstage
  exact ⟨h.timeout, fun i => sane_of_outside (h.outside i), fun i t hh => absurd hh (hnone i t),
    fun i j s t hh => absurd hh (hnone i s)⟩

omit [DecidableEq τ] in
/-- one client's effect, seen by all clients -/
theorem guarded_update {w : World ι τ} (h : Guarded w) {i : ι} {c' : Client τ} {key' : Option (Key τ)}
    (hsane : Sane c') (hlock : c'.lock = (w.clients i).lock) (heffect : Effect (w.clients i) c' w.key key') :
    Guarded ⟨key', Function.update w.clients i c'⟩ := by
  have htimeout : ∀ j, (Function.update w.clients i c' j).lock.timeout = none :=
    (Function.forall_update_iff w.clients fun _ c => c.lock.timeout = none).2 ⟨hlock ▸ h.timeout i, fun j _ => h.timeout j⟩
  have hall : ∀ j, Sane (Function.update w.clients i c' j) :=
    (Function.forall_update_iff w.clients fun _ c => Sane c).2 ⟨hsane, fun j _ => h.sane j⟩
  cases heffect with
  | quiet hkey hheld =>
    have hback : ∀ j t, Holds t (Function.update w.clients i c' j) → Holds t (w.clients j) :=
      (Function.forall_update_iff w.clients fun j c => ∀ t, Holds t c → Holds t (w.clients j)).2
        ⟨hheld, fun _ _ _ hh => hh⟩
    exact ⟨htimeout, hall, fun j t hh => hkey ▸ h.owned j t (hback j t hh),
      fun j k s t hs ht => h.unique j k s t (hback j s hs) (hback k t ht)⟩
  | took token hfree hkey hheld =>
    have hnobody : ∀ j t, ¬ Holds t (w.clients j) := fun j t hh => by simpa [hfree] using h.owned j t hh
    have honly : ∀ j t, Holds t (Function.update w.clients i c' j) → j = i ∧ t = token :=
      (Function.forall_update_iff w.clients fun j c => ∀ t, Holds t c → j = i ∧ t = token).2
        ⟨fun t hh => ⟨rfl, hheld t hh⟩, fun j _ t hh => absurd hh (hnobody j t)⟩
    refine ⟨htimeout, hall, fun j t hh => ?_, fun j k s t hs ht => ?_⟩
    · rw [(honly j t hh).2]
      exact hkey
    · rw [(honly j s hs).1, (honly k t ht).1]
  | freed token hheld hfree =>
    have hnobody : ∀ j t, ¬ Holds t (Function.update w.clients i c' j) :=
      (Function.forall_update_iff w.clients fun _ c => ∀ t, ¬ Holds t c).2
        ⟨hfree, fun j hj t hh => hj (h.unique j i t token hh hheld)⟩
    exact ⟨htimeout, hall, fun j t hh => absurd hh (hnobody j t), fun j _ s _ hs _ => absurd hs (hnobody j s)⟩

theorem guarded_step (w : World ι τ) (e : Event ι τ) (h : Guarded w) (he : Acquires w e) : Guarded (step w e) := by
  cases e with
  | client i a =>
    have hacquires : ∀ now, a = .resume now → (w.clients i).gaveUp now = false := by
      rintro now rfl
      exact he
    have hact : Sane ((w.clients i).act w.key a).1 ∧
        Effect (w.clients i) ((w.clients i).act w.key a).1 w.key ((w.clients i).act w.key a).2 :=
      act_cases (h.sane i) (h.timeout i) hacquires
    exact guarded_update h hact.1 (act_lock _ _ _) hact.2
  | expire =>
    refine ⟨h.timeout, h.sane, fun i t hh => ?_, h.unique⟩
    simp only [step, h.owned i t hh]
    rfl

omit [DecidableEq τ] [DecidableEq ι] in
theorem exclusion_of_guarded {w : World ι τ} (h : Guarded w) : MutualExclusion w := by
  have hholds : ∀ i, w.inBody i = true → ∃ t, Holds t (w.clients i) := by
    intro i hi
    have hsane := h.sane i
    unfold World.inBody at hi
    generalize w.clients i = c at hi hsane
    cases hsane with
    | body => exact ⟨_, .inside⟩
    | _ => simp at hi
  intro i j hi hj
  obtain ⟨s, hs⟩ := hholds i hi
  obtain ⟨t, ht⟩ := hholds j hj
  exact h.unique i j s t hs ht

/-! ## Mutual exclusion -/

/-- **Mutual exclusion of the with-block.** Where no `acquire` returns False into `__enter__`, at most one client is in
its body, in every state reached. -/
theorem mutual_exclusion {w : World ι τ} (hidle : Idle w) {l : List (Event ι τ)} (hl : Along step Acquires w l) :
    MutualExclusion (run step w l) :=
  exclusion_of_guarded (run_invariant guarded_step (guarded_idle hidle) hl)

/-- two clients with these locks, outside, and a free key -/
def twoClients (first second : Lock) : World Bool Nat :=
  ⟨none, fun i => ⟨if i then second else first, none, .outside⟩⟩

/-- a client enters: its call, the server's step, its answer -/
def enters (i : Bool) (token : Nat) : List (Event Bool Nat) :=
  [.client i (.enter 0 token), .client i (.answer .served), .client i (.resume 0)]

/-- two blocking clients in turn: the second waits until the first has left -/
theorem mutual_exclusion_in_turn :
    Idle (twoClients Lock.default Lock.default) ∧
      MutualExclusion (run step (twoClients Lock.default Lock.default)
        (enters false 1 ++ enters true 2 ++ [.client false .leave, .client false (.answer .served)])) :=
  ⟨⟨fun _ => rfl, fun i => by cases i <;> rfl⟩,
    mutual_exclusion ⟨fun _ => rfl, fun i => by cases i <;> rfl⟩ (by decide)⟩

/-- the second client does not block: its `acquire` returns False, and it runs its body beside the first -/
theorem two_bodies :
    ¬ ∀ (w : World Bool Nat) (l : List (Event Bool Nat)), Idle w → MutualExclusion (run step w l) := by
  intro h
  have hidle : Idle (twoClients Lock.default { Lock.default with blocking := false }) :=
    ⟨fun _ => rfl, fun i => by cases i <;> rfl⟩
  have hboth := h _ (enters false 1 ++ enters true 2) hidle false true (by decide) (by decide)
  exact absurd hboth (by decide)

end RedisRsPy.Locks
