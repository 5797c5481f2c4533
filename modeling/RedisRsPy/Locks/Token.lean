/-
The token of a `Lock`, over any number of objects on one name and any interleaving of their calls.

Calls of `acquire`, `release` and `extend` run on the objects, possibly several on one object at a time. The server
runs their requests one by one, or refuses them; the key may expire between any two steps. Each call keeps a record of
what its requests did to the key, and of the token its object had before and after it ended.

Results:
- `told_resume`: what a call that goes on with an answer leaves in its record;
- `served_cases`: which requests change a key that is there;
- `token_safety`: in every state reached, a release or extend that changed the key found its own object's token in it;
  a release that returned found its token, removed the key and left its object without token; a release or extend that
  raised LockNotOwnedError or returned False changed neither key nor token; an acquire stored its token if and only if
  its SET took the key.
-/
import RedisRsPy.Lib.Runs
import RedisRsPy.Locks.Lock

namespace RedisRsPy.Locks.Token

open Lib

variable {ι κ τ : Type}

/-! ## Calls on lock objects -/

/-- a call and its arguments; `token` is the argument of `acquire`, or what `generate_token` gave it -/
inductive Call (τ : Type) where
  | acquire (blocking : Option Bool) (blockingTimeout : Option Float) (token : τ)
  | release
  | extend (additionalTime : Float)

/-- the lock objects on one name and the calls on them; no token is given to two objects -/
structure Scene (ι κ τ : Type) where
  lock : ι → Lock
  obj : κ → ι
  call : κ → Call τ
  distinct : ∀ c d b bt b' bt' t, call c = .acquire b bt t → call d = .acquire b' bt' t → obj c = obj d

/-- one of the object's tokens -/
def Scene.Owns (scene : Scene ι κ τ) (i : ι) (token : τ) : Prop :=
  ∃ c b bt, scene.obj c = i ∧ scene.call c = .acquire b bt token

/-- the call's own part before its first request -/
def Scene.begin (scene : Scene ι κ τ) (c : κ) (now : Float) (held : Option τ) : Phase τ :=
  match scene.call c with
  | .acquire blocking blockingTimeout token => (scene.lock (scene.obj c)).acquire now blocking blockingTimeout token
  | .release => release held
  | .extend additionalTime => extend held additionalTime

/-- a request the server ran, and the key before and after it -/
structure Served (τ : Type) where
  op : Op τ
  before : Option (Key τ)
  after : Option (Key τ)

/-- a call: its phase (none before it is made), what the server ran for it, and at its end its object's token before
and after -/
structure Record (τ : Type) where
  phase : Option (Phase τ)
  served : List (Served τ)
  left : Option (Option τ × Option τ)

/-- what the record of a call keeps when it ends -/
def leaves (p : Phase τ) (before after : Option τ) : Option (Option τ × Option τ) :=
  match p with
  | .ended _ => some (before, after)
  | _ => none

/-! ## What a record tells -/

/-- none of these requests changed the key -/
def Unchanged (served : List (Served τ)) : Prop := ∀ s ∈ served, s.after = s.before

section

variable {scene : Scene ι κ τ} {c : κ}

/-- a request the call makes -/
inductive Asks (scene : Scene ι κ τ) (c : κ) : Op τ → Prop
  | acquire {b : Option Bool} {bt : Option Float} {token : τ} (blocking : Bool) (deadline : Option Float)
      (h : scene.call c = .acquire b bt token) :
      Asks scene c (.acquire blocking deadline token (scene.lock (scene.obj c)).px)
  | release {token : τ} (h : scene.call c = .release) (hown : scene.Owns (scene.obj c) token) :
      Asks scene c (.release token)
  | extend {time : Float} {token : τ} (h : scene.call c = .extend time) (hown : scene.Owns (scene.obj c) token) :
      Asks scene c (.extend token (millis time))

/-- how a call ended: its outcome, its requests, its object's token before and after -/
inductive Ends (scene : Scene ι κ τ) (c : κ) : Outcome → List (Served τ) → Option τ → Option τ → Prop
  | acquired {b : Option Bool} {bt : Option Float} {token : τ} {served : List (Served τ)} {held : Option τ}
      {s : Served τ} (h : scene.call c = .acquire b bt token) (hs : s ∈ served) (hfree : s.before = none)
      (hset : s.after = some ⟨token, (scene.lock (scene.obj c)).px⟩) : Ends scene c (.bool true) served held (some token)
  | released {token : τ} {ttl : Option Int} {served : List (Served τ)} {held : Option τ}
      (h : scene.call c = .release) (hown : scene.Owns (scene.obj c) token)
      (hs : ⟨.release token, some ⟨token, ttl⟩, none⟩ ∈ served) : Ends scene c .unit served held none
  | extended {time : Float} {served : List (Served τ)} {held : Option τ} (h : scene.call c = .extend time) :
      Ends scene c (.bool true) served held held
  | nothing {out : Outcome} {served : List (Served τ)} {held : Option τ} (hunit : out ≠ .unit)
      (htrue : out ≠ .bool true) (h : Unchanged served) : Ends scene c out served held held

/-- what a call's record tells, by its phase -/
inductive Told (scene : Scene ι κ τ) (c : κ) : Record τ → Prop
  | idle : Told scene c ⟨none, [], none⟩
  | sent {op : Op τ} {served : List (Served τ)} (hop : Asks scene c op) (h : Unchanged served) :
      Told scene c ⟨some (.sent op), served, none⟩
  | refused {op : Op τ} {e : RedisError} {served : List (Served τ)} (hop : Asks scene c op) (h : Unchanged served) :
      Told scene c ⟨some (.answered op (.error e)), served, none⟩
  | answered {op : Op τ} {v : Value} {before after : Option (Key τ)} {served : List (Served τ)} (hop : Asks scene c op)
      (hmove : ServeMove op before v after) (h : Unchanged served) :
      Told scene c ⟨some (.answered op (.ok v)), ⟨op, before, after⟩ :: served, none⟩
  | ended {out : Outcome} {served : List (Served τ)} {before after : Option τ}
      (h : Ends scene c out served before after) : Told scene c ⟨some (.ended out), served, some (before, after)⟩

/-- every request in the record was one of the call's, run by the server -/
def Traced (scene : Scene ι κ τ) (c : κ) (served : List (Served τ)) : Prop :=
  ∀ s ∈ served, Asks scene c s.op ∧ ∃ v, ServeMove s.op s.before v s.after

theorem Unchanged.cons {served : List (Served τ)} (h : Unchanged served) {op : Op τ} {key : Option (Key τ)} :
    Unchanged (⟨op, key, key⟩ :: served) := by
  rintro s (_ | ⟨_, hs⟩)
  · rfl
  · exact h s hs

/-- the call before its first request: it reads the token of its object -/
theorem told_begin {held : Option τ} (hheld : ∀ token, held = some token → scene.Owns (scene.obj c) token)
    (now : Float) :
    Told scene c ⟨some (scene.begin c now held), [], leaves (scene.begin c now held) held held⟩ := by
  have hempty : Unchanged ([] : List (Served τ)) := fun s hs => by cases hs
  unfold Scene.begin
  split
  · rename_i b bt token hcall
    exact .sent (.acquire _ _ hcall) hempty
  · rename_i hcall
    cases held with
    | none => exact .ended (.nothing (by simp) (by simp) hempty)
    | some token => exact .sent (.release hcall (hheld token rfl)) hempty
  · rename_i time hcall
    cases held with
    | none => exact .ended (.nothing (by simp) (by simp) hempty)
    | some token => exact .sent (.extend hcall (hheld token rfl)) hempty

section

variable {served : List (Served τ)} {before after : Option (Key τ)} {held held' : Option τ} {lock : Lock} {now : Float}
  {v : Value} {p : Phase τ}

/-- an `acquire` after its SET was run -/
theorem told_acquire {b : Option Bool} {bt : Option Float} {blocking : Bool} {deadline : Option Float} {token : τ}
    (hcall : scene.call c = .acquire b bt token) (h : Unchanged served)
    (hserve : ServeMove (.acquire blocking deadline token (scene.lock (scene.obj c)).px) before v after)
    (hmove : ResumeMove lock now held (.acquire blocking deadline token (scene.lock (scene.obj c)).px) (.ok v) p held') :
    Told scene c ⟨some p, ⟨.acquire blocking deadline token (scene.lock (scene.obj c)).px, before, after⟩ :: served,
      leaves p held held'⟩ := by
  cases hserve with
  | taken =>
    cases hmove with
    | acquired => exact .ended (.acquired hcall List.mem_cons_self rfl rfl)
    | gaveUp hv => exact absurd hv (by decide)
    | panicked hv => exact absurd hv (by decide)
    | again hv => exact absurd hv (by decide)
    | garbled hop => exact absurd hop (by simp)
  | refused =>
    cases hmove with
    | acquired hv => exact absurd hv (by decide)
    | gaveUp => exact .ended (.nothing (by simp) (by simp) h.cons)
    | panicked => exact .ended (.nothing (by simp) (by simp) h.cons)
    | again => exact .sent (.acquire _ _ hcall) h.cons
    | garbled hop => exact absurd hop (by simp)
  | missed hop => exact absurd hop (by simp)

/-- a `release` after its script was run -/
theorem told_release {token : τ} (hcall : scene.call c = .release) (hown : scene.Owns (scene.obj c) token)
    (h : Unchanged served) (hserve : ServeMove (.release token) before v after)
    (hmove : ResumeMove lock now held (.release token) (.ok v) p held') :
    Told scene c ⟨some p, ⟨.release token, before, after⟩ :: served, leaves p held held'⟩ := by
  cases hserve with
  | deleted =>
    cases hmove with
    | garbled hop hv => exact absurd hv (by simp [extract])
    | notOwned hv => exact absurd hv (by simp [extract])
    | released => exact .ended (.released hcall hown List.mem_cons_self)
  | missed =>
    cases hmove with
    | garbled hop hv => exact absurd hv (by simp [extract])
    | notOwned hv => exact .ended (.nothing (by simp) (by simp) h.cons)
    | released hv hn =>
      cases hv
      exact absurd rfl hn

/-- an `extend` after its script was run -/
theorem told_extend {time : Float} {token : τ} (hcall : scene.call c = .extend time) (h : Unchanged served)
    (hserve : ServeMove (.extend token (millis time)) before v after)
    (hmove : ResumeMove lock now held (.extend token (millis time)) (.ok v) p held') :
    Told scene c ⟨some p, ⟨.extend token (millis time), before, after⟩ :: served, leaves p held held'⟩ := by
  cases hserve with
  | prolonged =>
    cases hmove with
    | garbled hop hv => exact absurd hv (by simp [extract])
    | extended hv =>
      cases hv
      exact .ended (.extended hcall)
  | missed =>
    cases hmove with
    | garbled hop hv => exact absurd hv (by simp [extract])
    | extended hv =>
      cases hv
      exact .ended (.nothing (by simp) (by simp) h.cons)

/-- the call after an answer -/
theorem told_resume {op : Op τ} {reply : Except RedisError Value}
    (htold : Told scene c ⟨some (.answered op reply), served, none⟩) (hmove : ResumeMove lock now held op reply p held') :
    Told scene c ⟨some p, served, leaves p held held'⟩ := by
  cases htold with
  | refused hop h =>
    cases hmove with
    | failed => exact .ended (.nothing (by simp) (by simp) h)
  | answered hop hserve h =>
    cases hop with
    | acquire _ _ hcall => exact told_acquire hcall h hserve hmove
    | release hcall hown => exact told_release hcall hown h hserve hmove
    | extend hcall hown => exact told_extend hcall h hserve hmove

/-- a token an object has after an answer is the one it had, or the one the call gave it -/
theorem owns_resume {op : Op τ} {reply : Except RedisError Value} (hop : Asks scene c op)
    (hmove : ResumeMove lock now held op reply p held') {token : τ} (ht : held' = some token) :
    held = some token ∨ scene.Owns (scene.obj c) token := by
  cases hmove with
  | acquired hv =>
    cases ht
    cases hop with
    | acquire _ _ hcall => exact .inr ⟨c, _, _, rfl, hcall⟩
  | released => cases ht
  | _ => exact .inl ht

end

end

/-! ## All calls on one key -/

variable [DecidableEq ι] [DecidableEq κ] [DecidableEq τ]

structure World (ι κ τ : Type) where
  key : Option (Key τ)
  held : ι → Option τ
  record : κ → Record τ

/-- fresh objects; the key may be there already -/
def World.start (key : Option (Key τ)) : World ι κ τ := ⟨key, fun _ => none, fun _ => ⟨none, [], none⟩⟩

inductive Event (κ : Type) where
  | call (c : κ) (now : Float)
  | serve (c : κ)
  | refuse (c : κ) (e : RedisError)
  | resume (c : κ) (now : Float)
  | expire

/-- call `c` moves to a new record; the key and the token of its object become these -/
def World.put (scene : Scene ι κ τ) (w : World ι κ τ) (c : κ) (key : Option (Key τ)) (held : Option τ) (r : Record τ) :
    World ι κ τ :=
  ⟨key, Function.update w.held (scene.obj c) held, Function.update w.record c r⟩

def step (scene : Scene ι κ τ) (w : World ι κ τ) (e : Event κ) : World ι κ τ :=
  match e with
  | .call c now =>
    match (w.record c).phase with
    | none =>
      let held := w.held (scene.obj c)
      let p := scene.begin c now held
      w.put scene c w.key held ⟨some p, (w.record c).served, leaves p held held⟩
    | some _ => w
  | .serve c =>
    match (w.record c).phase with
    | some (.sent op) =>
      let (v, key) := op.serve w.key
      w.put scene c key (w.held (scene.obj c))
        ⟨some (.answered op (.ok v)), ⟨op, w.key, key⟩ :: (w.record c).served, none⟩
    | _ => w
  | .refuse c e =>
    match (w.record c).phase with
    | some (.sent op) =>
      w.put scene c w.key (w.held (scene.obj c)) ⟨some (.answered op (.error e)), (w.record c).served, none⟩
    | _ => w
  | .resume c now =>
    match (w.record c).phase with
    | some (.answered op reply) =>
      let held := w.held (scene.obj c)
      let (p, held') := resume (scene.lock (scene.obj c)) now held op reply
      w.put scene c w.key held' ⟨some p, (w.record c).served, leaves p held held'⟩
    | _ => w
  | .expire => { w with key := expire w.key }

/-! ## What is safe -/

def Call.isAcquire : Call τ → Bool
  | .acquire .. => true
  | _ => false

/-- the record of call `c` tells nothing unsafe -/
structure SafeCall (scene : Scene ι κ τ) (c : κ) (r : Record τ) : Prop where
  /-- release and extend change the key only where it holds the caller's own token -/
  own : (scene.call c).isAcquire = false → ∀ s ∈ r.served, s.after ≠ s.before →
    ∃ k, s.before = some k ∧ k.value = s.op.token ∧ scene.Owns (scene.obj c) k.value
  /-- a key with another object's token is left alone -/
  foreign : ∀ s ∈ r.served, ∀ k i, s.before = some k → scene.Owns i k.value → i ≠ scene.obj c → s.after = s.before
  /-- a release that returned owned the key, and has dropped its token -/
  released : r.phase = some (.ended .unit) → (∃ before, r.left = some (before, none)) ∧
    ∃ token ttl, scene.Owns (scene.obj c) token ∧ ⟨.release token, some ⟨token, ttl⟩, none⟩ ∈ r.served
  /-- a release or extend that is told it does not own the lock changed nothing -/
  notOwned : (scene.call c).isAcquire = false → ∀ out, r.phase = some (.ended out) →
    out = .bool false ∨ (∃ msg, out = .raised (.lockNotOwned msg)) →
    Unchanged r.served ∧ ∃ held, r.left = some (held, held)
  /-- an acquire that ended stored its token if and only if its SET took the key -/
  acquired : ∀ b bt token, scene.call c = .acquire b bt token → ∀ out, r.phase = some (.ended out) →
    (out = .bool true ∧ (∃ before, r.left = some (before, some token)) ∧
      ∃ s ∈ r.served, s.before = none ∧ s.after = some ⟨token, (scene.lock (scene.obj c)).px⟩) ∨
    (out ≠ .bool true ∧ (∃ held, r.left = some (held, held)) ∧ Unchanged r.served)

structure Safe (scene : Scene ι κ τ) (w : World ι κ τ) : Prop where
  /-- an object's token is its own -/
  held : ∀ i token, w.held i = some token → scene.Owns i token
  calls : ∀ c, SafeCall scene c (w.record c)
  /-- a key that is there is changed by its expiry, or by a release or extend of the object whose token it holds -/
  key : ∀ e k, w.key = some k → (step scene w e).key ≠ some k →
    e = .expire ∨ ∃ c, e = .serve c ∧ (scene.call c).isAcquire = false ∧ scene.Owns (scene.obj c) k.value

/-! ## The invariant -/

section

variable {scene : Scene ι κ τ} {w : World ι κ τ}

structure Inv (scene : Scene ι κ τ) (w : World ι κ τ) : Prop where
  own : ∀ i token, w.held i = some token → scene.Owns i token
  told : ∀ c, Told scene c (w.record c)
  traced : ∀ c, Traced scene c (w.record c).served

omit [DecidableEq ι] [DecidableEq κ] [DecidableEq τ] in
theorem inv_start (key : Option (Key τ)) : Inv scene (World.start key) :=
  ⟨fun _ _ h => (nomatch h), fun _ => .idle, fun _ _ h => (nomatch h)⟩

omit [DecidableEq τ] in
/-- a call's new record, seen by all objects and calls -/
theorem inv_put (h : Inv scene w) {c : κ} {key : Option (Key τ)} {held : Option τ} {r : Record τ}
    (hheld : ∀ token, held = some token → scene.Owns (scene.obj c) token) (htold : Told scene c r)
    (htraced : Traced scene c r.served) : Inv scene (w.put scene c key held r) := by
  refine ⟨?_, ?_, ?_⟩
  · exact (Function.forall_update_iff w.held fun i t => ∀ token, t = some token → scene.Owns i token).2
      ⟨hheld, fun i _ => h.own i⟩
  · exact (Function.forall_update_iff w.record fun d r => Told scene d r).2 ⟨htold, fun d _ => h.told d⟩
  · exact (Function.forall_update_iff w.record fun d r => Traced scene d r.served).2 ⟨htraced, fun d _ => h.traced d⟩

omit [DecidableEq τ] in
/-- a call goes on with its answer -/
theorem inv_resume (h : Inv scene w) {c : κ} {op : Op τ} {reply : Except RedisError Value} {served : List (Served τ)}
    {p : Phase τ} {held : Option τ} {lock : Lock} {now : Float}
    (htold : Told scene c ⟨some (.answered op reply), served, none⟩) (htraced : Traced scene c served)
    (hop : Asks scene c op) (hmove : ResumeMove lock now (w.held (scene.obj c)) op reply p held) :
    Inv scene (w.put scene c w.key held ⟨some p, served, leaves p (w.held (scene.obj c)) held⟩) := by
  refine inv_put h (fun token ht => ?_) (told_resume htold hmove) htraced
  rcases owns_resume hop hmove ht with hsame | hown
  · exact h.own _ token hsame
  · exact hown

theorem inv_step (w : World ι κ τ) (e : Event κ) (h : Inv scene w) : Inv scene (step scene w e) := by
  cases e with
  | expire => exact ⟨h.own, h.told, h.traced⟩
  | call c now =>
    have htold := h.told c
    simp only [step]
    generalize w.record c = r at htold ⊢
    cases htold with
    | idle => exact inv_put h (h.own _) (told_begin (h.own _) now) fun s hs => nomatch hs
    | _ => exact h
  | serve c =>
    have htold := h.told c
    have htraced := h.traced c
    simp only [step]
    generalize w.record c = r at htold htraced ⊢
    cases htold with
    | @sent op served hop hsame =>
      have hserve := serve_cases op w.key
      refine inv_put h (h.own _) (.answered hop hserve hsame) ?_
      rintro s (_ | ⟨_, hs⟩)
      · exact ⟨hop, _, hserve⟩
      · exact htraced s hs
    | _ => exact h
  | refuse c e =>
    have htold := h.told c
    have htraced := h.traced c
    simp only [step]
    generalize w.record c = r at htold htraced ⊢
    cases htold with
    | sent hop hsame => exact inv_put h (h.own _) (.refused hop hsame) htraced
    | _ => exact h
  | resume c now =>
    have htold := h.told c
    have htraced := h.traced c
    simp only [step]
    generalize w.record c = r at htold htraced ⊢
    cases htold with
    | refused hop hsame => exact inv_resume h (.refused hop hsame) htraced hop (resume_cases ..)
    | answered hop hserve hsame => exact inv_resume h (.answered hop hserve hsame) htraced hop (resume_cases ..)
    | _ => exact h

omit [DecidableEq ι] [DecidableEq κ] [DecidableEq τ] in
theorem owns_unique {i j : ι} {token : τ} (hi : scene.Owns i token) (hj : scene.Owns j token) : i = j := by
  obtain ⟨c, b, bt, rfl, hc⟩ := hi
  obtain ⟨d, b', bt', rfl, hd⟩ := hj
  exact scene.distinct c d b bt b' bt' token hc hd

omit [DecidableEq ι] [DecidableEq κ] [DecidableEq τ] in
/-- a request of a call changes a key that is there only where the call releases or extends, and owns it -/
theorem served_cases {c : κ} {op : Op τ} {k : Key τ} {v : Value} {after : Option (Key τ)} (hop : Asks scene c op)
    (hmove : ServeMove op (some k) v after) (hne : after ≠ some k) :
    (scene.call c).isAcquire = false ∧ k.value = op.token ∧ scene.Owns (scene.obj c) k.value := by
  cases hmove with
  | refused => exact absurd rfl hne
  | missed => exact absurd rfl hne
  | deleted token ttl =>
    cases hop with
    | release hcall hown => exact ⟨by rw [hcall]; rfl, rfl, hown⟩
  | prolonged token ttl ms =>
    cases hop with
    | extend hcall hown => exact ⟨by rw [hcall]; rfl, rfl, hown⟩

omit [DecidableEq ι] [DecidableEq κ] [DecidableEq τ] in
/-- the record of a call that has ended says how -/
theorem ends_of_told {c : κ} {r : Record τ} (htold : Told scene c r) {out : Outcome}
    (hphase : r.phase = some (.ended out)) :
    ∃ before after, r.left = some (before, after) ∧ Ends scene c out r.served before after := by
  cases htold with
  | ended h =>
    cases hphase
    exact ⟨_, _, rfl, h⟩
  | _ => cases hphase

omit [DecidableEq ι] [DecidableEq κ] [DecidableEq τ] in
theorem safe_call {c : κ} {r : Record τ} (htold : Told scene c r) (htraced : Traced scene c r.served) :
    SafeCall scene c r := by
  refine ⟨?_, ?_, ?_, ?_, ?_⟩
  · rintro hcall ⟨op, before, after⟩ hs hne
    obtain ⟨hop, v, hmove⟩ := htraced _ hs
    cases before with
    | some k =>
      obtain ⟨_, htoken, hown⟩ := served_cases hop hmove hne
      exact ⟨k, rfl, htoken, hown⟩
    | none =>
      cases hmove with
      | taken =>
        cases hop with
        | acquire _ _ h => simp [h, Call.isAcquire] at hcall
      | missed => exact absurd rfl hne
  · rintro ⟨op, before, after⟩ hs k i rfl hown hi
    by_contra hne
    obtain ⟨hop, v, hmove⟩ := htraced _ hs
    exact hi (owns_unique hown (served_cases hop hmove hne).2.2)
  · intro hphase
    obtain ⟨before, after, hleft, hends⟩ := ends_of_told htold hphase
    cases hends with
    | released hcall hown hs => exact ⟨⟨before, hleft⟩, _, _, hown, hs⟩
    | nothing hunit => exact absurd rfl hunit
  · intro hcall out hphase hout
    obtain ⟨before, after, hleft, hends⟩ := ends_of_told htold hphase
    cases hends with
    | nothing _ _ hsame => exact ⟨hsame, before, hleft⟩
    | _ => simp at hout
  · intro b bt token hcall out hphase
    obtain ⟨before, after, hleft, hends⟩ := ends_of_told htold hphase
    cases hends with
    | acquired hcall' hs hfree hset =>
      cases hcall.symm.trans hcall'
      exact .inl ⟨rfl, ⟨before, hleft⟩, _, hs, hfree, hset⟩
    | released hcall' => cases hcall.symm.trans hcall'
    | extended hcall' => cases hcall.symm.trans hcall'
    | nothing _ htrue hsame => exact .inr ⟨htrue, ⟨before, hleft⟩, hsame⟩

theorem safe_key (h : Inv scene w) (e : Event κ) (k : Key τ) (hk : w.key = some k)
    (hne : (step scene w e).key ≠ some k) :
    e = .expire ∨ ∃ c, e = .serve c ∧ (scene.call c).isAcquire = false ∧ scene.Owns (scene.obj c) k.value := by
  cases e with
  | expire => exact .inl rfl
  | serve c =>
    have htold := h.told c
    simp only [step] at hne
    generalize w.record c = r at htold hne
    cases htold with
    | @sent op served hop hsame =>
      have hmove := serve_cases op w.key
      rw [hk] at hmove hne
      obtain ⟨hcall, _, hown⟩ := served_cases hop hmove hne
      exact .inr ⟨c, rfl, hcall, hown⟩
    | _ => exact absurd hk hne
  | _ =>
    refine absurd ?_ hne
    simp only [step]
    split <;> exact hk

end

/-- **Token safety.** In every state any interleaving of the calls, the server and expiry reaches. -/
theorem token_safety (scene : Scene ι κ τ) (key : Option (Key τ)) (l : List (Event κ)) :
    Safe scene (run (step scene) (World.start key) l) := by
  have hinv := run_invariant' (I := Inv scene) inv_step l (inv_start key)
  exact ⟨hinv.own, fun c => safe_call (hinv.told c) (hinv.traced c), safe_key hinv⟩

end RedisRsPy.Locks.Token
