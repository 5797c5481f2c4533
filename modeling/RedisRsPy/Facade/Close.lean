/-
`close` and `__exit__` of the sync client and of its pub/sub object, while other threads are in calls on the same object
(`facade/sync.rs`, `facade/pubsub.rs`, `sync_op!` in `helpers.rs`).

A `&self` method holds a shared borrow of the object from its entry to its return, also while `py.detach` lets other
threads run; `close` and `__exit__` are `&mut self` methods, refused with RuntimeError while any borrow is live. Each
method is given by the places at which another thread can run: detached waits, and Python code that the method calls.
`Lock.acquire` borrows the client once for all its attempts and sleeps with the interpreter held, which is no such place.
`__next__` and `run_in_thread` borrow the pub/sub object only to look at it, and so does the worker loop between the
`get_message` it calls and the handler it calls.

Result (`close_succeeds_iff`): over any run of any number of threads, every `close` succeeds, marks its object closed and
has sent Shutdown, if and only if each meets no call on the client at all, and on the pub/sub object none but waiting
`__next__`s, `run_in_thread`s that start their thread and workers in a handler.
Witness (`close_during_wait`): a waiting `blpop`, and a `get_message` with a timeout.
-/
import RedisRsPy.Lib.Borrow

namespace RedisRsPy.Facade.Close

open Lib

/-! ## The sync client -/

namespace Client

structure Redis where
  closed : Bool
deriving DecidableEq, Repr

/-- `close`, and `__exit__`, which calls it -/
def close (r : Redis) : Redis := { r with closed := true }

/-- the methods that let other threads run before they return; those of a `Lock` borrow its client -/
inductive Call where
  /-- a command through `sync_op!` -/
  | command
  /-- a command on a blocking connection, such as `blpop` -/
  | blocking
  | pubsub
  /-- `Lock.acquire` -/
  | acquire (blocking : Bool)
  /-- `release`, `extend`, `owned` and `locked` of a `Lock` -/
  | lockCommand
deriving DecidableEq, Repr

/-- `sync_op!` looks at `closed`; a `Lock` works through commands -/
def Call.guarded : Call → Bool
  | .blocking | .pubsub => false
  | _ => true

def Call.ofLock : Call → Bool
  | .acquire _ | .lockCommand => true
  | _ => false

inductive Method where
  | plain (c : Call)
  /-- whether there are keys to watch, and whether there is a delay before the next try -/
  | transaction (watches delay : Bool)
deriving DecidableEq, Repr

inductive Place where
  /-- Python code that reading the arguments calls -/
  | arguments (m : Method)
  /-- the round trip, in `py.detach` -/
  | detached (c : Call)
  /-- Python code that the conversion of the reply, or of an error, calls -/
  | converting (c : Call)
  | watch (delay : Bool)
  | func (watches delay : Bool)
  | execute (watches delay : Bool)
  | reset (watches delay : Bool)
  | delay (watches : Bool)
deriving DecidableEq, Repr

/-- what the outside lets a call do next -/
inductive Answer where
  | go
  /-- Python code runs first -/
  | python
  | fail
  /-- the lock is not acquired and the deadline not over; the transaction ended in a WatchError -/
  | again
deriving DecidableEq, Repr

/-- the next request of a call that holds its borrow -/
def request (r : Redis) (c : Call) (acts : List Act) : Stretch Place :=
  if c.guarded && r.closed then ⟨acts ++ [.release], none⟩ else ⟨acts, some (.detached c)⟩

/-- the top of the loop of `transaction_helper` -/
def attempt (watches delay : Bool) (acts : List Act) : Stretch Place :=
  ⟨acts, some (if watches then .watch delay else .func watches delay)⟩

def start (r : Redis) (m : Method) (acts : List Act) : Stretch Place :=
  match m with
  | .plain c => request r c acts
  | .transaction watches delay => attempt watches delay acts

/-- a call up to its first place; a `Lock` borrows its client after it has read its own arguments -/
def enter (r : Redis) (m : Method) (b : Answer) : Stretch Place :=
  match m, b with
  | .plain c, .fail => ⟨if c.ofLock then [] else [.borrow, .release], none⟩
  | .plain c, .python => if c.ofLock then request r c [.borrow] else ⟨[.borrow], some (.arguments m)⟩
  | .transaction _ _, .fail => ⟨[.borrow, .release], none⟩
  | .transaction _ _, .python => ⟨[.borrow], some (.arguments m)⟩
  | m, _ => start r m [.borrow]

/-- after a round trip: only `acquire` makes another -/
def answered (r : Redis) (c : Call) (b : Answer) : Stretch Place :=
  match c, b with
  | _, .python => ⟨[], some (.converting c)⟩
  | .acquire true, .again => request r c []
  | _, _ => ⟨[.release], none⟩

def resume (r : Redis) (p : Place) (b : Answer) : Stretch Place :=
  match p with
  | .arguments m =>
    match b with
    | .python => ⟨[], some p⟩
    | .fail => ⟨[.release], none⟩
    | _ => start r m []
  | .detached c | .converting c => answered r c b
  | .watch delay => ⟨[], some (if b = .fail then .reset true delay else .func true delay)⟩
  | .func watches delay =>
    ⟨[], some (if b = .fail || b = .again then .reset watches delay else .execute watches delay)⟩
  | .execute watches delay => ⟨[], some (.reset watches delay)⟩
  | .reset watches delay =>
    if b = .again then
      if delay then ⟨[], some (.delay watches)⟩ else attempt watches delay []
    else ⟨[.release], none⟩
  | .delay watches => attempt watches true []

/-- places where the thread runs Python code -/
def Place.inPython : Place → Bool
  | .arguments _ | .converting _ | .func _ _ => true
  | _ => false

theorem request_balanced (r : Redis) (c : Call) {h : ℕ} {acts : List Act} (ht : tally h acts = some 1) :
    (request r c acts).Balanced (fun _ => 1) h := by
  unfold request Stretch.Balanced
  split
  · rw [tally_append, ht]
    rfl
  · exact ht

theorem start_balanced (r : Redis) (m : Method) {h : ℕ} {acts : List Act} (ht : tally h acts = some 1) :
    (start r m acts).Balanced (fun _ => 1) h := by
  cases m with
  | plain c => exact request_balanced r c ht
  | transaction watches delay => exact ht

theorem enter_balanced (r : Redis) (m : Method) (b : Answer) : (enter r m b).Balanced (fun _ => 1) 0 := by
  unfold enter
  split
  · rename_i c
    cases c.ofLock <;> rfl
  · rename_i c
    cases c.ofLock with
    | true => exact request_balanced r c rfl
    | false => rfl
  · rfl
  · rfl
  · exact start_balanced r _ rfl

theorem answered_balanced (r : Redis) (c : Call) (b : Answer) : (answered r c b).Balanced (fun _ => 1) 1 := by
  unfold answered
  split
  · rfl
  · exact request_balanced r _ rfl
  · rfl

theorem resume_balanced (r : Redis) (p : Place) (b : Answer) : (resume r p b).Balanced (fun _ => 1) 1 := by
  cases p with
  | arguments m =>
    cases b with
    | python => rfl
    | fail => rfl
    | go => exact start_balanced r m rfl
    | again => exact start_balanced r m rfl
  | detached c => exact answered_balanced r c b
  | converting c => exact answered_balanced r c b
  | watch delay => rfl
  | func watches delay => rfl
  | execute watches delay => rfl
  | reset watches delay =>
    simp only [resume]
    split
    · cases delay <;> rfl
    · rfl
  | delay watches => rfl

/-- every place of every call on the client is inside its borrow -/
def methods : Methods Redis Method Place Answer :=
  ⟨enter, resume, Place.inPython, fun _ => 1, enter_balanced, resume_balanced⟩

def step : World Redis Place → Event Method Answer → World Redis Place := methods.step close

def fresh : World Redis Place := .new ⟨false⟩

/-- a `close` is not refused, and the client is closed after it -/
def CloseWorks : World Redis Place → Event Method Answer → Prop := methods.Works close fun r => r.closed = true

/-- a `close` meets no call in progress -/
def Alone (w : World Redis Place) : Event Method Answer → Prop
  | .exclusive n => methods.mayCall w n = true → ∀ stack ∈ w.threads, stack = []
  | _ => True

theorem undisturbed_eq : methods.Undisturbed = Alone := by
  funext w e
  apply propext
  cases e with
  | exclusive n =>
    refine imp_congr_right fun _ => forall₂_congr fun stack _ => ?_
    cases stack with
    | nil => simp
    | cons p stack => exact iff_of_false (fun h => Nat.one_ne_zero (h p List.mem_cons_self)) (List.cons_ne_nil p stack)
  | _ => exact Iff.rfl

theorem close_works_iff (l : List (Event Method Answer)) :
    Along step CloseWorks fresh l ↔ Along step Alone fresh l := by
  rw [← undisturbed_eq]
  have hclosed : ∀ r : Redis, True → (close r).closed = true := fun _ _ => rfl
  exact along_works_iff methods (fun _ _ => trivial) hclosed trivial l

end Client

/-! ## The pub/sub object -/

namespace Listener

/-- `isOpen`: the object has its bridge; `shutdown`: it has sent Shutdown to the supervisor -/
structure PubSub where
  isOpen : Bool
  shutdown : Bool
deriving DecidableEq, Repr

/-- `close`, and `__exit__`, which calls it -/
def close (p : PubSub) : PubSub := if p.isOpen then { isOpen := false, shutdown := true } else p

inductive Method where
  /-- `subscribe`, `unsubscribe` and the other four, which wait for their acknowledgement -/
  | command
  | getMessage
  | next
  | runInThread
  /-- the body of a worker thread, with an exception handler or without one -/
  | worker (handler : Bool)
deriving DecidableEq, Repr

inductive Place where
  /-- Python code that reading the arguments calls, such as `__float__` of a timeout -/
  | arguments (m : Method)
  | ack
  /-- the wait of `get_message` -/
  | poll
  /-- the wait of `__next__` -/
  | await
  /-- `run_in_thread` makes the thread and starts it -/
  | start
  /-- the worker's `get_message` -/
  | workerPoll (handler : Bool)
  /-- the handler of a message, called by the worker -/
  | inHandler (handler : Bool)
  /-- the exception handler, called by the worker -/
  | inExceptionHandler
deriving DecidableEq, Repr

inductive Answer where
  /-- the call goes on; `running` is the flag of the worker thread -/
  | go (running : Bool)
  /-- Python code runs first -/
  | python
  | fail
  /-- the message is not for Python -/
  | skip
  /-- the message has a handler -/
  | handled
deriving DecidableEq, Repr

/-- a method that needs the bridge, up to its first wait -/
def useBridge (p : PubSub) (acts : List Act) (wait : Place) : Stretch Place :=
  if p.isOpen then ⟨acts, some wait⟩ else ⟨acts ++ [.release], none⟩

/-- what the worker does with an exception -/
def raised (handler : Bool) (acts : List Act) : Stretch Place :=
  ⟨acts, if handler then some .inExceptionHandler else none⟩

/-- the top of the worker's loop: on a closed object `get_message` raises -/
def workerLoop (p : PubSub) (handler running : Bool) (acts : List Act) : Stretch Place :=
  if !running then ⟨acts, none⟩
  else if p.isOpen then ⟨acts ++ [.borrow], some (.workerPoll handler)⟩
  else raised handler (acts ++ [.borrow, .release])

/-- a method after its arguments are read -/
def start (p : PubSub) (m : Method) (acts : List Act) : Stretch Place :=
  match m with
  | .command => useBridge p acts .ack
  | .getMessage => useBridge p acts .poll
  | .next => ⟨acts ++ [.release], if p.isOpen then some .await else none⟩
  | .runInThread => ⟨acts ++ [.release], if p.isOpen then some .start else none⟩
  | .worker _ => ⟨acts ++ [.release], none⟩

def enter (p : PubSub) (m : Method) (b : Answer) : Stretch Place :=
  match m, b with
  | .worker handler, .go running => workerLoop p handler running []
  | .worker _, _ => ⟨[], none⟩
  | .command, .python | .getMessage, .python => ⟨[.borrow], some (.arguments m)⟩
  | _, .fail => ⟨[.borrow, .release], none⟩
  | _, _ => start p m [.borrow]

def resume (p : PubSub) (place : Place) (b : Answer) : Stretch Place :=
  match place with
  | .arguments m =>
    match b with
    | .python => ⟨[], some place⟩
    | .fail => ⟨[.release], none⟩
    | _ => start p m []
  | .ack => ⟨[.release], none⟩
  | .poll => if b = .skip then ⟨[], some .poll⟩ else ⟨[.release], none⟩
  | .await => ⟨[], if b = .skip then some .await else none⟩
  | .start => ⟨[], none⟩
  | .workerPoll handler =>
    match b with
    | .skip => ⟨[], some place⟩
    | .fail => raised handler [.release]
    -- the lookup of the handler borrows the object once more
    | .handled => ⟨[.release, .borrow, .release], some (.inHandler handler)⟩
    | .go running => workerLoop p handler running [.release]
    | .python => workerLoop p handler true [.release]
  | .inHandler handler =>
    match b with
    | .fail => raised handler []
    | .go running => workerLoop p handler running []
    | _ => workerLoop p handler true []
  | .inExceptionHandler =>
    match b with
    | .go running => workerLoop p true running []
    | _ => workerLoop p true true []

def Place.inPython : Place → Bool
  | .arguments _ | .start | .inHandler _ | .inExceptionHandler => true
  | _ => false

/-- the call does not hold a borrow: a `__next__` has dropped its own, and so has whoever runs in a thread's start, in a
handler or in an exception handler -/
def Place.open : Place → Bool
  | .await | .start | .inHandler _ | .inExceptionHandler => true
  | _ => false

def Place.holds (place : Place) : ℕ := if place.open then 0 else 1

theorem useBridge_balanced (p : PubSub) {h : ℕ} {acts : List Act} {wait : Place} (ht : tally h acts = some 1)
    (hwait : wait.holds = 1) : (useBridge p acts wait).Balanced Place.holds h := by
  unfold useBridge Stretch.Balanced
  split
  · simpa [hwait] using ht
  · rw [tally_append, ht]
    rfl

theorem raised_balanced (handler : Bool) {h : ℕ} {acts : List Act} (ht : tally h acts = some 0) :
    (raised handler acts).Balanced Place.holds h := by
  cases handler <;> exact ht

theorem workerLoop_balanced (p : PubSub) (handler running : Bool) {h : ℕ} {acts : List Act}
    (ht : tally h acts = some 0) : (workerLoop p handler running acts).Balanced Place.holds h := by
  unfold workerLoop
  split
  · exact ht
  · split
    · rw [Stretch.Balanced, tally_append, ht]
      rfl
    · apply raised_balanced
      rw [tally_append, ht]
      rfl

theorem start_balanced (p : PubSub) (m : Method) {h : ℕ} {acts : List Act} (ht : tally h acts = some 1) :
    (start p m acts).Balanced Place.holds h := by
  have hdrop : tally h (acts ++ [.release]) = some 0 := by
    rw [tally_append, ht]
    rfl
  cases m with
  | command => exact useBridge_balanced p ht rfl
  | getMessage => exact useBridge_balanced p ht rfl
  | next =>
    rw [start, Stretch.Balanced, hdrop]
    cases p.isOpen <;> rfl
  | runInThread =>
    rw [start, Stretch.Balanced, hdrop]
    cases p.isOpen <;> rfl
  | worker handler => exact hdrop

theorem enter_balanced (p : PubSub) (m : Method) (b : Answer) : (enter p m b).Balanced Place.holds 0 := by
  unfold enter
  split
  · exact workerLoop_balanced p _ _ rfl
  · rfl
  · rfl
  · rfl
  · rfl
  · exact start_balanced p m rfl

theorem resume_balanced (p : PubSub) (place : Place) (b : Answer) :
    (resume p place b).Balanced Place.holds place.holds := by
  cases place with
  | arguments m =>
    cases b with
    | python => rfl
    | fail => rfl
    | go running => exact start_balanced p m rfl
    | skip => exact start_balanced p m rfl
    | handled => exact start_balanced p m rfl
  | ack => rfl
  | poll =>
    simp only [resume]
    split
    · rfl
    · rfl
  | await =>
    simp only [resume]
    split
    · rfl
    · rfl
  | start => rfl
  | workerPoll handler =>
    cases b with
    | go running => exact workerLoop_balanced p handler running rfl
    | python => exact workerLoop_balanced p handler true rfl
    | fail => exact raised_balanced handler rfl
    | skip => rfl
    | handled => rfl
  | inHandler handler =>
    cases b with
    | go running => exact workerLoop_balanced p handler running rfl
    | python => exact workerLoop_balanced p handler true rfl
    | fail => exact raised_balanced handler rfl
    | skip => exact workerLoop_balanced p handler true rfl
    | handled => exact workerLoop_balanced p handler true rfl
  | inExceptionHandler =>
    cases b with
    | go running => exact workerLoop_balanced p true running rfl
    | python => exact workerLoop_balanced p true true rfl
    | fail => exact workerLoop_balanced p true true rfl
    | skip => exact workerLoop_balanced p true true rfl
    | handled => exact workerLoop_balanced p true true rfl

def methods : Methods PubSub Method Place Answer :=
  ⟨enter, resume, Place.inPython, Place.holds, enter_balanced, resume_balanced⟩

def step : World PubSub Place → Event Method Answer → World PubSub Place := methods.step close

def fresh : World PubSub Place := .new ⟨true, false⟩

/-- a `close` is not refused, the object is closed after it, and the supervisor has been sent Shutdown -/
def CloseWorks : World PubSub Place → Event Method Answer → Prop :=
  methods.Works close fun p => p.isOpen = false ∧ p.shutdown = true

/-- a `close` meets no call in progress that holds its borrow -/
def Unborrowed (w : World PubSub Place) : Event Method Answer → Prop
  | .exclusive n => methods.mayCall w n = true → ∀ stack ∈ w.threads, ∀ place ∈ stack, place.open = true
  | _ => True

theorem undisturbed_eq : methods.Undisturbed = Unborrowed := by
  funext w e
  apply propext
  cases e with
  | exclusive n =>
    refine imp_congr_right fun _ => forall₂_congr fun stack _ => forall₂_congr fun place _ => ?_
    show place.holds = 0 ↔ place.open = true
    simp [Place.holds]
  | _ => exact Iff.rfl

/-- an object without its bridge has sent Shutdown -/
def Settled (p : PubSub) : Prop := p.isOpen = false → p.shutdown = true

theorem close_settled {p : PubSub} (hp : Settled p) : (close p).isOpen = false ∧ (close p).shutdown = true := by
  unfold close
  split
  · exact ⟨rfl, rfl⟩
  · rename_i h
    have hclosed : p.isOpen = false := by simpa using h
    exact ⟨hclosed, hp hclosed⟩

theorem close_works_iff (l : List (Event Method Answer)) :
    Along step CloseWorks fresh l ↔ Along step Unborrowed fresh l := by
  rw [← undisturbed_eq]
  refine along_works_iff methods (I := Settled) ?_ ?_ ?_ l
  · intro p hp _
    exact (close_settled hp).2
  · intro p hp
    exact close_settled hp
  · intro h
    cases h

end Listener

/-! ## Every run -/

/-- **close() at every moment.** It succeeds in exactly the runs in which every `close` of the client meets no call in
progress on it, and every `close` of the pub/sub object only waiting `__next__`s, threads being started and workers in a
handler. -/
theorem close_succeeds_iff (l : List (Event Client.Method Client.Answer))
    (l' : List (Event Listener.Method Listener.Answer)) :
    (Along Client.step Client.CloseWorks Client.fresh l ↔ Along Client.step Client.Alone Client.fresh l) ∧
      (Along Listener.step Listener.CloseWorks Listener.fresh l' ↔
        Along Listener.step Listener.Unborrowed Listener.fresh l') :=
  ⟨Client.close_works_iff l, Listener.close_works_iff l'⟩

/-- one thread waits in `blpop`, another calls `close` -/
def closeDuringBlpop : List (Event Client.Method Client.Answer) :=
  [.spawn, .spawn, .call 0 (.plain .blocking) .go, .exclusive 1]

/-- one thread waits in `get_message`, another calls `close` -/
def closeDuringGetMessage : List (Event Listener.Method Listener.Answer) :=
  [.spawn, .spawn, .call 0 .getMessage (.go true), .exclusive 1]

/-- neither object is closed -/
theorem close_during_wait :
    ¬ Along Client.step Client.CloseWorks Client.fresh closeDuringBlpop ∧
      ¬ Along Listener.step Listener.CloseWorks Listener.fresh closeDuringGetMessage := by
  rw [Client.close_works_iff, Listener.close_works_iff]
  constructor
  · intro h
    have halone := h.2.2.2.1 rfl
    exact List.cons_ne_nil _ _ (halone _ List.mem_cons_self)
  · intro h
    have hopen := h.2.2.2.1 rfl _ List.mem_cons_self _ List.mem_cons_self
    cases hopen

end RedisRsPy.Facade.Close
