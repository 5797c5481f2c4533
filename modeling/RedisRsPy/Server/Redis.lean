/-
The server as pipelines use it: keys with values, a count of the modifications of each key, and for each connection the
keys it watches. It is a reply function on its state, so that any number of clients can share it.

WATCH notes the count of a key. EXEC (the end of an atomic pipe) is nil iff some key that its connection watches was
modified since, and then runs nothing of the block; either way the connection watches nothing afterwards. An empty pipe
is not sent at all: there is no EXEC, and no key is looked at. Of the data commands only GET and SET are needed here;
any other is answered with an error.
-/
import Mathlib.Logic.Function.Basic
import RedisRsPy.Connection.Reserved

namespace RedisRsPy

open Lib

structure Redis where
  store : Bytes → Option Bytes
  /-- how often each key was modified -/
  version : Bytes → ℕ
  /-- by connection: the keys it watches, with their counts at the WATCH -/
  watched : ℕ → List (Bytes × ℕ)
  /-- connections opened so far -/
  conns : ℕ

namespace Redis

/-- a modification of a key -/
def put (r : Redis) (k : Bytes) (v : Option Bytes) : Redis :=
  { r with store := Function.update r.store k v, version := Function.update r.version k (r.version k + 1) }

/-- the reply to GET -/
def getReply : Option Bytes → Value
  | some b => .bulkString b
  | none => .nil

/-- a data command -/
def command (r : Redis) (cmd : BufferedCmd) : Value × Redis :=
  match cmd.2 with
  | [k] => if cmd.1 = "GET" then (getReply (r.store k), r) else (.serverError (unknown cmd.1), r)
  | [k, v] => if cmd.1 = "SET" then (.okay, r.put k (some v)) else (.serverError (unknown cmd.1), r)
  | _ => (.serverError (unknown cmd.1), r)
where
  unknown (name : String) : RedisError := .ofReply .responseError "ERR" ("unknown command " ++ name)

def commands (r : Redis) : List BufferedCmd → List Value × Redis
  | [] => ([], r)
  | cmd :: cmds =>
    let o := r.command cmd
    let os := commands o.2 cmds
    (o.1 :: os.1, os.2)

/-- the connection watches nothing -/
def forget (r : Redis) (c : ℕ) : Redis := { r with watched := Function.update r.watched c [] }

def watchKey (c : ℕ) (r : Redis) (k : Bytes) : Redis :=
  { r with watched := Function.update r.watched c (r.watched c ++ [(k, r.version k)]) }

/-- an error reply is an `Err` of `query_async` -/
def toResult : Value → RedisResult Value
  | .serverError e => .error e
  | v => .ok v

/-- one command on connection `c` -/
def dispatch (r : Redis) (c : ℕ) (name : String) (args : List Bytes) : RedisResult Value × Redis :=
  if name = "WATCH" then (.ok .okay, args.foldl (watchKey c) r)
  else if name = "UNWATCH" then (.ok .okay, r.forget c)
  else
    let o := r.command (name, args)
    (toResult o.1, o.2)

/-- some key that `c` watches was modified since -/
def changed (r : Redis) (c : ℕ) : Bool := (r.watched c).any fun e => r.version e.1 ≠ e.2

/-- MULTI, the commands, EXEC on connection `c` -/
def exec (r : Redis) (c : ℕ) : List BufferedCmd → RedisResult Value × Redis
  -- `query_async` of an empty pipe sends nothing
  | [] => (.ok (.array []), r)
  | cmds =>
    if r.changed c then (.ok .nil, r.forget c)
    else
      let o := r.commands cmds
      (.ok (.array o.1), o.2.forget c)

/-- a fresh connection: nobody had it, and it watches nothing -/
def connect (r : Redis) : Redis := { r.forget r.conns with conns := r.conns + 1 }

/-- the server; it fails no call -/
def server : Server Query Answer Redis where
  reply r q := match q with
    | .reserve => (.ok r.conns, r.connect)
    | .cmd c name args => r.dispatch c name args
    | .atomicPipe c cmds => r.exec c cmds
    | .pipelineExec cmds _ =>
      let o := r.commands cmds
      (.ok o.1, o.2)

/-! ## The calls of an optimistic transaction -/

section Calls

variable (r : Redis) (c : ℕ) (k : Bytes)

theorem dispatch_watch : r.dispatch c "WATCH" [k] = (.ok .okay, watchKey c r k) := rfl

theorem dispatch_get : r.dispatch c "GET" [k] = (.ok (getReply (r.store k)), r) := by
  have hget : r.dispatch c "GET" [k] = (toResult (getReply (r.store k)), r) := rfl
  rw [hget]
  cases r.store k <;> rfl

theorem exec_set (v : Bytes) : r.exec c [("SET", [k, v])] =
    if r.changed c then (.ok .nil, r.forget c) else (.ok (.array [.okay]), (r.put k (some v)).forget c) := rfl

/-- a connection that watches one key -/
theorem changed_iff {n : ℕ} (h : r.watched c = [(k, n)]) : r.changed c = true ↔ r.version k ≠ n := by
  simp [changed, h]

@[simp] theorem watched_forget : (r.forget c).watched c = [] := by simp [forget]

theorem watched_forget_of_ne {c' : ℕ} (h : c' ≠ c) : (r.forget c).watched c' = r.watched c' := by simp [forget, h]

@[simp] theorem watched_watchKey : (watchKey c r k).watched c = r.watched c ++ [(k, r.version k)] := by
  simp [watchKey]

theorem watched_watchKey_of_ne {c' : ℕ} (h : c' ≠ c) : (watchKey c r k).watched c' = r.watched c' := by
  simp [watchKey, h]

@[simp] theorem store_put (v : Option Bytes) : (r.put k v).store k = v := by simp [put]

theorem store_put_of_ne {k' : Bytes} (v : Option Bytes) (h : k' ≠ k) : (r.put k v).store k' = r.store k' := by
  simp [put, h]

@[simp] theorem version_put (v : Option Bytes) : (r.put k v).version k = r.version k + 1 := by simp [put]

end Calls

end Redis

end RedisRsPy
