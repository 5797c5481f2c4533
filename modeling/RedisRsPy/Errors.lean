/-
Errors of the driver (`errors.rs`, `exceptions.rs`): what a `redis::RedisError` shows to `classify_error`, the exception
classes, and the raw results that cross from the runtime to Python (`RawResult` in `async_bridge.rs`, restricted to the
variants the pipelines use).

A sync method maps an error with `to_py_err`; an async one sends `classify e` through the channel and `into_py` raises
it there. `outcome_classify` says that the two ways raise the same exception.
-/
import Mathlib.Data.List.Basic

namespace RedisRsPy

abbrev Bytes := List UInt8

/-- under a name of its own, so that membership is decided by one term wherever it stands -/
instance : LawfulBEq Bytes := inferInstance

/-- `str::as_bytes` -/
def asBytes (s : String) : Bytes := s.toUTF8.data.toList

/-! ## Errors of the redis crate -/

/-- `redis::ServerErrorKind`, as far as `classify_error` tells the kinds apart -/
inductive ServerErrorKind where
  | responseError
  | busyLoading
  | tryAgain
  | readOnly
  | noScript
  | execAbort
  | moved
  | ask
  | clusterDown
  | crossSlot
  | masterDown
  | noPerm
  | other
deriving DecidableEq, Repr

/-- `redis::ErrorKind` -/
inductive ErrorKind where
  | io
  | parse
  | server (k : ServerErrorKind)
  | extension
  | client
  | other
deriving DecidableEq, Repr

/-- how `Debug` prints the kind; the name of `other` is not kept -/
def ServerErrorKind.debug : ServerErrorKind → String
  | .responseError => "ResponseError"
  | .busyLoading => "BusyLoading"
  | .tryAgain => "TryAgain"
  | .readOnly => "ReadOnly"
  | .noScript => "NoScript"
  | .execAbort => "ExecAbort"
  | .moved => "Moved"
  | .ask => "Ask"
  | .clusterDown => "ClusterDown"
  | .crossSlot => "CrossSlot"
  | .masterDown => "MasterDown"
  | .noPerm => "NoPerm"
  | .other => "_"

/-- how `Debug` prints the kind -/
def ErrorKind.debug : ErrorKind → String
  | .io => "Io"
  | .parse => "Parse"
  | .server k => "Server(" ++ k.debug ++ ")"
  | .extension => "Extension"
  | .client => "Client"
  | .other => "_"

/-- the observations `classify_error` and `to_string` make on a `redis::RedisError` -/
structure RedisError where
  kind : ErrorKind
  code : Option String
  isTimeout : Bool
  isConnectionDropped : Bool
  isConnectionRefusal : Bool
  text : String
deriving DecidableEq, Repr

abbrev RedisResult (α : Type) := Except RedisError α

/-- `RedisError::from((kind, desc, detail))` -/
def RedisError.fromParts (kind : ErrorKind) (desc detail : String) : RedisError :=
  ⟨kind, some desc, false, false, false, desc ++ " - " ++ kind.debug ++ ": " ++ detail⟩

/-- `RedisError::from((kind, desc))` -/
def RedisError.fromKind (kind : ErrorKind) (desc : String) : RedisError :=
  ⟨kind, some desc, false, false, false, desc ++ " - " ++ kind.debug⟩

/-- an error reply with a code the crate knows -/
def RedisError.ofReply (kind : ServerErrorKind) (code detail : String) : RedisError :=
  ⟨.server kind, some code, false, false, false, kind.debug ++ ": " ++ detail⟩

/-- an error reply with any other code, which `Display` puts in quotes -/
def RedisError.ofExtension (code detail : String) : RedisError :=
  ⟨.extension, some code, false, false, false, "\"" ++ code ++ "\": " ++ detail⟩

/-! ## Exception classes -/

/-- `ExceptionClass` -/
inductive ExceptionClass where
  | RedisError
  | ConnectionError
  | TimeoutError
  | BusyLoadingError
  | AuthenticationError
  | ResponseError
  | NoScriptError
  | ExecAbortError
  | ReadOnlyError
  | NoPermissionError
  | OutOfMemoryError
  | ModuleError
  | InvalidResponse
  | DataError
  | MasterDownError
  | ClusterDownError
  | ClusterCrossSlotError
  | MovedError
  | AskError
  | TryAgainError
  | WatchError
  | PubSubError
deriving DecidableEq, Repr

/-- `str::to_ascii_uppercase` -/
def toAsciiUppercase (s : String) : String := String.ofList (s.toList.map Char.toUpper)

/-- the `ServerErrorKind` arm of `classify_error` (layer 2) -/
def classifyServer : ServerErrorKind → Option ExceptionClass
  | .busyLoading => some .BusyLoadingError
  | .tryAgain => some .TryAgainError
  | .readOnly => some .ReadOnlyError
  | .noScript => some .NoScriptError
  | .execAbort => some .ExecAbortError
  | .moved => some .MovedError
  | .ask => some .AskError
  | .clusterDown => some .ClusterDownError
  | .crossSlot => some .ClusterCrossSlotError
  | .masterDown => some .MasterDownError
  | .noPerm => some .NoPermissionError
  | .responseError | .other => none

/-- the code-sniffing arm of `classify_error` (layer 3) -/
def classifyCode (code : String) : Option ExceptionClass :=
  let codeUpper := toAsciiUppercase code
  if codeUpper = "OOM" then some .OutOfMemoryError
  else if codeUpper = "WRONGPASS" ∨ codeUpper = "NOAUTH" then some .AuthenticationError
  else if "MODULE".toList.isPrefixOf codeUpper.toList then some .ModuleError
  else if codeUpper = "NOTBUSY" then some .ResponseError
  else none

/-- `classify_error`: the layers in the order of the source -/
def classifyError (e : RedisError) : ExceptionClass :=
  if e.isTimeout then .TimeoutError
  else if e.isConnectionDropped ∨ e.isConnectionRefusal then .ConnectionError
  else if e.kind = .io then .ConnectionError
  else
    let layer2 := match e.kind with
      | .server sk => classifyServer sk
      | _ => none
    match layer2 with
    | some c => c
    | none =>
      match e.code.bind classifyCode with
      | some c => c
      | none =>
        if e.kind = .parse ∨ e.kind = .server .responseError ∨ e.kind = .extension then .ResponseError
        else .RedisError

/-- an error raised to Python: its class and message -/
structure PyErr where
  cls : ExceptionClass
  msg : String
deriving DecidableEq, Repr

/-- how a method fails: with a Python exception, or by a Rust panic (`unwrap` or `expect` on `None`) -/
inductive Fault where
  | raised (e : PyErr)
  | panicked (msg : String)
deriving DecidableEq, Repr

abbrev PyResult (α : Type) := Except Fault α

/-- `Err(PyErr::new::<cls, _>(msg))` -/
def raise {α : Type} (cls : ExceptionClass) (msg : String) : PyResult α := .error (.raised ⟨cls, msg⟩)

/-- `to_py_err` -/
def toPyErr (e : RedisError) : Fault := .raised ⟨classifyError e, e.text⟩

/-! ## Replies and raw results -/

/-- `redis::Value` -/
inductive Value where
  | nil
  | int (i : Int)
  | bulkString (b : Bytes)
  | array (items : List Value)
  | simpleString (s : String)
  | okay
  | map (pairs : List (Value × Value))
  | attribute (data : Value)
  | set (items : List Value)
  | double (bits : UInt64)
  | boolean (b : Bool)
  | verbatimString (text : String)
  | bigNumber (n : Int)
  | push (data : List Value)
  | serverError (e : RedisError)

/-- `RawResult`, the variants the pipelines send -/
inductive RawResult where
  | nil
  | bool (b : Bool)
  | value (v : Value)
  | error (cls : ExceptionClass) (msg : String)

/-- `classify`: what an async method sends for an error -/
def classify (e : RedisError) : RawResult := .error (classifyError e) e.text

/-- the exception side of `RawResult::into_py`: an error is raised, anything else is a result -/
def RawResult.outcome : RawResult → PyResult RawResult
  | .error cls msg => raise cls msg
  | r => .ok r

/-- **One classification.** The error an awaiting caller sees is the one a sync caller sees. -/
theorem outcome_classify (e : RedisError) : (classify e).outcome = .error (toPyErr e) := rfl

@[simp] theorem outcome_nil : RawResult.nil.outcome = .ok .nil := rfl

@[simp] theorem outcome_bool (b : Bool) : (RawResult.bool b).outcome = .ok (.bool b) := rfl

@[simp] theorem outcome_value (v : Value) : (RawResult.value v).outcome = .ok (.value v) := rfl

@[simp] theorem outcome_error (cls : ExceptionClass) (msg : String) :
    (RawResult.error cls msg).outcome = raise cls msg := rfl

end RedisRsPy
