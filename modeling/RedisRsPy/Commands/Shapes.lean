/-
The shapes that most rows have, named after what Python gets, and what the checks of arguments are made of.

A shape is the type a reply is read as, the object a sync method makes of it and the raw result an async method sends.
Each comes with the lemma that the two agree. Sync methods that return a Rust value (`PyResult<i64>` and the like) leave
it to the binding to make the object, and so have no `maybe_decode`.
-/
import RedisRsPy.Commands.Row

namespace RedisRsPy.Commands

/-! ## Arguments -/

/-- what extracting one argument comes to -/
abbrev Arg := Except Exn Unit

/-- arguments extracted one after the other -/
def extractAll (args : List Arg) : Arg := args.forM id

/-- `PyErr::new::<DataError, _>` -/
def dataError (msg : String) : Exn := shapeError .DataError msg

/-- one of the keys of MGET or fields of HMGET: itself as a string, and its items where it is a list or a tuple -/
structure KeyArg where
  key : Arg
  items : Option (List Arg)

/-- `flatten_mget_keys`; the number of keys where all of them are strings -/
def flattenKeys (args : List KeyArg) : Except Exn ℕ :=
  match args with
  | [⟨_, some items⟩] => do
    extractAll items
    return items.length
  | args => do
    extractAll (args.map KeyArg.key)
    return args.length

/-- all are strings, and there are none -/
def noKeys (args : List KeyArg) : Bool :=
  match flattenKeys args with
  | .ok 0 => true
  | _ => false

/-- the modifiers of the EXPIRE commands -/
structure ExpireFlags where
  nx : Bool
  xx : Bool
  gt : Bool
  lt : Bool

def ExpireFlags.count (f : ExpireFlags) : ℕ := [f.nx, f.xx, f.gt, f.lt].count true

/-! ## Shapes -/

variable (S : Std)

def int : Row := undecoded (reads S .i64 .int .int)

def bool : Row := undecoded (reads S .bool .bool .bool)

/-- a flag that the server sends as a number -/
def flagOfInt : Row := undecoded (fetches (isOne S) .bool .bool)

def float : Row := undecoded (reads S .f64 .float .f64)

def str : Row := undecoded (reads S .string .str .str)

def unit : Row := undecoded (reads S .unit (fun _ => .none) fun _ => .nil)

def optInt : Row := undecoded (reads S (.opt .i64) (optPy .int) .optInt)

def optFloat : Row := undecoded (reads S (.opt .f64) (optPy .float) .optF64)

def optStr : Row := undecoded (reads S (.opt .string) (optPy .str) .optStr)

def intList : Row := undecoded (reads S (.vec .i64) (listPy .int) .intList)

def boolList : Row := undecoded (reads S (.vec .bool) (listPy .bool) .boolList)

/-- whatever the reply is, None -/
def done : Row := undecoded (parses (fun _ => ()) (fun _ => .ok .none) fun _ => .nil)

def bytes : Row := reads S .bytes .bytes fun b => .optBytes (some b)

def optBytes : Row := reads S (.opt .bytes) (optPy .bytes) .optBytes

def bytesList : Row := reads S (.vec .bytes) bytesListPy .bytesList

def optBytesList : Row := reads S (.vec (.opt .bytes)) (listPy (optPy .bytes)) .optBytesList

def setOfBytes : Row := reads S (.vec .bytes) setOfBytesPy .setOfBytes

def scoredMembers : Row := reads S (.vec (.pair .bytes .f64)) scoredMembersPy .scoredMembers

/-- the reply as it is -/
def value : Row := parses id (redisValueToPy S) .value

/-- the sync method, too, makes the object by `RawResult::into_py` -/
def renders {α : Type} (parse : Value → α) (raw : α → RawResult) : Row := parses parse (fun a => (raw a).intoPy S) raw

variable {S}

theorem agrees_int : (int S).Agrees S := agrees_undecoded_of_plain (agrees_reads fun _ => rfl) fun _ => rfl

theorem agrees_bool : (bool S).Agrees S := agrees_undecoded_of_plain (agrees_reads fun _ => rfl) fun _ => rfl

theorem agrees_flagOfInt : (flagOfInt S).Agrees S := agrees_undecoded_of_plain (agrees_fetches fun _ => rfl) fun _ => rfl

theorem agrees_float : (float S).Agrees S := agrees_undecoded_of_plain (agrees_reads fun _ => rfl) fun _ => rfl

theorem agrees_str : (str S).Agrees S := agrees_undecoded_of_plain (agrees_reads fun _ => rfl) fun _ => rfl

theorem agrees_unit : (unit S).Agrees S := agrees_undecoded_of_plain (agrees_reads fun _ => rfl) fun _ => rfl

theorem agrees_optInt : (optInt S).Agrees S := agrees_undecoded_of_plain (agrees_reads fun _ => rfl) fun _ => rfl

theorem agrees_optFloat : (optFloat S).Agrees S := agrees_undecoded_of_plain (agrees_reads fun _ => rfl) fun _ => rfl

theorem agrees_optStr : (optStr S).Agrees S := agrees_undecoded_of_plain (agrees_reads fun _ => rfl) fun _ => rfl

theorem agrees_intList : (intList S).Agrees S := agrees_undecoded_of_plain (agrees_reads fun _ => rfl) fun _ => rfl

theorem agrees_boolList : (boolList S).Agrees S := agrees_undecoded_of_plain (agrees_reads fun _ => rfl) fun _ => rfl

theorem agrees_done : done.Agrees S := agrees_undecoded_of_plain (agrees_parses fun _ => rfl) fun _ => rfl

theorem agrees_bytes : (bytes S).Agrees S := agrees_reads fun _ => rfl

theorem agrees_optBytes : (optBytes S).Agrees S := agrees_reads fun _ => rfl

theorem agrees_bytesList : (bytesList S).Agrees S := agrees_reads fun _ => rfl

theorem agrees_optBytesList : (optBytesList S).Agrees S := agrees_reads fun _ => rfl

theorem agrees_setOfBytes : (setOfBytes S).Agrees S := agrees_reads fun _ => rfl

theorem agrees_scoredMembers : (scoredMembers S).Agrees S := agrees_reads fun _ => rfl

theorem agrees_value : (value S).Agrees S := agrees_parses fun _ => rfl

theorem agrees_renders {α : Type} {parse : Value → α} {raw : α → RawResult} : (renders S parse raw).Agrees S :=
  agrees_parses fun _ => rfl

end RedisRsPy.Commands
