/-
Stream commands (`commands/streams.rs`).

The sync methods make their objects by `RawResult::into_py`, so all of them agree (`agrees`). `Redis::xread` and
`Redis::xreadgroup` have no guard.
-/
import RedisRsPy.Commands.Shapes

namespace RedisRsPy.Commands.Streams

/-! ## Arguments -/

/-- what a field value may be -/
inductive FieldValue where
  | bytes
  | str
  | int
  | float
  | other

/-- `coerce_field_value` -/
def coerceFieldValue : FieldValue → Arg
  | .other => throw (.builtin .TypeError "stream field value must be str, bytes, int, or float")
  | _ => return

/-- an item of a sequence of fields: a tuple or a list with its key and its value, or something else -/
inductive FieldItem where
  | pair (key : Arg) (val : Except Exn FieldValue)
  | other

/-- the fields as a dict, or as what iterating over them gives -/
inductive FieldsArg where
  | dict (entries : List (Arg × FieldValue))
  | items (entries : List (Except Exn FieldItem))

def fieldEntry (item : Except Exn FieldItem) : Except Exn FieldValue := do
  match ← item with
  | .pair key val =>
    key
    val
  | .other => throw (.builtin .TypeError "each field entry must be a (key, value) tuple or list")

/-- `parse_fields` -/
def parseFields : FieldsArg → Arg
  | .dict entries => entries.forM fun kv => do
    kv.1
    coerceFieldValue kv.2
  | .items entries => do
    let seq ← entries.mapM fieldEntry
    seq.forM coerceFieldValue

/-- the second and third argument of `xadd`: an id and the fields, or the fields first -/
inductive XaddArgs where
  | id (fields : Option FieldsArg)
  | fields (fields : FieldsArg)

def validateXadd : XaddArgs → Arg
  | .id none =>
    throw (.builtin .TypeError "xadd(key, id, fields): 'fields' is required when second arg is a string")
  | .id (some fields) => parseFields fields
  | .fields fields => parseFields fields

/-- where `cmd_xtrim` gives no command -/
def validateXtrim (maxlen : Option Int) (minid : Option String) : Arg :=
  if maxlen.isNone && minid.isNone then throw (dataError "xtrim requires maxlen or minid") else return

/-! ## Commands -/

inductive Cmd where
  | xadd (args : XaddArgs)
  | xlen
  | xdel (ids : List String)
  | xack (ids : List String)
  | xrange
  | xrevrange
  | xread (streams : List Arg) (block : Option Int)
  | xreadgroup (streams : List Arg) (block : Option Int)
  | xgroupCreate
  | xgroupSetid
  | xgroupDestroy
  | xgroupCreateconsumer
  | xgroupDelconsumer
  | xinfoStream
  | xinfoGroups
  | xinfoConsumers
  | xtrim (maxlen : Option Int) (minid : Option String)
  | xpending (min max : Option String) (count : Option Int)
  | xclaim (justid : Bool)
  | xautoclaim (justid : Bool)
  | xsetid

variable (S : Std)

/-- XREAD and XREADGROUP; `dict_to_stream_pairs` extracts the streams -/
def xread (streams : List Arg) (block : Option Int) : Row :=
  { renders S flattenXreadReply .streamReadEntries with
    syncSteps := [.check (extractAll streams)]
    asyncSteps := [.check (extractAll streams), .guard]
    blocking := block.isSome }

def xpending (min max : Option String) (count : Option Int) : Row :=
  let isRange := min.isSome || max.isSome || count.isSome
  if isRange then renders S flattenXpendingRange .streamPendingRange
  else renders S flattenXpendingSummary .streamPendingSummary

def xclaim (justid : Bool) : Row :=
  if justid then renders S justIds .streamClaimJustIds else renders S flattenXrangeReply .streamClaim

def xautoclaim (justid : Bool) : Row :=
  renders S splitXautoclaimReply fun (nextId, middle, deleted) =>
    if justid then .streamAutoclaimJustIds nextId (justIds middle) deleted
    else .streamAutoclaim nextId (flattenXrangeReply middle) deleted

def row : Cmd → Row
  | .xadd args => (optStr S).checked (validateXadd args)
  | .xlen => int S
  | .xdel ids => (int S).onEmpty ids.isEmpty (.int 0) (.int 0)
  | .xack ids => (int S).onEmpty ids.isEmpty (.int 0) (.int 0)
  | .xrange => renders S flattenXrangeReply .streamEntries
  | .xrevrange => renders S flattenXrangeReply .streamEntries
  | .xread streams block => xread S streams block
  | .xreadgroup streams block => xread S streams block
  | .xgroupCreate => done
  | .xgroupSetid => done
  | .xgroupDestroy => int S
  | .xgroupCreateconsumer => int S
  | .xgroupDelconsumer => int S
  | .xinfoStream => renders S mapPairsFromValue .streamInfoStream
  | .xinfoGroups => renders S flattenXinfoList .streamInfoGroups
  | .xinfoConsumers => renders S flattenXinfoList .streamInfoConsumers
  | .xtrim maxlen minid => (int S).checked (validateXtrim maxlen minid)
  | .xpending min max count => xpending S min max count
  | .xclaim justid => xclaim S justid
  | .xautoclaim justid => xautoclaim S justid
  | .xsetid => done

/-! ## Agreement -/

variable {S}

theorem agrees_xread (streams : List Arg) (block : Option Int) : (xread S streams block).Agrees S where
  convert _ := rfl
  wraps := rfl
  decodes := .inl rfl
  connectErr := rfl
  steps := by
    intro decode
    unfold xread
    cases extractAll streams <;> rfl

theorem agrees_xpending (min max : Option String) (count : Option Int) : (xpending S min max count).Agrees S := by
  unfold xpending
  dsimp only
  split
  · exact agrees_renders
  · exact agrees_renders

theorem agrees_xclaim (justid : Bool) : (xclaim S justid).Agrees S := by
  cases justid with
  | false => exact agrees_renders
  | true => exact agrees_renders

theorem agrees_xautoclaim (justid : Bool) : (xautoclaim S justid).Agrees S := agrees_renders

/-- **Stream commands agree.** -/
theorem agrees (c : Cmd) : (row S c).Agrees S := by
  cases c with
  | xadd args => exact agrees_optStr.checked _
  | xdel ids | xack ids => exact agrees_int.onEmpty rfl _ rfl rfl
  | xread streams block | xreadgroup streams block => exact agrees_xread streams block
  | xtrim maxlen minid => exact agrees_int.checked _
  | xpending min max count => exact agrees_xpending min max count
  | xclaim justid => exact agrees_xclaim justid
  | xautoclaim justid => exact agrees_xautoclaim justid
  | xlen | xgroupDestroy | xgroupCreateconsumer | xgroupDelconsumer => exact agrees_int
  | xrange | xrevrange | xinfoStream | xinfoGroups | xinfoConsumers => exact agrees_renders
  | xgroupCreate | xgroupSetid | xsetid => exact agrees_done

end RedisRsPy.Commands.Streams
