/-
Scripts and functions (`commands/scripts.rs`). All of them agree on both clients (`agrees`).
-/
import RedisRsPy.Commands.Shapes

namespace RedisRsPy.Commands.Scripts

/-! ## Arguments -/

/-- `validate_flush_mode`, where a mode is given -/
def validateFlushMode : Option String → Arg
  | none => return
  | some mode =>
    match mode.toUpper with
    | "ASYNC" => return
    | "SYNC" => return
    | _ => throw (dataError ("flush mode must be ASYNC or SYNC, got " ++ mode))

/-- `validate_restore_policy`, where a policy is given -/
def validateRestorePolicy : Option String → Arg
  | none => return
  | some policy =>
    match policy.toUpper with
    | "FLUSH" => return
    | "APPEND" => return
    | "REPLACE" => return
    | _ => throw (dataError ("restore policy must be FLUSH, APPEND, or REPLACE, got " ++ policy))

/-! ## Commands -/

inductive Cmd where
  | eval
  | evalsha
  | evalRo
  | evalshaRo
  | scriptLoad
  | scriptExists
  | scriptFlush (mode : Option String)
  | scriptKill
  | fcall
  | fcallRo
  | functionLoad
  | functionDelete
  | functionDump
  | functionFlush (mode : Option String)
  | functionList
  | functionStats
  | functionKill
  | functionRestore (policy : Option String)

variable (S : Std)

def row : Cmd → Row
  | .eval => value S
  | .evalsha => value S
  | .evalRo => value S
  | .evalshaRo => value S
  | .scriptLoad => str S
  | .scriptExists => boolList S
  | .scriptFlush mode => done.checked (validateFlushMode mode)
  | .scriptKill => done
  | .fcall => value S
  | .fcallRo => value S
  | .functionLoad => str S
  | .functionDelete => done
  | .functionDump => bytes S
  | .functionFlush mode => done.checked (validateFlushMode mode)
  | .functionList => value S
  | .functionStats => value S
  | .functionKill => done
  | .functionRestore policy => done.checked (validateRestorePolicy policy)

variable {S}

/-- **Scripts agree.** -/
theorem agrees (c : Cmd) : (row S c).Agrees S := by
  cases c with
  | eval | evalsha | evalRo | evalshaRo | fcall | fcallRo | functionList | functionStats => exact agrees_value
  | scriptLoad | functionLoad => exact agrees_str
  | scriptExists => exact agrees_boolList
  | scriptFlush mode | functionFlush mode => exact agrees_done.checked _
  | functionRestore policy => exact agrees_done.checked _
  | scriptKill | functionDelete | functionKill => exact agrees_done
  | functionDump => exact agrees_bytes

end RedisRsPy.Commands.Scripts
