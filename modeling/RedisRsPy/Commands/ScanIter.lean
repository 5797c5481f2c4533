/-
`scan_iter` (`_scan_iter.py`): a generator that calls `Redis.scan` with the cursor of the last page until the server sends
cursor 0.

The generator is a list of events: the vectors it sends, the keys it yields, and how it ends. The server is any reply
function on a state of its own; `Answers` says which pages it gives when each page is asked for with the cursor of the
page before.

Results:
- `scan_page`: a page through `Redis.scan`, with its cursor and keys as they were sent;
- `scanIter_pages`: the events of a run over pages;
- `scan_iter_enumerates`: cursors and keys of the whole run.
-/
import RedisRsPy.Commands.Cursor
import RedisRsPy.Commands.Wire

namespace RedisRsPy.Commands.ScanIter

open Lib.Fallible

/-! ## The call -/

/-- the arguments `match`, `count` and `type` -/
structure Filters where
  pattern : Option String
  count : Option Int
  type : Option String

/-- `if let Some(s) = .. { cmd.arg(key).arg(s); }` -/
def optText (key : String) : Option String → List Bytes
  | some s => [asBytes key, asBytes s]
  | none => []

/-- `cmd_scan` -/
def cmdScan (cursor : ℕ) (filters : Filters) : Cmd :=
  [asBytes "SCAN", lenArg cursor] ++ optText "MATCH" filters.pattern ++ optArg "COUNT" filters.count ++
    optText "TYPE" filters.type

/-- a Python int as the `u64` argument `cursor` -/
def cursorArg : PyObj → Except Exn ℕ
  | .int n => if 0 ≤ n ∧ n < 2 ^ 64 then .ok n.toNat else .error (.builtin (.other "OverflowError") "int out of range")
  | _ => .error (.builtin .TypeError "not an int")

/-- `cursor, keys = page` -/
def unpack : PyObj → Except Exn (PyObj × PyObj)
  | .tuple [cursor, keys] => .ok (cursor, keys)
  | .list [cursor, keys] => .ok (cursor, keys)
  | _ => .error (.builtin .ValueError "expected 2 values")

/-- what `yield from` goes through -/
def iterate : PyObj → Except Exn (List PyObj)
  | .list items => .ok items
  | .tuple items => .ok items
  | _ => .error (.builtin .TypeError "not a list of keys")

/-! ## The generator -/

inductive Event where
  | send (cmd : Cmd)
  | yield (key : PyObj)
  | raise (e : Exn)
  | stop

variable (S : Std) {σ : Type} (server : Cmd → σ → RedisResult Value × σ) (decode : Option Codec) (filters : Filters)

/-- `self.scan(..)` on the reply -/
def scan (reply : RedisResult Value) : PyRes := syncOutcome S decode ⟨.ok (), reply⟩ (.admin .scan)

/-- what the loop takes from the call: the cursor and the keys -/
def nextPage (reply : RedisResult Value) : Except Exn (PyObj × List PyObj) := do
  let page ← scan S decode reply
  let (cursor, keys) ← unpack page
  let keys ← iterate keys
  return (cursor, keys)

/-- `scan_iter`, for so many turns of its loop -/
def scanIter : ℕ → PyObj → σ → List Event
  | 0, _, _ => []
  | turns + 1, cursor, s =>
    match cursorArg cursor with
    | .error e => [.raise e]
    | .ok c =>
      let answer := server (cmdScan c filters) s
      .send (cmdScan c filters) :: match nextPage S decode answer.1 with
        | .error e => [.raise e]
        | .ok (cursor, keys) =>
          keys.map .yield ++ if sameKey cursor (.int 0) then [.stop] else scanIter turns cursor answer.2

/-! ## Pages -/

structure Page where
  cursor : ℕ
  fits : cursor < 2 ^ 64
  keys : List Bytes

/-- the page as the server sends it -/
def Page.reply (p : Page) : Value :=
  .array [.bulkString (asBytes (toString p.cursor)), .array (p.keys.map .bulkString)]

/-- asked with the cursor of the page before, the server gives these pages, and only the last has cursor 0 -/
inductive Answers : ℕ → σ → List Page → Prop where
  | last {cursor : ℕ} {s s' : σ} {p : Page} (answer : server (cmdScan cursor filters) s = (.ok p.reply, s'))
      (zero : p.cursor = 0) : Answers cursor s [p]
  | more {cursor : ℕ} {s s' : σ} {p : Page} {pages : List Page}
      (answer : server (cmdScan cursor filters) s = (.ok p.reply, s')) (nonzero : p.cursor ≠ 0)
      (rest : Answers p.cursor s' pages) : Answers cursor s (p :: pages)

/-! ## One page -/

theorem parseU64_toString {n : ℕ} (h : n < 2 ^ 64) : parseU64 (asBytes (toString n)) = some n := by
  have hdigits := parseDigits_toString n
  obtain ⟨d, rest, htext, hrange⟩ := toString_cons n
  rw [htext] at hdigits ⊢
  have hplus : d ≠ 43 := by
    rintro rfl
    exact absurd hrange.1 (by decide)
  have hsplit : parseU64 (d :: rest) = (parseDigits (d :: rest)).filter (· < 2 ^ 64) := by
    unfold parseU64
    split
    · rename_i heq
      exact absurd (List.cons.inj heq).1 hplus
    · rfl
  rw [hsplit, hdigits]
  exact Option.filter_some_pos (decide_eq_true h)

theorem parseScanReply_page (p : Page) : parseScanReply p.reply = (p.cursor, p.keys) := by
  have hkeys : (p.keys.map Value.bulkString).filterMap text? = p.keys := by
    rw [List.filterMap_map]
    exact List.filterMap_some
  show ((parseU64 (asBytes (toString p.cursor))).getD 0, (p.keys.map Value.bulkString).filterMap text?) = _
  rw [parseU64_toString p.fits, hkeys]
  rfl

variable {S server decode filters}

theorem scan_page (p : Page) :
    scan S decode (.ok p.reply) = maybeDecode decode (.tuple [.int p.cursor, bytesListPy p.keys]) := by
  show maybeDecode decode (Admin.scanPy (parseScanReply p.reply)) = _
  rw [parseScanReply_page]
  rfl

theorem decodeItems_keys {codec : Codec} {shown : Bytes → String} {keys : List Bytes}
    (h : ∀ k ∈ keys, codec.decode k = .ok (shown k)) :
    decodeItems codec (keys.map .bytes) = .ok (keys.map fun k => .str (shown k)) := by
  induction keys with
  | nil => rfl
  | cons k rest ih =>
    have hwalk : decodeWalk codec (.bytes k) = .ok (.str (shown k)) := by
      rw [decodeWalk, h k List.mem_cons_self]
      rfl
    rw [List.map_cons, decodeItems, hwalk, ih fun k' hk' => h k' (List.mem_cons_of_mem k hk')]
    rfl

/-- the client shows these keys so -/
def Shows (shown : Bytes → PyObj) (keys : List Bytes) : Option Codec → Prop
  | none => shown = .bytes
  | some codec => ∃ text : Bytes → String, shown = (fun k => .str (text k)) ∧ ∀ k ∈ keys, codec.decode k = .ok (text k)

theorem nextPage_page {shown : Bytes → PyObj} {p : Page} (h : Shows shown p.keys decode) :
    nextPage S decode (.ok p.reply) = .ok (.int p.cursor, p.keys.map shown) := by
  cases decode with
  | none =>
    obtain rfl : shown = .bytes := h
    rw [nextPage, scan_page]
    rfl
  | some codec =>
    obtain ⟨text, rfl, htext⟩ := h
    have hwalk : maybeDecode (some codec) (.tuple [.int p.cursor, bytesListPy p.keys]) =
        .ok (.tuple [.int p.cursor, .list (p.keys.map fun k => .str (text k))]) := by
      show decodeWalk codec (.tuple [.int p.cursor, .list (p.keys.map .bytes)]) = _
      simp only [decodeWalk, decodeItems, decodeItems_keys htext]
      rfl
    rw [nextPage, scan_page, hwalk]
    rfl

/-! ## The run -/

variable (filters)

/-- what the loop does with these pages, asked for from this cursor on -/
def events (shown : Bytes → PyObj) : ℕ → List Page → List Event
  | _, [] => [.stop]
  | cursor, p :: pages =>
    .send (cmdScan cursor filters) :: (p.keys.map fun k => .yield (shown k)) ++ events shown p.cursor pages

variable {filters}

theorem cursorArg_cursor {n : ℕ} (h : n < 2 ^ 64) : cursorArg (.int n) = .ok n := by
  have hrange : 0 ≤ (n : Int) ∧ (n : Int) < 2 ^ 64 := by omega
  rw [cursorArg, if_pos hrange]
  rfl

theorem sameKey_zero (n : ℕ) : sameKey (.int n) (.int 0) = decide (n = 0) := by
  have hnumber : sameKey (.int n) (.int 0) = (((n : Int) : Rat) == ((0 : Int) : Rat)) := rfl
  rw [hnumber, Bool.eq_iff_iff, beq_iff_eq, decide_eq_true_iff, Rat.intCast_inj]
  exact Int.natCast_eq_zero

/-- one turn of the loop -/
theorem scanIter_page {shown : Bytes → PyObj} {cursor : ℕ} (hcursor : cursor < 2 ^ 64) {s s' : σ} {p : Page}
    (answer : server (cmdScan cursor filters) s = (.ok p.reply, s')) (hshown : Shows shown p.keys decode) (turns : ℕ) :
    scanIter S server decode filters (turns + 1) (.int cursor) s =
      .send (cmdScan cursor filters) :: (p.keys.map fun k => .yield (shown k)) ++
        if p.cursor = 0 then [.stop] else scanIter S server decode filters turns (.int p.cursor) s' := by
  rw [scanIter, cursorArg_cursor hcursor]
  simp only [answer, nextPage_page hshown, sameKey_zero, decide_eq_true_iff, List.map_map]
  rfl

theorem scanIter_pages {shown : Bytes → PyObj} {cursor : ℕ} {s : σ} {pages : List Page}
    (h : Answers server filters cursor s pages) (hcursor : cursor < 2 ^ 64)
    (hshown : ∀ p ∈ pages, Shows shown p.keys decode) {turns : ℕ} (hturns : pages.length ≤ turns) :
    scanIter S server decode filters turns (.int cursor) s = events filters shown cursor pages := by
  induction h generalizing turns with
  | @last cursor s s' p answer zero =>
    obtain ⟨turns, rfl⟩ : ∃ n, turns = n + 1 := ⟨turns - 1, (Nat.sub_add_cancel hturns).symm⟩
    rw [scanIter_page hcursor answer (hshown p List.mem_cons_self), if_pos zero]
    rfl
  | @more cursor s s' p pages answer nonzero rest ih =>
    obtain ⟨turns, rfl⟩ : ∃ n, turns = n + 1 :=
      ⟨turns - 1, (Nat.sub_add_cancel (Nat.le_trans (Nat.le_add_left 1 _) hturns)).symm⟩
    have hrest := ih p.fits (fun q hq => hshown q (List.mem_cons_of_mem p hq)) (Nat.le_of_succ_le_succ hturns)
    rw [scanIter_page hcursor answer (hshown p List.mem_cons_self), if_neg nonzero, hrest]
    rfl

/-! ## Cursors and keys -/

def Event.sent? : Event → Option Cmd
  | .send cmd => some cmd
  | _ => none

def Event.yielded? : Event → Option PyObj
  | .yield key => some key
  | _ => none

/-- a generator that asked for cursor 0 and then for the cursor of each page, yielded all keys, and stopped -/
structure Enumerates (filters : Filters) (shown : Bytes → PyObj) (pages : List Page) (run : List Event) : Prop where
  order : run = events filters shown 0 pages
  sent : run.filterMap Event.sent? = ((0 :: pages.map (·.cursor)).dropLast).map (cmdScan · filters)
  yielded : run.filterMap Event.yielded? = pages.flatMap fun p => p.keys.map shown
  stops : run.getLast? = some .stop

theorem filterMap_yields {α : Type} (shown : Bytes → PyObj) (keys : List Bytes) {f : Event → Option α} {g : PyObj → Option α}
    (h : ∀ x, f (.yield x) = g x) :
    (keys.map fun k => Event.yield (shown k)).filterMap f = (keys.map shown).filterMap g := by
  rw [List.filterMap_map, List.filterMap_map]
  exact List.filterMap_congr fun k _ => h (shown k)

theorem sent_events (shown : Bytes → PyObj) (cursor : ℕ) (pages : List Page) :
    (events filters shown cursor pages).filterMap Event.sent? =
      ((cursor :: pages.map (·.cursor)).dropLast).map (cmdScan · filters) := by
  induction pages generalizing cursor with
  | nil => rfl
  | cons p pages ih =>
    have hkeys : (p.keys.map fun k => Event.yield (shown k)).filterMap Event.sent? = [] := by
      rw [filterMap_yields shown p.keys (g := fun _ => none) fun _ => rfl, List.filterMap_none]
    rw [events, List.cons_append, List.filterMap_cons_some (f := Event.sent?) rfl, List.filterMap_append, hkeys,
      ih p.cursor]
    rfl

theorem yielded_events (shown : Bytes → PyObj) (cursor : ℕ) (pages : List Page) :
    (events filters shown cursor pages).filterMap Event.yielded? = pages.flatMap fun p => p.keys.map shown := by
  induction pages generalizing cursor with
  | nil => rfl
  | cons p pages ih =>
    have hkeys : (p.keys.map fun k => Event.yield (shown k)).filterMap Event.yielded? = p.keys.map shown := by
      rw [filterMap_yields shown p.keys (g := some) fun _ => rfl, List.filterMap_some]
    rw [events, List.cons_append, List.filterMap_cons_none rfl, List.filterMap_append, hkeys, ih p.cursor,
      List.flatMap_cons]

theorem getLast_events (shown : Bytes → PyObj) (cursor : ℕ) (pages : List Page) :
    (events filters shown cursor pages).getLast? = some .stop := by
  induction pages generalizing cursor with
  | nil => rfl
  | cons p pages ih => rw [events, List.getLast?_append, ih p.cursor, Option.some_or]

theorem enumerates_of_shows {shown : Bytes → PyObj} {s : σ} {pages : List Page} (h : Answers server filters 0 s pages)
    (hshown : ∀ p ∈ pages, Shows shown p.keys decode) {turns : ℕ} (hturns : pages.length ≤ turns) :
    Enumerates filters shown pages (scanIter S server decode filters turns (.int 0) s) := by
  have hrun : scanIter S server decode filters turns (.int 0) s = events filters shown 0 pages :=
    scanIter_pages h (by decide) hshown hturns
  rw [hrun]
  exact ⟨rfl, sent_events shown 0 pages, yielded_events shown 0 pages, getLast_events shown 0 pages⟩

/-- **All pages.** Over pages of which only the last has cursor 0 the generator sends cursor 0 and then the cursors received,
with its filters each time, yields the keys of all pages in their order, and stops. The keys are bytes, or text where the
client decodes them. -/
theorem scan_iter_enumerates {s : σ} {pages : List Page} (h : Answers server filters 0 s pages) {turns : ℕ}
    (hturns : pages.length ≤ turns) :
    Enumerates filters .bytes pages (scanIter S server none filters turns (.int 0) s) ∧
    ∀ (codec : Codec) (text : Bytes → String), (∀ p ∈ pages, ∀ k ∈ p.keys, codec.decode k = .ok (text k)) →
      Enumerates filters (fun k => .str (text k)) pages (scanIter S server (some codec) filters turns (.int 0) s) := by
  constructor
  · have hshown : ∀ p ∈ pages, Shows .bytes p.keys none := fun _ _ => rfl
    exact enumerates_of_shows h hshown hturns
  · intro codec text htext
    have hshown : ∀ p ∈ pages, Shows (fun k => .str (text k)) p.keys (some codec) :=
      fun p hp => ⟨text, rfl, htext p hp⟩
    exact enumerates_of_shows h hshown hturns

/-- a server that gives its pages one after the other -/
def inOrder (_ : Cmd) : List Page → RedisResult Value × List Page
  | p :: pages => (.ok p.reply, pages)
  | [] => (.ok .nil, [])

/-- an empty page, and a page with one key twice -/
def twoPages : List Page := [⟨7, by decide, []⟩, ⟨0, by decide, [[107], [107]]⟩]

theorem scan_iter_two_pages :
    Enumerates ⟨some "*", some 10, none⟩ .bytes twoPages
      (scanIter bareStd inOrder none ⟨some "*", some 10, none⟩ 2 (.int 0) twoPages) :=
  (scan_iter_enumerates (.more rfl (by decide) (.last rfl rfl)) (by decide)).1

end RedisRsPy.Commands.ScanIter
