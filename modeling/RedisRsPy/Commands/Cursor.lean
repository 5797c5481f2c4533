/-
The cursors of SCAN, HSCAN, SSCAN and ZSCAN, from the reply of the server to the Python object.

A cursor is sent as a bulk string, a simple string or an integer. The four commands read it in three ways, and a cursor
that they do not read is 0, which ends an iteration.

Results:
- `cursor_faithful_iff`: the replies whose cursor a method passes on, or for which it raises;
- `scan_unfaithful`: a cursor below zero, and an end that no server sent.
-/
import RedisRsPy.Commands.Closed

namespace RedisRsPy.Commands.Cursor

open Lib.Fallible

/-! ## What was sent -/

/-- the cursor that a value stands for -/
def sent : Value → Option ℕ
  | .bulkString b => parseU64 b
  | .simpleString s => parseU64 (asBytes s)
  | .int n => if 0 ≤ n then some n.toNat else none
  | _ => none

/-- the cursor of a reply; a reply that is no page has none -/
def cursorSent : Value → Option ℕ
  | .array [cursorV, _] => sent cursorV
  | _ => none

/-! ## What is returned -/

inductive ScanCmd where
  | scan
  | hscan (novalues : Bool)
  | sscan
  | zscan
deriving DecidableEq

def ScanCmd.command : ScanCmd → Command
  | .scan => .admin .scan
  | .hscan novalues => .hashes (.hscan novalues)
  | .sscan => .sets .sscan
  | .zscan => .zsets .zscan

variable (S : Std)

/-- what the method of the client gives for a reply -/
def outcome (client : Client) (c : ScanCmd) (v : Value) (decode : Option Codec) : PyRes :=
  match client with
  | .redis => syncOutcome S decode ⟨.ok (), .ok v⟩ c.command
  | .asyncRedis => asyncOutcome S decode ⟨.ok (), .ok v⟩ c.command

/-- the first part of a page -/
def cursorOf : PyObj → Option PyObj
  | .tuple (c :: _) => some c
  | .list (c :: _) => some c
  | _ => none

/-- the call raised, or gave the cursor that was sent -/
def Faithful (v : Value) : PyRes → Prop
  | .error _ => True
  | .ok o => ∃ n, cursorSent v = some n ∧ cursorOf o = some (.int n)

variable {S}

/-! ## Pages -/

/-- a call that gives a page with this cursor, or cannot decode the page -/
structure Page (cursor : Int) (call : Option Codec → PyRes) : Prop where
  plain : ∃ o, call none = .ok o
  cursor : ∀ decode o, call decode = .ok o → cursorOf o = some (.int cursor)

theorem Page.faithful_iff {cursor : Int} {call : Option Codec → PyRes} (h : Page cursor call) (v : Value) :
    (∀ decode, Faithful v (call decode)) ↔ ∃ n, cursorSent v = some n ∧ (n : Int) = cursor := by
  constructor
  · intro hall
    obtain ⟨o, ho⟩ := h.plain
    have hplain := hall none
    rw [ho] at hplain
    obtain ⟨n, hsent, hn⟩ := hplain
    have hcursor := h.cursor none o ho
    rw [hn] at hcursor
    exact ⟨n, hsent, PyObj.int.inj (Option.some.inj hcursor)⟩
  · rintro ⟨n, hsent, rfl⟩ decode
    cases hcall : call decode with
    | error e => trivial
    | ok o => exact ⟨n, hsent, h.cursor decode o hcall⟩

/-- decoding leaves a cursor as it is -/
theorem page_maybeDecode {wrap : List PyObj → PyObj} (hwrap : wrap = .tuple ∨ wrap = .list) (cursor : Int) (x : PyObj) :
    Page cursor fun decode => maybeDecode decode (wrap [.int cursor, x]) where
  plain := ⟨_, rfl⟩
  cursor := by
    intro decode o ho
    cases decode with
    | none =>
      cases ho
      rcases hwrap with rfl | rfl <;> rfl
    | some codec =>
      have hitems : ∃ walked, decodeItems codec [.int cursor, x] = .ok walked ∧ wrap walked = o := by
        rcases hwrap with rfl | rfl
        · obtain ⟨walked, hwalked, ho⟩ := bind_ok_iff.1 ho
          exact ⟨walked, hwalked, Except.ok.inj ho⟩
        · obtain ⟨walked, hwalked, ho⟩ := bind_ok_iff.1 ho
          exact ⟨walked, hwalked, Except.ok.inj ho⟩
      obtain ⟨walked, hwalked, rfl⟩ := hitems
      obtain ⟨c, hc, hrest⟩ := bind_ok_iff.1 hwalked
      obtain ⟨rest, -, hwalked⟩ := bind_ok_iff.1 hrest
      cases hc
      cases hwalked
      rcases hwrap with rfl | rfl <;> rfl

/-- the page of a method without `maybe_wrap` -/
theorem page_plain (cursor : Int) (x : PyObj) : Page cursor fun _ => .ok (.tuple [.int cursor, x]) where
  plain := ⟨_, rfl⟩
  cursor := by
    intro _ o ho
    cases ho
    rfl

/-- what a method reports for the cursor of a page -/
def reported (client : Client) (c : ScanCmd) (cursorV : Value) : Int :=
  match c, client with
  | .scan, .redis => (parseScanReply (.array [cursorV, .nil])).1
  | .scan, .asyncRedis => asI64 (parseScanReply (.array [cursorV, .nil])).1
  | _, _ => scanCursor cursorV

theorem page_outcome (client : Client) (c : ScanCmd) (cursorV payload : Value) :
    Page (reported client c cursorV) (outcome S client c (.array [cursorV, payload])) := by
  cases c with
  | scan =>
    cases client with
    | redis => exact page_maybeDecode (.inl rfl) _ _
    | asyncRedis =>
      have hraw (decode : Option Codec) : outcome S .asyncRedis .scan (.array [cursorV, payload]) decode =
          maybeDecode decode (.list [.int (reported .asyncRedis .scan cursorV),
            bytesListPy (parseScanReply (.array [cursorV, payload])).2]) := by
        show (Admin.scanRaw (parseScanReply (.array [cursorV, payload]))).intoPy S >>= maybeDecode decode = _
        rw [Admin.scanRaw_intoPy]
        rfl
      rw [funext hraw]
      exact page_maybeDecode (.inr rfl) _ _
  | hscan novalues =>
    cases client with
    | redis => exact page_maybeDecode (.inl rfl) _ _
    | asyncRedis => exact page_plain _ _
  | sscan => cases client <;> exact page_maybeDecode (.inl rfl) _ _
  | zscan => cases client <;> exact page_maybeDecode (.inl rfl) _ _

/-! ## Which cursors come through -/

/-- a simple string is read as a cursor by SCAN alone -/
def simple : Value → Bool
  | .simpleString _ => true
  | _ => false

/-- the cursors that a method passes on -/
def Kept (client : Client) (c : ScanCmd) (cursorV : Value) : Prop :=
  ∃ n, sent cursorV = some n ∧ match c, client with
    | .scan, .redis => True
    | .scan, .asyncRedis => n < 2 ^ 63
    | _, _ => n < 2 ^ 64 ∧ (simple cursorV = true → n = 0)

theorem parseU64_lt {b : Bytes} {n : ℕ} (h : parseU64 b = some n) : n < 2 ^ 64 := by
  have hfilter := (Option.filter_eq_some_iff.1 h).2
  exact of_decide_eq_true hfilter

theorem parseScanReply_sent {cursorV payload : Value} {n : ℕ} (h : sent cursorV = some n) :
    (parseScanReply (.array [cursorV, payload])).1 = n := by
  cases cursorV with
  | bulkString b => exact congrArg (·.getD 0) h
  | simpleString s => exact congrArg (·.getD 0) h
  | int m =>
    by_cases hm : 0 ≤ m
    · rw [sent, if_pos hm] at h
      exact Option.some.inj h
    · rw [sent, if_neg hm] at h
      cases h
  | _ => cases h

theorem scanCursor_sent {cursorV : Value} {n : ℕ} (h : sent cursorV = some n) :
    n = scanCursor cursorV ↔ n < 2 ^ 64 ∧ (simple cursorV = true → n = 0) := by
  cases cursorV with
  | bulkString b =>
    have hread : scanCursor (.bulkString b) = n := congrArg (·.getD 0) h
    exact iff_of_true hread.symm ⟨parseU64_lt h, fun hsimple => by cases hsimple⟩
  | simpleString s =>
    have hlt : n < 2 ^ 64 := parseU64_lt h
    show n = 0 ↔ _
    exact ⟨fun hn => ⟨hlt, fun _ => hn⟩, fun hn => hn.2 rfl⟩
  | int m =>
    by_cases hm : 0 ≤ m
    · rw [sent, if_pos hm] at h
      obtain rfl := Option.some.inj h
      have hcast : (m.toNat : Int) = m := Int.toNat_of_nonneg hm
      show m.toNat = (m % 2 ^ 64).toNat ↔ _
      constructor
      · intro heq
        refine ⟨?_, fun hsimple => by cases hsimple⟩
        omega
      · rintro ⟨hlt, -⟩
        omega
    · rw [sent, if_neg hm] at h
      cases h
  | _ => cases h

theorem asI64_eq_iff (n : ℕ) : (n : Int) = asI64 n ↔ n < 2 ^ 63 := by
  by_cases hn : n < 2 ^ 63
  · rw [asI64, if_pos hn]
    exact iff_of_true rfl hn
  · rw [asI64, if_neg hn]
    refine iff_of_false ?_ hn
    omega

theorem reported_iff (client : Client) (c : ScanCmd) (cursorV : Value) :
    (∃ n, sent cursorV = some n ∧ (n : Int) = reported client c cursorV) ↔ Kept client c cursorV := by
  refine exists_congr fun n => and_congr_right fun hsent => ?_
  cases c with
  | scan =>
    cases client with
    | redis => exact iff_of_true (congrArg Int.ofNat (parseScanReply_sent hsent).symm) trivial
    | asyncRedis =>
      show (n : Int) = asI64 (parseScanReply (.array [cursorV, .nil])).1 ↔ _
      rw [parseScanReply_sent hsent]
      exact asI64_eq_iff n
  | hscan | sscan | zscan =>
    show (n : Int) = (scanCursor cursorV : Int) ↔ _
    rw [Int.natCast_inj]
    exact scanCursor_sent hsent

/-! ## Replies that are no page -/

/-- an array of two -/
def isPage : Value → Bool
  | .array [_, _] => true
  | _ => false

theorem isPage_iff {v : Value} : isPage v = true ↔ ∃ cursorV payload, v = .array [cursorV, payload] := by
  constructor
  · intro h
    unfold isPage at h
    split at h
    · exact ⟨_, _, rfl⟩
    · cases h
  · rintro ⟨cursorV, payload, rfl⟩
    rfl

theorem cursorSent_of_not_page {v : Value} (h : ¬ isPage v = true) : cursorSent v = none := by
  unfold cursorSent
  split
  · exact absurd rfl h
  · rfl

/-- SCAN ends the iteration there -/
theorem scan_of_not_page (client : Client) {v : Value} (h : ¬ isPage v = true) : Page 0 (outcome S client .scan v) := by
  have hparse : parseScanReply v = (0, []) := by
    unfold parseScanReply
    split
    · exact absurd rfl h
    · rfl
  cases client with
  | redis =>
    have hcall (decode : Option Codec) : outcome S .redis .scan v decode =
        maybeDecode decode (.tuple [.int 0, bytesListPy []]) := by
      show maybeDecode decode (Admin.scanPy (parseScanReply v)) = _
      rw [hparse]
      rfl
    rw [funext hcall]
    exact page_maybeDecode (.inl rfl) 0 _
  | asyncRedis =>
    have hcall (decode : Option Codec) : outcome S .asyncRedis .scan v decode =
        maybeDecode decode (.list [.int 0, bytesListPy []]) := by
      show (Admin.scanRaw (parseScanReply v)).intoPy S >>= maybeDecode decode = _
      rw [hparse, Admin.scanRaw_intoPy]
      rfl
    rw [funext hcall]
    exact page_maybeDecode (.inr rfl) 0 _

/-- the others raise -/
theorem raises_of_not_page (client : Client) {c : ScanCmd} (hc : c ≠ .scan) {v : Value} (h : ¬ isPage v = true)
    (decode : Option Codec) : ∃ e, outcome S client c v decode = .error e := by
  have hpair : ∀ cursorV payload, v ≠ .array [cursorV, payload] := by
    rintro cursorV payload rfl
    exact h rfl
  cases c with
  | scan => exact absurd rfl hc
  | hscan novalues =>
    have hsplit : splitScanReply v = .error (shapeError .DataError "HSCAN reply did not match the [cursor, items] shape") := by
      unfold splitScanReply
      split
      · exact absurd rfl (hpair _ _)
      · rfl
    cases client with
    | redis =>
      show ∃ e, Hashes.hscanPy novalues (splitScanReply v) >>= maybeDecode decode = .error e
      rw [hsplit]
      exact ⟨_, rfl⟩
    | asyncRedis =>
      show ∃ e, (Hashes.hscanRaw novalues (splitScanReply v)).intoPy S >>= .ok = .error e
      rw [hsplit]
      exact ⟨_, rfl⟩
  | sscan =>
    have hparse : parseSscanReply v =
        .error (.builtin .ValueError "SSCAN reply did not match the [cursor, members] shape") := by
      unfold parseSscanReply
      split
      · exact absurd rfl (hpair _ _)
      · rfl
    cases client with
    | redis =>
      show ∃ e, Sets.sscanPy (parseSscanReply v) >>= maybeDecode decode = .error e
      rw [hparse]
      exact ⟨_, rfl⟩
    | asyncRedis =>
      show ∃ e, (Sets.sscanRaw (parseSscanReply v)).intoPy S >>= maybeDecode decode = .error e
      rw [hparse]
      exact ⟨_, rfl⟩
  | zscan =>
    have hparse : parseZscanReply S v =
        .error (shapeError .DataError "ZSCAN reply did not match the [cursor, items] shape") := by
      unfold parseZscanReply
      split
      · exact absurd rfl (hpair _ _)
      · rfl
    cases client with
    | redis =>
      show ∃ e, Zsets.zscanPy (parseZscanReply S v) >>= maybeDecode decode = .error e
      rw [hparse]
      exact ⟨_, rfl⟩
    | asyncRedis =>
      show ∃ e, (Zsets.zscanRaw (parseZscanReply S v)).intoPy S >>= maybeDecode decode = .error e
      rw [hparse]
      exact ⟨_, rfl⟩

/-! ## Faithful replies -/

/-- a page whose cursor the method passes on, or, but for SCAN, no page -/
def Passed (client : Client) (c : ScanCmd) : Value → Prop
  | .array [cursorV, _] => Kept client c cursorV
  | _ => c ≠ .scan

/-- **Cursors.** For these replies, and no others, a method gives the cursor that the server sent or raises, however its
client decodes. -/
theorem cursor_faithful_iff (client : Client) (c : ScanCmd) (v : Value) :
    (∀ decode, Faithful v (outcome S client c v decode)) ↔ Passed client c v := by
  by_cases hpage : isPage v = true
  · obtain ⟨cursorV, payload, rfl⟩ := isPage_iff.1 hpage
    exact ((page_outcome client c cursorV payload).faithful_iff _).trans (reported_iff client c cursorV)
  have hpassed : Passed client c v ↔ c ≠ .scan := by
    unfold Passed
    split
    · exact absurd rfl hpage
    · exact Iff.rfl
  rw [hpassed]
  by_cases hc : c = .scan
  · subst hc
    refine iff_of_false (fun hall => ?_) (· rfl)
    obtain ⟨n, hsent, -⟩ := ((scan_of_not_page client hpage).faithful_iff v).1 hall
    rw [cursorSent_of_not_page hpage] at hsent
    cases hsent
  · refine iff_of_true (fun decode => ?_) hc
    obtain ⟨e, he⟩ := raises_of_not_page (S := S) client hc hpage decode
    rw [he]
    trivial

/-- 2 ^ 63 as text -/
def farCursor : Value :=
  .array [.bulkString [57, 50, 50, 51, 51, 55, 50, 48, 51, 54, 56, 53, 52, 55, 55, 53, 56, 48, 56], .array []]

/-- a cursor below zero on the async client, and the end of an iteration where the server sent nothing -/
theorem scan_unfaithful :
    asyncOutcome bareStd none ⟨.ok (), .ok farCursor⟩ (.admin .scan) = .ok (.list [.int (-2 ^ 63), .list []]) ∧
    ¬ Faithful farCursor (asyncOutcome bareStd none ⟨.ok (), .ok farCursor⟩ (.admin .scan)) ∧
    syncOutcome bareStd none ⟨.ok (), .ok .nil⟩ (.admin .scan) = .ok (.tuple [.int 0, .list []]) ∧
    ¬ Faithful .nil (syncOutcome bareStd none ⟨.ok (), .ok .nil⟩ (.admin .scan)) := by
  refine ⟨by rfl, ?_, by rfl, ?_⟩
  · rintro ⟨n, -, hn⟩
    have hneg : (-2 ^ 63 : Int) = n := PyObj.int.inj (Option.some.inj hn)
    omega
  · rintro ⟨n, hsent, -⟩
    cases hsent

end RedisRsPy.Commands.Cursor
