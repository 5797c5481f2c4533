/-
One reply in two protocols: what the parsers of replies read from a reply in its RESP2 and in its RESP3 shape.

A server that is asked for pairs sends a flat array in RESP2, and in RESP3 a map or an array of two-element arrays;
streams come as two-element arrays in RESP2 and as a map in RESP3. The parts of a pair are bulk strings, and for the
commands whose parsers look for them also simple strings (`Text`). A score is a token of text in RESP2 and a double in
RESP3.

Results:
- `resp_round_trip`: each of the seven parsers reads back what was encoded, in either protocol: all of it, in order,
  nothing twice. The exception is a pair of HGETALL with a simple string: the crate does not read that as bytes, and the
  call fails in both protocols;
- `hgetall_refuses_simple`: such a pair.
-/
import RedisRsPy.Commands.All

namespace RedisRsPy.Commands

/-! ## Replies, encoded -/

inductive Protocol where
  | resp2
  | resp3
deriving DecidableEq, Repr

/-- a bulk or a simple string -/
inductive Text where
  | bulk (b : Bytes)
  | simple (s : String)
deriving DecidableEq, Repr

def Text.value : Text → Value
  | .bulk b => .bulkString b
  | .simple s => .simpleString s

def Text.bytes : Text → Bytes
  | .bulk b => b
  | .simple s => asBytes s

def Text.isBulk : Text → Bool
  | .bulk _ => true
  | .simple _ => false

/-- one item after the other -/
def flat {α : Type} (pairs : List (α × α)) : List α := pairs.flatMap fun kv => [kv.1, kv.2]

/-- an array of two-element arrays -/
def nested (pairs : List (Value × Value)) : Value := .array (pairs.map fun kv => .array [kv.1, kv.2])

/-- HGETALL, CONFIG GET, XINFO, and the fields of a stream entry -/
def Protocol.mapping : Protocol → List (Value × Value) → Value
  | .resp2, pairs => .array (flat pairs)
  | .resp3, pairs => .map pairs

/-- HRANDFIELD and ZRANDMEMBER with values or scores -/
def Protocol.pairs : Protocol → List (Value × Value) → Value
  | .resp2, pairs => .array (flat pairs)
  | .resp3, pairs => nested pairs

/-- XREAD and XREADGROUP -/
def Protocol.streams : Protocol → List (Value × Value) → Value
  | .resp2, pairs => nested pairs
  | .resp3, pairs => .map pairs

/-- an entry of a stream: its id and its fields -/
structure StreamEntry where
  id : Text
  fields : List (Text × Text)

def StreamEntry.data (e : StreamEntry) : Entry := (e.id.bytes, e.fields.map fun kv => (kv.1.bytes, kv.2.bytes))

def StreamEntry.value (p : Protocol) (e : StreamEntry) : Value :=
  .array [e.id.value, p.mapping (e.fields.map fun kv => (kv.1.value, kv.2.value))]

/-- the reply of XRANGE -/
def entriesValue (p : Protocol) (entries : List StreamEntry) : Value := .array (entries.map (StreamEntry.value p))

/-- the reply of XREAD; the entries may come in the other protocol's shape -/
def streamsValue (p q : Protocol) (streams : List (Text × List StreamEntry)) : Value :=
  p.streams (streams.map fun s => (s.1.value, entriesValue q s.2))

/-- a member with its score, and the token that stands for the score in RESP2 -/
structure ScoredMember (S : Std) where
  member : Bytes
  score : UInt64
  token : Bytes
  parses : S.parseF64 token = some score

variable {S : Std}

def Protocol.scoreValue : Protocol → ScoredMember S → Value
  | .resp2, m => .bulkString m.token
  | .resp3, m => .double m.score

def scoredValue (p : Protocol) (members : List (ScoredMember S)) : Value :=
  p.pairs (members.map fun m => (.bulkString m.member, p.scoreValue m))

/-! ## What the parsers see -/

/-- the loop over a flat array meets the pairs that were laid out -/
theorem pairUp_flat {α : Type} (pairs : List (α × α)) : pairUp (flat pairs) = pairs := by
  induction pairs with
  | nil => rfl
  | cons kv rest ih =>
    have hcons : flat (kv :: rest) = kv.1 :: kv.2 :: flat rest := rfl
    rw [hcons, pairUp, ih]

/-- a filter that takes every item -/
theorem filterMap_map_of_some {α β γ : Type} {f : β → Option γ} {g : α → β} {h : α → γ} (hf : ∀ a, f (g a) = some (h a))
    (l : List α) : (l.map g).filterMap f = l.map h := by
  rw [List.filterMap_map, ← List.filterMap_eq_map]
  congr 1
  funext a
  exact hf a

theorem streamBytes?_value (t : Text) : streamBytes? t.value = some t.bytes := by
  cases t with
  | bulk b => rfl
  | simple s => rfl

theorem text?_value (t : Text) : text? t.value = some t.bytes := by
  cases t with
  | bulk b => rfl
  | simple s => rfl

theorem fieldPair?_value (kv : Text × Text) : fieldPair? (kv.1.value, kv.2.value) = some (kv.1.bytes, kv.2.bytes) := by
  unfold fieldPair?
  rw [streamBytes?_value, streamBytes?_value]
  rfl

/-! ## The seven parsers -/

theorem entry?_value (p : Protocol) (e : StreamEntry) : entry? (e.value p) = some e.data := by
  have hfields := filterMap_map_of_some fieldPair?_value e.fields
  have hid : (streamBytes? e.id.value).getD [] = e.id.bytes := by rw [streamBytes?_value, Option.getD_some]
  cases p with
  | resp2 =>
    show some ((streamBytes? e.id.value).getD [], (pairUp (flat _)).filterMap fieldPair?) = _
    rw [pairUp_flat, hfields, hid, StreamEntry.data]
  | resp3 =>
    show some ((streamBytes? e.id.value).getD [], (e.fields.map _).filterMap fieldPair?) = _
    rw [hfields, hid, StreamEntry.data]

theorem flattenXrangeReply_entriesValue (p : Protocol) (entries : List StreamEntry) :
    flattenXrangeReply (entriesValue p entries) = entries.map StreamEntry.data :=
  filterMap_map_of_some (entry?_value p) entries

theorem flattenXreadReply_streamsValue (p q : Protocol) (streams : List (Text × List StreamEntry)) :
    flattenXreadReply (streamsValue p q streams) = streams.map fun s => (s.1.bytes, s.2.map StreamEntry.data) := by
  cases p with
  | resp2 =>
    show ((streams.map _).map _).filterMap _ = _
    rw [List.map_map]
    refine filterMap_map_of_some (fun s => ?_) streams
    show some ((streamBytes? s.1.value).getD [], flattenXrangeReply (entriesValue q s.2)) = _
    rw [streamBytes?_value, flattenXrangeReply_entriesValue, Option.getD_some]
  | resp3 =>
    refine filterMap_map_of_some (fun s => ?_) streams
    show (streamBytes? s.1.value).map _ = _
    rw [streamBytes?_value, flattenXrangeReply_entriesValue]
    rfl

theorem mapPairsFromValue_mapping (p : Protocol) (pairs : List (Text × Value)) :
    mapPairsFromValue (p.mapping (pairs.map fun kv => (kv.1.value, kv.2))) = pairs.map fun kv => (kv.1.bytes, kv.2) := by
  have hkeyed : ∀ kv : Text × Value, (streamBytes? kv.1.value).map (fun k => (k, kv.2)) = some (kv.1.bytes, kv.2) := by
    intro kv
    rw [streamBytes?_value]
    rfl
  cases p with
  | resp2 =>
    show (pairUp (flat _)).filterMap _ = _
    rw [pairUp_flat]
    exact filterMap_map_of_some hkeyed pairs
  | resp3 => exact filterMap_map_of_some hkeyed pairs

theorem parseConfigGetReply_mapping (p : Protocol) (pairs : List (Text × Text)) :
    parseConfigGetReply (p.mapping (pairs.map fun kv => (kv.1.value, kv.2.value))) =
      pairs.map fun kv => (kv.1.bytes, kv.2.bytes) := by
  have htexts : ∀ kv : Text × Text, ((text? kv.1.value).bind fun k => (text? kv.2.value).map fun v => (k, v)) =
      some (kv.1.bytes, kv.2.bytes) := by
    intro kv
    rw [text?_value, text?_value]
    rfl
  cases p with
  | resp2 =>
    show (pairUp (flat _)).filterMap _ = _
    rw [pairUp_flat]
    exact filterMap_map_of_some htexts pairs
  | resp3 => exact filterMap_map_of_some htexts pairs

/-- how the crate reads a string as a `Vec<u8>`: a bulk string by its bytes, a simple string not at all -/
structure ReadsBytes (S : Std) : Prop where
  bulk : ∀ b, S.fromRedisValue .bytes (.bulkString b) = .ok b
  simple : ∀ s, ∃ e, S.fromRedisValue .bytes (.simpleString s) = .error e

theorem hgetall_mapping_eq (S : Std) (p : Protocol) (pairs : List (Value × Value)) :
    hgetall S (p.mapping pairs) = pairs.mapM (fieldAndValue S) := by
  cases p with
  | resp2 =>
    show (pairUp (flat _)).mapM (fieldAndValue S) = _
    rw [pairUp_flat]
  | resp3 => rfl

theorem fieldAndValue_bulk (hS : ReadsBytes S) {kv : Text × Text} (hk : kv.1.isBulk = true) (hv : kv.2.isBulk = true) :
    fieldAndValue S (kv.1.value, kv.2.value) = .ok (kv.1.bytes, kv.2.bytes) := by
  obtain ⟨k, v⟩ := kv
  cases k with
  | simple s => cases hk
  | bulk k =>
    cases v with
    | simple s => cases hv
    | bulk v =>
      have hfield : S.fromRedisValue .bytes (Text.bulk k).value = .ok k := hS.bulk k
      have hvalue : S.fromRedisValue .bytes (Text.bulk v).value = .ok v := hS.bulk v
      unfold fieldAndValue
      rw [hfield, hvalue]
      rfl

theorem fieldAndValue_simple (hS : ReadsBytes S) {kv : Text × Text} (h : ¬ (kv.1.isBulk = true ∧ kv.2.isBulk = true)) :
    ∃ e, fieldAndValue S (kv.1.value, kv.2.value) = .error e := by
  obtain ⟨k, v⟩ := kv
  unfold fieldAndValue
  cases k with
  | simple s =>
    obtain ⟨e, he⟩ := hS.simple s
    have hk : S.fromRedisValue .bytes (Text.simple s).value = .error e := he
    exact ⟨e, by rw [hk]; rfl⟩
  | bulk k =>
    cases v with
    | bulk v => exact absurd ⟨rfl, rfl⟩ h
    | simple s =>
      obtain ⟨e, he⟩ := hS.simple s
      have hk : S.fromRedisValue .bytes (Text.bulk k).value = .ok k := hS.bulk k
      have hv : S.fromRedisValue .bytes (Text.simple s).value = .error e := he
      exact ⟨e, by rw [hk, hv]; rfl⟩

/-- HGETALL reads back the pairs if all their parts are bulk strings, and fails otherwise -/
theorem hgetall_mapping (hS : ReadsBytes S) (p : Protocol) (pairs : List (Text × Text)) :
    if ∀ kv ∈ pairs, kv.1.isBulk = true ∧ kv.2.isBulk = true then
      hgetall S (p.mapping (pairs.map fun kv => (kv.1.value, kv.2.value))) = .ok (pairs.map fun kv => (kv.1.bytes, kv.2.bytes))
    else ∃ e, hgetall S (p.mapping (pairs.map fun kv => (kv.1.value, kv.2.value))) = .error e := by
  rw [hgetall_mapping_eq]
  split
  · rename_i hbulk
    exact Lib.Fallible.mapM_map_ok fun kv hkv => fieldAndValue_bulk hS (hbulk kv hkv).1 (hbulk kv hkv).2
  · rename_i hsimple
    push Not at hsimple
    obtain ⟨kv, hkv, hnot⟩ := hsimple
    obtain ⟨e, he⟩ := @fieldAndValue_simple S hS kv fun h => hnot h.1 h.2
    exact Lib.Fallible.mapM_error_of_mem (List.mem_map_of_mem hkv) he

/-- a flat array of pairs, the empty one included: its first item is no array -/
theorem renderPairs_flat (f : Value × Value → PyObj) (l : List (Bytes × Value)) :
    renderPairs f (flat (l.map fun kv => (.bulkString kv.1, kv.2))) = .list (l.map fun kv => f (.bulkString kv.1, kv.2)) := by
  have hloop : renderPairs f (flat (l.map fun kv => (.bulkString kv.1, kv.2))) =
      .list ((pairUp (flat (l.map fun kv => (.bulkString kv.1, kv.2)))).map f) := by
    cases l with
    | nil => rfl
    | cons kv rest => rfl
  rw [hloop, pairUp_flat, List.map_map]
  rfl

theorem renderPairs_nested (f : Value × Value → PyObj) (l : List (Value × Value)) :
    renderPairs f (l.map fun kv => .array [kv.1, kv.2]) = .list (l.map f) := by
  cases l with
  | nil => rfl
  | cons kv rest =>
    refine congrArg PyObj.list (filterMap_map_of_some ?_ (kv :: rest))
    intro kv
    rfl

/-- the pairs of HRANDFIELD and ZRANDMEMBER come out the same from either shape -/
theorem renderPairs_pairs (f : Value × Value → PyObj) (p : Protocol) (l : List (Bytes × Value)) {items : List Value}
    (hitems : p.pairs (l.map fun kv => (.bulkString kv.1, kv.2)) = .array items) :
    renderPairs f items = .list (l.map fun kv => f (.bulkString kv.1, kv.2)) := by
  cases p with
  | resp2 =>
    rw [← Value.array.inj hitems]
    exact renderPairs_flat f l
  | resp3 =>
    rw [← Value.array.inj hitems, renderPairs_nested, List.map_map]
    rfl

theorem pairs_array (p : Protocol) (l : List (Value × Value)) : ∃ items, p.pairs l = .array items := by
  cases p with
  | resp2 => exact ⟨_, rfl⟩
  | resp3 => exact ⟨_, rfl⟩

theorem renderHrandfield_pairs (p : Protocol) (count : Int) (pairs : List (Bytes × Bytes)) :
    renderHrandfield S (p.pairs (pairs.map fun kv => (.bulkString kv.1, .bulkString kv.2))) (some count) true =
      .list (pairs.map fun kv => .tuple [.bytes kv.1, .bytes kv.2]) := by
  have hpairs : (pairs.map fun kv => (Value.bulkString kv.1, Value.bulkString kv.2)) =
      (pairs.map fun kv => (kv.1, Value.bulkString kv.2)).map fun kv => (.bulkString kv.1, kv.2) := by
    rw [List.map_map]
    rfl
  obtain ⟨items, hitems⟩ := pairs_array p (pairs.map fun kv => (Value.bulkString kv.1, Value.bulkString kv.2))
  rw [hitems]
  show renderPairs (fun fv => .tuple [bulkOrNone fv.1, bulkOrNone fv.2]) items = _
  rw [hpairs] at hitems
  rw [renderPairs_pairs _ p _ hitems, List.map_map]
  rfl

theorem parseScore_scoreValue (p : Protocol) (m : ScoredMember S) : parseScore S (p.scoreValue m) = m.score := by
  cases p with
  | resp2 =>
    show (S.parseF64 m.token).getD 0 = m.score
    rw [m.parses, Option.getD_some]
  | resp3 => rfl

theorem renderZrandmember_scoredValue (p : Protocol) (count : Int) (members : List (ScoredMember S)) :
    renderZrandmember S (scoredValue p members) (some count) true =
      .list (members.map fun m => .tuple [.bytes m.member, .float m.score]) := by
  have hpairs : (members.map fun m => (Value.bulkString m.member, p.scoreValue m)) =
      (members.map fun m => (m.member, p.scoreValue m)).map fun kv => (.bulkString kv.1, kv.2) := by
    rw [List.map_map]
    rfl
  obtain ⟨items, hitems⟩ := pairs_array p (members.map fun m => (Value.bulkString m.member, p.scoreValue m))
  have hreply : scoredValue p members = .array items := hitems
  rw [hreply]
  show renderPairs (fun ms => .tuple [bulkOrNone ms.1, .float (parseScore S ms.2)]) items = _
  rw [hpairs] at hitems
  rw [renderPairs_pairs _ p _ hitems, List.map_map]
  refine congrArg _ (List.map_congr_left fun m _ => ?_)
  show PyObj.tuple [.bytes m.member, .float (parseScore S (p.scoreValue m))] = _
  rw [parseScore_scoreValue]

/-- **Two shapes, one reply.** Whatever the protocol, each parser gives back the data that was encoded, in order, nothing
dropped and nothing twice; HGETALL gives it back or fails, the same in both protocols, and it fails exactly where a part
of a pair is a simple string. -/
theorem resp_round_trip (hS : ReadsBytes S) (p q : Protocol) :
    (∀ streams, flattenXreadReply (streamsValue p q streams) =
        streams.map fun s => (s.1.bytes, s.2.map StreamEntry.data)) ∧
      (∀ entries, flattenXrangeReply (entriesValue p entries) = entries.map StreamEntry.data) ∧
      (∀ pairs : List (Text × Value), mapPairsFromValue (p.mapping (pairs.map fun kv => (kv.1.value, kv.2))) =
        pairs.map fun kv => (kv.1.bytes, kv.2)) ∧
      (∀ pairs : List (Text × Text),
        (if ∀ kv ∈ pairs, kv.1.isBulk = true ∧ kv.2.isBulk = true then
          hgetall S (p.mapping (pairs.map fun kv => (kv.1.value, kv.2.value))) =
            .ok (pairs.map fun kv => (kv.1.bytes, kv.2.bytes))
        else ∃ e, hgetall S (p.mapping (pairs.map fun kv => (kv.1.value, kv.2.value))) = .error e) ∧
        hgetall S (p.mapping (pairs.map fun kv => (kv.1.value, kv.2.value))) =
          hgetall S (q.mapping (pairs.map fun kv => (kv.1.value, kv.2.value)))) ∧
      (∀ pairs : List (Text × Text), parseConfigGetReply (p.mapping (pairs.map fun kv => (kv.1.value, kv.2.value))) =
        pairs.map fun kv => (kv.1.bytes, kv.2.bytes)) ∧
      (∀ (count : Int) (pairs : List (Bytes × Bytes)),
        renderHrandfield S (p.pairs (pairs.map fun kv => (.bulkString kv.1, .bulkString kv.2))) (some count) true =
          .list (pairs.map fun kv => .tuple [.bytes kv.1, .bytes kv.2])) ∧
      ∀ (count : Int) (members : List (ScoredMember S)),
        renderZrandmember S (scoredValue p members) (some count) true =
          .list (members.map fun m => .tuple [.bytes m.member, .float m.score]) :=
  ⟨flattenXreadReply_streamsValue p q, flattenXrangeReply_entriesValue p, mapPairsFromValue_mapping p,
    fun pairs => ⟨hgetall_mapping hS p pairs, (hgetall_mapping_eq S p _).trans (hgetall_mapping_eq S q _).symm⟩,
    parseConfigGetReply_mapping p, renderHrandfield_pairs p, renderZrandmember_scoredValue p⟩

/-- a crate that reads bulk strings as bytes, and no more -/
def bulkStd : Std :=
  { bareStd with
    fromRedisValue := fun t v => match t, v with
      | .bytes, .bulkString b => .ok b
      | t, v => bareStd.fromRedisValue t v }

theorem bulkStd_reads : ReadsBytes bulkStd := ⟨fun _ => rfl, fun _ => ⟨_, rfl⟩⟩

/-- HGETALL in RESP3 -/
theorem hgetall_round_trip :
    hgetall bulkStd (.map [(.bulkString [102], .bulkString [118]), (.bulkString [103], .bulkString [])]) =
      .ok [([102], [118]), ([103], [])] := by
  have hpairs := ((resp_round_trip bulkStd_reads .resp3 .resp2).2.2.2.1
    [(.bulk [102], .bulk [118]), (.bulk [103], .bulk [])]).1
  rwa [if_pos (by decide)] at hpairs

/-- HGETALL with a value that is a simple string -/
theorem hgetall_refuses_simple :
    ¬ ∀ (S : Std), ReadsBytes S → ∀ (p : Protocol) (pairs : List (Text × Text)),
      hgetall S (p.mapping (pairs.map fun kv => (kv.1.value, kv.2.value))) =
        .ok (pairs.map fun kv => (kv.1.bytes, kv.2.bytes)) := by
  intro h
  have hread := h bulkStd bulkStd_reads .resp3 [(.bulk [102], .simple "v")]
  have hrefused := hgetall_mapping bulkStd_reads .resp3 [(.bulk [102], .simple "v")]
  rw [if_neg (by decide)] at hrefused
  obtain ⟨e, he⟩ := hrefused
  cases he.symm.trans hread

end RedisRsPy.Commands
