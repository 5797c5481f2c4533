/-
`decode_walk` of `facade/decode.rs` on every tree of Python values, frozensets among them, which no command returns but
a caller of the walker can hold.

A tree is valid (`Valid`) as Python keeps it: keys and elements have a hash, and no two of a container are the same. Two
keys are the same as Python compares them: numbers by value, tuples item by item, frozensets by their elements. A set is
its elements in the order in which it is walked.

`Decoded` is what the result should be: text for bytes, lists and tuples item by item, and for a dict or a set the
entries that remain when keys that are decoded to the same are merged (`sameRead`); all of them where the keys are
`Apart`. A frozenset is no `PySet` and passes through as it is.

Results:
- `walk_eq`: on a valid tree whose bytes can be decoded the walk does not raise;
- `bytesIn_read_iff`: bytes remain in the result exactly where a frozenset with bytes remains (`Clean`);
- `decoded_read`: where none does, the result is the tree decoded;
- `decode_walk_iff`, and `decode_walk_iff_list`, `decode_walk_frozenset` on fixed trees;
- `walk_treeOf`: on the replies of commands, but for sets, it is the walk that the commands use.
-/
import Mathlib.Data.List.Forall2
import RedisRsPy.Commands.Python

namespace RedisRsPy.Facade.Decode

open Commands Lib.Fallible

/-! ## Trees -/

inductive Tree where
  | none
  | bool (b : Bool)
  | int (n : Int)
  | float (bits : UInt64)
  | bytes (b : Bytes)
  | str (s : String)
  | list (items : List Tree)
  | tuple (items : List Tree)
  | dict (entries : List (Tree × Tree))
  | set (items : List Tree)
  | frozenset (items : List Tree)

/-- a value that passes through and holds no others -/
def isLeaf : Tree → Bool
  | .none | .bool _ | .int _ | .float _ | .str _ => true
  | _ => false

section Induct

set_option linter.unusedSectionVars false

variable {P : Tree → Prop} (leaf : ∀ x, isLeaf x = true → P x) (bytes : ∀ b, P (.bytes b))
  (list : ∀ items, (∀ x ∈ items, P x) → P (.list items)) (tuple : ∀ items, (∀ x ∈ items, P x) → P (.tuple items))
  (dict : ∀ entries, (∀ kv ∈ entries, P kv.1 ∧ P kv.2) → P (.dict entries))
  (set : ∀ items, (∀ x ∈ items, P x) → P (.set items))
  (frozenset : ∀ items, (∀ x ∈ items, P x) → P (.frozenset items))

include leaf bytes list tuple dict set frozenset

mutual

/-- what holds of a tree where it holds of its parts holds of every tree -/
theorem Tree.induct : ∀ x, P x
  | .none => leaf _ rfl
  | .bool _ => leaf _ rfl
  | .int _ => leaf _ rfl
  | .float _ => leaf _ rfl
  | .str _ => leaf _ rfl
  | .bytes b => bytes b
  | .list items => list items (Tree.inductItems items)
  | .tuple items => tuple items (Tree.inductItems items)
  | .dict entries => dict entries (Tree.inductEntries entries)
  | .set items => set items (Tree.inductItems items)
  | .frozenset items => frozenset items (Tree.inductItems items)

theorem Tree.inductItems : ∀ items : List Tree, ∀ x ∈ items, P x
  | [], _, hx => absurd hx List.not_mem_nil
  | y :: items, _, hx => List.forall_mem_cons.2 ⟨Tree.induct y, Tree.inductItems items⟩ _ hx

theorem Tree.inductEntries : ∀ entries : List (Tree × Tree), ∀ kv ∈ entries, P kv.1 ∧ P kv.2
  | [], _, hkv => absurd hkv List.not_mem_nil
  | (k, v) :: entries, _, hkv =>
    List.forall_mem_cons.2 ⟨⟨Tree.induct k, Tree.induct v⟩, Tree.inductEntries entries⟩ _ hkv

end

end Induct

/-! ## Keys -/

mutual

/-- the object has a hash -/
def hashable : Tree → Bool
  | .list _ | .dict _ | .set _ => false
  | .tuple items => hashables items
  | _ => true

def hashables : List Tree → Bool
  | [] => true
  | x :: rest => hashable x && hashables rest

end

/-- a key that holds no others, as Python compares it -/
inductive Atom where
  | none
  | number (value : Rat ⊕ Bool)
  | bytes (b : Bytes)
  | str (s : String)
deriving DecidableEq

/-- a NaN is the same as no key -/
def atom? : Tree → Option Atom
  | .none => some .none
  | .bool b => some (.number (.inl (if b then 1 else 0)))
  | .int n => some (.number (.inl n))
  | .float bits => (doubleValue bits).map .number
  | .bytes b => some (.bytes b)
  | .str s => some (.str s)
  | _ => none

def sameAtom : Option Atom → Option Atom → Bool
  | some p, some q => decide (p = q)
  | _, _ => false

mutual

/-- `==` of two keys; frozensets are the same with the same elements, in any order -/
def same : Tree → Tree → Bool
  | .tuple items, y =>
    match y with
    | .tuple others => sameItems items others
    | _ => false
  | .frozenset items, y =>
    match y with
    | .frozenset others => included items others && others.all fun y => covers items y
    | _ => false
  | x, y => sameAtom (atom? x) (atom? y)

def sameItems : List Tree → List Tree → Bool
  | [], [] => true
  | x :: xs, y :: ys => same x y && sameItems xs ys
  | _, _ => false

/-- every item is among the others -/
def included : List Tree → List Tree → Bool
  | [], _ => true
  | x :: xs, others => (others.any fun y => same x y) && included xs others

/-- one of the items is this one -/
def covers : List Tree → Tree → Bool
  | [], _ => false
  | x :: xs, y => same x y || covers xs y

end

mutual

/-- what Python can hold -/
def Valid : Tree → Prop
  | .list items | .tuple items => ValidItems items
  | .dict entries => Lib.Dict.Distinct same entries ∧ (∀ kv ∈ entries, hashable kv.1 = true) ∧ ValidEntries entries
  | .set items | .frozenset items =>
    (items.Pairwise fun x y => same x y = false) ∧ (∀ x ∈ items, hashable x = true) ∧ ValidItems items
  | _ => True

def ValidItems : List Tree → Prop
  | [] => True
  | x :: rest => Valid x ∧ ValidItems rest

def ValidEntries : List (Tree × Tree) → Prop
  | [] => True
  | (k, v) :: rest => (Valid k ∧ Valid v) ∧ ValidEntries rest

end

theorem validItems_iff {l : List Tree} : ValidItems l ↔ ∀ x ∈ l, Valid x := by
  induction l with
  | nil => simp [ValidItems]
  | cons x rest ih => simp [ValidItems, ih]

theorem validEntries_iff {l : List (Tree × Tree)} : ValidEntries l ↔ ∀ kv ∈ l, Valid kv.1 ∧ Valid kv.2 := by
  induction l with
  | nil => simp [ValidEntries]
  | cons kv rest ih => simp [ValidEntries, ih]

mutual

/-- all bytes in the tree -/
def bytesIn : Tree → List Bytes
  | .bytes b => [b]
  | .list items | .tuple items | .set items | .frozenset items => bytesInItems items
  | .dict entries => bytesInEntries entries
  | _ => []

def bytesInItems : List Tree → List Bytes
  | [] => []
  | x :: rest => bytesIn x ++ bytesInItems rest

def bytesInEntries : List (Tree × Tree) → List Bytes
  | [] => []
  | (k, v) :: rest => bytesIn k ++ bytesIn v ++ bytesInEntries rest

end

theorem mem_bytesInItems {b : Bytes} {l : List Tree} : b ∈ bytesInItems l ↔ ∃ x ∈ l, b ∈ bytesIn x := by
  induction l with
  | nil => simp [bytesInItems]
  | cons x rest ih => simp [bytesInItems, ih]

theorem mem_bytesInEntries {b : Bytes} {l : List (Tree × Tree)} :
    b ∈ bytesInEntries l ↔ ∃ kv ∈ l, b ∈ bytesIn kv.1 ∨ b ∈ bytesIn kv.2 := by
  induction l with
  | nil => simp [bytesInEntries]
  | cons kv rest ih => simp [bytesInEntries, ih, or_assoc]

theorem bytesInItems_eq_nil {l : List Tree} : bytesInItems l = [] ↔ ∀ x ∈ l, bytesIn x = [] := by
  induction l with
  | nil => simp [bytesInItems]
  | cons x rest ih => simp [bytesInItems, ih]

theorem bytesInEntries_eq_nil {l : List (Tree × Tree)} :
    bytesInEntries l = [] ↔ ∀ kv ∈ l, bytesIn kv.1 = [] ∧ bytesIn kv.2 = [] := by
  induction l with
  | nil => simp [bytesInEntries]
  | cons kv rest ih => simp [bytesInEntries, ih, and_assoc]

/-! ## The walk -/

section Walk

variable (codec : Codec)

/-- the error of `set_item` and `add` -/
def unhashable : Exn := .builtin .TypeError "unhashable type"

mutual

/-- `decode_walk`; a frozenset is not cast to a `PySet` -/
def walk : Tree → Except Exn Tree
  | .bytes b => do
    let s ← codec.decode b
    return .str s
  | .list items => do
    let walked ← walkItems items
    return .list walked
  | .tuple items => do
    let walked ← walkItems items
    return .tuple walked
  | .dict entries => do
    let walked ← walkEntries entries
    return .dict (Lib.Dict.ofList same walked)
  | .set items => do
    let walked ← walkElements items
    return .set (Lib.Dict.dedupe same walked)
  | x => .ok x

def walkItems : List Tree → Except Exn (List Tree)
  | [] => .ok []
  | x :: rest => do
    let x ← walk x
    let rest ← walkItems rest
    return x :: rest

def walkEntries : List (Tree × Tree) → Except Exn (List (Tree × Tree))
  | [] => .ok []
  | (k, v) :: rest => do
    let k ← walk k
    let v ← walk v
    if hashable k then
      let rest ← walkEntries rest
      return (k, v) :: rest
    else .error unhashable

def walkElements : List Tree → Except Exn (List Tree)
  | [] => .ok []
  | x :: rest => do
    let x ← walk x
    if hashable x then
      let rest ← walkElements rest
      return x :: rest
    else .error unhashable

end

mutual

/-- the tree after a walk that does not raise -/
def read : Tree → Tree
  | .bytes b =>
    match codec.decode b with
    | .ok s => .str s
    | .error _ => .bytes b
  | .list items => .list (readItems items)
  | .tuple items => .tuple (readItems items)
  | .dict entries => .dict (Lib.Dict.ofList same (readEntries entries))
  | .set items => .set (Lib.Dict.dedupe same (readItems items))
  | x => x

def readItems : List Tree → List Tree
  | [] => []
  | x :: rest => read x :: readItems rest

def readEntries : List (Tree × Tree) → List (Tree × Tree)
  | [] => []
  | (k, v) :: rest => (read k, read v) :: readEntries rest

end

theorem readItems_eq (l : List Tree) : readItems codec l = l.map (read codec) := by
  induction l with
  | nil => rfl
  | cons x rest ih => rw [readItems, ih, List.map_cons]

theorem readEntries_eq (l : List (Tree × Tree)) : readEntries codec l = l.map (Prod.map (read codec) (read codec)) := by
  induction l with
  | nil => rfl
  | cons kv rest ih => rw [readEntries, ih, List.map_cons]; rfl

theorem read_leaf {x : Tree} (h : isLeaf x = true) : read codec x = x := by
  cases x <;> first | rfl | cases h

theorem read_frozenset (items : List Tree) : read codec (.frozenset items) = .frozenset items := by
  simp only [read]

theorem walk_leaf {x : Tree} (h : isLeaf x = true) : walk codec x = .ok x := by
  cases x <;> first | rfl | cases h

/-! ## Decoding does not raise -/

/-- all bytes of the tree can be decoded -/
def Decodable (x : Tree) : Prop := ∀ b ∈ bytesIn x, ∃ s, codec.decode b = .ok s

theorem hashables_iff {l : List Tree} : hashables l = true ↔ ∀ x ∈ l, hashable x = true := by
  induction l with
  | nil => simp [hashables]
  | cons x rest ih => simp [hashables, ih]

/-- a key stays one -/
theorem hashable_read (x : Tree) (h : hashable x = true) : hashable (read codec x) = true := by
  induction x using Tree.induct with
  | leaf x hx => rwa [read_leaf codec hx]
  | bytes b =>
    rw [read]
    cases codec.decode b with
    | ok s => rfl
    | error e => rfl
  | tuple items ih =>
    have hitems := hashables_iff.1 h
    rw [read, readItems_eq]
    refine hashables_iff.2 ?_
    intro y hy
    obtain ⟨x, hx, rfl⟩ := List.mem_map.1 hy
    exact ih x hx (hitems x hx)
  | frozenset items ih => rfl
  | list items ih => cases h
  | dict entries ih => cases h
  | set items ih => cases h

theorem walkItems_eq {l : List Tree} (h : ∀ x ∈ l, walk codec x = .ok (read codec x)) :
    walkItems codec l = .ok (l.map (read codec)) := by
  induction l with
  | nil => rfl
  | cons x rest ih =>
    rw [walkItems, h x List.mem_cons_self, ih fun y hy => h y (List.mem_cons_of_mem x hy)]
    rfl

theorem walkElements_eq {l : List Tree} (h : ∀ x ∈ l, walk codec x = .ok (read codec x))
    (hkey : ∀ x ∈ l, hashable x = true) : walkElements codec l = .ok (l.map (read codec)) := by
  induction l with
  | nil => rfl
  | cons x rest ih =>
    have hx := hashable_read codec x (hkey x List.mem_cons_self)
    have hrest := ih (fun y hy => h y (List.mem_cons_of_mem x hy)) fun y hy => hkey y (List.mem_cons_of_mem x hy)
    rw [walkElements, h x List.mem_cons_self]
    show (if hashable (read codec x) then _ else _) = _
    rw [if_pos hx, hrest]
    rfl

theorem walkEntries_eq {l : List (Tree × Tree)}
    (h : ∀ kv ∈ l, walk codec kv.1 = .ok (read codec kv.1) ∧ walk codec kv.2 = .ok (read codec kv.2))
    (hkey : ∀ kv ∈ l, hashable kv.1 = true) :
    walkEntries codec l = .ok (l.map (Prod.map (read codec) (read codec))) := by
  induction l with
  | nil => rfl
  | cons kv rest ih =>
    obtain ⟨k, v⟩ := kv
    have hk := hashable_read codec k (hkey (k, v) List.mem_cons_self)
    have hrest := ih (fun y hy => h y (List.mem_cons_of_mem _ hy)) fun y hy => hkey y (List.mem_cons_of_mem _ hy)
    obtain ⟨hwalk, hwalk'⟩ := h (k, v) List.mem_cons_self
    rw [walkEntries, hwalk, hwalk']
    show (if hashable (read codec k) then _ else _) = _
    rw [if_pos hk, hrest]
    rfl

/-- **No error.** The walk over a valid tree whose bytes can be decoded does not raise. -/
theorem walk_eq {x : Tree} (hvalid : Valid x) (h : Decodable codec x) : walk codec x = .ok (read codec x) := by
  induction x using Tree.induct with
  | leaf x hx => rw [walk_leaf codec hx, read_leaf codec hx]
  | bytes b =>
    obtain ⟨s, hs⟩ := h b (List.mem_singleton.2 rfl)
    rw [walk, read, hs]
    rfl
  | list items ih =>
    have hitems : ∀ x ∈ items, walk codec x = .ok (read codec x) := fun x hx =>
      ih x hx (validItems_iff.1 hvalid x hx) fun b hb => h b (mem_bytesInItems.2 ⟨x, hx, hb⟩)
    rw [walk, read, readItems_eq, walkItems_eq codec hitems]
    rfl
  | tuple items ih =>
    have hitems : ∀ x ∈ items, walk codec x = .ok (read codec x) := fun x hx =>
      ih x hx (validItems_iff.1 hvalid x hx) fun b hb => h b (mem_bytesInItems.2 ⟨x, hx, hb⟩)
    rw [walk, read, readItems_eq, walkItems_eq codec hitems]
    rfl
  | dict entries ih =>
    obtain ⟨-, hkeys, hall⟩ := hvalid
    have hentries : ∀ kv ∈ entries,
        walk codec kv.1 = .ok (read codec kv.1) ∧ walk codec kv.2 = .ok (read codec kv.2) := by
      intro kv hkv
      obtain ⟨hk, hv⟩ := validEntries_iff.1 hall kv hkv
      exact ⟨(ih kv hkv).1 hk fun b hb => h b (mem_bytesInEntries.2 ⟨kv, hkv, .inl hb⟩),
        (ih kv hkv).2 hv fun b hb => h b (mem_bytesInEntries.2 ⟨kv, hkv, .inr hb⟩)⟩
    rw [walk, read, readEntries_eq, walkEntries_eq codec hentries hkeys]
    rfl
  | set items ih =>
    obtain ⟨-, hkeys, hall⟩ := hvalid
    have hitems : ∀ x ∈ items, walk codec x = .ok (read codec x) := fun x hx =>
      ih x hx (validItems_iff.1 hall x hx) fun b hb => h b (mem_bytesInItems.2 ⟨x, hx, hb⟩)
    rw [walk, read, readItems_eq, walkElements_eq codec hitems hkeys]
    rfl
  | frozenset items ih => rfl

/-- what the walk makes is valid -/
theorem valid_read {x : Tree} (h : Valid x) : Valid (read codec x) := by
  induction x using Tree.induct with
  | leaf x hx => rwa [read_leaf codec hx]
  | bytes b =>
    rw [read]
    cases codec.decode b with
    | ok s => exact trivial
    | error e => exact trivial
  | list items ih =>
    have hitems := validItems_iff.1 h
    rw [read, readItems_eq]
    exact validItems_iff.2 (List.forall_mem_map.2 fun x hx => ih x hx (hitems x hx))
  | tuple items ih =>
    have hitems := validItems_iff.1 h
    rw [read, readItems_eq]
    exact validItems_iff.2 (List.forall_mem_map.2 fun x hx => ih x hx (hitems x hx))
  | dict entries ih =>
    obtain ⟨-, hkeys, hall⟩ := h
    have hentries := validEntries_iff.1 hall
    rw [read, readEntries_eq]
    have hkept : ∀ kv ∈ Lib.Dict.ofList same (entries.map (Prod.map (read codec) (read codec))),
        (hashable kv.1 = true ∧ Valid kv.1) ∧ Valid kv.2 := by
      refine Lib.Dict.forall_ofList (P := fun k => hashable k = true ∧ Valid k) (Q := Valid) ?_
      refine List.forall_mem_map.2 ?_
      intro kv hkv
      exact ⟨⟨hashable_read codec kv.1 (hkeys kv hkv), (ih kv hkv).1 (hentries kv hkv).1⟩,
        (ih kv hkv).2 (hentries kv hkv).2⟩
    exact ⟨Lib.Dict.distinct_ofList _, fun kv hkv => (hkept kv hkv).1.1,
      validEntries_iff.2 fun kv hkv => ⟨(hkept kv hkv).1.2, (hkept kv hkv).2⟩⟩
  | set items ih =>
    obtain ⟨-, hkeys, hall⟩ := h
    have hitems := validItems_iff.1 hall
    rw [read, readItems_eq]
    have hkept : ∀ x ∈ Lib.Dict.dedupe same (items.map (read codec)), hashable x = true ∧ Valid x := by
      refine Lib.Dict.forall_dedupe (P := fun x => hashable x = true ∧ Valid x) (List.forall_mem_map.2 ?_)
      intro x hx
      exact ⟨hashable_read codec x (hkeys x hx), ih x hx (hitems x hx)⟩
    exact ⟨Lib.Dict.distinct_dedupe _, fun x hx => (hkept x hx).1, validItems_iff.2 fun x hx => (hkept x hx).2⟩
  | frozenset items ih => exact h

theorem map_eq_self {α : Type} {f : α → α} {l : List α} (h : ∀ x ∈ l, f x = x) : l.map f = l :=
  (List.map_congr_left h).trans (List.map_id l)

/-- text stays as it is -/
theorem read_of_bytesFree {x : Tree} (hvalid : Valid x) (h : bytesIn x = []) : read codec x = x := by
  induction x using Tree.induct with
  | leaf x hx => exact read_leaf codec hx
  | bytes b => exact absurd h (List.cons_ne_nil b [])
  | list items ih =>
    have hitems : items.map (read codec) = items := map_eq_self fun x hx =>
      ih x hx (validItems_iff.1 hvalid x hx) (bytesInItems_eq_nil.1 h x hx)
    rw [read, readItems_eq, hitems]
  | tuple items ih =>
    have hitems : items.map (read codec) = items := map_eq_self fun x hx =>
      ih x hx (validItems_iff.1 hvalid x hx) (bytesInItems_eq_nil.1 h x hx)
    rw [read, readItems_eq, hitems]
  | dict entries ih =>
    obtain ⟨hdistinct, -, hall⟩ := hvalid
    have hentries : entries.map (Prod.map (read codec) (read codec)) = entries := by
      refine map_eq_self fun kv hkv => ?_
      obtain ⟨hk, hv⟩ := validEntries_iff.1 hall kv hkv
      obtain ⟨hfree, hfree'⟩ := bytesInEntries_eq_nil.1 h kv hkv
      exact Prod.ext ((ih kv hkv).1 hk hfree) ((ih kv hkv).2 hv hfree')
    rw [read, readEntries_eq, hentries, Lib.Dict.ofList_of_distinct hdistinct]
  | set items ih =>
    obtain ⟨hdistinct, -, hall⟩ := hvalid
    have hitems : items.map (read codec) = items := map_eq_self fun x hx =>
      ih x hx (validItems_iff.1 hall x hx) (bytesInItems_eq_nil.1 h x hx)
    rw [read, readItems_eq, hitems, Lib.Dict.dedupe_of_distinct hdistinct]
  | frozenset items ih => rfl

/-! ## Keys that are decoded to the same -/

/-- the key as it is compared once it is decoded -/
def readAtom (x : Tree) : Option Atom :=
  match x with
  | .bytes b =>
    match codec.decode b with
    | .ok s => some (.str s)
    | .error _ => some (.bytes b)
  | x => atom? x

mutual

/-- the keys are the same once their bytes, other than those in frozensets, are text -/
def sameRead : Tree → Tree → Bool
  | .tuple items, y =>
    match y with
    | .tuple others => sameReads items others
    | _ => false
  | .frozenset items, y => same (.frozenset items) y
  | x, y => sameAtom (readAtom codec x) (readAtom codec y)

def sameReads : List Tree → List Tree → Bool
  | [], [] => true
  | x :: xs, y :: ys => sameRead x y && sameReads xs ys
  | _, _ => false

end

theorem atom?_read (x : Tree) : atom? (read codec x) = readAtom codec x := by
  cases x with
  | bytes b =>
    rw [read, readAtom]
    cases codec.decode b with
    | ok s => rfl
    | error e => rfl
  | _ => rfl

theorem same_frozenset_read (items : List Tree) (y : Tree) :
    same (.frozenset items) (read codec y) = same (.frozenset items) y := by
  cases y with
  | bytes b =>
    rw [read]
    cases codec.decode b with
    | ok s => simp only [same]
    | error e => rfl
  | _ => simp only [same, read]

theorem sameItems_tuple_read (items : List Tree) (y : Tree) :
    same (.tuple items) (read codec y) =
      match y with
      | .tuple others => sameItems items (others.map (read codec))
      | _ => false := by
  cases y with
  | bytes b =>
    rw [read]
    cases codec.decode b with
    | ok s => simp only [same]
    | error e => simp only [same]
  | tuple others => simp only [same, read, readItems_eq]
  | _ => simp only [same, read]

/-- a key that is no tuple and no frozenset is compared as an atom -/
theorem same_atom {x : Tree} (htuple : ∀ items, x ≠ .tuple items) (hfrozen : ∀ items, x ≠ .frozenset items) (y : Tree) :
    same x y = sameAtom (atom? x) (atom? y) := by
  cases x with
  | tuple items => exact absurd rfl (htuple items)
  | frozenset items => exact absurd rfl (hfrozen items)
  | _ => simp only [same]

theorem sameRead_atom {x : Tree} (htuple : ∀ items, x ≠ .tuple items) (hfrozen : ∀ items, x ≠ .frozenset items)
    (y : Tree) : sameRead codec x y = sameAtom (readAtom codec x) (readAtom codec y) := by
  cases x with
  | tuple items => exact absurd rfl (htuple items)
  | frozenset items => exact absurd rfl (hfrozen items)
  | _ => simp only [sameRead]

theorem same_read_atom {x : Tree} (htuple : ∀ items, x ≠ .tuple items) (hfrozen : ∀ items, x ≠ .frozenset items)
    (y : Tree) : same (read codec x) (read codec y) = sameRead codec x y := by
  rw [sameRead_atom codec htuple hfrozen, ← atom?_read, ← atom?_read]
  cases x with
  | tuple items => exact absurd rfl (htuple items)
  | frozenset items => exact absurd rfl (hfrozen items)
  | bytes b =>
    rw [read]
    cases codec.decode b with
    | ok s => simp only [same]
    | error e => simp only [same]
  | _ => simp only [same, read]

theorem sameItems_read {xs : List Tree} (h : ∀ x ∈ xs, ∀ y, same (read codec x) (read codec y) = sameRead codec x y)
    (ys : List Tree) : sameItems (xs.map (read codec)) (ys.map (read codec)) = sameReads codec xs ys := by
  induction xs generalizing ys with
  | nil =>
    cases ys with
    | nil => simp only [List.map_nil, sameItems, sameReads]
    | cons y ys => simp only [List.map_nil, List.map_cons, sameItems, sameReads]
  | cons x xs ih =>
    cases ys with
    | nil => simp only [List.map_nil, List.map_cons, sameItems, sameReads]
    | cons y ys =>
      have hx := h x List.mem_cons_self y
      have hxs := ih (fun x' hx' => h x' (List.mem_cons_of_mem x hx')) ys
      simp only [List.map_cons, sameItems, sameReads, hx, hxs]

/-- **Keys after the walk.** Two decoded keys are the same as the keys before say. -/
theorem same_read (x y : Tree) : same (read codec x) (read codec y) = sameRead codec x y := by
  induction x using Tree.induct generalizing y with
  | leaf x hx =>
    refine same_read_atom codec ?_ ?_ y
    · rintro items rfl
      cases hx
    · rintro items rfl
      cases hx
  | bytes b => exact same_read_atom codec (by rintro items ⟨⟩) (by rintro items ⟨⟩) y
  | list items ih => exact same_read_atom codec (by rintro items ⟨⟩) (by rintro items ⟨⟩) y
  | dict entries ih => exact same_read_atom codec (by rintro items ⟨⟩) (by rintro items ⟨⟩) y
  | set items ih => exact same_read_atom codec (by rintro items ⟨⟩) (by rintro items ⟨⟩) y
  | tuple items ih =>
    rw [read, readItems_eq, sameItems_tuple_read]
    cases y with
    | tuple others =>
      rw [sameRead]
      exact sameItems_read codec ih others
    | _ => simp only [sameRead]
  | frozenset items ih =>
    rw [read_frozenset, same_frozenset_read, sameRead]

/-! ## Keys that stay apart -/

mutual

/-- the parts of a key that are compared as they are -/
def keyLeaves : Tree → List Tree
  | .tuple items => keyLeavesItems items
  | x => [x]

def keyLeavesItems : List Tree → List Tree
  | [] => []
  | x :: rest => keyLeaves x ++ keyLeavesItems rest

end

theorem mem_keyLeavesItems {y : Tree} {l : List Tree} : y ∈ keyLeavesItems l ↔ ∃ x ∈ l, y ∈ keyLeaves x := by
  induction l with
  | nil => simp [keyLeavesItems]
  | cons x rest ih => simp [keyLeavesItems, ih]

/-- no two bytes in the keys are decoded to one text, and none to a text that is in the keys -/
structure Apart (keys : List Tree) : Prop where
  injective : ∀ b b' s, .bytes b ∈ keyLeavesItems keys → .bytes b' ∈ keyLeavesItems keys →
    codec.decode b = .ok s → codec.decode b' = .ok s → b = b'
  fresh : ∀ b s, .bytes b ∈ keyLeavesItems keys → .str s ∈ keyLeavesItems keys → codec.decode b ≠ .ok s

theorem sameAtom_iff {p q : Option Atom} : sameAtom p q = true ↔ ∃ a, p = some a ∧ q = some a := by
  cases p with
  | none => simp [sameAtom]
  | some p =>
    cases q with
    | none => simp [sameAtom]
    | some q => simp [sameAtom, eq_comm]

/-- the only key with the atom of a text, before it is decoded -/
theorem atom?_eq_str {x : Tree} {s : String} (h : atom? x = some (.str s)) : x = .str s := by
  cases x with
  | str t =>
    cases h
    rfl
  | float bits =>
    obtain ⟨v, -, hv⟩ := Option.map_eq_some_iff.1 h
    cases hv
  | _ => cases h

theorem atom?_eq_bytes {x : Tree} {b : Bytes} (h : atom? x = some (.bytes b)) : x = .bytes b := by
  cases x with
  | bytes b' =>
    cases h
    rfl
  | float bits =>
    obtain ⟨v, -, hv⟩ := Option.map_eq_some_iff.1 h
    cases hv
  | _ => cases h

/-- a key is compared as before, or it is bytes and compared as their text -/
theorem readAtom_eq_some {x : Tree} {a : Atom} (h : readAtom codec x = some a) :
    atom? x = some a ∨ ∃ b s, x = .bytes b ∧ codec.decode b = .ok s ∧ a = .str s := by
  cases x with
  | bytes b =>
    rw [readAtom] at h
    cases hb : codec.decode b with
    | ok s =>
      rw [hb] at h
      cases h
      exact .inr ⟨b, s, rfl, hb, rfl⟩
    | error e =>
      rw [hb] at h
      exact .inl h
  | _ => exact .inl h

theorem readAtom_of_ok {b : Bytes} {s : String} (h : codec.decode b = .ok s) :
    readAtom codec (.bytes b) = some (.str s) := by
  rw [readAtom, h]

/-- two parts of keys that are apart are compared as before -/
theorem Apart.sameAtom {keys : List Tree} (h : Apart codec keys) {x y : Tree} (hx : x ∈ keyLeavesItems keys)
    (hy : y ∈ keyLeavesItems keys) : sameAtom (readAtom codec x) (readAtom codec y) = sameAtom (atom? x) (atom? y) := by
  rw [Bool.eq_iff_iff, sameAtom_iff, sameAtom_iff]
  constructor
  · rintro ⟨a, hxa, hya⟩
    rcases readAtom_eq_some codec hxa with hx' | ⟨b, s, rfl, hb, rfl⟩
    · rcases readAtom_eq_some codec hya with hy' | ⟨b', s', rfl, hb', rfl⟩
      · exact ⟨a, hx', hy'⟩
      · obtain rfl := atom?_eq_str hx'
        exact absurd hb' (h.fresh b' s' hy hx)
    · rcases readAtom_eq_some codec hya with hy' | ⟨b', s', rfl, hb', hs⟩
      · obtain rfl := atom?_eq_str hy'
        exact absurd hb (h.fresh b s hx hy)
      · cases hs
        obtain rfl := h.injective b b' s hx hy hb hb'
        exact ⟨.bytes b, rfl, rfl⟩
  · rintro ⟨a, hxa, hya⟩
    by_cases hbytes : ∃ b, x = .bytes b
    · obtain ⟨b, rfl⟩ := hbytes
      cases hxa
      obtain rfl := atom?_eq_bytes hya
      cases hb : codec.decode b with
      | ok s => exact ⟨.str s, readAtom_of_ok codec hb, readAtom_of_ok codec hb⟩
      | error e => exact ⟨.bytes b, by rw [readAtom, hb], by rw [readAtom, hb]⟩
    · have hsame : ∀ z : Tree, atom? z = some a → (∀ b, z ≠ .bytes b) → readAtom codec z = some a := by
        intro z hz hne
        cases z with
        | bytes b => exact absurd rfl (hne b)
        | _ => exact hz
      refine ⟨a, hsame x hxa fun b hb => hbytes ⟨b, hb⟩, hsame y hya ?_⟩
      rintro b rfl
      cases hya
      exact hbytes ⟨b, atom?_eq_bytes hxa⟩

theorem keyLeaves_of_ne_tuple {x : Tree} (h : ∀ items, x ≠ .tuple items) : keyLeaves x = [x] := by
  cases x with
  | tuple items => exact absurd rfl (h items)
  | _ => simp only [keyLeaves]

theorem sameReads_eq {xs ys : List Tree} (h : ∀ x ∈ xs, ∀ y ∈ ys, sameRead codec x y = same x y) :
    sameReads codec xs ys = sameItems xs ys := by
  induction xs generalizing ys with
  | nil =>
    cases ys with
    | nil => simp only [sameReads, sameItems]
    | cons y ys => simp only [sameReads, sameItems]
  | cons x xs ih =>
    cases ys with
    | nil => simp only [sameReads, sameItems]
    | cons y ys =>
      have hx := h x List.mem_cons_self y List.mem_cons_self
      have hxs := ih fun x' hx' y' hy' => h x' (List.mem_cons_of_mem x hx') y' (List.mem_cons_of_mem y hy')
      rw [sameReads, sameItems, hx, hxs]

theorem Apart.sameRead_atom {keys : List Tree} (h : Apart codec keys) {x y : Tree} (htuple : ∀ items, x ≠ .tuple items)
    (hfrozen : ∀ items, x ≠ .frozenset items) (hx : ∀ z ∈ keyLeaves x, z ∈ keyLeavesItems keys)
    (hy : ∀ z ∈ keyLeaves y, z ∈ keyLeavesItems keys) : sameRead codec x y = same x y := by
  rw [keyLeaves_of_ne_tuple htuple] at hx
  rw [Decode.sameRead_atom codec htuple hfrozen, same_atom htuple hfrozen]
  by_cases hy' : ∃ others, y = .tuple others
  · obtain ⟨others, rfl⟩ := hy'
    show Decode.sameAtom _ none = Decode.sameAtom _ none
    cases readAtom codec x <;> cases atom? x <;> rfl
  · rw [keyLeaves_of_ne_tuple fun others hothers => hy' ⟨others, hothers⟩] at hy
    exact h.sameAtom codec (hx x List.mem_cons_self) (hy y List.mem_cons_self)

/-- keys that are apart are compared as before, a tuple by its items -/
theorem Apart.sameRead {keys : List Tree} (h : Apart codec keys) (x y : Tree)
    (hx : ∀ z ∈ keyLeaves x, z ∈ keyLeavesItems keys) (hy : ∀ z ∈ keyLeaves y, z ∈ keyLeavesItems keys) :
    sameRead codec x y = same x y := by
  induction x using Tree.induct generalizing y with
  | leaf x hleaf =>
    refine h.sameRead_atom codec ?_ ?_ hx hy
    · rintro items rfl
      cases hleaf
    · rintro items rfl
      cases hleaf
  | bytes b => exact h.sameRead_atom codec (by rintro items ⟨⟩) (by rintro items ⟨⟩) hx hy
  | list items ih => exact h.sameRead_atom codec (by rintro items ⟨⟩) (by rintro items ⟨⟩) hx hy
  | dict entries ih => exact h.sameRead_atom codec (by rintro items ⟨⟩) (by rintro items ⟨⟩) hx hy
  | set items ih => exact h.sameRead_atom codec (by rintro items ⟨⟩) (by rintro items ⟨⟩) hx hy
  | frozenset items ih => rw [Decode.sameRead]
  | tuple items ih =>
    cases y with
    | tuple others =>
      rw [Decode.sameRead, same]
      refine sameReads_eq codec fun x hmem y hmem' => ?_
      refine ih x hmem y (fun z hz => hx z ?_) fun z hz => hy z ?_
      · rw [keyLeaves]
        exact mem_keyLeavesItems.2 ⟨x, hmem, hz⟩
      · rw [keyLeaves]
        exact mem_keyLeavesItems.2 ⟨y, hmem', hz⟩
    | _ => simp only [Decode.sameRead, same]

theorem Apart.pairwise {keys : List Tree} (h : Apart codec keys) (hdistinct : keys.Pairwise fun x y => same x y = false) :
    keys.Pairwise fun x y => Decode.sameRead codec x y = false := by
  refine hdistinct.imp_of_mem ?_
  intro x y hx hy hxy
  rw [h.sameRead codec x y (fun z hz => mem_keyLeavesItems.2 ⟨x, hx, hz⟩) fun z hz => mem_keyLeavesItems.2 ⟨y, hy, hz⟩]
  exact hxy

mutual

/-- the bytes of a key are bytes of the tree -/
theorem mem_bytesIn_of_leaf {b : Bytes} : ∀ {x : Tree}, .bytes b ∈ keyLeaves x → b ∈ bytesIn x
  | .tuple items, h => by
    rw [keyLeaves] at h
    exact mem_bytesIn_of_leaves h
  | .bytes b', h => by
    simp only [keyLeaves, List.mem_singleton, Tree.bytes.injEq] at h
    rw [h, bytesIn]
    exact List.mem_singleton.2 rfl
  | .none, h => by simp [keyLeaves] at h
  | .bool _, h => by simp [keyLeaves] at h
  | .int _, h => by simp [keyLeaves] at h
  | .float _, h => by simp [keyLeaves] at h
  | .str _, h => by simp [keyLeaves] at h
  | .list _, h => by simp [keyLeaves] at h
  | .dict _, h => by simp [keyLeaves] at h
  | .set _, h => by simp [keyLeaves] at h
  | .frozenset _, h => by simp [keyLeaves] at h

theorem mem_bytesIn_of_leaves {b : Bytes} : ∀ {items : List Tree}, .bytes b ∈ keyLeavesItems items → b ∈ bytesInItems items
  | [], h => by cases h
  | x :: rest, h => by
    rw [keyLeavesItems] at h
    rw [bytesInItems]
    rcases List.mem_append.1 h with h | h
    · exact List.mem_append_left _ (mem_bytesIn_of_leaf h)
    · exact List.mem_append_right _ (mem_bytesIn_of_leaves h)

end

/-- keys without bytes are apart -/
theorem apart_of_bytesFree {keys : List Tree} (h : bytesInItems keys = []) : Apart codec keys := by
  have hnone : ∀ b, Tree.bytes b ∉ keyLeavesItems keys := by
    intro b hb
    have hmem := mem_bytesIn_of_leaves hb
    rw [h] at hmem
    exact List.not_mem_nil hmem
  exact ⟨fun b b' s hb => absurd hb (hnone b), fun b s hb => absurd hb (hnone b)⟩

/-! ## The decoded tree -/

/-- the entries that remain once keys that are decoded to the same are merged: the first key and the last value -/
def keptEntries (entries : List (Tree × Tree)) : List (Tree × Tree) := Lib.Dict.ofList (sameRead codec) entries

def keptItems (items : List Tree) : List Tree := Lib.Dict.dedupe (sameRead codec) items

/-- a tree and what it is with every byte string as text -/
inductive Decoded : Tree → Tree → Prop
  | leaf {x : Tree} (h : isLeaf x = true) : Decoded x x
  | bytes {b : Bytes} {s : String} (h : codec.decode b = .ok s) : Decoded (.bytes b) (.str s)
  | list {items texts : List Tree} (h : List.Forall₂ Decoded items texts) : Decoded (.list items) (.list texts)
  | tuple {items texts : List Tree} (h : List.Forall₂ Decoded items texts) : Decoded (.tuple items) (.tuple texts)
  | dict {entries texts : List (Tree × Tree)}
      (keys : List.Forall₂ Decoded ((keptEntries codec entries).map Prod.fst) (texts.map Prod.fst))
      (values : List.Forall₂ Decoded ((keptEntries codec entries).map Prod.snd) (texts.map Prod.snd))
      (size : Apart codec (entries.map Prod.fst) → texts.length = entries.length) :
      Decoded (.dict entries) (.dict texts)
  | set {items texts : List Tree} (h : List.Forall₂ Decoded (keptItems codec items) texts)
      (size : Apart codec items → texts.length = items.length) : Decoded (.set items) (.set texts)
  | frozenset {items texts : List Tree} (h : List.Forall₂ Decoded (keptItems codec items) texts)
      (size : Apart codec items → texts.length = items.length) : Decoded (.frozenset items) (.frozenset texts)

/-- no frozenset with bytes remains: one may stand in a value only that a later entry of the dict replaces, or in a key or
an element that is merged with another -/
inductive Clean : Tree → Prop
  | leaf {x : Tree} (h : isLeaf x = true) : Clean x
  | bytes (b : Bytes) : Clean (.bytes b)
  | list {items : List Tree} (h : ∀ x ∈ items, Clean x) : Clean (.list items)
  | tuple {items : List Tree} (h : ∀ x ∈ items, Clean x) : Clean (.tuple items)
  | dict {entries : List (Tree × Tree)} (keys : ∀ kv ∈ keptEntries codec entries, Clean kv.1)
      (values : ∀ kv ∈ keptEntries codec entries, Clean kv.2) : Clean (.dict entries)
  | set {items : List Tree} (h : ∀ x ∈ keptItems codec items, Clean x) : Clean (.set items)
  | frozenset {items : List Tree} (h : bytesInItems items = []) : Clean (.frozenset items)

theorem read_dict (entries : List (Tree × Tree)) :
    read codec (.dict entries) = .dict ((keptEntries codec entries).map (Prod.map (read codec) (read codec))) := by
  rw [read, readEntries_eq, Lib.Dict.ofList_map (P := fun _ => True) (fun a b _ _ => same_read codec a b) fun _ _ => trivial]
  rfl

theorem read_set (items : List Tree) : read codec (.set items) = .set ((keptItems codec items).map (read codec)) := by
  rw [read, readItems_eq, Lib.Dict.dedupe_map (same_read codec)]
  rfl

theorem Decodable.item {items : List Tree} (h : ∀ b ∈ bytesInItems items, ∃ s, codec.decode b = .ok s) {x : Tree}
    (hx : x ∈ items) : Decodable codec x := fun b hb => h b (mem_bytesInItems.2 ⟨x, hx, hb⟩)

theorem Decodable.entry {entries : List (Tree × Tree)}
    (h : ∀ b ∈ bytesInEntries entries, ∃ s, codec.decode b = .ok s) {kv : Tree × Tree} (hkv : kv ∈ entries) :
    Decodable codec kv.1 ∧ Decodable codec kv.2 :=
  ⟨fun b hb => h b (mem_bytesInEntries.2 ⟨kv, hkv, .inl hb⟩), fun b hb => h b (mem_bytesInEntries.2 ⟨kv, hkv, .inr hb⟩)⟩

theorem bytesInItems_map_iff {l : List Tree} (h : ∀ x ∈ l, bytesIn (read codec x) = [] ↔ Clean codec x) :
    bytesInItems (l.map (read codec)) = [] ↔ ∀ x ∈ l, Clean codec x := by
  rw [bytesInItems_eq_nil, List.forall_mem_map]
  exact forall₂_congr h

/-- **Where bytes remain.** The result holds bytes exactly if a frozenset with bytes remains. -/
theorem bytesIn_read_iff {x : Tree} (h : Decodable codec x) : bytesIn (read codec x) = [] ↔ Clean codec x := by
  induction x using Tree.induct with
  | leaf x hx =>
    refine iff_of_true ?_ (.leaf hx)
    rw [read_leaf codec hx]
    cases x <;> first | rfl | cases hx
  | bytes b =>
    obtain ⟨s, hs⟩ := h b (List.mem_singleton.2 rfl)
    refine iff_of_true ?_ (.bytes b)
    rw [read, hs]
    rfl
  | list items ih =>
    have hitems := bytesInItems_map_iff codec fun x hx => ih x hx (Decodable.item codec h hx)
    rw [read, readItems_eq, bytesIn, hitems]
    constructor
    · exact Clean.list
    · intro hclean
      cases hclean with
      | list hall => exact hall
      | leaf hleaf => cases hleaf
  | tuple items ih =>
    have hitems := bytesInItems_map_iff codec fun x hx => ih x hx (Decodable.item codec h hx)
    rw [read, readItems_eq, bytesIn, hitems]
    constructor
    · exact Clean.tuple
    · intro hclean
      cases hclean with
      | tuple hall => exact hall
      | leaf hleaf => cases hleaf
  | dict entries ih =>
    have hkept : ∀ kv ∈ keptEntries codec entries, (bytesIn (read codec kv.1) = [] ↔ Clean codec kv.1) ∧
        (bytesIn (read codec kv.2) = [] ↔ Clean codec kv.2) := by
      refine Lib.Dict.forall_ofList (P := fun k => bytesIn (read codec k) = [] ↔ Clean codec k)
        (Q := fun v => bytesIn (read codec v) = [] ↔ Clean codec v) ?_
      intro kv hkv
      obtain ⟨hk, hv⟩ := Decodable.entry codec h hkv
      exact ⟨(ih kv hkv).1 hk, (ih kv hkv).2 hv⟩
    rw [read_dict, bytesIn, bytesInEntries_eq_nil, List.forall_mem_map]
    constructor
    · intro hfree
      exact .dict (fun kv hkv => (hkept kv hkv).1.1 (hfree kv hkv).1) fun kv hkv => (hkept kv hkv).2.1 (hfree kv hkv).2
    · intro hclean kv hkv
      cases hclean with
      | dict hkeys hvalues => exact ⟨(hkept kv hkv).1.2 (hkeys kv hkv), (hkept kv hkv).2.2 (hvalues kv hkv)⟩
      | leaf hleaf => cases hleaf
  | set items ih =>
    have hkept : ∀ x ∈ keptItems codec items, (bytesIn (read codec x) = [] ↔ Clean codec x) :=
      Lib.Dict.forall_dedupe (P := fun x => bytesIn (read codec x) = [] ↔ Clean codec x) fun x hx =>
        ih x hx (Decodable.item codec h hx)
    rw [read_set, bytesIn, bytesInItems_map_iff codec hkept]
    constructor
    · exact Clean.set
    · intro hclean
      cases hclean with
      | set hall => exact hall
      | leaf hleaf => cases hleaf
  | frozenset items ih =>
    rw [read_frozenset, bytesIn]
    constructor
    · exact Clean.frozenset
    · intro hclean
      cases hclean with
      | frozenset hall => exact hall
      | leaf hleaf => cases hleaf

/-- **The result.** Where no frozenset with bytes remains, it is the tree with every byte string as text. -/
theorem decoded_read {x : Tree} (hvalid : Valid x) (h : Decodable codec x) (hclean : Clean codec x) :
    Decoded codec x (read codec x) := by
  induction x using Tree.induct with
  | leaf x hx =>
    rw [read_leaf codec hx]
    exact .leaf hx
  | bytes b =>
    obtain ⟨s, hs⟩ := h b (List.mem_singleton.2 rfl)
    rw [read, hs]
    exact .bytes hs
  | list items ih =>
    cases hclean with
    | leaf hleaf => cases hleaf
    | list hall =>
      rw [read, readItems_eq]
      refine .list (List.forall₂_map_right_iff.2 (List.forall₂_same.2 fun x hx => ?_))
      exact ih x hx (validItems_iff.1 hvalid x hx) (Decodable.item codec h hx) (hall x hx)
  | tuple items ih =>
    cases hclean with
    | leaf hleaf => cases hleaf
    | tuple hall =>
      rw [read, readItems_eq]
      refine .tuple (List.forall₂_map_right_iff.2 (List.forall₂_same.2 fun x hx => ?_))
      exact ih x hx (validItems_iff.1 hvalid x hx) (Decodable.item codec h hx) (hall x hx)
  | dict entries ih =>
    obtain ⟨hdistinct, -, hall⟩ := hvalid
    cases hclean with
    | leaf hleaf => cases hleaf
    | dict hkeys hvalues =>
      have hkept : ∀ kv ∈ keptEntries codec entries, (Clean codec kv.1 → Decoded codec kv.1 (read codec kv.1)) ∧
          (Clean codec kv.2 → Decoded codec kv.2 (read codec kv.2)) := by
        refine Lib.Dict.forall_ofList (P := fun k => Clean codec k → Decoded codec k (read codec k))
          (Q := fun v => Clean codec v → Decoded codec v (read codec v)) ?_
        intro kv hkv
        obtain ⟨hk, hv⟩ := Decodable.entry codec h hkv
        obtain ⟨hk', hv'⟩ := validEntries_iff.1 hall kv hkv
        exact ⟨(ih kv hkv).1 hk' hk, (ih kv hkv).2 hv' hv⟩
      rw [read_dict]
      refine .dict ?_ ?_ ?_
      · rw [List.map_map, List.forall₂_map_right_iff, List.forall₂_map_left_iff, List.forall₂_same]
        exact fun kv hkv => (hkept kv hkv).1 (hkeys kv hkv)
      · rw [List.map_map, List.forall₂_map_right_iff, List.forall₂_map_left_iff, List.forall₂_same]
        exact fun kv hkv => (hkept kv hkv).2 (hvalues kv hkv)
      · intro hapart
        have hpairs : Lib.Dict.Distinct (sameRead codec) entries :=
          List.pairwise_map.1 (hapart.pairwise codec (List.pairwise_map.2 hdistinct))
        rw [List.length_map, keptEntries, Lib.Dict.ofList_of_distinct hpairs]
  | set items ih =>
    obtain ⟨hdistinct, -, hall⟩ := hvalid
    cases hclean with
    | leaf hleaf => cases hleaf
    | set hkeys =>
      have hkept : ∀ x ∈ keptItems codec items, Clean codec x → Decoded codec x (read codec x) :=
        Lib.Dict.forall_dedupe (P := fun x => Clean codec x → Decoded codec x (read codec x)) fun x hx =>
          ih x hx (validItems_iff.1 hall x hx) (Decodable.item codec h hx)
      rw [read_set]
      refine .set ?_ ?_
      · rw [List.forall₂_map_right_iff, List.forall₂_same]
        exact fun x hx => hkept x hx (hkeys x hx)
      · intro hapart
        rw [List.length_map, keptItems, Lib.Dict.dedupe_of_distinct (hapart.pairwise codec hdistinct)]
  | frozenset items ih =>
    obtain ⟨hdistinct, -, hall⟩ := hvalid
    cases hclean with
    | leaf hleaf => cases hleaf
    | frozenset hfree =>
      have hkept : keptItems codec items = items :=
        Lib.Dict.dedupe_of_distinct ((apart_of_bytesFree codec hfree).pairwise codec hdistinct)
      rw [read_frozenset]
      refine .frozenset ?_ fun _ => rfl
      rw [hkept, List.forall₂_same]
      intro x hx
      have hdecodable := Decodable.item codec h hx
      have hself := read_of_bytesFree codec (validItems_iff.1 hall x hx) (bytesInItems_eq_nil.1 hfree x hx)
      have hclean : Clean codec x := by
        refine (bytesIn_read_iff codec hdecodable).1 ?_
        rw [hself]
        exact bytesInItems_eq_nil.1 hfree x hx
      have hdecoded := ih x hx (validItems_iff.1 hall x hx) hdecodable hclean
      rwa [hself] at hdecoded

/-! ## The whole walk -/

/-- the walk gives the tree decoded, with no bytes left, and a second walk changes nothing -/
def Decodes (x : Tree) : Prop :=
  ∃ y, walk codec x = .ok y ∧ bytesIn y = [] ∧ Decoded codec x y ∧ walk codec y = .ok y

/-- **What `decode_walk` decodes.** Of the valid trees whose bytes can be decoded, it decodes those in which no frozenset
with bytes remains, and no others. -/
theorem decode_walk_iff {x : Tree} (hvalid : Valid x) (h : Decodable codec x) : Decodes codec x ↔ Clean codec x := by
  have hwalk := walk_eq codec hvalid h
  constructor
  · rintro ⟨y, hy, hfree, -, -⟩
    rw [hwalk] at hy
    cases hy
    exact (bytesIn_read_iff codec h).1 hfree
  · intro hclean
    have hfree := (bytesIn_read_iff codec h).2 hclean
    have hvalid' := valid_read codec hvalid
    have hnone : Decodable codec (read codec x) := by
      intro b hb
      rw [hfree] at hb
      exact absurd hb List.not_mem_nil
    refine ⟨read codec x, hwalk, hfree, decoded_read codec hvalid h hclean, ?_⟩
    rw [walk_eq codec hvalid' hnone, read_of_bytesFree codec hvalid' hfree]

end Walk

/-! ## Replies of commands -/

mutual

/-- an object that a command returns, as a tree -/
def treeOf : PyObj → Tree
  | .none => .none
  | .bool b => .bool b
  | .int n => .int n
  | .float bits => .float bits
  | .bytes b => .bytes b
  | .str s => .str s
  | .list items => .list (treesOf items)
  | .tuple items => .tuple (treesOf items)
  | .dict entries => .dict (entriesOf entries)
  | .set items => .set (treesOf items)

def treesOf : List PyObj → List Tree
  | [] => []
  | x :: rest => treeOf x :: treesOf rest

def entriesOf : List (PyObj × PyObj) → List (Tree × Tree)
  | [] => []
  | (k, v) :: rest => (treeOf k, treeOf v) :: entriesOf rest

end

theorem entriesOf_eq (l : List (PyObj × PyObj)) : entriesOf l = l.map (Prod.map treeOf treeOf) := by
  induction l with
  | nil => rfl
  | cons kv rest ih => rw [entriesOf, ih, List.map_cons]; rfl

/-- no container -/
def isKey : PyObj → Bool
  | .list _ | .tuple _ | .dict _ | .set _ => false
  | _ => true

mutual

/-- no set, and no container for a key -/
def PlainKeys : PyObj → Prop
  | .list items | .tuple items => PlainKeysItems items
  | .dict entries => PlainKeysEntries entries
  | .set _ => False
  | _ => True

def PlainKeysItems : List PyObj → Prop
  | [] => True
  | x :: rest => PlainKeys x ∧ PlainKeysItems rest

def PlainKeysEntries : List (PyObj × PyObj) → Prop
  | [] => True
  | (k, v) :: rest => isKey k = true ∧ PlainKeys v ∧ PlainKeysEntries rest

end

/-- a key is no tuple and no frozenset -/
theorem same_of_isKey {x : PyObj} (h : isKey x = true) (y : Tree) :
    same (treeOf x) y = sameAtom (atom? (treeOf x)) (atom? y) := by
  cases x with
  | list => cases h
  | tuple => cases h
  | dict => cases h
  | set => cases h
  | _ => simp [treeOf, same]

def isNumber : PyObj → Bool
  | .bool _ | .int _ | .float _ => true
  | _ => false

theorem atom?_of_number {x : PyObj} (h : isNumber x = true) : atom? (treeOf x) = (number? x).map .number := by
  cases x <;> first | rfl | cases h

theorem number?_of_not {x : PyObj} (h : isNumber x = false) : number? x = none := by
  cases x <;> first | rfl | cases h

theorem atom?_of_not {x : PyObj} (hkey : isKey x = true) (h : isNumber x = false) :
    ∃ a, atom? (treeOf x) = some a ∧ ∀ v, a ≠ .number v := by
  cases x with
  | none => exact ⟨.none, rfl, by simp⟩
  | bytes b => exact ⟨.bytes b, rfl, by simp⟩
  | str s => exact ⟨.str s, rfl, by simp⟩
  | bool | int | float => cases h
  | list | tuple | dict | set => cases hkey

theorem beq_value (p q : Rat ⊕ Bool) : (p == q) = decide (Atom.number p = Atom.number q) := by
  rw [Bool.eq_iff_iff, decide_eq_true_iff, Atom.number.injEq]
  rcases p with p | p <;> rcases q with q | q
  · exact (beq_iff_eq (a := p) (b := q)).trans ⟨congrArg Sum.inl, Sum.inl.inj⟩
  · exact iff_of_false Bool.false_ne_true (fun heq => by cases heq)
  · exact iff_of_false Bool.false_ne_true (fun heq => by cases heq)
  · exact (beq_iff_eq (a := p) (b := q)).trans ⟨congrArg Sum.inr, Sum.inr.inj⟩

/-- numbers are compared by value -/
theorem sameKey_of_number {x y : PyObj} (h : isNumber x = true ∨ isNumber y = true) :
    sameKey x y = sameAtom ((number? x).map .number) ((number? y).map .number) := by
  have hvalue : ∀ p q, number? x = some p → number? y = some q → sameKey x y = (p == q) := by
    intro p q hx hy
    cases x <;> cases y <;> first | (simp [isNumber] at h; done) | simp only [sameKey, hx, hy]
  have hleft : number? x = none → sameKey x y = false := by
    intro hx
    cases x <;> cases y <;> first | (simp [isNumber] at h; done) | simp only [sameKey, hx]
  have hright : ∀ p, number? x = some p → number? y = none → sameKey x y = false := by
    intro p hx hy
    cases x <;> cases y <;> first | (simp [isNumber] at h; done) | simp only [sameKey, hx, hy]
  cases hx : number? x with
  | none => exact hleft hx
  | some p =>
    cases hy : number? y with
    | none => exact hright p hx hy
    | some q => exact (hvalue p q hx hy).trans (beq_value p q)

/-- the keys of replies are the same for both -/
theorem same_treeOf {x y : PyObj} (hx : isKey x = true) (hy : isKey y = true) :
    same (treeOf x) (treeOf y) = sameKey x y := by
  rw [same_of_isKey hx]
  cases hnx : isNumber x with
  | true =>
    rw [sameKey_of_number (.inl hnx), atom?_of_number hnx]
    cases hny : isNumber y with
    | true => rw [atom?_of_number hny]
    | false =>
      obtain ⟨a, ha, hother⟩ := atom?_of_not hy hny
      rw [ha, number?_of_not hny]
      cases number? x with
      | none => rfl
      | some v => exact decide_eq_false fun heq => hother v heq.symm
  | false =>
    cases hny : isNumber y with
    | true =>
      rw [sameKey_of_number (.inr hny), atom?_of_number hny]
      obtain ⟨a, ha, hother⟩ := atom?_of_not hx hnx
      rw [ha, number?_of_not hnx]
      cases number? y with
      | none => rfl
      | some v => exact decide_eq_false (hother v)
    | false =>
      rw [Bool.eq_iff_iff]
      cases x <;> cases y <;> simp_all [isKey, isNumber, treeOf, atom?, sameAtom, sameKey, number?]

section Agree

variable (codec : Codec)

/-- a key is decoded to a key -/
theorem isKey_decodeWalk {k k' : PyObj} (hkey : isKey k = true) (h : decodeWalk codec k = .ok k') :
    isKey k' = true := by
  cases k with
  | bytes b =>
    rw [decodeWalk] at h
    obtain ⟨s, -, hs⟩ := bind_ok_iff.1 h
    cases hs
    rfl
  | list | tuple | dict | set => cases hkey
  | _ =>
    cases h
    rfl

theorem plainKeys_of_isKey {k : PyObj} (hkey : isKey k = true) : PlainKeys k := by
  cases k with
  | list | tuple | dict | set => cases hkey
  | _ => trivial

theorem hashable_treeOf {k : PyObj} (hkey : isKey k = true) : hashable (treeOf k) = true := by
  cases k with
  | list | tuple | dict | set => cases hkey
  | _ => simp [treeOf, hashable]

theorem isKey_of_decodePairs {l l' : List (PyObj × PyObj)} (h : PlainKeysEntries l) (hl : decodePairs codec l = .ok l') :
    ∀ kv ∈ l', isKey kv.1 = true := by
  induction l generalizing l' with
  | nil =>
    cases hl
    exact fun kv hkv => absurd hkv List.not_mem_nil
  | cons kv rest ih =>
    obtain ⟨k, v⟩ := kv
    rw [decodePairs] at hl
    obtain ⟨k', hk, hl⟩ := bind_ok_iff.1 hl
    obtain ⟨v', -, hl⟩ := bind_ok_iff.1 hl
    obtain ⟨rest', hrest, hl⟩ := bind_ok_iff.1 hl
    cases hl
    exact List.forall_mem_cons.2 ⟨isKey_decodeWalk codec h.1 hk, ih h.2.2 hrest⟩

mutual

/-- **One walk.** On the objects that commands return the walk is the one of the commands, but for sets. -/
theorem walk_treeOf : ∀ x : PyObj, PlainKeys x → walk codec (treeOf x) = (decodeWalk codec x).map treeOf
  | .none, _ => by simp only [treeOf, walk, decodeWalk, Except.map]
  | .bool _, _ => by simp only [treeOf, walk, decodeWalk, Except.map]
  | .int _, _ => by simp only [treeOf, walk, decodeWalk, Except.map]
  | .float _, _ => by simp only [treeOf, walk, decodeWalk, Except.map]
  | .str _, _ => by simp only [treeOf, walk, decodeWalk, Except.map]
  | .bytes b, _ => by
    rw [treeOf, walk, decodeWalk]
    cases codec.decode b with
    | error e => rfl
    | ok s => simp only [bind, Except.bind, pure, Except.pure, Except.map, treeOf]
  | .list items, h => by
    rw [treeOf, walk, decodeWalk, walkItems_treesOf items h]
    cases decodeItems codec items with
    | error e => rfl
    | ok walked => simp only [bind, Except.bind, pure, Except.pure, Except.map, treeOf]
  | .tuple items, h => by
    rw [treeOf, walk, decodeWalk, walkItems_treesOf items h]
    cases decodeItems codec items with
    | error e => rfl
    | ok walked => simp only [bind, Except.bind, pure, Except.pure, Except.map, treeOf]
  | .dict entries, h => by
    rw [treeOf, walk, decodeWalk, walkEntries_entriesOf entries h]
    cases hwalked : decodePairs codec entries with
    | error e => rfl
    | ok walked =>
      have hkeys := isKey_of_decodePairs codec h hwalked
      have hmerged : Lib.Dict.ofList same (entriesOf walked) = entriesOf (Lib.Dict.ofList sameKey walked) := by
        rw [entriesOf_eq, entriesOf_eq]
        exact Lib.Dict.ofList_map (P := fun k => isKey k = true) (fun a b ha hb => same_treeOf ha hb) hkeys
      simp only [bind, Except.bind, pure, Except.pure, Except.map, mkDict, treeOf, hmerged]
  | .set _, h => h.elim

theorem walkItems_treesOf :
    ∀ l : List PyObj, PlainKeysItems l → walkItems codec (treesOf l) = (decodeItems codec l).map treesOf
  | [], _ => rfl
  | x :: rest, h => by
    rw [treesOf, walkItems, decodeItems, walk_treeOf x h.1, walkItems_treesOf rest h.2]
    cases decodeWalk codec x with
    | error e => rfl
    | ok x' =>
      cases decodeItems codec rest with
      | error e => rfl
      | ok rest' => simp only [bind, Except.bind, pure, Except.pure, Except.map, treesOf]

theorem walkEntries_entriesOf : ∀ l : List (PyObj × PyObj), PlainKeysEntries l →
    walkEntries codec (entriesOf l) = (decodePairs codec l).map entriesOf
  | [], _ => rfl
  | (k, v) :: rest, h => by
    rw [entriesOf, walkEntries, decodePairs, walk_treeOf k (plainKeys_of_isKey h.1), walk_treeOf v h.2.1, walkEntries_entriesOf rest h.2.2]
    cases hk : decodeWalk codec k with
    | error e => rfl
    | ok k' =>
      have hhash : hashable (treeOf k') = true := hashable_treeOf (isKey_decodeWalk codec h.1 hk)
      cases decodeWalk codec v with
      | error e => rfl
      | ok v' =>
        cases decodePairs codec rest with
        | error e => simp only [bind, Except.bind, Except.map, hhash, if_true]
        | ok rest' => simp only [bind, Except.bind, pure, Except.pure, Except.map, entriesOf, hhash, if_true]

end

end Agree

/-! ## A codec -/

/-- every byte is the character of its number -/
def latin1 : Codec := fun b => .ok (String.ofList (b.map fun x => Char.ofNat x.toNat))

theorem decodable_latin1 (x : Tree) : Decodable latin1 x := fun _ _ => ⟨_, rfl⟩

/-- a list with a dict whose key is a tuple -/
theorem decode_walk_iff_list :
    Decodes latin1 (.list [.dict [(.tuple [.bytes [97], .int 1], .set [.bytes [98]])], .none]) := by
  refine (decode_walk_iff latin1 ?_ (decodable_latin1 _)).2 ((bytesIn_read_iff latin1 (decodable_latin1 _)).1 rfl)
  simp [Valid, ValidItems, ValidEntries, hashable, hashables, Lib.Dict.Distinct]

/-- a frozenset passes through with its bytes -/
theorem decode_walk_frozenset : Valid (.frozenset [.bytes [97]]) ∧ Decodable latin1 (.frozenset [.bytes [97]]) ∧
    ¬ Decodes latin1 (.frozenset [.bytes [97]]) := by
  refine ⟨?_, decodable_latin1 _, ?_⟩
  · simp [Valid, ValidItems, hashable]
  · rintro ⟨y, hy, hfree, -, -⟩
    cases hy
    exact absurd hfree (List.cons_ne_nil _ _)

end RedisRsPy.Facade.Decode
