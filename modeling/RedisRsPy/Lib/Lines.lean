/-
Command lines: a name of one word or more, words at fixed places, a list, more words at fixed places, options.

A form says how many words stand where, how the end of the list is told, and which options there are. The rule
(`read_words`): what was written by a form is read by it, part by part, if the options go together and nothing that must
be there is missing, and refused otherwise. Where no name starts another, a line of one command is a line of no other
(`readNamed_append`).
-/
import Mathlib.Data.List.Basic
import RedisRsPy.Lib.Options

namespace Lib.Lines

open Lib.Arguments Lib.Options

variable {τ κ ν β : Type*}

/-- a list in a line, and how its end is told -/
inductive Items (τ : Type*) where
  | absent
  /-- a number, and so many words -/
  | counted
  /-- one word, or none at the end of the line -/
  | atMostOne
  /-- the words up to the first that is none of the items -/
  | whileItem (item : τ → Bool)

/-- it has one word at least -/
def Items.needed : Items τ → Bool
  | counted => true
  | whileItem _ => true
  | _ => false

/-- what a line is made of -/
structure Form (τ κ : Type*) where
  front : ℕ
  items : Items τ
  back : ℕ
  grammar : Grammar τ κ
  /-- one option at least -/
  needsOption : Bool

/-- the parts of a line behind its name -/
structure Line (τ κ : Type*) where
  front : List τ
  items : List τ
  back : List τ
  options : List (Given τ κ)

/-- how numbers and the names of options are spelled -/
structure Spelling (τ κ : Type*) where
  keyword : κ → τ
  count : ℕ → τ
  countOf : τ → Option ℕ
  countOf_count : ∀ n, countOf (count n) = some n

/-! ## Writing -/

variable (S : Spelling τ κ)

def Items.words (ws : List τ) : Items τ → List τ
  | counted => S.count ws.length :: ws
  | _ => ws

/-- what stands behind the list -/
def Line.rest (l : Line τ κ) : List τ := l.back ++ l.options.flatMap (Options.words S.keyword)

def Line.words (F : Form τ κ) (l : Line τ κ) : List τ := l.front ++ (F.items.words S l.items ++ l.rest S)

/-! ## Reading -/

/-- the list, and what follows it -/
def readItems (f : List τ → Reader τ β) : Items τ → Reader τ β
  | .absent, words => f [] words
  | .counted, words => wordAs S.countOf (fun n => times n fun ws => if n = 0 then fun _ => none else f ws) words
  | .atMostOne, [] => f [] []
  | .atMostOne, w :: rest => f [w] rest
  | .whileItem item, words =>
    if words.takeWhile item = [] then none else f (words.takeWhile item) (words.dropWhile item)

def readLine (F : Form τ κ) : Reader τ (Line τ κ) :=
  times F.front fun front => readItems S (fun items => times F.back fun back =>
    options F.grammar (fun os => ends (if F.needsOption && os.isEmpty then none else some ⟨front, items, back, os⟩)) [])
    F.items

/-! ## What was written is read -/

/-- the list ends where it is said to end -/
def Items.Ends (ws rest : List τ) : Items τ → Prop
  | absent => ws = []
  | counted => True
  | atMostOne => ws.length ≤ 1 ∧ (ws = [] → rest = [])
  | whileItem item => (∀ w ∈ ws, item w = true) ∧ ∀ w, rest.head? = some w → item w = false

/-- a line that has the form -/
structure Fits (F : Form τ κ) (l : Line τ κ) : Prop where
  front : l.front.length = F.front
  items : F.items.Ends l.items (l.rest S)
  back : l.back.length = F.back
  known : Known F.grammar S.keyword l.options

/-- nothing is missing, and the options go together -/
structure Complete (F : Form τ κ) (l : Line τ κ) : Prop where
  items : F.items.needed = true → l.items ≠ []
  option : F.needsOption = true → l.options ≠ []
  compatible : Compatible F.grammar (keys l.options)

section Reading

variable {S}

theorem takeWhile_append_items {item : τ → Bool} {ws rest : List τ} (hws : ∀ w ∈ ws, item w = true)
    (hrest : ∀ w, rest.head? = some w → item w = false) :
    (ws ++ rest).takeWhile item = ws ∧ (ws ++ rest).dropWhile item = rest := by
  rw [List.takeWhile_append_of_pos hws, List.dropWhile_append_of_pos hws]
  cases rest with
  | nil => exact ⟨List.append_nil ws, rfl⟩
  | cons w rest =>
    have hw : item w = false := hrest w rfl
    rw [List.takeWhile_cons_of_neg (by simp [hw]), List.dropWhile_cons_of_neg (by simp [hw])]
    exact ⟨List.append_nil ws, rfl⟩

/-- the list is read up to its end, unless it is empty and must not be -/
theorem readItems_words (f : List τ → Reader τ β) {I : Items τ} {ws rest : List τ} (h : I.Ends ws rest) :
    readItems S f I (I.words S ws ++ rest) = if I.needed = true ∧ ws = [] then none else f ws rest := by
  cases I with
  | absent =>
    obtain rfl : ws = [] := h
    rfl
  | counted =>
    show wordAs S.countOf _ (S.count ws.length :: (ws ++ rest)) = _
    rw [wordAs_cons (S.countOf_count ws.length), times_append]
    cases ws <;> simp [Items.needed]
  | atMostOne =>
    match ws, h with
    | [], h =>
      obtain rfl : rest = [] := h.2 rfl
      rfl
    | [w], _ => rfl
  | whileItem item =>
    obtain ⟨htake, hdrop⟩ := takeWhile_append_items h.1 h.2
    show (if (ws ++ rest).takeWhile item = [] then none
      else f ((ws ++ rest).takeWhile item) ((ws ++ rest).dropWhile item)) = _
    rw [htake, hdrop]
    simp [Items.needed]

/-- **The form and what was written.** -/
theorem readLine_words {F : Form τ κ} {l : Line τ κ} (h : Fits S F l) [Decidable (Complete F l)] :
    readLine S F (l.words S F) = if Complete F l then some l else none := by
  rw [readLine, Line.words, ← h.front, times_append, readItems_words _ h.items]
  by_cases hitems : F.items.needed = true ∧ l.items = []
  · have hmissing : ¬ Complete F l := fun hall => hall.items hitems.1 hitems.2
    rw [if_pos hitems, if_neg hmissing]
  · rw [if_neg hitems, Line.rest, ← h.back, times_append, options_ends h.known]
    by_cases hoption : F.needsOption = true ∧ l.options = []
    · have hmissing : ¬ Complete F l := fun hall => hall.option hoption.1 hoption.2
      rw [if_neg hmissing, hoption.1, hoption.2]
      exact ite_self _
    · have hthere : (F.needsOption && l.options.isEmpty) = false := by
        rw [Bool.eq_false_iff, ne_eq, Bool.and_eq_true, List.isEmpty_iff]
        exact hoption
      rw [hthere]
      refine if_congr ⟨fun hcompatible => ?_, fun hall => hall.compatible⟩ rfl rfl
      exact ⟨fun hneeded hnone => hitems ⟨hneeded, hnone⟩, fun hneeded hnone => hoption ⟨hneeded, hnone⟩, hcompatible⟩

theorem times_eq_some {n : ℕ} {f : List τ → Reader τ β} {words : List τ} {v : β} (h : times n f words = some v) :
    f (words.take n) (words.drop n) = some v := by
  unfold times at h
  split_ifs at h
  exact h

/-- what the loop gives comes from the reader behind it -/
theorem options_eq_some {G : Grammar τ κ} {f : List (Given τ κ) → Reader τ β} {given : List (Given τ κ)}
    {words : List τ} {v : β} (h : options G f given words = some v) : ∃ os rest, f os rest = some v := by
  fun_induction options G f given words with
  | case1 given => exact ⟨given, [], h⟩
  | case2 given w hw => exact ⟨given, [w], h⟩
  | case3 => cases h
  | case4 given w k hw hnone => exact ⟨_, _, h⟩
  | case5 given w v rest hw => exact ⟨given, w :: v :: rest, h⟩
  | case6 => cases h
  | case7 given w v rest k hw hnone hvalued ih => exact ih h
  | case8 given w v rest k hw hnone hvalued ih => exact ih h

/-- the items of a line that was read are all that are items in front of the first word that is none -/
theorem items_of_readLine {F : Form τ κ} {item : τ → Bool} (hF : F.items = .whileItem item) {words : List τ}
    {l : Line τ κ} (h : readLine S F words = some l) : l.items = (words.drop F.front).takeWhile item := by
  have hitems := times_eq_some h
  rw [hF, readItems] at hitems
  split_ifs at hitems
  obtain ⟨os, rest, hend⟩ := options_eq_some (times_eq_some hitems)
  cases rest with
  | nil =>
    dsimp only [ends] at hend
    split_ifs at hend
    cases hend
    rfl
  | cons => cases hend

end Reading

/-! ## Names -/

/-- the words of a name in front of a line -/
def announces (same : τ → τ → Bool) : List τ → List τ → Bool
  | [], _ => true
  | _ :: _, [] => false
  | key :: ks, w :: ws => same key w && announces same ks ws

/-- one of two names is in front of the other -/
def overlaps (same : τ → τ → Bool) : List τ → List τ → Bool
  | key :: ks, w :: ws => same key w && overlaps same ks ws
  | _, _ => true

/-- commands, with names of which none starts another -/
structure Table (τ ν κ : Type*) where
  all : List ν
  name : ν → List τ
  form : ν → Form τ κ
  same : τ → τ → Bool
  own : ∀ n ∈ all, announces same (name n) (name n) = true
  apart : ∀ m ∈ all, ∀ n ∈ all, overlaps same (name m) (name n) = true → m = n

/-- the command whose name the line has, and the rest as its form says -/
def readNamed (T : Table τ ν κ) (words : List τ) : Option (ν × Line τ κ) :=
  (T.all.find? fun n => announces T.same (T.name n) words).bind fun n =>
    (readLine S (T.form n) (words.drop (T.name n).length)).map fun l => (n, l)

section Named

variable {S}

theorem announces_append {same : τ → τ → Bool} {ks ws : List τ} (h : announces same ks ws = true) (rest : List τ) :
    announces same ks (ws ++ rest) = true := by
  fun_induction announces same ks ws with
  | case1 ws => cases ws ++ rest <;> rfl
  | case2 => cases h
  | case3 key ks w ws ih =>
    obtain ⟨hkey, hks⟩ := Bool.and_eq_true_iff.1 h
    rw [List.cons_append, announces, hkey, ih hks]
    rfl

theorem overlaps_of_announces {same : τ → τ → Bool} {ks ws rest : List τ}
    (h : announces same ks (ws ++ rest) = true) : overlaps same ks ws = true := by
  fun_induction overlaps same ks ws with
  | case1 key ks w ws ih =>
    obtain ⟨hkey, hks⟩ := Bool.and_eq_true_iff.1 h
    rw [hkey, ih hks]
    rfl
  | case2 => rfl

/-- **A line of one command is a line of no other.** -/
theorem readNamed_append (T : Table τ ν κ) {n : ν} (hn : n ∈ T.all) (words : List τ) :
    readNamed S T (T.name n ++ words) = (readLine S (T.form n) words).map fun l => (n, l) := by
  have hannounces : announces T.same (T.name n) (T.name n ++ words) = true := announces_append (T.own n hn) words
  have hfind : T.all.find? (fun m => announces T.same (T.name m) (T.name n ++ words)) = some n := by
    have hsome : (T.all.find? fun m => announces T.same (T.name m) (T.name n ++ words)).isSome = true :=
      List.find?_isSome.2 ⟨n, hn, hannounces⟩
    obtain ⟨m, hm⟩ := Option.isSome_iff_exists.1 hsome
    have hfront : announces T.same (T.name m) (T.name n ++ words) = true := by
      have h := List.find?_some hm
      exact h
    have hsame : m = n := T.apart m (List.mem_of_find?_eq_some hm) n hn (overlaps_of_announces hfront)
    rw [hm, hsame]
  rw [readNamed, hfind, Option.bind_some, List.drop_left]

end Named

end Lib.Lines
