/-
Argument vectors: readers for lists of words, each of which takes what it needs off the front and hands the rest on.

A grammar is written as a chain of readers. The rules say what a reader does with the words that were written for it:
a counted part takes as many words as were counted, whatever they spell, and an optional clause is there exactly where
its keyword is the next word.
-/
import Mathlib.Data.List.Basic

namespace Lib.Arguments

variable {τ α β : Type*}

/-- what reads the rest of a vector -/
abbrev Reader (τ β : Type*) := List τ → Option β

/-- one word -/
def word (f : τ → Reader τ β) : Reader τ β
  | w :: rest => f w rest
  | [] => none

/-- one word, as what it stands for -/
def wordAs (parse : τ → Option α) (f : α → Reader τ β) : Reader τ β
  | w :: rest => (parse w).bind fun v => f v rest
  | [] => none

/-- a word that must be this keyword -/
def keyword (key : τ → Bool) (f : Reader τ β) : Reader τ β
  | w :: rest => if key w then f rest else none
  | [] => none

/-- so many words -/
def times (n : ℕ) (f : List τ → Reader τ β) : Reader τ β := fun words =>
  if n ≤ words.length then f (words.take n) (words.drop n) else none

/-- so many words, as what they stand for -/
def timesAs (parse : τ → Option α) (n : ℕ) (f : List α → Reader τ β) : Reader τ β :=
  times n fun words rest => (words.mapM parse).bind fun vs => f vs rest

/-- a clause that its keyword announces, or nothing -/
def clause (key : τ → Bool) (p : (α → Reader τ β) → Reader τ β) (f : Option α → Reader τ β) : Reader τ β
  | w :: rest => if key w then p (fun v => f (some v)) rest else f none (w :: rest)
  | [] => f none []

/-- a keyword alone, or nothing -/
def flag (key : τ → Bool) (f : Bool → Reader τ β) : Reader τ β := clause key (fun g => g ()) fun v => f v.isSome

/-- all words, in two parts of one length -/
def halves (f : List τ → List τ → Option β) : Reader τ β := fun words =>
  if words.length % 2 = 0 then f (words.take (words.length / 2)) (words.drop (words.length / 2)) else none

/-- the end of the vector -/
def finish (v : β) : Reader τ β
  | [] => some v
  | _ :: _ => none

/-! ## What readers do with what was written for them -/

theorem word_cons (f : τ → Reader τ β) (w : τ) (rest : List τ) : word f (w :: rest) = f w rest := rfl

theorem wordAs_cons {parse : τ → Option α} {w : τ} {v : α} (h : parse w = some v) (f : α → Reader τ β) (rest : List τ) :
    wordAs parse f (w :: rest) = f v rest := by
  rw [wordAs, h, Option.bind_some]

theorem keyword_cons {key : τ → Bool} {w : τ} (h : key w = true) (f : Reader τ β) (rest : List τ) :
    keyword key f (w :: rest) = f rest := if_pos h

/-- a counted part is its words, and the rest what follows them -/
theorem times_append (f : List τ → Reader τ β) (words rest : List τ) :
    times words.length f (words ++ rest) = f words rest := by
  have hle : words.length ≤ (words ++ rest).length := by
    rw [List.length_append]
    exact Nat.le_add_right _ _
  rw [times, if_pos hle, List.take_left, List.drop_left]

theorem timesAs_append {parse : τ → Option α} {write : α → τ} {same : α → α}
    (h : ∀ v, parse (write v) = some (same v)) (f : List α → Reader τ β) (vs : List α) (rest : List τ) :
    timesAs parse vs.length f (vs.map write ++ rest) = f (vs.map same) rest := by
  have hparse : (vs.map write).mapM parse = some (vs.map same) := by
    induction vs with
    | nil => rfl
    | cons v vs ih =>
      rw [List.map_cons, List.mapM_cons, h, ih]
      rfl
  rw [timesAs, ← List.length_map (f := write), times_append, hparse, Option.bind_some]

theorem clause_cons {key : τ → Bool} {w : τ} (h : key w = true) (p : (α → Reader τ β) → Reader τ β)
    (f : Option α → Reader τ β) (rest : List τ) : clause key p f (w :: rest) = p (fun v => f (some v)) rest := if_pos h

/-- the next word announces something else -/
theorem clause_absent {key : τ → Bool} {words : List τ} (h : ∀ w, words.head? = some w → key w = false)
    (p : (α → Reader τ β) → Reader τ β) (f : Option α → Reader τ β) : clause key p f words = f none words := by
  cases words with
  | nil => rfl
  | cons w rest =>
    have hw : key w = false := h w rfl
    rw [clause, hw, if_neg Bool.false_ne_true]

theorem flag_cons {key : τ → Bool} {w : τ} (h : key w = true) (f : Bool → Reader τ β) (rest : List τ) :
    flag key f (w :: rest) = f true rest := clause_cons h _ _ rest

theorem flag_absent {key : τ → Bool} {words : List τ} (h : ∀ w, words.head? = some w → key w = false)
    (f : Bool → Reader τ β) : flag key f words = f false words := clause_absent h _ _

theorem halves_append {ks vs : List τ} (h : ks.length = vs.length) (f : List τ → List τ → Option β) :
    halves f (ks ++ vs) = f ks vs := by
  have hlen : (ks ++ vs).length = 2 * ks.length := by
    rw [List.length_append, ← h, Nat.two_mul]
  have hmod : 2 * ks.length % 2 = 0 := Nat.mul_mod_right 2 _
  have hdiv : 2 * ks.length / 2 = ks.length := Nat.mul_div_right _ (by decide)
  rw [halves, hlen, if_pos hmod, hdiv, List.take_left, List.drop_left]

end Lib.Arguments
