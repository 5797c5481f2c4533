/-
The db that a URL names to the redis crate: the number that its path is.

The URL is read by the URL standard: blanks at its end, tabs and line breaks are dropped, the authority ends at the first
`/`, `?` or `#`, the path at the next `?` or `#`, and the segments `.` and `..` of the path are walked. The crate trims the
path at its slashes and parses it; the empty path is db 0.

Results:
- `pathDb_of_segment`: a path of one segment of digits and signs;
- `pathDb_of_query`: no path before the query or the fragment.
-/
import Mathlib.Data.List.DropRight
import RedisRsPy.Facade.Url

namespace RedisRsPy.Connection

open Facade Lib.Split

/-! ## Reading the path -/

/-- what ends an authority -/
def endsAuthority (c : Char) : Bool := c = '/' || c = '?' || c = '#'

/-- what ends a path -/
def endsPath (c : Char) : Bool := c = '?' || c = '#'

/-- what is dropped at the end of a URL: a space or a control character -/
def isBlank (c : Char) : Bool := decide (c.toNat ≤ 32)

/-- what is dropped anywhere in a URL -/
def isBreak (c : Char) : Bool := c = '\t' || c = '\n' || c = '\r'

def cleaned (rest : Str) : Str := (rest.rdropWhile isBlank).filter fun c => !isBreak c

/-- the path of what follows the scheme, as it is written -/
def writtenPath (rest : Str) : Str :=
  ((cleaned rest).dropWhile fun c => !endsAuthority c).takeWhile fun c => !endsPath c

def isSingleDot (segment : Str) : Bool := segment.map Char.toLower ∈ [".".toList, "%2e".toList]

def isDoubleDot (segment : Str) : Bool :=
  segment.map Char.toLower ∈ ["..".toList, ".%2e".toList, "%2e.".toList, "%2e%2e".toList]

/-- one segment of the path, after these; the last one leaves an empty segment where it is dots -/
def pathStep (path : List Str) (segment : Str) (isLast : Bool) : List Str :=
  if isDoubleDot segment then path.dropLast ++ (if isLast then [[]] else [])
  else if isSingleDot segment then path ++ (if isLast then [[]] else [])
  else path ++ [segment]

def walkPath (path : List Str) : List Str → List Str
  | [] => path
  | [segment] => pathStep path segment true
  | segment :: segments => walkPath (pathStep path segment false) segments

/-- the path with its dots walked -/
def urlPath (rest : Str) : Str :=
  match writtenPath rest with
  | _ :: path => (walkPath [] (split '/' path)).flatMap fun segment => '/' :: segment
  | [] => []

/-- `trim_matches('/')` -/
def trimSlashes (path : Str) : Str := (path.dropWhile fun c => c = '/').rdropWhile fun c => c = '/'

/-- the db of a URL; none where the path is no number -/
def pathDb (rest : Str) : Option ℤ :=
  if trimSlashes (urlPath rest) = [] then some 0 else (parseI64 (trimSlashes (urlPath rest))).map Int64.toInt

/-! ## What is dropped -/

/-- blanks are dropped behind the last character that is none -/
theorem cleaned_append {front : Str} {c : Char} (hblank : isBlank c = false) (rest : Str) :
    cleaned (front ++ c :: rest) = (front ++ [c]).filter (fun d => !isBreak d) ++ cleaned rest := by
  have hdrop : (front ++ c :: rest).rdropWhile isBlank = front ++ [c] ++ rest.rdropWhile isBlank := by
    have hfront : (front ++ [c]).rdropWhile isBlank = front ++ [c] := by
      rw [List.rdropWhile_concat_neg]
      rw [hblank]
      exact Bool.false_ne_true
    have hrev : (front ++ c :: rest).reverse = rest.reverse ++ (front ++ [c]).reverse := by simp
    rw [List.rdropWhile, hrev, List.dropWhile_append]
    split_ifs with hempty
    · have hnil : rest.rdropWhile isBlank = [] := by
        rw [List.rdropWhile, List.isEmpty_iff.1 hempty]
        rfl
      rw [hnil, List.append_nil]
      exact hfront
    · rw [List.reverse_append, List.reverse_reverse]
      rfl
  rw [cleaned, hdrop, List.filter_append]
  rfl

theorem mem_cleaned {rest : Str} {c : Char} (h : c ∈ cleaned rest) : c ∈ rest := by
  have hmem := List.mem_of_mem_filter h
  exact (List.rdropWhile_prefix isBlank rest).subset hmem

theorem isBlank_of_isBreak {c : Char} (h : isBreak c = true) : isBlank c = true := by
  simp only [isBreak, Bool.or_eq_true, decide_eq_true_iff] at h
  rcases h with (rfl | rfl) | rfl
  · decide
  · decide
  · decide

/-- a character that no reading drops -/
theorem cleaned_cons {front : Str} {c : Char} (hblank : isBlank c = false) (rest : Str) :
    cleaned (front ++ c :: rest) = front.filter (fun d => !isBreak d) ++ c :: cleaned rest := by
  have hkept : isBreak c = false := by
    cases hbreak : isBreak c with
    | false => rfl
    | true =>
      rw [isBlank_of_isBreak hbreak] at hblank
      cases hblank
  rw [cleaned_append hblank, List.filter_append, List.filter_cons_of_pos (by rw [hkept]; rfl), List.append_assoc]
  rfl

/-- so are digits and signs -/
theorem cleaned_segment {segment : Str} (h : ∀ c ∈ segment, isBlank c = false) (rest : Str) :
    cleaned (segment ++ rest) = segment ++ cleaned rest := by
  induction segment with
  | nil => rfl
  | cons c segment ih =>
    have hc := @cleaned_cons [] c (h c List.mem_cons_self) (segment ++ rest)
    rw [List.cons_append]
    exact hc.trans (congrArg (c :: ·) (ih fun d hd => h d (List.mem_cons_of_mem c hd)))

/-! ## Where the path is -/

/-- what stands before the end of the authority is not read -/
theorem writtenPath_of_end {authority : Str} (hauthority : ∀ c ∈ authority, endsAuthority c = false) {c : Char}
    (hc : endsAuthority c = true) (rest : Str) :
    writtenPath (authority ++ c :: rest) = (c :: cleaned rest).takeWhile fun d => !endsPath d := by
  have hblank : isBlank c = false := by
    simp only [endsAuthority, Bool.or_eq_true, decide_eq_true_iff] at hc
    rcases hc with (rfl | rfl) | rfl
    · decide
    · decide
    · decide
  have hfront : ∀ d ∈ authority.filter (fun d => !isBreak d), (!endsAuthority d) = true := by
    intro d hd
    rw [hauthority d (List.mem_of_mem_filter hd)]
    rfl
  rw [writtenPath, cleaned_cons hblank, List.dropWhile_append_of_pos hfront, List.dropWhile_cons_of_neg]
  rw [hc]
  exact Bool.false_ne_true

/-- **No path.** Where the query or the fragment comes first, the URL names db 0. -/
theorem pathDb_of_query {authority : Str} (hauthority : ∀ c ∈ authority, endsAuthority c = false) {c : Char}
    (hc : endsPath c = true) (rest : Str) : pathDb (authority ++ c :: rest) = some 0 := by
  have hends : endsAuthority c = true := by
    simp only [endsPath, Bool.or_eq_true, decide_eq_true_iff] at hc
    rcases hc with rfl | rfl
    · decide
    · decide
  have hpath : writtenPath (authority ++ c :: rest) = [] := by
    rw [writtenPath_of_end hauthority hends, List.takeWhile_cons_of_neg]
    rw [hc]
    exact Bool.false_ne_true
  rw [pathDb, urlPath, hpath]
  rfl

/-- so does a URL that is an authority only -/
theorem pathDb_of_authority {rest : Str} (h : ∀ c ∈ rest, endsAuthority c = false) : pathDb rest = some 0 := by
  have hdrop : (cleaned rest).dropWhile (fun c => !endsAuthority c) = [] := by
    rw [List.dropWhile_eq_nil_iff]
    intro c hc
    rw [h c (mem_cleaned hc)]
    rfl
  rw [pathDb, urlPath, writtenPath, hdrop]
  rfl

/-! ## One segment -/

/-- a digit or a sign -/
def isNumeric (c : Char) : Bool := c.isDigit || c = '+' || c = '-'

theorem isNumeric_ne {c d : Char} (h : isNumeric c = true) (hd : isNumeric d = false) : c ≠ d := by
  rintro rfl
  rw [h] at hd
  cases hd

theorem isBlank_of_isNumeric {c : Char} (h : isNumeric c = true) : isBlank c = false := by
  simp only [isNumeric, Bool.or_eq_true, decide_eq_true_iff] at h
  rcases h with (hdigit | rfl) | rfl
  · have hnat : 48 ≤ c.toNat := by
      simp only [Char.isDigit, Bool.and_eq_true, decide_eq_true_iff, ge_iff_le, UInt32.le_iff_toNat_le] at hdigit
      exact hdigit.1
    exact decide_eq_false (by omega)
  · decide
  · decide

theorem toLower_of_isNumeric {c : Char} (h : isNumeric c = true) : c.toLower = c := by
  simp only [isNumeric, Bool.or_eq_true, decide_eq_true_iff] at h
  rcases h with (hdigit | rfl) | rfl
  · refine dif_neg fun hupper => ?_
    simp only [Char.isDigit, Bool.and_eq_true, decide_eq_true_iff, ge_iff_le, UInt32.le_iff_toNat_le] at hdigit hupper
    have hdigit' : c.val.toNat ≤ 57 := hdigit.2
    have hupper' : 65 ≤ c.val.toNat := hupper.1
    omega
  · decide
  · decide

/-- dots are no digits and signs -/
theorem dots_of_isNumeric {segment : Str} (h : ∀ c ∈ segment, isNumeric c = true) :
    isDoubleDot segment = false ∧ isSingleDot segment = false := by
  have hlower : segment.map Char.toLower = segment := by
    rw [List.map_congr_left fun c hc => toLower_of_isNumeric (h c hc), List.map_id']
  have hnot : ∀ l : List Str, l.all (fun dots => dots.any fun c => !isNumeric c) = true → segment ∉ l := by
    intro l hl hmem
    obtain ⟨c, hc, hnumeric⟩ := List.any_eq_true.1 (List.all_eq_true.1 hl segment hmem)
    rw [h c hc] at hnumeric
    cases hnumeric
  rw [isDoubleDot, isSingleDot, hlower]
  exact ⟨decide_eq_false (hnot _ (by decide)), decide_eq_false (hnot _ (by decide))⟩

theorem trimSlashes_segment {segment : Str} (h : '/' ∉ segment) : trimSlashes ('/' :: segment) = segment := by
  have hdrop : ('/' :: segment).dropWhile (fun c => decide (c = '/')) = segment := by
    rw [List.dropWhile_cons_of_pos (by decide), List.dropWhile_eq_self_iff]
    intro hpos hhead
    exact h (of_decide_eq_true hhead ▸ List.getElem_mem hpos)
  rw [trimSlashes, hdrop, List.rdropWhile_eq_self_iff]
  intro hne hlast
  exact h (of_decide_eq_true hlast ▸ List.getLast_mem hne)

/-- **A path of one segment.** Where the segment is digits and signs it is the db. -/
theorem pathDb_of_segment {authority segment rest : Str} (hauthority : ∀ c ∈ authority, endsAuthority c = false)
    (hne : segment ≠ []) (hsegment : ∀ c ∈ segment, isNumeric c = true)
    (hrest : ∀ c, rest.head? = some c → endsPath c = true) :
    pathDb (authority ++ '/' :: (segment ++ rest)) = (parseI64 segment).map Int64.toInt := by
  have hcleaned : cleaned (segment ++ rest) = segment ++ cleaned rest :=
    cleaned_segment (fun c hc => isBlank_of_isNumeric (hsegment c hc)) rest
  have hstop : (cleaned rest).takeWhile (fun d => !endsPath d) = [] := by
    cases rest with
    | nil => rfl
    | cons c rest =>
      have hc := hrest c rfl
      have hblank : isBlank c = false := by
        simp only [endsPath, Bool.or_eq_true, decide_eq_true_iff] at hc
        rcases hc with rfl | rfl
        · decide
        · decide
      have hkept := @cleaned_cons [] c hblank rest
      rw [List.nil_append] at hkept
      rw [hkept, List.filter_nil, List.nil_append, List.takeWhile_cons_of_neg]
      rw [hc]
      exact Bool.false_ne_true
  have hinside : ∀ d ∈ segment, (!endsPath d) = true := by
    intro d hd
    have hquestion := isNumeric_ne (d := '?') (hsegment d hd) (by decide)
    have hhash := isNumeric_ne (d := '#') (hsegment d hd) (by decide)
    simp [endsPath, hquestion, hhash]
  have hpath : writtenPath (authority ++ '/' :: (segment ++ rest)) = '/' :: segment := by
    rw [writtenPath_of_end hauthority (by decide), hcleaned, List.takeWhile_cons_of_pos (by decide),
      List.takeWhile_append_of_pos hinside, hstop, List.append_nil]
  have hslash : '/' ∉ segment := fun hmem => isNumeric_ne (hsegment '/' hmem) (d := '/') (by decide) rfl
  have hwalk : walkPath [] (split '/' segment) = [segment] := by
    obtain ⟨hdouble, hsingle⟩ := dots_of_isNumeric hsegment
    rw [split_of_not_mem hslash, walkPath, pathStep, hdouble, hsingle]
    rfl
  have hurl : urlPath (authority ++ '/' :: (segment ++ rest)) = '/' :: segment := by
    rw [urlPath, hpath]
    show (walkPath [] (split '/' segment)).flatMap (fun segment => '/' :: segment) = '/' :: segment
    rw [hwalk, List.flatMap_cons, List.flatMap_nil, List.append_nil]
  rw [pathDb, hurl, trimSlashes_segment hslash, if_neg hne]

end RedisRsPy.Connection
