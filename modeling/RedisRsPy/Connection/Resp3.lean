/-
`url_with_resp3` (`connection.rs`), which every URL goes through before a client is built from it.

A URL is what stands before its query, the query and the fragment (`UrlParts`); scheme, userinfo, host, port and path are
parts of the first of these, so that they are unchanged where it is. The parameters of a query are what the crate reads:
the non-empty pieces between `&`, with names that may be percent-encoded.

The function looks for `protocol=` in the whole URL. Where that stands outside the name of a parameter nothing is added;
a parameter `protocol` without `=` is not seen.

Results:
- `urlWithResp3_idem`: twice is once;
- `exists_urlParts`: every text has parts, with no `?` and no `#` before the query;
- `url_with_resp3_adds_iff`: which URLs come out with one parameter `protocol` and else unchanged.
Witness: `url_with_resp3_adds_iff_query`; a password that hides the protocol: `url_with_resp3_password`.
-/
import Mathlib.Data.List.TakeWhile
import RedisRsPy.Connection.Sentinel
import RedisRsPy.Facade.Url

namespace RedisRsPy.Connection

open Facade Lib.Split

/-! ## Parts of a URL -/

/-- a URL in three parts; a query ends at the first `#` -/
structure UrlParts where
  front : Str
  query : Option Str
  fragment : Option Str
  query_ends : ∀ q, query = some q → '#' ∉ q

def UrlParts.text (u : UrlParts) : Str := u.front ++ after '?' u.query ++ after '#' u.fragment

/-- the parameters of a query -/
def parameters : Option Str → List Str
  | none => []
  | some q => (split '&' q).filter fun p => !p.isEmpty

/-- the name of a parameter: `+` is a space, and escapes are read -/
def parameterName (p : Str) : Str := percentDecode ((p.takeWhile (· ≠ '=')).map fun c => if c = '+' then ' ' else c)

def isProtocol (p : Str) : Bool := decide (parameterName p = "protocol".toList)

/-- `url_with_resp3` on characters -/
def withResp3 (url : Str) : Str := (urlWithResp3 (String.ofList url)).toList

/-- what the function looks for, and what it adds -/
def protocolText : Str := "protocol=".toList

def resp3Text : Str := "protocol=resp3".toList

theorem contains_ofList (url : Str) : contains (String.ofList url) "protocol=" = decide (protocolText <:+: url) := by
  have htext : (String.ofList url).toList = url := String.toList_ofList
  rw [contains, htext]
  rfl

theorem withResp3_of_mem {url : Str} (h : protocolText <:+: url) : withResp3 url = url := by
  have hcontains : contains (String.ofList url) "protocol=" = true := by
    rw [contains_ofList]
    exact decide_eq_true h
  rw [withResp3, urlWithResp3, if_pos hcontains, String.toList_ofList]

theorem withResp3_of_not_mem {url : Str} (h : ¬ protocolText <:+: url) : withResp3 url =
    url.takeWhile (· ≠ '#') ++ (if '?' ∈ url.takeWhile (· ≠ '#') then '&' else '?') :: resp3Text ++
      url.dropWhile (· ≠ '#') := by
  have hcontains : ¬ contains (String.ofList url) "protocol=" = true := by
    rw [contains_ofList, decide_eq_true_iff]
    exact h
  have htext : (String.ofList url).toList = url := String.toList_ofList
  rw [withResp3, urlWithResp3, if_neg hcontains, String.toList_ofList, htext, List.append_assoc _ [_]]
  rfl

/-- **Twice is once.** -/
theorem urlWithResp3_idem (url : Str) : withResp3 (withResp3 url) = withResp3 url := by
  by_cases h : protocolText <:+: url
  · rw [withResp3_of_mem h, withResp3_of_mem h]
  · refine withResp3_of_mem ?_
    rw [withResp3_of_not_mem h]
    refine ⟨url.takeWhile (· ≠ '#') ++ [if '?' ∈ url.takeWhile (· ≠ '#') then '&' else '?'],
      "resp3".toList ++ url.dropWhile (· ≠ '#'), ?_⟩
    simp only [List.append_assoc, List.cons_append, List.nil_append]
    rfl

/-! ## Where the parts of a URL are cut -/

theorem takeWhile_hash {a : Str} (h : '#' ∉ a) (b : Str) : (a ++ '#' :: b).takeWhile (· ≠ '#') = a := by
  rw [List.takeWhile_append_of_pos, List.takeWhile_cons_of_neg, List.append_nil]
  · simp
  · intro c hc
    exact decide_eq_true fun heq => h (heq ▸ hc)

theorem dropWhile_hash {a : Str} (h : '#' ∉ a) (b : Str) : (a ++ '#' :: b).dropWhile (· ≠ '#') = '#' :: b := by
  rw [List.dropWhile_append_of_pos, List.dropWhile_cons_of_neg]
  · simp
  · intro c hc
    exact decide_eq_true fun heq => h (heq ▸ hc)

/-- a URL is cut at the first `#`, and only there -/
theorem cut_fragment {base : Str} (h : '#' ∉ base) (fragment : Option Str) :
    (base ++ after '#' fragment).takeWhile (· ≠ '#') = base ∧
      (base ++ after '#' fragment).dropWhile (· ≠ '#') = after '#' fragment := by
  cases fragment with
  | some f => exact ⟨takeWhile_hash h f, dropWhile_hash h f⟩
  | none =>
    have hall : ∀ c ∈ base, decide (c ≠ '#') = true := fun c hc => decide_eq_true fun heq => h (heq ▸ hc)
    rw [after, List.append_nil]
    exact ⟨List.takeWhile_eq_self_iff.2 hall, List.dropWhile_eq_nil_iff.2 hall⟩

/-- **Every text has parts.** They are those of the URL grammar: no `?` and no `#` stands before the query. -/
theorem exists_urlParts (url : Str) : ∃ u : UrlParts, u.text = url ∧ '?' ∉ u.front ∧ '#' ∉ u.front := by
  have hbase : ∀ base fragment, '#' ∉ base → url = base ++ after '#' fragment →
      ∃ u : UrlParts, u.text = url ∧ '?' ∉ u.front ∧ '#' ∉ u.front := by
    rintro base fragment hhash rfl
    cases hsplit : splitOnce '?' base with
    | none =>
      refine ⟨⟨base, none, fragment, by rintro q ⟨⟩⟩, ?_, splitOnce_eq_none_iff.1 hsplit, hhash⟩
      rw [UrlParts.text, after, List.append_nil]
    | some parts =>
      obtain ⟨front, q⟩ := parts
      obtain ⟨rfl, hfront⟩ := splitOnce_iff.1 hsplit
      refine ⟨⟨front, some q, fragment, ?_⟩, rfl, hfront, fun hmem => hhash (List.mem_append_left _ hmem)⟩
      rintro q' ⟨⟩ hmem
      exact hhash (List.mem_append_right _ (List.mem_cons_of_mem _ hmem))
  cases hsplit : splitOnce '#' url with
  | none => exact hbase url none (splitOnce_eq_none_iff.1 hsplit) (List.append_nil url).symm
  | some parts =>
    obtain ⟨base, fragment⟩ := parts
    obtain ⟨htext, hhash⟩ := splitOnce_iff.1 hsplit
    exact hbase base (some fragment) hhash htext

/-! ## Parameters -/

theorem isProtocol_resp3 : isProtocol resp3Text = true := by
  have hname : parameterName resp3Text = percentDecode "protocol".toList := rfl
  have hplain : percentDecode "protocol".toList = "protocol".toList :=
    (percentDecode_eq_self_iff _).2 (plain_of_not_mem (by decide))
  rw [isProtocol, hname, hplain]
  exact decide_eq_true rfl

/-- the query with the protocol added -/
def withParameter : Option Str → Str
  | none => resp3Text
  | some q => q ++ '&' :: resp3Text

theorem parameters_withParameter (q : Option Str) :
    parameters (some (withParameter q)) = parameters q ++ [resp3Text] := by
  have hself : split '&' resp3Text = [resp3Text] := split_of_not_mem (by decide)
  cases q with
  | none =>
    have hnone : parameters (some resp3Text) = [resp3Text] := by
      rw [parameters, hself]
      rfl
    exact hnone
  | some q =>
    rw [withParameter, parameters, split_append_cons, hself, List.filter_append]
    rfl

/-- the parameters of that name -/
def protocols (q : Option Str) : List Str := (parameters q).filter isProtocol

def otherParameters (q : Option Str) : List Str := (parameters q).filter fun p => !isProtocol p

theorem protocols_withParameter (q : Option Str) : protocols (some (withParameter q)) = protocols q ++ [resp3Text] := by
  rw [protocols, parameters_withParameter, List.filter_append, List.filter_cons_of_pos isProtocol_resp3]
  rfl

theorem otherParameters_withParameter (q : Option Str) :
    otherParameters (some (withParameter q)) = otherParameters q := by
  have hresp3 : [resp3Text].filter (fun p => !isProtocol p) = [] := by
    rw [List.filter_singleton, isProtocol_resp3]
    rfl
  rw [otherParameters, parameters_withParameter, List.filter_append, hresp3, List.append_nil]
  rfl

/-! ## What is added -/

/-- one parameter `protocol` comes out, the one that was there or `protocol=resp3`; everything else, and the order of the
other parameters, is as before; and a second time changes nothing -/
def Adds (u : UrlParts) : Prop :=
  ∃ q, withResp3 u.text = u.front ++ after '?' (some q) ++ after '#' u.fragment ∧ '#' ∉ q ∧
    (∃ p, protocols (some q) = [p] ∧ (protocols u.query = [] → p = resp3Text) ∧
      (protocols u.query ≠ [] → p ∈ protocols u.query)) ∧
    otherParameters (some q) = otherParameters u.query ∧ withResp3 (withResp3 u.text) = withResp3 u.text

/-- `protocol=` stands somewhere in the URL and the query has one parameter of that name, or it stands nowhere and the
query has none; in front of the query is no `#`, and no `?` unless there is a query -/
def Fits (u : UrlParts) : Prop :=
  (protocolText <:+: u.text ∧ (protocols u.query).length = 1) ∨
    (¬ protocolText <:+: u.text ∧ protocols u.query = [] ∧ '#' ∉ u.front ∧ ('?' ∈ u.front → u.query ≠ none))

/-- where it stands somewhere the URL stays as it is -/
theorem adds_iff_of_mem {u : UrlParts} (h : protocolText <:+: u.text) : Adds u ↔ (protocols u.query).length = 1 := by
  have hself := withResp3_of_mem h
  constructor
  · rintro ⟨q, htext, -, ⟨p, hp, -⟩, -⟩
    rw [hself, UrlParts.text, List.append_cancel_right_eq, List.append_cancel_left_eq] at htext
    cases hq : u.query with
    | none =>
      rw [hq] at htext
      cases htext
    | some q' =>
      rw [hq] at htext
      cases htext
      rw [hp]
      rfl
  · intro hone
    obtain ⟨p, hp⟩ := List.length_eq_one_iff.1 hone
    cases hq : u.query with
    | none =>
      rw [hq] at hp
      cases hp
    | some q =>
      rw [hq] at hp
      refine ⟨q, ?_, u.query_ends q hq, ⟨p, hp, ?_, ?_⟩, ?_, urlWithResp3_idem _⟩
      · rw [hself, UrlParts.text, hq]
      · intro hnone
        rw [hq, hp] at hnone
        cases hnone
      · intro _
        rw [hq, hp]
        exact List.mem_singleton.2 rfl
      · rw [hq]

/-- the URL with the protocol added, where `#` stands only before the fragment -/
theorem withResp3_text {u : UrlParts} (h : ¬ protocolText <:+: u.text) (hfront : '#' ∉ u.front) :
    withResp3 u.text = u.front ++ (after '?' u.query ++
      (if '?' ∈ u.front ++ after '?' u.query then '&' else '?') :: resp3Text) ++ after '#' u.fragment := by
  have hbase : '#' ∉ u.front ++ after '?' u.query := by
    intro hmem
    rcases List.mem_append.1 hmem with hmem | hmem
    · exact hfront hmem
    · obtain ⟨q, hq, hmem⟩ := mem_after hmem (by decide)
      exact u.query_ends q hq hmem
  obtain ⟨htake, hdrop⟩ := cut_fragment hbase u.fragment
  rw [withResp3_of_not_mem h, UrlParts.text, htake, hdrop]
  simp only [List.append_assoc, List.cons_append]

/-- a `#` in front of the query takes the protocol with it -/
theorem not_adds_of_hash {u : UrlParts} (h : ¬ protocolText <:+: u.text) (hfront : '#' ∈ u.front) : ¬ Adds u := by
  rintro ⟨q, htext, -⟩
  cases hsplit : splitOnce '#' u.front with
  | none => exact splitOnce_eq_none_iff.1 hsplit hfront
  | some parts =>
    obtain ⟨a, b⟩ := parts
    obtain ⟨hab, ha⟩ := splitOnce_iff.1 hsplit
    have hfull : u.text = a ++ '#' :: (b ++ after '?' u.query ++ after '#' u.fragment) := by
      rw [UrlParts.text, hab]
      simp only [List.append_assoc, List.cons_append]
    rw [withResp3_of_not_mem h, hfull, takeWhile_hash ha, hab] at htext
    simp only [List.append_assoc, List.cons_append, List.append_cancel_left_eq] at htext
    have hsep := (List.cons.inj htext).1
    split_ifs at hsep with hmark
    · cases hsep
    · cases hsep

/-- where it stands nowhere the query gets it -/
theorem adds_iff_of_not_mem {u : UrlParts} (h : ¬ protocolText <:+: u.text) :
    Adds u ↔ protocols u.query = [] ∧ '#' ∉ u.front ∧ ('?' ∈ u.front → u.query ≠ none) := by
  by_cases hfront : '#' ∈ u.front
  · exact iff_of_false (not_adds_of_hash h hfront) fun hfits => hfits.2.1 hfront
  have htext := withResp3_text h hfront
  have hends : '#' ∉ withParameter u.query := by
    cases hq : u.query with
    | none => decide
    | some q =>
      intro hmem
      rcases List.mem_append.1 hmem with hmem | hmem
      · exact u.query_ends q hq hmem
      · exact absurd hmem (by decide)
  constructor
  · rintro ⟨q, hadded, -, ⟨p, hp, -⟩, -⟩
    rw [htext, List.append_cancel_right_eq, List.append_cancel_left_eq] at hadded
    have hmark : '?' ∈ u.front → u.query ≠ none := by
      intro hmem hnone
      rw [hnone, if_pos (List.mem_append_left _ hmem)] at hadded
      cases hadded
    refine ⟨?_, hfront, hmark⟩
    have hq : q = withParameter u.query := by
      cases hquery : u.query with
      | none =>
        rw [hquery] at hadded
        exact (List.cons.inj hadded).2.symm
      | some q' =>
        have hmem : '?' ∈ u.front ++ after '?' (some q') := List.mem_append_right _ List.mem_cons_self
        rw [hquery, if_pos hmem] at hadded
        exact (List.cons.inj hadded).2.symm
    rw [hq, protocols_withParameter] at hp
    have hlen := congrArg List.length hp
    rw [List.length_append] at hlen
    exact List.eq_nil_of_length_eq_zero (Nat.succ.inj hlen)
  · rintro ⟨hnone, -, hmark⟩
    refine ⟨withParameter u.query, ?_, hends, ⟨resp3Text, ?_, fun _ => rfl, fun hne => absurd hnone hne⟩,
      otherParameters_withParameter u.query, urlWithResp3_idem _⟩
    · rw [htext]
      cases hquery : u.query with
      | none =>
        have hnot : '?' ∉ u.front ++ after '?' none := by
          rw [after, List.append_nil]
          exact fun hmem => hmark hmem hquery
        rw [if_neg hnot]
        rfl
      | some q =>
        have hmem : '?' ∈ u.front ++ after '?' (some q) := List.mem_append_right _ List.mem_cons_self
        rw [if_pos hmem]
        rfl
    · rw [protocols_withParameter, hnone]
      rfl

/-- **The protocol is added, and nothing else.** Every URL has the parts of the URL grammar; and whatever its parts are,
exactly those URLs come out with one parameter `protocol` and else unchanged that `Fits` says. -/
theorem url_with_resp3_adds_iff (url : Str) :
    (∃ u : UrlParts, u.text = url ∧ '?' ∉ u.front ∧ '#' ∉ u.front) ∧
      ∀ u : UrlParts, u.text = url → (Adds u ↔ Fits u) := by
  refine ⟨exists_urlParts url, ?_⟩
  rintro u -
  by_cases h : protocolText <:+: u.text
  · rw [adds_iff_of_mem h, Fits]
    constructor
    · exact fun hone => .inl ⟨h, hone⟩
    · rintro (⟨-, hone⟩ | ⟨hnot, -⟩)
      · exact hone
      · exact absurd h hnot
  · rw [adds_iff_of_not_mem h, Fits]
    constructor
    · exact fun hfits => .inr ⟨h, hfits⟩
    · rintro (⟨hmem, -⟩ | ⟨-, hfits⟩)
      · exact absurd hmem h
      · exact hfits

/-- `redis://h/0?a=1#f` -/
def plainUrl : UrlParts where
  front := "redis://h/0".toList
  query := some "a=1".toList
  fragment := some "f".toList
  query_ends := by
    rintro q ⟨⟩
    decide

/-- `redis://:protocol=1@h/0` -/
def hiddenUrl : UrlParts where
  front := "redis://:protocol=1@h/0".toList
  query := none
  fragment := none
  query_ends := by rintro q ⟨⟩

theorem url_with_resp3_adds_iff_query : Adds plainUrl := by
  refine ((url_with_resp3_adds_iff plainUrl.text).2 plainUrl rfl).2 (.inr ⟨by decide, ?_, by decide, by decide⟩)
  have hname : parameterName "a=1".toList = "a".toList := (percentDecode_eq_self_iff _).2 (plain_of_not_mem (by decide))
  have hnot : isProtocol "a=1".toList = false := by
    rw [isProtocol, hname]
    decide
  show ["a=1".toList].filter isProtocol = []
  rw [List.filter_singleton, hnot]
  rfl

/-- a password with `protocol=` in it: no parameter comes out -/
theorem url_with_resp3_password : withResp3 hiddenUrl.text = hiddenUrl.text ∧ ¬ Adds hiddenUrl := by
  have hmem : protocolText <:+: hiddenUrl.text := by decide
  refine ⟨withResp3_of_mem hmem, ?_⟩
  rw [adds_iff_of_mem hmem]
  decide

end RedisRsPy.Connection
