/-
The credentials of a cluster (`inject_userinfo` and `build_cluster_conn` of `facade/cluster.rs`).

Every startup URL gets the user and the password of the call right after its scheme, as they are. `parse_url` then cuts
the URL at its first `/`, the last `@` before that and the first `:` of the userinfo, decodes escapes, and lets the
parameters `username` and `password` of the query win (`UrlParts`).

A userinfo that the URL already has is not replaced: it stays between the new one and the `@` that counts.

Results:
- `cutUrl_injectUserinfo`: the parts of the new URL, where the credentials have no `/`; `slash_moves_path` where they have;
- `username_iff`, `password_iff`: when the userinfo is read as what was given;
- `startupUrls_given`: with credentials every startup URL is such a new one;
- `inject_userinfo_iff`: for every URL, which credentials are set and leave the rest of the URL as it is.
Witness: `inject_userinfo_iff_node`; a URL that has a userinfo: `inject_userinfo_twice`.
-/
import RedisRsPy.Facade.PercentLoop
import RedisRsPy.Facade.UrlRoundTrip
import RedisRsPy.Lib.Fallible

namespace RedisRsPy.Cluster

open Facade Lib.Split Lib.Fallible

/-! ## The startup URLs -/

/-- `ClusterNode` -/
structure ClusterNode where
  host : Str
  port : UInt16
deriving DecidableEq

/-- why there are no startup URLs -/
inductive StartupError where
  /-- an item of `startup_nodes` that is no `ClusterNode` -/
  | notANode
  | dataError (text : String)
deriving DecidableEq

def nothingGivenText : String := "RedisCluster requires one of: host=, url=, or startup_nodes=[ClusterNode(...)]"

/-- the URL of a node -/
def nodeUrl (host : Str) (port : UInt16) : Str :=
  "redis://".toList ++ host ++ ':' :: (toString port.toNat).toList

/-- `resolve_startup_urls`; an item that is no node is `none` -/
def resolveStartupUrls (host : Option Str) (port : UInt16) (startupNodes : Option (List (Option ClusterNode)))
    (url : Option Str) : Except StartupError (List Str) :=
  match url with
  | some u => .ok [u]
  | none => do
    let out ← (startupNodes.getD []).mapM fun item =>
      match item with
      | some cn => Except.ok (nodeUrl cn.host cn.port)
      | none => Except.error StartupError.notANode
    if out ≠ [] then .ok out
    else
      match host with
      | some h => .ok [nodeUrl h port]
      | none => .error (.dataError nothingGivenText)

/-- `inject_userinfo` -/
def injectUserinfo (url : Str) (user pw : Option Str) : Str :=
  match splitOnceAt "://".toList url with
  | none => url
  | some (scheme, rest) =>
    let userinfo :=
      match user, pw with
      | some u, some p => u ++ ':' :: p ++ ['@']
      | some u, none => u ++ ['@']
      | none, some p => ':' :: p ++ ['@']
      | none, none => []
    scheme ++ "://".toList ++ (userinfo ++ rest)

/-- the URLs that `build_cluster_conn` connects to -/
def startupUrls (host : Option Str) (port : UInt16) (startupNodes : Option (List (Option ClusterNode)))
    (url username password : Option Str) : Except StartupError (List Str) := do
  let urls ← resolveStartupUrls host port startupNodes url
  if username.isSome || password.isSome then return urls.map fun u => injectUserinfo u username password
  else return urls

/-! ## What `parse_url` reads a URL by -/

/-- a URL, cut where `parse_url` cuts -/
structure UrlParts where
  scheme : Str
  userinfo : Option Str
  hostPort : Str
  path : Str
  query : Option Str
deriving DecidableEq

def cutUrl (url : Str) : Option UrlParts :=
  (splitOnceAt "://".toList url).map fun (scheme, rest) =>
    let (authority, pathAndQuery) := splitPath rest
    let (userinfo, hostPort) := splitUserinfo authority
    let (path, query) := splitQuery pathAndQuery
    ⟨scheme, userinfo, hostPort, path, query⟩

/-- the last parameter of this name, decoded -/
def parameter (name : String) (query : Option Str) : Option Str := (values name.toList query).getLast?.map percentDecode

namespace UrlParts

variable (p : UrlParts)

/-- everything but the userinfo -/
def target : UrlParts := { p with userinfo := none }

/-- the user that is read -/
def username : Option Str :=
  (parameter "username" p.query).or ((p.userinfo.map splitUser).bind fun u => readUser u.1)

/-- the password that is read -/
def password : Option Str :=
  (parameter "password" p.query).or ((p.userinfo.map splitUser).bind fun u => u.2.map percentDecode)

/-- the database that is read -/
def db : Int64 := ((values "db".toList p.query).filterMap parseI64).getLast?.getD (readDb p.path)

end UrlParts

/-- a URL of this scheme -/
def withScheme (s : Scheme) (rest : Str) : Str := s.text ++ "://".toList ++ rest

theorem cutUrl_withScheme (s : Scheme) (rest : Str) :
    cutUrl (withScheme s rest) = some
      ⟨s.text, (splitUserinfo (splitPath rest).1).1, (splitUserinfo (splitPath rest).1).2,
        (splitQuery (splitPath rest).2).1, (splitQuery (splitPath rest).2).2⟩ := by
  rw [cutUrl, withScheme, splitOnceAt_scheme, Option.map_some]

theorem readHost_of_ok {input : Str} {isUnix : Bool} {hostPort : Str} {hp : Str × UInt16}
    (h : readHost input isUnix hostPort = .ok hp) (input' : Str) : readHost input' isUnix hostPort = .ok hp := by
  cases isUnix with
  | true => exact h
  | false =>
    rw [readHost, if_neg Bool.false_ne_true] at h ⊢
    cases hsplit : rsplitOnce ':' hostPort with
    | none =>
      rw [hsplit] at h
      exact h
    | some parts =>
      rw [hsplit] at h
      cases hport : readPort parts.2 with
      | none =>
        simp only [hport] at h
        cases h
      | some port =>
        simp only [hport] at h ⊢
        exact h

/-- what is read from a URL is read from its parts -/
theorem parseUrl_withScheme {s : Scheme} {rest : Str} {p : UrlParts} (hcut : cutUrl (withScheme s rest) = some p) :
    parseUrl (withScheme s rest) =
      (readHost (withScheme s rest) (decide (s = .unix)) p.hostPort).map fun hp =>
        ⟨hp.1, hp.2, p.db, p.username, p.password, s.ssl⟩ := by
  have hscheme : readScheme s.text = .ok (s.ssl, decide (s = .unix)) := readScheme_ok_iff.2 ⟨s, rfl, rfl⟩
  rw [cutUrl_withScheme] at hcut
  obtain rfl := Option.some.inj hcut
  unfold parseUrl
  simp only [withScheme, splitOnceAt_scheme, hscheme, bind, Except.bind, applyQuery_eq]
  cases readHost (s.text ++ "://".toList ++ rest) (decide (s = .unix)) (splitUserinfo (splitPath rest).1).2 with
  | error e => rfl
  | ok hp => rfl

/-- a text that is read as a URL has one of the schemes -/
theorem exists_withScheme {url : Str} {cfg : UrlConfig} (h : parseUrl url = .ok cfg) :
    ∃ s rest, url = withScheme s rest := by
  unfold parseUrl at h
  cases hsplit : splitOnceAt "://".toList url with
  | none =>
    rw [hsplit] at h
    cases h
  | some parts =>
    obtain ⟨scheme, rest⟩ := parts
    rw [hsplit] at h
    cases hscheme : readScheme scheme with
    | error e =>
      simp only [hscheme, bind, Except.bind] at h
      cases h
    | ok r =>
      obtain ⟨s, rfl, -⟩ := readScheme_ok_iff.1 hscheme
      exact ⟨s, rest, eq_of_splitOnceAt hsplit⟩

/-! ## Where the new URL is cut -/

/-- the userinfo that the user and the password make -/
def credentialText (user pw : Option Str) : Str := user.getD [] ++ after ':' pw

theorem injectUserinfo_withScheme (s : Scheme) (rest : Str) {user pw : Option Str} (hgiven : user ≠ none ∨ pw ≠ none) :
    injectUserinfo (withScheme s rest) user pw = withScheme s (credentialText user pw ++ '@' :: rest) := by
  unfold injectUserinfo
  simp only [withScheme, splitOnceAt_scheme]
  cases user with
  | some u =>
    cases pw with
    | some p => simp [credentialText, after]
    | none => simp [credentialText, after]
  | none =>
    cases pw with
    | some p => simp [credentialText, after]
    | none => exact absurd rfl (hgiven.resolve_left fun h => h rfl)

theorem splitPath_append {front : Str} (h : '/' ∉ front) (rest : Str) :
    splitPath (front ++ rest) = (front ++ (splitPath rest).1, (splitPath rest).2) := by
  unfold splitPath
  cases hsplit : splitOnce '/' rest with
  | none =>
    have hnone : splitOnce '/' (front ++ rest) = none := by
      rw [splitOnce_eq_none_iff, List.mem_append, not_or]
      exact ⟨h, splitOnce_eq_none_iff.1 hsplit⟩
    rw [hnone]
  | some parts =>
    obtain ⟨hrest, hbefore⟩ := splitOnce_iff.1 hsplit
    have hfront : '/' ∉ front ++ parts.1 := by
      rw [List.mem_append, not_or]
      exact ⟨h, hbefore⟩
    rw [hrest, ← List.append_assoc, splitOnce_append hfront]

theorem splitUserinfo_append (front authority : Str) :
    splitUserinfo (front ++ '@' :: authority) =
      (some (front ++ after '@' (splitUserinfo authority).1), (splitUserinfo authority).2) := by
  unfold splitUserinfo
  cases hsplit : rsplitOnce '@' authority with
  | none => rw [rsplitOnce_append front (rsplitOnce_eq_none_iff.1 hsplit), after, List.append_nil]
  | some parts =>
    obtain ⟨hauthority, hbehind⟩ := rsplitOnce_iff.1 hsplit
    have htext : front ++ '@' :: authority = (front ++ '@' :: parts.1) ++ '@' :: parts.2 := by
      rw [hauthority]
      simp
    rw [htext, rsplitOnce_append _ hbehind]
    rfl

/-- **The parts of the new URL.** Only the userinfo is another, and the old one is still in it. -/
theorem cutUrl_injectUserinfo {s : Scheme} {rest : Str} {p : UrlParts} (hcut : cutUrl (withScheme s rest) = some p)
    {user pw : Option Str} (hgiven : user ≠ none ∨ pw ≠ none) (hslash : '/' ∉ credentialText user pw) :
    cutUrl (injectUserinfo (withScheme s rest) user pw) =
      some { p with userinfo := some (credentialText user pw ++ after '@' p.userinfo) } := by
  have hfront : '/' ∉ credentialText user pw ++ ['@'] := by
    rw [List.mem_append, not_or]
    exact ⟨hslash, by decide⟩
  have hpath := splitPath_append hfront rest
  rw [List.append_assoc, List.singleton_append] at hpath
  rw [cutUrl_withScheme] at hcut
  obtain rfl := Option.some.inj hcut
  rw [injectUserinfo_withScheme s rest hgiven, cutUrl_withScheme, hpath, List.append_assoc, List.singleton_append,
    splitUserinfo_append]

theorem splitPath_text (rest : Str) : (splitPath rest).1 ++ (splitPath rest).2 = rest := by
  unfold splitPath
  cases hsplit : splitOnce '/' rest with
  | none => exact List.append_nil rest
  | some parts => exact (splitOnce_iff.1 hsplit).1.symm

theorem splitQuery_text (pathAndQuery : Str) :
    (splitQuery pathAndQuery).1 ++ after '?' (splitQuery pathAndQuery).2 = pathAndQuery := by
  unfold splitQuery
  cases hsplit : splitOnce '?' pathAndQuery with
  | none => exact List.append_nil pathAndQuery
  | some parts => exact (splitOnce_iff.1 hsplit).1.symm

/-- **A `/` in the credentials.** The path of the new URL starts inside them. -/
theorem slash_moves_path {s : Scheme} {rest : Str} {user pw : Option Str} (hgiven : user ≠ none ∨ pw ≠ none)
    (hslash : '/' ∈ credentialText user pw) :
    (cutUrl (injectUserinfo (withScheme s rest) user pw)).map UrlParts.target ≠
      (cutUrl (withScheme s rest)).map UrlParts.target := by
  intro hsame
  rw [injectUserinfo_withScheme s rest hgiven, cutUrl_withScheme, cutUrl_withScheme, Option.map_some, Option.map_some,
    Option.some.injEq] at hsame
  have hpath := congrArg UrlParts.path hsame
  have hquery := congrArg UrlParts.query hsame
  have hpathAndQuery : (splitPath (credentialText user pw ++ '@' :: rest)).2 = (splitPath rest).2 := by
    rw [← splitQuery_text (splitPath (credentialText user pw ++ '@' :: rest)).2, ← splitQuery_text (splitPath rest).2]
    exact congrArg₂ (fun path query => path ++ after '?' query) hpath hquery
  cases hsplit : splitOnce '/' (credentialText user pw) with
  | none => exact splitOnce_eq_none_iff.1 hsplit hslash
  | some parts =>
    obtain ⟨htext, hbefore⟩ := splitOnce_iff.1 hsplit
    have hcut : (splitPath (credentialText user pw ++ '@' :: rest)).2 = '/' :: (parts.2 ++ '@' :: rest) := by
      rw [htext, List.append_assoc, List.cons_append, splitPath, splitOnce_append hbefore]
    -- the new path and query hold the whole old URL, and more
    have hlong := congrArg List.length (hcut.symm.trans hpathAndQuery)
    have hshort := congrArg List.length (splitPath_text rest)
    simp only [List.length_cons, List.length_append] at hlong hshort
    omega

/-! ## What is read from the new userinfo -/

theorem splitUser_append {x : Str} (h : ':' ∉ x) (rest : Str) : splitUser (x ++ ':' :: rest) = (x, some rest) := by
  rw [splitUser, splitOnce_append h]

theorem splitUser_of_not_mem {x : Str} (h : ':' ∉ x) : splitUser x = (x, none) := by
  rw [splitUser, splitOnce_eq_none_iff.2 h]

theorem readUser_eq_self_iff {u : Str} : readUser u = some u ↔ u ≠ [] ∧ Plain u := by
  rw [readUser, ← percentDecode_eq_self_iff]
  by_cases hnil : u = []
  · rw [if_pos hnil]
    refine iff_of_false ?_ fun h => h.1 hnil
    intro h
    cases h
  · rw [if_neg hnil, Option.some.injEq]
    exact ⟨fun h => ⟨hnil, h⟩, And.right⟩

/-- a text with a separator more is not read as the text -/
theorem percentDecode_ne {c : Char} (hdigit : toDigit c.toNat = none) (hne : c ≠ '%') {s t : Str}
    (h : t.count c < s.count c) : percentDecode s ≠ t := by
  intro heq
  have hle := count_le_percentDecode hdigit hne s
  rw [heq] at hle
  exact absurd hle (Nat.not_le.2 h)

/-- a `:` in the user ends it -/
theorem splitUser_colon {x : Str} (hx : ':' ∉ x) (y : Str) (pw old : Option Str) :
    splitUser (credentialText (some (x ++ ':' :: y)) pw ++ after '@' old) =
      (x, some (y ++ after ':' pw ++ after '@' old)) := by
  rw [credentialText, Option.getD_some, List.append_assoc, List.append_assoc, List.cons_append, splitUser_append hx,
    List.append_assoc]

theorem splitUser_password {user : Option Str} (hcolon : ':' ∉ user.getD []) (p : Str) (old : Option Str) :
    splitUser (credentialText user (some p) ++ after '@' old) = (user.getD [], some (p ++ after '@' old)) := by
  rw [credentialText, after, List.append_assoc, List.cons_append, splitUser_append hcolon]

theorem credentialText_none (user : Option Str) : credentialText user none = user.getD [] := by
  rw [credentialText, after, List.append_nil]

/-- without a password the user goes on in the old userinfo -/
theorem splitUser_old {u : Str} (hcolon : ':' ∉ u) (o : Str) : ∃ o', (splitUser (u ++ '@' :: o)).1 = u ++ '@' :: o' := by
  obtain ⟨old, hold, hcolon'⟩ := Reading.exists_userinfo o
  have hfront : ':' ∉ u ++ '@' :: old.user := by
    rw [List.mem_append, List.mem_cons, not_or, not_or]
    exact ⟨hcolon, by decide, hcolon'⟩
  have hcut := Reading.splitUser_text (u := ⟨u ++ '@' :: old.user, old.password⟩) hfront
  have htext : u ++ '@' :: o = (⟨u ++ '@' :: old.user, old.password⟩ : Userinfo).text := by
    rw [← hold, Userinfo.text, Userinfo.text, List.append_assoc]
    rfl
  refine ⟨old.user, ?_⟩
  rw [htext, hcut]

/-- **The user.** It is read as given if it says the same in a URL and, where no password ends it, no old userinfo
follows. -/
theorem username_iff {user pw : Option Str} (hgiven : user ≠ none ∨ pw ≠ none) (old : Option Str) :
    readUser (splitUser (credentialText user pw ++ after '@' old)).1 = user ↔
      ∀ u, user = some u → u ≠ [] ∧ ':' ∉ u ∧ Plain u ∧ (pw = none → old = none) := by
  cases user with
  | none =>
    cases pw with
    | none => exact absurd rfl (hgiven.resolve_left fun h => h rfl)
    | some p =>
      refine iff_of_true rfl ?_
      intro u hu
      cases hu
  | some u =>
    have hone : (∀ u', some u = some u' → u' ≠ [] ∧ ':' ∉ u' ∧ Plain u' ∧ (pw = none → old = none)) ↔
        u ≠ [] ∧ ':' ∉ u ∧ Plain u ∧ (pw = none → old = none) := by
      constructor
      · intro h
        exact h u rfl
      · intro h u' hu'
        exact Option.some.inj hu' ▸ h
    rw [hone]
    by_cases hcolon : ':' ∈ u
    · refine iff_of_false ?_ fun h => h.2.1 hcolon
      obtain ⟨⟨x, y⟩, hsplit⟩ := Option.ne_none_iff_exists'.1 fun h => splitOnce_eq_none_iff.1 h hcolon
      obtain ⟨rfl, hx⟩ := splitOnce_iff.1 hsplit
      rw [splitUser_colon hx]
      intro hread
      have hlen := FacadeConfig.length_of_readUser hread
      simp only [List.length_append, List.length_cons] at hlen
      omega
    · cases pw with
      | some p =>
        rw [@splitUser_password (some u) hcolon, Option.getD_some, readUser_eq_self_iff]
        simp [hcolon]
      | none =>
        rw [credentialText_none, Option.getD_some]
        cases old with
        | none =>
          rw [after, List.append_nil, splitUser_of_not_mem hcolon, readUser_eq_self_iff]
          simp [hcolon]
        | some o =>
          refine iff_of_false ?_ fun h => by cases h.2.2.2 rfl
          obtain ⟨o', ho'⟩ := splitUser_old hcolon o
          rw [after, ho', readUser]
          intro hread
          split_ifs at hread with hnil
          refine percentDecode_ne (c := '@') (by decide) (by decide) ?_ (Option.some.inj hread)
          rw [List.count_append, List.count_cons_self]
          omega

/-- **The password.** It is read as given if the user has no `:`, a given password says the same in a URL and no old
userinfo follows it, and where none is given the old userinfo has none either. -/
theorem password_iff {user pw old : Option Str} :
    ((splitUser (credentialText user pw ++ after '@' old)).2.map percentDecode = pw) ↔
      ':' ∉ user.getD [] ∧ (∀ p, pw = some p → Plain p ∧ old = none) ∧ (pw = none → ∀ o, old = some o → ':' ∉ o) := by
  by_cases hcolon : ':' ∈ user.getD []
  · refine iff_of_false ?_ fun h => h.1 hcolon
    obtain ⟨u, rfl, hmem⟩ := FacadeConfig.mem_getD hcolon
    obtain ⟨⟨x, y⟩, hsplit⟩ := Option.ne_none_iff_exists'.1 fun h => splitOnce_eq_none_iff.1 h hmem
    obtain ⟨rfl, hx⟩ := splitOnce_iff.1 hsplit
    rw [splitUser_colon hx]
    cases pw with
    | none =>
      intro hread
      cases hread
    | some p =>
      intro hread
      refine percentDecode_ne (c := ':') (by decide) (by decide) ?_ (Option.some.inj hread)
      rw [after, List.count_append, List.count_append, List.count_cons_self]
      omega
  · cases pw with
    | some p =>
      rw [splitUser_password hcolon, Option.map_some, Option.some.injEq]
      cases old with
      | none =>
        rw [after, List.append_nil, percentDecode_eq_self_iff]
        simp [hcolon]
      | some o =>
        refine iff_of_false ?_ fun h => by cases (h.2.1 p rfl).2
        refine percentDecode_ne (c := '@') (by decide) (by decide) ?_
        rw [after, List.count_append, List.count_cons_self]
        omega
    | none =>
      rw [credentialText_none, Option.map_eq_none_iff]
      have hnone : ∀ x : Str, (splitUser x).2 = none ↔ ':' ∉ x := by
        intro x
        by_cases hx : ':' ∈ x
        · obtain ⟨⟨a, b⟩, hsplit⟩ := Option.ne_none_iff_exists'.1 fun h => splitOnce_eq_none_iff.1 h hx
          rw [splitUser, hsplit]
          exact iff_of_false (Option.some_ne_none b) fun h => h hx
        · rw [splitUser_of_not_mem hx]
          exact iff_of_true rfl hx
      rw [hnone, List.mem_append, not_or]
      cases old with
      | none => simp [hcolon, after]
      | some o => simp [hcolon, after]

/-! ## Setting the credentials -/

/-- the new URL is read as the old one with these credentials, and points where the old one does -/
structure SetsCredentials (url : Str) (user pw : Option Str) : Prop where
  read : ∃ original, parseUrl url = .ok original ∧
    parseUrl (injectUserinfo url user pw) = .ok { original with username := user, password := pw }
  target : (cutUrl (injectUserinfo url user pw)).map UrlParts.target = (cutUrl url).map UrlParts.target

/-- a URL that can take these credentials; a parameter of the query stands for what it sets -/
structure Takes (p : UrlParts) (user pw : Option Str) : Prop where
  no_slash : (∀ u, user = some u → '/' ∉ u) ∧ ∀ x, pw = some x → '/' ∉ x
  username : match parameter "username" p.query with
    | some v => user = some v
    | none => ∀ u, user = some u → u ≠ [] ∧ ':' ∉ u ∧ Plain u ∧ (pw = none → p.userinfo = none)
  password : match parameter "password" p.query with
    | some v => pw = some v
    | none => ':' ∉ user.getD [] ∧ (∀ x, pw = some x → Plain x ∧ p.userinfo = none) ∧
        (pw = none → ∀ o, p.userinfo = some o → ':' ∉ o)

theorem slash_iff {user pw : Option Str} :
    '/' ∉ credentialText user pw ↔ (∀ u, user = some u → '/' ∉ u) ∧ ∀ x, pw = some x → '/' ∉ x := by
  rw [credentialText, List.mem_append, not_or]
  refine and_congr ?_ ?_
  · cases user with
    | none => simp
    | some u => simp
  · cases pw with
    | none => simp [after]
    | some x => simp [after]

/-- a parameter of the query, or else what the userinfo says -/
theorem or_eq_iff {param said given : Option Str} :
    param.or said = given ↔ match param with
      | some v => given = some v
      | none => said = given := by
  cases param with
  | none => exact Iff.rfl
  | some v => exact eq_comm

/-- the credentials that are read from the new URL -/
theorem takes_iff {p : UrlParts} {user pw : Option Str} (hgiven : user ≠ none ∨ pw ≠ none) :
    Takes p user pw ↔ '/' ∉ credentialText user pw ∧
      ({ p with userinfo := some (credentialText user pw ++ after '@' p.userinfo) } : UrlParts).username = user ∧
      ({ p with userinfo := some (credentialText user pw ++ after '@' p.userinfo) } : UrlParts).password = pw := by
  have husername := username_iff hgiven p.userinfo
  have hpassword := @password_iff user pw p.userinfo
  have hread : ∀ {param said given : Option Str} {P : Prop}, (said = given ↔ P) →
      (param.or said = given ↔ match param with
        | some v => given = some v
        | none => P) := by
    intro param said given P h
    rw [or_eq_iff]
    cases param with
    | none => exact h
    | some v => exact Iff.rfl
  rw [slash_iff, UrlParts.username, UrlParts.password, Option.map_some, Option.bind_some, Option.bind_some,
    hread husername, hread hpassword]
  exact ⟨fun h => ⟨h.no_slash, h.username, h.password⟩, fun h => ⟨h.1, h.2.1, h.2.2⟩⟩

/-- with credentials every startup URL is a new one -/
theorem startupUrls_given (host : Option Str) (port : UInt16) (startupNodes : Option (List (Option ClusterNode)))
    (url : Option Str) {user pw : Option Str} (hgiven : user ≠ none ∨ pw ≠ none) :
    startupUrls host port startupNodes url user pw =
      (resolveStartupUrls host port startupNodes url).map fun urls => urls.map fun u => injectUserinfo u user pw := by
  have hsome : (user.isSome || pw.isSome) = true := by
    rw [Bool.or_eq_true, Option.isSome_iff_ne_none, Option.isSome_iff_ne_none]
    exact hgiven
  unfold startupUrls
  simp only [hsome, if_true]
  cases resolveStartupUrls host port startupNodes url with
  | error e => rfl
  | ok urls => rfl

theorem redis_text : "redis://".toList = Scheme.redis.text ++ "://".toList := by decide

theorem nodeUrl_eq (host : Str) (port : UInt16) :
    nodeUrl host port = withScheme .redis (host ++ ':' :: (toString port.toNat).toList) := by
  unfold nodeUrl withScheme
  rewrite [redis_text, List.append_assoc (Scheme.redis.text ++ "://".toList)]
  rfl

theorem cutUrl_nodeUrl {host : Str} (hhost : ∀ c ∈ host, c ∉ delimiters) (port : UInt16) :
    cutUrl (nodeUrl host port) =
      some ⟨Scheme.redis.text, none, host ++ ':' :: (toString port.toNat).toList, [], none⟩ := by
  have hmem : ∀ c ∈ delimiters, c ≠ ':' → c.isDigit = false → c ∉ host ++ ':' :: (toString port.toNat).toList := by
    intro c hc hcolon hdigit hmem
    rcases List.mem_append.1 hmem with hmem | hmem
    · exact hhost c hmem hc
    · exact FacadeConfig.not_mem_port hdigit ((List.mem_cons.1 hmem).resolve_left hcolon)
  have hpath : splitPath (host ++ ':' :: (toString port.toNat).toList) =
      (host ++ ':' :: (toString port.toNat).toList, []) := by
    rw [splitPath, splitOnce_eq_none_iff.2 (hmem '/' (by decide) (by decide) (by decide))]
  have huserinfo : splitUserinfo (host ++ ':' :: (toString port.toNat).toList) =
      (none, host ++ ':' :: (toString port.toNat).toList) := by
    rw [splitUserinfo, rsplitOnce_eq_none_iff.2 (hmem '@' (by decide) (by decide) (by decide))]
  rw [nodeUrl_eq, cutUrl_withScheme, hpath, huserinfo]
  rfl

theorem parseUrl_nodeUrl {host : Str} (hhost : ∀ c ∈ host, c ∉ delimiters) (port : UInt16) :
    parseUrl (nodeUrl host port) = .ok ⟨host, port, 0, none, none, false⟩ := by
  have hcut := cutUrl_nodeUrl hhost port
  have hread : ∀ input, readHost input false (host ++ ':' :: (toString port.toNat).toList) = .ok (host, port) := by
    intro input
    rw [readHost, if_neg Bool.false_ne_true, rsplitOnce_append host (FacadeConfig.not_mem_port (by decide))]
    simp only [readPort_toString]
  rw [nodeUrl_eq] at hcut ⊢
  rw [parseUrl_withScheme hcut]
  exact map_ok_iff.2 ⟨_, hread _, rfl⟩

/-- **The URL of a node.** It has no userinfo and no query: it takes the credentials that say the same in a URL. -/
theorem takes_nodeUrl {host : Str} (hhost : ∀ c ∈ host, c ∉ delimiters) (port : UInt16) {user pw : Option Str}
    {p : UrlParts} (hcut : cutUrl (nodeUrl host port) = some p) :
    Takes p user pw ↔ (∀ u, user = some u → u ≠ [] ∧ ':' ∉ u ∧ '/' ∉ u ∧ Plain u) ∧
      ∀ x, pw = some x → '/' ∉ x ∧ Plain x := by
  rw [cutUrl_nodeUrl hhost] at hcut
  obtain rfl := Option.some.inj hcut
  constructor
  · intro h
    constructor
    · intro u hu
      obtain ⟨hnil, hcolon, hplain, -⟩ := h.username u hu
      exact ⟨hnil, hcolon, h.no_slash.1 u hu, hplain⟩
    · intro x hx
      exact ⟨h.no_slash.2 x hx, (h.password.2.1 x hx).1⟩
  · rintro ⟨husername, hpassword⟩
    refine ⟨⟨fun u hu => (husername u hu).2.2.1, fun x hx => (hpassword x hx).1⟩, ?_, ?_, ?_, ?_⟩
    · intro u hu
      obtain ⟨hnil, hcolon, -, hplain⟩ := husername u hu
      exact ⟨hnil, hcolon, hplain, fun _ => rfl⟩
    · cases user with
      | none => exact List.not_mem_nil
      | some u => exact (husername u rfl).2.1
    · intro x hx
      exact ⟨(hpassword x hx).2, rfl⟩
    · intro _ o ho
      cases ho

/-- **`inject_userinfo`.** For every URL and all credentials, the new URL is read as the old one with exactly these
credentials, and points where the old one does, if and only if the old one is read as a URL that can take them. -/
theorem inject_userinfo_iff (url : Str) {user pw : Option Str} (hgiven : user ≠ none ∨ pw ≠ none) :
    SetsCredentials url user pw ↔
      (∃ original, parseUrl url = .ok original) ∧ ∃ p, cutUrl url = some p ∧ Takes p user pw := by
  constructor
  · intro h
    obtain ⟨original, hread, hnew⟩ := h.read
    obtain ⟨s, rest, rfl⟩ := exists_withScheme hread
    have hslash : '/' ∉ credentialText user pw := fun hmem => slash_moves_path hgiven hmem h.target
    have hcut := cutUrl_withScheme s rest
    have hcut' := cutUrl_injectUserinfo hcut hgiven hslash
    refine ⟨⟨original, hread⟩, _, hcut, (takes_iff hgiven).2 ⟨hslash, ?_⟩⟩
    rw [injectUserinfo_withScheme s rest hgiven] at hcut' hnew
    rw [parseUrl_withScheme hcut'] at hnew
    obtain ⟨hp, -, hcfg⟩ := map_ok_iff.1 hnew
    exact ⟨congrArg UrlConfig.username hcfg, congrArg UrlConfig.password hcfg⟩
  · rintro ⟨⟨original, hread⟩, p, hcut, htakes⟩
    obtain ⟨s, rest, rfl⟩ := exists_withScheme hread
    obtain ⟨hslash, husername, hpassword⟩ := (takes_iff hgiven).1 htakes
    have hcut' := cutUrl_injectUserinfo hcut hgiven hslash
    refine ⟨⟨original, hread, ?_⟩, ?_⟩
    · rw [parseUrl_withScheme hcut] at hread
      obtain ⟨hp, hhost, rfl⟩ := map_ok_iff.1 hread
      rw [injectUserinfo_withScheme s rest hgiven] at hcut' ⊢
      rw [parseUrl_withScheme hcut', readHost_of_ok hhost, husername, hpassword]
      rfl
    · rw [hcut', hcut]
      rfl

/-- the URL of a node, and ordinary credentials -/
theorem inject_userinfo_iff_node :
    SetsCredentials (nodeUrl "h".toList 7000) (some "app".toList) (some "s3cret".toList) := by
  have hall : ("h".toList.all fun c => decide (c ∉ delimiters)) = true := by decide
  have hhost : ∀ c ∈ "h".toList, c ∉ delimiters := fun c hc => of_decide_eq_true (List.all_eq_true.1 hall c hc)
  have hcut := cutUrl_nodeUrl hhost 7000
  refine (inject_userinfo_iff (nodeUrl "h".toList 7000) (.inl (Option.some_ne_none _))).2
    ⟨⟨_, parseUrl_nodeUrl hhost 7000⟩, _, hcut, (takes_nodeUrl hhost 7000 hcut).2 ⟨?_, ?_⟩⟩
  · intro u hu
    cases hu
    exact ⟨by decide, by decide, by decide, plain_of_not_mem (by decide)⟩
  · intro x hx
    cases hx
    exact ⟨by decide, plain_of_not_mem (by decide)⟩

/-- a URL with a userinfo: the password becomes `p@a` -/
theorem inject_userinfo_twice : ¬ ∀ (url : Str) (user pw : Option Str), (user ≠ none ∨ pw ≠ none) →
    (∃ original, parseUrl url = .ok original) → SetsCredentials url user pw := by
  intro h
  have hgiven : some "u".toList ≠ none ∨ some "p".toList ≠ none := .inl (Option.some_ne_none _)
  have hslash : '/' ∉ credentialText (some "u".toList) (some "p".toList) := by decide
  have hcut : cutUrl (withScheme .redis "a@h:1/0".toList) =
      some ⟨"redis".toList, some "a".toList, "h:1".toList, "/0".toList, none⟩ := by decide
  have hhost : readHost (withScheme .redis "a@h:1/0".toList) false "h:1".toList = .ok ("h".toList, 1) := by decide
  have hread : ∃ original, parseUrl (withScheme .redis "a@h:1/0".toList) = .ok original := by
    rw [parseUrl_withScheme hcut]
    exact ⟨_, map_ok_iff.2 ⟨_, hhost, rfl⟩⟩
  obtain ⟨⟨original, -, hnew⟩, -⟩ := h _ (some "u".toList) (some "p".toList) hgiven hread
  have hcut' := cutUrl_injectUserinfo hcut hgiven hslash
  rw [injectUserinfo_withScheme .redis "a@h:1/0".toList hgiven] at hcut' hnew
  rw [parseUrl_withScheme hcut'] at hnew
  obtain ⟨hp, -, hcfg⟩ := map_ok_iff.1 hnew
  have hpassword : some (percentDecode "p@a".toList) = some "p".toList := congrArg UrlConfig.password hcfg
  exact percentDecode_ne (c := '@') (by decide) (by decide) (by decide) (Option.some.inj hpassword)

end RedisRsPy.Cluster
