/-
Connection URLs: `FacadeConfig::to_url`, `parse_url` and `Redis::from_url` of `facade/sync.rs`.

`parse_url` cuts the text at the first `/`, the last `@` before it, the first `:` of the userinfo, the last `:` of the
host, and the first `?` after the path. `Reading` is a text with its cuts, and `Reading.Cut` says where the code cuts.

Results:
- `exists_cut`: every text has such a reading;
- `parseUrl_cut`, `parseUrl_unix`: what `parse_url` makes of it.
-/
import RedisRsPy.Facade.Percent
import RedisRsPy.Facade.Sentinel
import RedisRsPy.Lib.Split

namespace RedisRsPy.Facade

open Lib.Split

/-! ## The two configurations -/

/-- `FacadeConfig`, as far as the URL says it -/
structure FacadeConfig where
  host : Str
  port : UInt16
  db : Int64
  password : Option Str
  username : Option Str
  ssl : Bool
deriving DecidableEq

/-- `UrlConfig` -/
@[ext]
structure UrlConfig where
  host : Str
  port : UInt16
  db : Int64
  username : Option Str
  password : Option Str
  ssl : Bool
deriving DecidableEq

/-- the userinfo of `to_url` -/
def FacadeConfig.userinfo (cfg : FacadeConfig) : Str :=
  match cfg.username, cfg.password with
  | some u, some p => u ++ ':' :: p ++ ['@']
  | none, some p => ':' :: p ++ ['@']
  | some u, none => u ++ ['@']
  | none, none => []

/-- `FacadeConfig::to_url` -/
def FacadeConfig.toUrl (cfg : FacadeConfig) : Str :=
  (if cfg.ssl then "rediss".toList else "redis".toList) ++ "://".toList ++ (cfg.userinfo ++ cfg.host ++
    ':' :: (toString cfg.port.toNat).toList ++ '/' :: (toString cfg.db.toInt).toList)

/-- the `ValueError` of `parse_url` -/
inductive UrlError where
  | noScheme (input : Str)
  | unknownScheme (other : Str)
  | invalidPort (input : Str)
deriving DecidableEq

/-- its text; `debug` is `format!` with `:?` -/
def UrlError.text (debug : Str → String) : UrlError → String
  | .noScheme input => "Invalid Redis URL: " ++ debug input ++ "; expected scheme://..."
  | .unknownScheme other =>
    "Invalid Redis URL scheme " ++ debug other ++ "; expected redis://, rediss:// or unix://"
  | .invalidPort input => "Invalid port in Redis URL: " ++ debug input

/-! ## Numbers -/

/-- the number that digits write -/
def decimal (s : Str) : Option ℕ := if s ≠ [] ∧ s.all Char.isDigit then some (Nat.ofDigitChars 10 s 0) else none

/-- digits, after a sign or not -/
def decimalInt : Str → Option ℤ
  | '-' :: s => (decimal s).map fun n : ℕ => -(n : ℤ)
  | '+' :: s => (decimal s).map fun n : ℕ => (n : ℤ)
  | s => (decimal s).map fun n : ℕ => (n : ℤ)

/-- a number an `i64` holds -/
def InI64 (n : ℤ) : Prop := -2 ^ 63 ≤ n ∧ n < 2 ^ 63

instance (n : ℤ) : Decidable (InI64 n) := inferInstanceAs (Decidable (_ ∧ _))

/-- `str::parse::<i64>` -/
def parseI64 (s : Str) : Option Int64 := (decimalInt s).bind fun n => if InI64 n then some (Int64.ofInt n) else none

/-- `str::parse::<u16>` -/
def readPort (s : Str) : Option UInt16 := (parsePort (String.ofList s)).map UInt16.ofNat

theorem decimal_eq_some_iff {s : Str} {n : ℕ} :
    decimal s = some n ↔ s ≠ [] ∧ (∀ c ∈ s, c.isDigit = true) ∧ Nat.ofDigitChars 10 s 0 = n := by
  unfold decimal
  split_ifs with h
  · rw [Option.some.injEq]
    exact ⟨fun hn => ⟨h.1, List.all_eq_true.1 h.2, hn⟩, fun hn => hn.2.2⟩
  · refine iff_of_false ?_ fun hn => h ⟨hn.1, List.all_eq_true.2 hn.2.1⟩
    intro hn
    cases hn

theorem toList_toString (n : ℕ) : (toString n).toList = Nat.toDigits 10 n := by
  rw [Nat.toString_eq_ofList_toDigits, String.toList_ofList]

theorem isDigit_toString {n : ℕ} : ∀ c ∈ (toString n).toList, c.isDigit = true := by
  intro c hc
  rw [toList_toString] at hc
  exact Nat.isDigit_of_mem_toDigits (by decide) (by decide) hc

/-- a number is read back from its digits -/
theorem decimal_toString (n : ℕ) : decimal (toString n).toList = some n := by
  refine decimal_eq_some_iff.2 ⟨?_, isDigit_toString, ?_⟩
  · rw [toList_toString]
    exact Nat.toDigits_ne_nil
  · rw [toList_toString, Nat.ofDigitChars_ten_toDigits]

/-- digits have no sign -/
theorem sign_of_digits {c : Char} {s : Str} (h : ∀ d ∈ c :: s, d.isDigit = true) : c ≠ '-' ∧ c ≠ '+' := by
  have hc := h c List.mem_cons_self
  constructor
  · rintro rfl
    exact absurd hc (by decide)
  · rintro rfl
    exact absurd hc (by decide)

theorem decimalInt_of_decimal {s : Str} {n : ℕ} (h : decimal s = some n) : decimalInt s = some (n : ℤ) := by
  obtain ⟨hnil, hdigits, -⟩ := decimal_eq_some_iff.1 h
  cases s with
  | nil => exact absurd rfl hnil
  | cons c s =>
    obtain ⟨hminus, hplus⟩ := sign_of_digits hdigits
    unfold decimalInt
    split
    · rename_i heq
      exact absurd (List.cons.inj heq).1 hminus
    · rename_i heq
      exact absurd (List.cons.inj heq).1 hplus
    · rw [h]
      rfl

theorem decimalInt_toString (n : ℤ) : decimalInt (toString n).toList = some n := by
  cases n with
  | ofNat n => exact decimalInt_of_decimal (decimal_toString n)
  | negSucc n =>
    have htext : (toString (Int.negSucc n)).toList = '-' :: (toString (n + 1)).toList := by
      show ("-" ++ toString (n + 1)).toList = _
      rw [String.toList_append]
      rfl
    rw [htext, decimalInt, decimal_toString]
    rfl

/-- the text of a number is digits and a sign -/
theorem mem_toString_int {n : ℤ} : ∀ c ∈ (toString n).toList, c = '-' ∨ c.isDigit = true := by
  intro c hc
  cases n with
  | ofNat n => exact .inr (isDigit_toString c hc)
  | negSucc n =>
    change c ∈ ("-" ++ toString (n + 1)).toList at hc
    rw [String.toList_append] at hc
    rcases List.mem_append.1 hc with hminus | hdigit
    · exact .inl (List.mem_singleton.1 hminus)
    · exact .inr (isDigit_toString c hdigit)

/-- **An `i64` is read back from its text.** -/
theorem parseI64_toString (d : Int64) : parseI64 (toString d.toInt).toList = some d := by
  rw [parseI64, decimalInt_toString, Option.bind_some, if_pos ⟨d.le_toInt, d.toInt_lt⟩, Int64.ofInt_toInt]

theorem parsePort_of_digits {s : Str} (hnil : s ≠ []) (hdigits : ∀ c ∈ s, c.isDigit = true) :
    parsePort (String.ofList s) =
      if Nat.ofDigitChars 10 s 0 < 2 ^ 16 then some (Nat.ofDigitChars 10 s 0) else none := by
  unfold parsePort
  rw [String.toList_ofList]
  cases s with
  | nil => exact absurd rfl hnil
  | cons c s =>
    split
    · rename_i heq
      exact absurd (List.cons.inj heq).1 (sign_of_digits hdigits).2
    · exact if_pos ⟨hnil, List.all_eq_true.2 hdigits⟩

theorem readPort_of_decimal {s : Str} {n : ℕ} (h : decimal s = some n) :
    readPort s = if n < 2 ^ 16 then some (UInt16.ofNat n) else none := by
  obtain ⟨hnil, hdigits, hvalue⟩ := decimal_eq_some_iff.1 h
  rw [readPort, parsePort_of_digits hnil hdigits, hvalue]
  split_ifs
  · rfl
  · rfl

/-- **A port is read back from its text.** -/
theorem readPort_toString (p : UInt16) : readPort (toString p.toNat).toList = some p := by
  rw [readPort_of_decimal (decimal_toString p.toNat), if_pos p.toNat_lt, UInt16.ofNat_toNat]

/-! ## `parse_url` -/

/-- whether the scheme is encrypted, and whether it is a socket path -/
def readScheme (scheme : Str) : Except UrlError (Bool × Bool) :=
  if scheme = "redis".toList then .ok (false, false)
  else if scheme = "rediss".toList then .ok (true, false)
  else if scheme = "unix".toList then .ok (false, true)
  else .error (.unknownScheme scheme)

/-- the authority, and the path with the query -/
def splitPath (rest : Str) : Str × Str :=
  match splitOnce '/' rest with
  | some (a, p) => (a, '/' :: p)
  | none => (rest, [])

/-- the userinfo, and the host with the port -/
def splitUserinfo (authority : Str) : Option Str × Str :=
  match rsplitOnce '@' authority with
  | some (u, h) => (some u, h)
  | none => (none, authority)

/-- the user and the password -/
def splitUser (u : Str) : Str × Option Str :=
  match splitOnce ':' u with
  | some (a, b) => (a, some b)
  | none => (u, none)

/-- the path and the query -/
def splitQuery (pathAndQuery : Str) : Str × Option Str :=
  match splitOnce '?' pathAndQuery with
  | some (p, q) => (p, some q)
  | none => (pathAndQuery, none)

/-- a user that is not empty -/
def readUser (user : Str) : Option Str := if user = [] then none else some (percentDecode user)

/-- the host and the port -/
def readHost (input : Str) (isUnix : Bool) (hostPort : Str) : Except UrlError (Str × UInt16) :=
  if isUnix then .ok (hostPort, 6379)
  else
    match rsplitOnce ':' hostPort with
    | some (h, p) =>
      match readPort p with
      | some port => .ok (h, port)
      | none => .error (.invalidPort input)
    | none => .ok (if hostPort = [] then "localhost".toList else hostPort, 6379)

/-- the database of the path -/
def readDb : Str → Int64
  | '/' :: p => (parseI64 p).getD 0
  | _ => 0

/-- the name and the value of a parameter -/
def readPair (pair : Str) : Str × Str := (splitOnce '=' pair).getD (pair, [])

/-- one parameter of the query -/
def applyPair (cfg : UrlConfig) (pair : Str) : UrlConfig :=
  let (k, v) := readPair pair
  if k = "db".toList then
    match parseI64 v with
    | some d => { cfg with db := d }
    | none => cfg
  else if k = "password".toList then { cfg with password := some (percentDecode v) }
  else if k = "username".toList then { cfg with username := some (percentDecode v) }
  else cfg

/-- the parameters of the query, one after the other -/
def applyQuery (query : Option Str) (cfg : UrlConfig) : UrlConfig :=
  match query with
  | some q => (split '&' q).foldl applyPair cfg
  | none => cfg

/-- `parse_url` -/
def parseUrl (input : Str) : Except UrlError UrlConfig :=
  match splitOnceAt "://".toList input with
  | none => .error (.noScheme input)
  | some (scheme, rest) => do
    let (ssl, isUnix) ← readScheme scheme
    let (authority, pathAndQuery) := splitPath rest
    let (userinfo, hostPort) := splitUserinfo authority
    let userPass := userinfo.map splitUser
    let (host, port) ← readHost input isUnix hostPort
    let (path, query) := splitQuery pathAndQuery
    return applyQuery query {
      host := host
      port := port
      db := readDb path
      username := userPass.bind fun u => readUser u.1
      password := userPass.bind fun u => u.2.map percentDecode
      ssl := ssl }

/-- what the keyword arguments of `from_url` say of the credentials -/
structure UrlKwargs where
  password : Option Str
  username : Option Str
  ssl : Bool

/-- `from_url` of `Redis` and of `AsyncRedis`, up to the configuration the constructor makes -/
def fromUrl (url : Str) (kwargs : UrlKwargs) : Except UrlError FacadeConfig := do
  let urlCfg ← parseUrl url
  return {
    host := urlCfg.host
    port := urlCfg.port
    db := urlCfg.db
    password := urlCfg.password <|> kwargs.password
    username := urlCfg.username <|> kwargs.username
    ssl := urlCfg.ssl || kwargs.ssl }

/-! ## Readings -/

/-- a user, and a password or none -/
structure Userinfo where
  user : Str
  password : Option Str
deriving DecidableEq

/-- a part with its separator before it, if there is one -/
def after (sep : Char) : Option Str → Str
  | some s => sep :: s
  | none => []

theorem mem_after {sep c : Char} {o : Option Str} (h : c ∈ after sep o) (hne : c ≠ sep) : ∃ s, o = some s ∧ c ∈ s := by
  cases o with
  | none => cases h
  | some s => exact ⟨s, rfl, (List.mem_cons.1 h).resolve_left hne⟩

def Userinfo.text (u : Userinfo) : Str := u.user ++ after ':' u.password

/-- what follows the scheme, cut into its parts -/
structure Reading where
  userinfo : Option Userinfo
  host : Str
  port : Option Str
  path : Option Str
  query : Option Str
deriving DecidableEq

namespace Reading

variable (v : Reading)

def hostPort : Str := v.host ++ after ':' v.port

def authority : Str :=
  match v.userinfo with
  | some u => u.text ++ '@' :: v.hostPort
  | none => v.hostPort

def pathAndQuery : Str := after '/' v.path ++ after '?' v.query

def text : Str := v.authority ++ v.pathAndQuery

/-- the cuts are where the code cuts -/
structure Cut : Prop where
  authority : '/' ∉ v.authority
  user : ∀ u, v.userinfo = some u → ':' ∉ u.user
  hostPort : '@' ∉ v.hostPort
  port : ∀ p, v.port = some p → ':' ∉ p
  host : v.port = none → ':' ∉ v.host
  path : ∀ p, v.path = some p → '?' ∉ p
  query : v.path = none → v.query = none

/-- the port of a reading; the default where it has none -/
def portNumber : Option UInt16 :=
  match v.port with
  | some p => readPort p
  | none => some 6379

/-- the host of a reading; the default where it has neither host nor port -/
def hostName : Str := if v.port = none ∧ v.host = [] then "localhost".toList else v.host

/-- the configuration of a reading -/
def config (ssl : Bool) (host : Str) (port : UInt16) : UrlConfig :=
  applyQuery v.query {
    host := host
    port := port
    db := readDb (after '/' v.path)
    username := v.userinfo.bind fun u => readUser u.user
    password := v.userinfo.bind fun u => u.password.map percentDecode
    ssl := ssl }

variable {v}

theorem authority_of_some {u : Userinfo} (h : v.userinfo = some u) : v.authority = u.text ++ '@' :: v.hostPort := by
  rw [authority, h]

theorem authority_of_none (h : v.userinfo = none) : v.authority = v.hostPort := by
  rw [authority, h]

theorem splitPath_text (h : v.Cut) : splitPath v.text = (v.authority, v.pathAndQuery) := by
  unfold splitPath text pathAndQuery
  cases hpath : v.path with
  | none =>
    rw [h.query hpath]
    simp only [after, List.append_nil, splitOnce_eq_none_iff.2 h.authority]
  | some p =>
    rw [after, List.cons_append, splitOnce_append h.authority]

theorem splitUserinfo_authority (h : v.Cut) : splitUserinfo v.authority = (v.userinfo.map (·.text), v.hostPort) := by
  unfold splitUserinfo authority
  cases v.userinfo with
  | none => rw [rsplitOnce_eq_none_iff.2 h.hostPort, Option.map_none]
  | some u => rw [rsplitOnce_append _ h.hostPort, Option.map_some]

theorem splitUser_text {u : Userinfo} (h : ':' ∉ u.user) : splitUser u.text = (u.user, u.password) := by
  unfold splitUser Userinfo.text
  cases u.password with
  | none => rw [after, List.append_nil, splitOnce_eq_none_iff.2 h]
  | some p => rw [after, splitOnce_append h]

theorem splitQuery_pathAndQuery (h : v.Cut) : splitQuery v.pathAndQuery = (after '/' v.path, v.query) := by
  unfold splitQuery pathAndQuery
  have hpath : '?' ∉ after '/' v.path := by
    intro hmem
    obtain ⟨p, hp, hmem⟩ := mem_after hmem (by decide)
    exact h.path p hp hmem
  cases v.query with
  | none => rw [after, List.append_nil, splitOnce_eq_none_iff.2 hpath]
  | some q =>
    have hmark : after '?' (some q) = '?' :: q := rfl
    rw [hmark, splitOnce_append hpath]

theorem rsplitOnce_hostPort (h : v.Cut) : rsplitOnce ':' v.hostPort = v.port.map fun p => (v.host, p) := by
  unfold hostPort
  cases hport : v.port with
  | none => rw [after, List.append_nil, rsplitOnce_eq_none_iff.2 (h.host hport), Option.map_none]
  | some p => rw [after, rsplitOnce_append _ (h.port p hport), Option.map_some]

/-! ## Every text can be cut -/

theorem exists_userinfo (text : Str) :
    ∃ u : Userinfo, u.text = text ∧ ':' ∉ u.user := by
  cases hsplit : splitOnce ':' text with
  | none => exact ⟨⟨text, none⟩, List.append_nil text, splitOnce_eq_none_iff.1 hsplit⟩
  | some parts =>
    obtain ⟨htext, huser⟩ := splitOnce_iff.1 hsplit
    exact ⟨⟨parts.1, some parts.2⟩, htext.symm, huser⟩

theorem exists_hostPort (text : Str) :
    ∃ (host : Str) (port : Option Str), host ++ after ':' port = text ∧ (∀ p, port = some p → ':' ∉ p) ∧
      (port = none → ':' ∉ host) := by
  cases hsplit : rsplitOnce ':' text with
  | none =>
    refine ⟨text, none, List.append_nil text, ?_, fun _ => rsplitOnce_eq_none_iff.1 hsplit⟩
    intro p hp
    cases hp
  | some parts =>
    obtain ⟨htext, hport⟩ := rsplitOnce_iff.1 hsplit
    refine ⟨parts.1, some parts.2, htext.symm, ?_, ?_⟩
    · intro p hp
      cases hp
      exact hport
    · intro hnone
      cases hnone

theorem exists_authority (text : Str) :
    ∃ (userinfo : Option Userinfo) (host : Str) (port : Option Str),
      (match userinfo with
        | some u => u.text ++ '@' :: (host ++ after ':' port)
        | none => host ++ after ':' port) = text ∧
      (∀ u, userinfo = some u → ':' ∉ u.user) ∧ '@' ∉ host ++ after ':' port ∧ (∀ p, port = some p → ':' ∉ p) ∧
      (port = none → ':' ∉ host) := by
  cases hsplit : rsplitOnce '@' text with
  | none =>
    obtain ⟨host, port, htext, hport, hhost⟩ := exists_hostPort text
    refine ⟨none, host, port, htext, ?_, ?_, hport, hhost⟩
    · intro u hu
      cases hu
    · rw [htext]
      exact rsplitOnce_eq_none_iff.1 hsplit
  | some parts =>
    obtain ⟨htext, hat⟩ := rsplitOnce_iff.1 hsplit
    obtain ⟨u, hu, huser⟩ := exists_userinfo parts.1
    obtain ⟨host, port, hhostPort, hport, hhost⟩ := exists_hostPort parts.2
    refine ⟨some u, host, port, ?_, ?_, ?_, hport, hhost⟩
    · show u.text ++ '@' :: (host ++ after ':' port) = text
      rw [hu, hhostPort, htext]
    · intro u' hu'
      cases hu'
      exact huser
    · rw [hhostPort]
      exact hat

theorem exists_query (text : Str) : ∃ (p : Str) (q : Option Str), p ++ after '?' q = text ∧ '?' ∉ p := by
  cases hsplit : splitOnce '?' text with
  | none => exact ⟨text, none, List.append_nil text, splitOnce_eq_none_iff.1 hsplit⟩
  | some parts =>
    obtain ⟨htext, hpath⟩ := splitOnce_iff.1 hsplit
    exact ⟨parts.1, some parts.2, htext.symm, hpath⟩

/-- **Every text can be cut.** -/
theorem exists_cut (rest : Str) : ∃ v : Reading, v.Cut ∧ v.text = rest := by
  cases hsplit : splitOnce '/' rest with
  | none =>
    have hslash := splitOnce_eq_none_iff.1 hsplit
    obtain ⟨userinfo, host, port, hauthority, huser, hat, hport, hhost⟩ := exists_authority rest
    have htext : (⟨userinfo, host, port, none, none⟩ : Reading).authority = rest := hauthority
    refine ⟨⟨userinfo, host, port, none, none⟩, ⟨?_, huser, hat, hport, hhost, ?_, fun _ => rfl⟩, ?_⟩
    · rw [htext]
      exact hslash
    · intro p hp
      cases hp
    · rw [text, htext]
      exact List.append_nil rest
  | some parts =>
    obtain ⟨hrest, hslash⟩ := splitOnce_iff.1 hsplit
    obtain ⟨userinfo, host, port, hauthority, huser, hat, hport, hhost⟩ := exists_authority parts.1
    obtain ⟨p, q, hpath, hmark⟩ := exists_query parts.2
    have htext : (⟨userinfo, host, port, some p, q⟩ : Reading).authority = parts.1 := hauthority
    refine ⟨⟨userinfo, host, port, some p, q⟩, ⟨?_, huser, hat, hport, hhost, ?_, ?_⟩, ?_⟩
    · rw [htext]
      exact hslash
    · intro p' hp'
      cases hp'
      exact hmark
    · intro hnone
      cases hnone
    · rw [text, htext, hrest, ← hpath]
      rfl

end Reading

/-! ## Parameters -/

/-- the value of a parameter, if it has this name -/
def valueOf (name pair : Str) : Option Str := if (readPair pair).1 = name then some (readPair pair).2 else none

/-- the values of the parameters of this name -/
def values (name : Str) : Option Str → List Str
  | some q => (split '&' q).filterMap (valueOf name)
  | none => []

/-- a part of a state that each step sets or keeps is what the last step that sets it sets it to -/
theorem foldl_last {σ α β : Type*} {f : σ → α → σ} (part : σ → β) {set : α → Option β}
    (hf : ∀ s a, part (f s a) = (set a).getD (part s)) (s : σ) (l : List α) :
    part (l.foldl f s) = (l.filterMap set).getLast?.getD (part s) := by
  induction l generalizing s with
  | nil => rfl
  | cons a l ih =>
    rw [List.foldl_cons, ih, hf]
    cases hset : set a with
    | none => rw [List.filterMap_cons_none hset, Option.getD_none]
    | some b => rw [List.filterMap_cons_some hset, List.getLast?_cons, Option.getD_some, Option.getD_some]

theorem applyPair_db (cfg : UrlConfig) (pair : Str) :
    (applyPair cfg pair).db = ((valueOf "db".toList pair).bind parseI64).getD cfg.db := by
  unfold applyPair valueOf
  by_cases hdb : (readPair pair).1 = "db".toList
  · simp only [hdb, if_true, Option.bind_some]
    cases parseI64 (readPair pair).2 with
    | none => rfl
    | some d => rfl
  · simp only [hdb, if_false, Option.bind_none, Option.getD_none]
    split_ifs <;> rfl

theorem applyPair_password (cfg : UrlConfig) (pair : Str) :
    (applyPair cfg pair).password =
      ((valueOf "password".toList pair).map fun v => some (percentDecode v)).getD cfg.password := by
  unfold applyPair valueOf
  by_cases hpassword : (readPair pair).1 = "password".toList
  · have hdb : "password".toList ≠ "db".toList := by decide
    simp only [hpassword, if_true, if_neg hdb]
    rfl
  · simp only [hpassword, if_false, Option.map_none, Option.getD_none]
    split_ifs
    · cases parseI64 (readPair pair).2 with
      | none => rfl
      | some d => rfl
    · rfl
    · rfl

theorem applyPair_username (cfg : UrlConfig) (pair : Str) :
    (applyPair cfg pair).username =
      ((valueOf "username".toList pair).map fun v => some (percentDecode v)).getD cfg.username := by
  unfold applyPair valueOf
  by_cases husername : (readPair pair).1 = "username".toList
  · have hdb : "username".toList ≠ "db".toList := by decide
    have hpassword : "username".toList ≠ "password".toList := by decide
    simp only [husername, if_true, if_neg hdb, if_neg hpassword]
    rfl
  · simp only [husername, if_false, Option.map_none, Option.getD_none]
    split_ifs
    · cases parseI64 (readPair pair).2 with
      | none => rfl
      | some d => rfl
    · rfl
    · rfl

/-- no parameter changes the host, the port or the encryption -/
theorem applyPair_rest (cfg : UrlConfig) (pair : Str) :
    (applyPair cfg pair).host = cfg.host ∧ (applyPair cfg pair).port = cfg.port ∧ (applyPair cfg pair).ssl = cfg.ssl := by
  unfold applyPair
  simp only
  split_ifs
  · cases parseI64 (readPair pair).2 with
    | none => exact ⟨rfl, rfl, rfl⟩
    | some d => exact ⟨rfl, rfl, rfl⟩
  · exact ⟨rfl, rfl, rfl⟩
  · exact ⟨rfl, rfl, rfl⟩
  · exact ⟨rfl, rfl, rfl⟩

theorem foldl_rest (cfg : UrlConfig) (pairs : List Str) :
    (pairs.foldl applyPair cfg).host = cfg.host ∧ (pairs.foldl applyPair cfg).port = cfg.port ∧
      (pairs.foldl applyPair cfg).ssl = cfg.ssl := by
  induction pairs generalizing cfg with
  | nil => exact ⟨rfl, rfl, rfl⟩
  | cons pair pairs ih =>
    obtain ⟨hhost, hport, hssl⟩ := applyPair_rest cfg pair
    obtain ⟨hhost', hport', hssl'⟩ := ih (applyPair cfg pair)
    exact ⟨hhost'.trans hhost, hport'.trans hport, hssl'.trans hssl⟩

/-- **The last parameter of a name counts.** -/
theorem applyQuery_eq (q : Option Str) (cfg : UrlConfig) :
    applyQuery q cfg = {
      host := cfg.host
      port := cfg.port
      db := ((values "db".toList q).filterMap parseI64).getLast?.getD cfg.db
      username := ((values "username".toList q).getLast?.map percentDecode).or cfg.username
      password := ((values "password".toList q).getLast?.map percentDecode).or cfg.password
      ssl := cfg.ssl } := by
  cases q with
  | none => rfl
  | some q =>
    have hset : ∀ (name : Str) (l : List Str), l.filterMap (fun pair => (valueOf name pair).map fun v => some (percentDecode v)) =
        (l.filterMap (valueOf name)).map fun v => some (percentDecode v) := fun name l => List.map_filterMap.symm
    have hor : ∀ (a : Option Str) (c : Option Str), (a.map fun v => some (percentDecode v)).getD c = (a.map percentDecode).or c := by
      intro a c
      cases a with
      | none => rfl
      | some v => rfl
    have hdb := foldl_last UrlConfig.db applyPair_db cfg (split '&' q)
    have husername := foldl_last UrlConfig.username applyPair_username cfg (split '&' q)
    have hpassword := foldl_last UrlConfig.password applyPair_password cfg (split '&' q)
    rw [← List.filterMap_filterMap] at hdb
    rw [hset, List.getLast?_map, hor] at husername hpassword
    obtain ⟨hhost, hport, hssl⟩ := foldl_rest cfg (split '&' q)
    exact UrlConfig.ext hhost hport hdb husername hpassword hssl

/-! ## What `parse_url` makes of a reading -/

inductive Scheme where
  | redis
  | rediss
  | unix
deriving DecidableEq

def Scheme.text : Scheme → Str
  | .redis => "redis".toList
  | .rediss => "rediss".toList
  | .unix => "unix".toList

def Scheme.ssl : Scheme → Bool
  | .rediss => true
  | _ => false

theorem readScheme_ok_iff {scheme : Str} {r : Bool × Bool} :
    readScheme scheme = .ok r ↔ ∃ s : Scheme, s.text = scheme ∧ r = (s.ssl, decide (s = .unix)) := by
  constructor
  · intro h
    unfold readScheme at h
    split_ifs at h with hredis hrediss hunix
    · exact ⟨.redis, hredis.symm, (Except.ok.inj h).symm⟩
    · exact ⟨.rediss, hrediss.symm, (Except.ok.inj h).symm⟩
    · exact ⟨.unix, hunix.symm, (Except.ok.inj h).symm⟩
  · rintro ⟨s, rfl, rfl⟩
    cases s with
    | redis => rfl
    | rediss => rfl
    | unix => rfl

theorem splitOnceAt_scheme (s : Scheme) (rest : Str) :
    splitOnceAt "://".toList (s.text ++ "://".toList ++ rest) = some (s.text, rest) := by
  have hcolon : ':' ∉ s.text := by
    cases s with
    | redis => decide
    | rediss => decide
    | unix => decide
  exact splitOnceAt_append hcolon rest

namespace Reading

variable {v : Reading}

theorem parseUrl_text (s : Scheme) (h : v.Cut) :
    parseUrl (s.text ++ "://".toList ++ v.text) =
      (readHost (s.text ++ "://".toList ++ v.text) (decide (s = .unix)) v.hostPort).map fun hp =>
        v.config s.ssl hp.1 hp.2 := by
  have hscheme : readScheme s.text = .ok (s.ssl, decide (s = .unix)) := readScheme_ok_iff.2 ⟨s, rfl, rfl⟩
  have huser : (v.userinfo.map Userinfo.text).map splitUser = v.userinfo.map fun u => (u.user, u.password) := by
    cases huserinfo : v.userinfo with
    | none => rfl
    | some u => rw [Option.map_some, Option.map_some, splitUser_text (h.user u huserinfo), Option.map_some]
  unfold parseUrl
  simp only [splitOnceAt_scheme, hscheme, bind, Except.bind, splitPath_text h, splitUserinfo_authority h,
    splitQuery_pathAndQuery h, huser, Option.bind_map]
  cases readHost (s.text ++ "://".toList ++ v.text) (decide (s = .unix)) v.hostPort with
  | error e => rfl
  | ok hp => rfl

theorem readHost_cut (input : Str) (h : v.Cut) :
    readHost input false v.hostPort =
      match v.portNumber with
      | some port => .ok (v.hostName, port)
      | none => .error (.invalidPort input) := by
  unfold readHost portNumber hostName
  rw [rsplitOnce_hostPort h]
  cases hport : v.port with
  | none =>
    have hhostPort : v.hostPort = v.host := by rw [hostPort, hport, after, List.append_nil]
    rw [hhostPort]
    by_cases hnil : v.host = []
    · simp [hnil]
    · simp [hnil]
  | some p =>
    cases hread : readPort p with
    | none => simp [hread]
    | some port => simp [hread]

/-- **A URL of a host.** -/
theorem parseUrl_cut {s : Scheme} (hs : s ≠ .unix) (h : v.Cut) :
    parseUrl (s.text ++ "://".toList ++ v.text) =
      match v.portNumber with
      | some port => .ok (v.config s.ssl v.hostName port)
      | none => .error (.invalidPort (s.text ++ "://".toList ++ v.text)) := by
  rw [parseUrl_text s h, decide_eq_false hs, readHost_cut _ h]
  cases v.portNumber with
  | none => rfl
  | some port => rfl

/-- **A URL of a socket.** The host is what stands before the path, never the path. -/
theorem parseUrl_unix (h : v.Cut) :
    parseUrl (Scheme.unix.text ++ "://".toList ++ v.text) = .ok (v.config false v.hostPort 6379) := by
  rw [parseUrl_text .unix h]
  rfl

end Reading

end RedisRsPy.Facade
