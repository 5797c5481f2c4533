/-
`select` (`commands/admin.rs`), which changes no database: it compares its argument with the one that `url_db_index` reads
from the URL that the client stores.

What is stored is the URL of the client itself for `Redis(...)` and `from_url`, and the first sentinel's for the clients
of `master_for` and `slave_for`; what the connection uses is the db that the URL of its connection names (`pathDb`).

`url_db_index` takes the text after the first `/` for a `u8`. It knows no db above 255, and no `?` or `#` before the path.

Results:
- `confirms_iff`: what `select` confirms is the number that is read from the stored URL;
- `named_eq_iff`: when that is the db that the same URL names;
- `select_confirms_iff`: for every client, when `select` confirms exactly the db in use.
Witness: `select_confirms_iff_constructor`; a client of `master_for` with a db: `select_sentinel_db`.
-/
import RedisRsPy.Connection.Endpoints
import RedisRsPy.Connection.Resp3
import RedisRsPy.Connection.UrlDb
import RedisRsPy.Facade.Sentinel
import RedisRsPy.Facade.UrlRoundTrip

namespace RedisRsPy.Commands.Select

open RedisRsPy.Facade RedisRsPy.Connection Lib.Split Lib.Fallible

/-! ## The check -/

/-- digits, after a `+` or not -/
def unsigned : Str → Option ℕ
  | '+' :: s => decimal s
  | s => decimal s

/-- `str::parse::<u8>` -/
def parseU8 (s : Str) : Option ℕ := (unsigned s).bind fun n => if n < 2 ^ 8 then some n else none

/-- what stands after the first `/`, up to a `?` or a `#` -/
def dbText (afterScheme : Str) : Str :=
  match splitOnce '/' afterScheme with
  | some (_, afterHost) => afterHost.takeWhile fun c => !endsPath c
  | none => []

/-- `url_db_index` -/
def urlDbIndex (url : Str) : ℕ :=
  match splitOnceAt "://".toList url with
  | none => 0
  | some (_, afterScheme) =>
    match splitOnce '/' afterScheme with
    | none => 0
    | some (_, afterHost) => (parseU8 (afterHost.takeWhile fun c => !endsPath c)).getD 0

/-- why `select` raises -/
inductive SelectError where
  /-- the `OverflowError` of an argument that is no `u8` -/
  | noByte
  | notImplemented (text : String)
deriving DecidableEq

def otherDbText (connected requested : ℤ) : String :=
  "SELECT to a different db is not supported under the multiplexed connection model (connected to db " ++
    toString connected ++ ", requested " ++ toString requested ++
    "). Construct a new Redis with the desired db in the URL instead."

/-- `Redis::select`, given the URL that the client stores -/
def select (url : Str) (dbIndex : ℤ) : Except SelectError Bool :=
  if 0 ≤ dbIndex ∧ dbIndex < 2 ^ 8 then
    let connected : ℤ := urlDbIndex url
    if dbIndex = connected then .ok true else .error (.notImplemented (otherDbText connected dbIndex))
  else .error .noByte

/-! ## How a client is built -/

/-- `Redis`, by its connection and its URL -/
structure Redis where
  connection : ValkeyConn
  url : String

/-- a `db` argument -/
inductive DbArg where
  | int (n : ℤ)
  | str (s : Str)
  | other

/-- how the constructor reads it -/
def constructorDb : Option DbArg → Int64
  | none => 0
  | some (.int n) => if InI64 n then Int64.ofInt n else 0
  | some (.str s) => (RedisRsPy.Facade.parseI64 s).getD 0
  | some .other => 0

/-- how `build_redis_conn` reads it -/
def kwargsDb : Option DbArg → Int64
  | some (.int n) => if InI64 n then Int64.ofInt n else 0
  | _ => 0

/-- `build_connection`, its certificates read -/
def buildConnection (net : Net) (cfg : FacadeConfig) (tlsOpts : Option TlsOpts) : Except String Redis := do
  let resp3Url := urlWithResp3 (String.ofList cfg.toUrl)
  let c ← connectStandard net resp3Url none tlsOpts
  return ⟨c, resp3Url⟩

/-- the URL of a sentinel -/
def sentinelUrl (host : Str) (port : UInt16) : Str :=
  "redis://".toList ++ (host ++ ':' :: (toString port.toNat).toList)

/-- the sentinels of a `Sentinel`; without one it raises -/
def newSentinel : List (Str × UInt16) → Except String SentinelInner
  | [] => .error "Sentinel requires at least one (host, port) tuple"
  | sentinels => .ok ⟨sentinels.map fun hp => String.ofList (sentinelUrl hp.1 hp.2), fun _ => 0⟩

/-- the client that `build_redis_conn` makes of its connection -/
def sentinelRedis (inner : SentinelInner) (kwargs : ConnectionKwargs) (service : String) (isSlave : Bool)
    (s : SentinelConn) : Redis where
  connection := ⟨.sentinel s, .sentinel inner.urls service kwargs.db isSlave kwargs.tlsOpts⟩
  url := inner.urls.head?.getD ("sentinel://" ++ service)

/-- what a client was built from -/
inductive Origin where
  | standard (cfg : FacadeConfig)
  /-- the first sentinel, and the db -/
  | sentinel (host : Str) (port : UInt16) (db : Int64)

/-- the ways to build a client; the sentinels may give other answers each time they are asked -/
inductive Built (net : Net) (world : (ℕ → SentinelAnswer) → Prop) : Origin → Redis → Prop
  | constructor {c : Redis} (cfg : FacadeConfig) (db : Option DbArg) (tlsOpts : Option TlsOpts)
      (h : buildConnection net { cfg with db := constructorDb db } tlsOpts = .ok c) :
      Built net world (.standard { cfg with db := constructorDb db }) c
  | fromUrl {c : Redis} {cfg : FacadeConfig} (url : Str) (kwargs : UrlKwargs) (tlsOpts : Option TlsOpts)
      (hurl : Facade.fromUrl url kwargs = .ok cfg) (h : buildConnection net cfg tlsOpts = .ok c) :
      Built net world (.standard cfg) c
  | masterFor {inner : SentinelInner} {s : SentinelConn} {answers : ℕ → SentinelAnswer} (host : Str) (port : UInt16)
      (sentinels : List (Str × UInt16)) (db : Option DbArg) (kwargs : ConnectionKwargs) (service : String)
      (hinner : newSentinel ((host, port) :: sentinels) = .ok inner) (hdb : kwargs.db = (kwargsDb db).toInt)
      (hanswers : world answers) (h : inner.masterFor kwargs service answers = .ok s) :
      Built net world (.sentinel host port (kwargsDb db)) (sentinelRedis inner kwargs service false s)
  | slaveFor {inner cursor : SentinelInner} {s : SentinelConn} {answers : ℕ → SentinelAnswer} (host : Str) (port : UInt16)
      (sentinels : List (Str × UInt16)) (db : Option DbArg) (kwargs : ConnectionKwargs) (service : String)
      (hinner : newSentinel ((host, port) :: sentinels) = .ok inner) (hcursor : cursor.urls = inner.urls)
      (hdb : kwargs.db = (kwargsDb db).toInt) (hanswers : world answers)
      (h : (cursor.slaveFor kwargs service answers).2 = .ok s) :
      Built net world (.sentinel host port (kwargsDb db)) (sentinelRedis inner kwargs service true s)
  | rediscovered {o : Origin} {s : SentinelConn} {cfg : ConnConfig} {url : String} {answers : ℕ → SentinelAnswer}
      (h : Built net world o ⟨⟨.sentinel s, cfg⟩, url⟩) (hanswers : world answers) :
      Built net world o ⟨⟨.sentinel (s.rediscover answers).2, cfg⟩, url⟩

variable {Node : Type}

/-- the db that the connection of a client uses -/
def Redis.usedDb (d : Deployment Node) (c : Redis) : ℤ := (c.connection.regular.place d []).2

/-- the client confirms the db in use, and raises for every other number -/
structure Confirms (d : Deployment Node) (c : Redis) : Prop where
  confirms : select c.url.toList (c.usedDb d) = .ok true
  raises : ∀ n, n ≠ c.usedDb d → ∃ e, select c.url.toList n = .error e

/-- the redis crate and the sentinels as they are documented: a client uses the db that its URL names, and a sentinel
gives host names and ports -/
structure Documented (net : Net) (world : (ℕ → SentinelAnswer) → Prop) (d : Deployment Node) : Prop where
  client : ∀ (s : Scheme) (rest : Str) (tlsOpts : Option TlsOpts), s ≠ .unix →
    net.client (String.ofList (s.text ++ "://".toList ++ rest)) tlsOpts = .ok () →
      pathDb rest = some (d.names (String.ofList (s.text ++ "://".toList ++ rest))).2
  target : ∀ answers, world answers → ∀ (i : ℕ) (s : Scheme) (rest : Str), s ≠ .unix →
    (answers i).targetClient (String.ofList (s.text ++ "://".toList ++ rest)) = .ok () →
      pathDb rest = some (d.names (String.ofList (s.text ++ "://".toList ++ rest))).2
  addresses : ∀ answers, world answers → ∀ i isSlave, ∀ addr ∈ (answers i).addrs isSlave,
    ∀ c ∈ addr.1.toList ++ addr.2.toList, endsAuthority c = false

/-! ## What is confirmed -/

/-- the number that stands for the db of a URL -/
def named (afterScheme : Str) : ℕ := (parseU8 (dbText afterScheme)).getD 0

theorem parseU8_lt {s : Str} {n : ℕ} (h : parseU8 s = some n) : n < 2 ^ 8 := by
  obtain ⟨m, -, hm⟩ := Option.bind_eq_some_iff.1 h
  split_ifs at hm with hlt
  exact Option.some.inj hm ▸ hlt

theorem named_lt (afterScheme : Str) : named afterScheme < 2 ^ 8 := by
  rw [named]
  cases hparse : parseU8 (dbText afterScheme) with
  | none => exact Nat.two_pow_pos 8
  | some n => exact parseU8_lt hparse

theorem named_eq_zero_iff {afterScheme : Str} :
    named afterScheme = 0 ↔ ∀ n, parseU8 (dbText afterScheme) = some n → n = 0 := by
  rw [named]
  cases hparse : parseU8 (dbText afterScheme) with
  | none => simp
  | some n => simp

theorem urlDbIndex_of_split {url scheme rest : Str} (h : splitOnceAt "://".toList url = some (scheme, rest)) :
    urlDbIndex url = named rest := by
  unfold urlDbIndex named dbText
  rw [h]
  simp only
  cases splitOnce '/' rest with
  | none => rfl
  | some parts => rfl

theorem urlDbIndex_lt (url : Str) : urlDbIndex url < 2 ^ 8 := by
  cases hsplit : splitOnceAt "://".toList url with
  | none =>
    unfold urlDbIndex
    rw [hsplit]
    exact Nat.two_pow_pos 8
  | some parts =>
    rw [urlDbIndex_of_split hsplit]
    exact named_lt parts.2

/-- **What `select` confirms** is the number that is read from the stored URL, and nothing else. -/
theorem confirms_iff {url : Str} {used : ℤ} :
    (select url used = .ok true ∧ ∀ n, n ≠ used → ∃ e, select url n = .error e) ↔ (urlDbIndex url : ℤ) = used := by
  have hlt := urlDbIndex_lt url
  constructor
  · rintro ⟨hconfirms, -⟩
    by_contra hne
    rw [select] at hconfirms
    split_ifs at hconfirms with hbyte
    rw [if_neg fun heq => hne heq.symm] at hconfirms
    cases hconfirms
  · rintro rfl
    constructor
    · have hbyte : (0 : ℤ) ≤ (urlDbIndex url : ℤ) ∧ (urlDbIndex url : ℤ) < 2 ^ 8 := by omega
      rw [select, if_pos hbyte, if_pos rfl]
    · intro n hn
      rw [select]
      split_ifs with hbyte
      · rw [if_neg hn]
        exact ⟨_, rfl⟩
      · exact ⟨_, rfl⟩

/-! ## Numbers in a path -/

theorem isNumeric_of_isDigit {c : Char} (h : c.isDigit = true) : isNumeric c = true := by
  rw [isNumeric, h]
  rfl

/-- what is read as an unsigned number is read as the same signed one -/
theorem unsigned_eq_some {s : Str} {n : ℕ} (h : unsigned s = some n) :
    s ≠ [] ∧ (∀ c ∈ s, isNumeric c = true) ∧ decimalInt s = some (n : ℤ) := by
  have hdecimal : ∀ {s : Str}, decimal s = some n → s ≠ [] ∧ (∀ c ∈ s, isNumeric c = true) ∧ decimalInt s = some (n : ℤ) := by
    intro s hs
    obtain ⟨hnil, hdigits, -⟩ := decimal_eq_some_iff.1 hs
    exact ⟨hnil, fun c hc => isNumeric_of_isDigit (hdigits c hc), decimalInt_of_decimal hs⟩
  unfold unsigned at h
  split at h
  · rename_i digits
    obtain ⟨-, hnumeric, -⟩ := hdecimal h
    refine ⟨List.cons_ne_nil _ _, ?_, ?_⟩
    · intro c hc
      rcases List.mem_cons.1 hc with rfl | hc
      · decide
      · exact hnumeric c hc
    · rw [decimalInt, h]
      rfl
  · exact hdecimal h

theorem parseI64_toInt {s : Str} {n : ℤ} (h : decimalInt s = some n) :
    (RedisRsPy.Facade.parseI64 s).map Int64.toInt = if InI64 n then some n else none := by
  rw [RedisRsPy.Facade.parseI64, h, Option.bind_some]
  split_ifs with hrange
  · rw [Option.map_some, Int64.toInt_ofInt_of_le hrange.1 hrange.2]
  · rfl

theorem unsigned_toString (n : ℕ) : unsigned (toString n).toList = some n := by
  have hdecimal := decimal_toString n
  obtain ⟨hnil, hdigits, -⟩ := decimal_eq_some_iff.1 hdecimal
  unfold unsigned
  split
  · rename_i heq
    rw [heq] at hdigits
    exact absurd (hdigits '+' List.mem_cons_self) (by decide)
  · exact hdecimal

/-- the text of a number is read as a `u8` where it is one -/
theorem parseU8_toString (d : ℤ) : (((parseU8 (toString d).toList).getD 0 : ℕ) : ℤ) = d ↔ 0 ≤ d ∧ d ≤ 255 := by
  cases d with
  | ofNat n =>
    have hread : parseU8 (toString (Int.ofNat n)).toList = if n < 2 ^ 8 then some n else none := by
      rw [parseU8]
      show (unsigned (toString n).toList).bind _ = _
      rw [unsigned_toString, Option.bind_some]
    rw [hread, Int.ofNat_eq_natCast]
    split_ifs with hlt
    · rw [Option.getD_some]
      omega
    · rw [Option.getD_none]
      omega
  | negSucc n =>
    have htext : (toString (Int.negSucc n)).toList = '-' :: (toString (n + 1)).toList := by
      show ("-" ++ toString (n + 1)).toList = _
      rw [String.toList_append]
      rfl
    have hdecimal : decimal ('-' :: (toString (n + 1)).toList) = none := by
      rw [decimal, if_neg]
      rintro ⟨-, hall⟩
      exact absurd (List.all_eq_true.1 hall '-' List.mem_cons_self) (by decide)
    have hread : parseU8 (toString (Int.negSucc n)).toList = none := by
      rw [parseU8, htext]
      show (decimal ('-' :: (toString (n + 1)).toList)).bind _ = none
      rw [hdecimal]
      rfl
    rw [hread, Option.getD_none]
    omega

/-! ## The stored URL and its path -/

/-- a `?` or a `#` comes first, so that there is no path -/
def queryFirst (afterScheme : Str) : Bool := (afterScheme.takeWhile fun c => c ≠ '/').any endsPath

/-- the number that is read is the db that the URL names: with a query first, the text that stands for the db is no number
but 0; else it is a number up to 255 and nothing more, or the URL names db 0 -/
def Spelled (afterScheme : Str) : Prop :=
  if queryFirst afterScheme then ∀ n, parseU8 (dbText afterScheme) = some n → n = 0
  else pathDb afterScheme = some 0 ∨ ∃ n ≤ 255, unsigned (dbText afterScheme) = some n

/-- where the authority ends -/
theorem cut_authority (afterScheme : Str) : (∀ c ∈ afterScheme, endsAuthority c = false) ∨
    ∃ a c t, afterScheme = a ++ c :: t ∧ (∀ x ∈ a, endsAuthority x = false) ∧ endsAuthority c = true := by
  have hfront : ∀ x ∈ afterScheme.takeWhile (fun c => !endsAuthority c), endsAuthority x = false := by
    intro x hx
    have hnot := List.mem_takeWhile_imp hx
    rwa [Bool.not_eq_true'] at hnot
  have hwhole := List.takeWhile_append_dropWhile (p := fun c => !endsAuthority c) (l := afterScheme)
  cases hrest : afterScheme.dropWhile (fun c => !endsAuthority c) with
  | nil =>
    rw [hrest, List.append_nil] at hwhole
    exact .inl (hwhole ▸ hfront)
  | cons c t =>
    have hne : afterScheme.dropWhile (fun c => !endsAuthority c) ≠ [] := by
      rw [hrest]
      exact List.cons_ne_nil c t
    have hends := List.head_dropWhile_not (fun c => !endsAuthority c) hne
    simp only [hrest, List.head_cons, Bool.not_eq_false'] at hends
    exact .inr ⟨_, c, t, by rw [← hrest]; exact hwhole.symm, hfront, hends⟩

theorem slash_not_mem_authority {a : Str} (h : ∀ x ∈ a, endsAuthority x = false) : '/' ∉ a := by
  intro hmem
  exact absurd (h '/' hmem) (by decide)

theorem queryFirst_of_authority {a : Str} (h : ∀ x ∈ a, endsAuthority x = false) (t : Str) :
    queryFirst (a ++ '/' :: t) = false := by
  have hall : ∀ x ∈ a, decide (x ≠ '/') = true := by
    intro x hx
    exact decide_eq_true fun heq => slash_not_mem_authority h (heq ▸ hx)
  rw [queryFirst, List.takeWhile_append_of_pos hall, List.takeWhile_cons_of_neg (by decide), List.append_nil,
    List.any_eq_false]
  intro x hx hends
  have hnot := h x hx
  rw [endsPath, Bool.or_eq_true] at hends
  simp only [endsAuthority, Bool.or_eq_false_iff] at hnot
  rcases hends with hends | hends
  · exact absurd hends (by simp [hnot.1.2])
  · exact absurd hends (by simp [hnot.2])

theorem dbText_of_authority {a : Str} (h : ∀ x ∈ a, endsAuthority x = false) (t : Str) :
    dbText (a ++ '/' :: t) = t.takeWhile fun c => !endsPath c := by
  rw [dbText, splitOnce_append (slash_not_mem_authority h)]

/-- a URL with a path: its text up to the query is the path -/
theorem named_path_iff {a t : Str} {used : ℤ} (ha : ∀ x ∈ a, endsAuthority x = false)
    (h : pathDb (a ++ '/' :: t) = some used) :
    (named (a ++ '/' :: t) : ℤ) = used ↔
      used = 0 ∨ ∃ n ≤ 255, unsigned (t.takeWhile fun c => !endsPath c) = some n := by
  rw [named, dbText_of_authority ha, parseU8]
  cases hunsigned : unsigned (t.takeWhile fun c => !endsPath c) with
  | none =>
    rw [Option.bind_none, Option.getD_none]
    constructor
    · intro hzero
      exact .inl hzero.symm
    · rintro (rfl | ⟨n, -, hn⟩)
      · rfl
      · cases hn
  | some n =>
    obtain ⟨hne, hnumeric, hint⟩ := unsigned_eq_some hunsigned
    have hstop : ∀ c, (t.dropWhile fun c => !endsPath c).head? = some c → endsPath c = true := by
      intro c hc
      have hnot := List.head?_dropWhile_not (fun c => !endsPath c) t
      rw [hc] at hnot
      simpa using hnot
    have hdb := pathDb_of_segment ha hne hnumeric hstop
    rw [List.takeWhile_append_dropWhile, h, parseI64_toInt hint] at hdb
    obtain rfl : used = n := by
      split_ifs at hdb with hrange
      exact Option.some.inj hdb
    rw [Option.bind_some]
    split_ifs with hlt
    · rw [Option.getD_some]
      exact iff_of_true rfl (.inr ⟨n, by omega, rfl⟩)
    · rw [Option.getD_none]
      refine iff_of_false (by omega) ?_
      rintro (hzero | ⟨m, hm, hnm⟩)
      · omega
      · obtain rfl := Option.some.inj hnm
        omega

/-- **One URL.** The number that is read from it is the db that it names if and only if that is spelled so. -/
theorem named_eq_iff {afterScheme : Str} {used : ℤ} (h : pathDb afterScheme = some used) :
    (named afterScheme : ℤ) = used ↔ Spelled afterScheme := by
  have hzero : pathDb afterScheme = some 0 ↔ used = 0 := by
    rw [h, Option.some.injEq]
  rw [Spelled, hzero]
  rcases cut_authority afterScheme with hnone | ⟨a, c, t, rfl, ha, hends⟩
  · have hquery : ¬ queryFirst afterScheme = true := by
      intro hquery
      obtain ⟨x, hx, hend⟩ := List.any_eq_true.1 hquery
      have hnot := hnone x ((List.takeWhile_prefix _).subset hx)
      rw [endsAuthority, Bool.or_assoc, ← endsPath, hend, Bool.or_true] at hnot
      cases hnot
    have htext : named afterScheme = 0 := by
      rw [named, dbText, splitOnce_eq_none_iff.2 (slash_not_mem_authority hnone)]
      rfl
    have hused : used = 0 := hzero.1 (pathDb_of_authority hnone)
    rw [if_neg hquery, htext, hused]
    exact iff_of_true rfl (.inl rfl)
  · by_cases hslash : c = '/'
    · subst hslash
      have hquery : ¬ queryFirst (a ++ '/' :: t) = true := by
        rw [queryFirst_of_authority ha]
        exact Bool.false_ne_true
      rw [if_neg hquery, dbText_of_authority ha]
      exact named_path_iff ha h
    · have hpath : endsPath c = true := by
        simpa [endsAuthority, endsPath, hslash] using hends
      have hquery : queryFirst (a ++ c :: t) = true := by
        have hall : ∀ x ∈ a, decide (x ≠ '/') = true := by
          intro x hx
          exact decide_eq_true fun heq => slash_not_mem_authority ha (heq ▸ hx)
        rw [queryFirst, List.takeWhile_append_of_pos hall]
        simp [hslash, hpath]
      have hused : used = 0 := hzero.1 (pathDb_of_query ha hpath t)
      rw [if_pos hquery, hused, Int.natCast_eq_zero]
      exact named_eq_zero_iff

/-! ## The URLs of the connections -/

/-- what follows the scheme -/
def afterScheme (url : Str) : Str := ((splitOnceAt "://".toList url).map (·.2)).getD []

theorem urlWithResp3_ofList (url : Str) : urlWithResp3 (String.ofList url) = String.ofList (withResp3 url) := by
  rw [withResp3, String.ofList_toList]

/-- the protocol is added behind the scheme -/
theorem withResp3_scheme (s : Scheme) (rest : Str) : ∃ rest', withResp3 (s.text ++ "://".toList ++ rest) =
    s.text ++ "://".toList ++ rest' ∧ (rest' = rest ∨ ∃ sep, rest' =
      rest.takeWhile (· ≠ '#') ++ sep :: resp3Text ++ rest.dropWhile (· ≠ '#') ∧
        sep = if '?' ∈ s.text ++ "://".toList ++ rest.takeWhile (· ≠ '#') then '&' else '?') := by
  by_cases hmem : protocolText <:+: s.text ++ "://".toList ++ rest
  · exact ⟨rest, withResp3_of_mem hmem, .inl rfl⟩
  · have hhash : ∀ c ∈ s.text ++ "://".toList, decide (c ≠ '#') = true := by
      intro c hc
      refine decide_eq_true fun heq => ?_
      subst heq
      cases s with
      | redis => exact absurd hc (by decide)
      | rediss => exact absurd hc (by decide)
      | unix => exact absurd hc (by decide)
    have htext := withResp3_of_not_mem hmem
    rw [List.takeWhile_append_of_pos hhash, List.dropWhile_append_of_pos hhash] at htext
    refine ⟨_, ?_, .inr ⟨_, rfl, rfl⟩⟩
    rw [htext]
    simp only [List.append_assoc]

/-- **A URL with a db.** Where the authority has no separator, the db is what is written, for the connection and for
`select`. -/
theorem resp3_db (s : Scheme) {authority : Str} (hauthority : ∀ c ∈ authority, endsAuthority c = false) {d : ℤ}
    (hd : InI64 d) : ∃ rest, withResp3 (s.text ++ "://".toList ++ (authority ++ '/' :: (toString d).toList)) =
      s.text ++ "://".toList ++ rest ∧ pathDb rest = some d ∧ dbText rest = (toString d).toList := by
  have hnumeric : ∀ c ∈ (toString d).toList, isNumeric c = true := by
    intro c hc
    rcases mem_toString_int c hc with rfl | hdigit
    · decide
    · exact isNumeric_of_isDigit hdigit
  have hne : (toString d).toList ≠ [] := by
    intro hnil
    have hread := decimalInt_toString d
    rw [hnil] at hread
    cases hread
  have hparse := parseI64_toInt (decimalInt_toString d)
  rw [if_pos hd] at hparse
  have hends : ∀ c ∈ (toString d).toList, (!endsPath c) = true := by
    intro c hc
    have hquestion := isNumeric_ne (d := '?') (hnumeric c hc) (by decide)
    have hhash := isNumeric_ne (d := '#') (hnumeric c hc) (by decide)
    simp [endsPath, hquestion, hhash]
  have hread : ∀ tail : Str, (∀ c, tail.head? = some c → endsPath c = true) →
      pathDb (authority ++ '/' :: ((toString d).toList ++ tail)) = some d ∧
        dbText (authority ++ '/' :: ((toString d).toList ++ tail)) = (toString d).toList := by
    intro tail htail
    have hstop : tail.takeWhile (fun c => !endsPath c) = [] := by
      cases tail with
      | nil => rfl
      | cons c tail =>
        rw [List.takeWhile_cons_of_neg]
        rw [htail c rfl]
        exact Bool.false_ne_true
    refine ⟨(pathDb_of_segment hauthority hne hnumeric htail).trans hparse, ?_⟩
    rw [dbText_of_authority hauthority, List.takeWhile_append_of_pos hends, hstop, List.append_nil]
  obtain ⟨rest', hresp3, hrest⟩ := withResp3_scheme s (authority ++ '/' :: (toString d).toList)
  refine ⟨rest', hresp3, ?_⟩
  rcases hrest with rfl | ⟨sep, rfl, hsep⟩
  · have hplain := hread [] fun c hc => by cases hc
    rwa [List.append_nil] at hplain
  · have hnot : ∀ c ∈ authority ++ '/' :: (toString d).toList, endsPath c = false := by
      intro c hc
      rcases List.mem_append.1 hc with hc | hc
      · have hends := hauthority c hc
        rw [endsAuthority, Bool.or_assoc, ← endsPath, Bool.or_eq_false_iff] at hends
        exact hends.2
      · rcases List.mem_cons.1 hc with rfl | hc
        · decide
        · simpa using hends c hc
    have hhash : ∀ c ∈ authority ++ '/' :: (toString d).toList, decide (c ≠ '#') = true := by
      intro c hc
      refine decide_eq_true fun heq => ?_
      exact absurd (hnot c hc) (by rw [heq]; decide)
    have hquestion : '?' ∉ s.text ++ "://".toList ++ (authority ++ '/' :: (toString d).toList) := by
      rw [List.mem_append, not_or]
      constructor
      · cases s with
        | redis => decide
        | rediss => decide
        | unix => decide
      · exact fun hmem => absurd (hnot '?' hmem) (by decide)
    rw [List.takeWhile_eq_self_iff.2 hhash, if_neg hquestion] at hsep
    rw [List.takeWhile_eq_self_iff.2 hhash, List.dropWhile_eq_nil_iff.2 hhash, List.append_nil, List.append_assoc,
      List.cons_append, hsep]
    refine hread ('?' :: resp3Text) ?_
    intro c hc
    obtain rfl := Option.some.inj hc
    decide

/-! ## The clients of a configuration -/

/-- the authority of the URL of a configuration -/
def authorityOf (cfg : FacadeConfig) : Str := cfg.userinfo ++ cfg.host ++ ':' :: (toString cfg.port.toNat).toList

theorem toUrl_eq (cfg : FacadeConfig) :
    cfg.toUrl = cfg.scheme.text ++ "://".toList ++ (authorityOf cfg ++ '/' :: (toString cfg.db.toInt).toList) := by
  have hscheme : cfg.scheme.text = if cfg.ssl then "rediss".toList else "redis".toList := by
    unfold FacadeConfig.scheme
    cases cfg.ssl with
    | true => rfl
    | false => rfl
  rewrite [FacadeConfig.toUrl, hscheme, authorityOf]
  rfl

/-- no `/`, `?` and `#` in the credentials and the host -/
def plainAuthority (cfg : FacadeConfig) : Bool := (cfg.userinfo ++ cfg.host).all fun x => !endsAuthority x

theorem plainAuthority_iff {cfg : FacadeConfig} :
    plainAuthority cfg = true ↔ ∀ x ∈ cfg.userinfo ++ cfg.host, endsAuthority x = false := by
  rw [plainAuthority, List.all_eq_true]
  refine forall₂_congr fun x _ => ?_
  rw [Bool.not_eq_true']

theorem authorityOf_plain {cfg : FacadeConfig} (h : ∀ x ∈ cfg.userinfo ++ cfg.host, endsAuthority x = false) :
    ∀ x ∈ authorityOf cfg, endsAuthority x = false := by
  intro x hx
  rcases List.mem_append.1 hx with hx | hx
  · exact h x hx
  · rcases List.mem_cons.1 hx with rfl | hx
    · decide
    · have hdigit := isNumeric_of_isDigit (isDigit_toString x hx)
      simp [endsAuthority, isNumeric_ne hdigit (d := '/') (by decide), isNumeric_ne hdigit (d := '?') (by decide),
        isNumeric_ne hdigit (d := '#') (by decide)]

theorem afterScheme_scheme (s : Scheme) (rest : Str) : afterScheme (s.text ++ "://".toList ++ rest) = rest := by
  rw [afterScheme, splitOnceAt_scheme]
  rfl

theorem urlDbIndex_scheme (s : Scheme) (rest : Str) : urlDbIndex (s.text ++ "://".toList ++ rest) = named rest :=
  urlDbIndex_of_split (splitOnceAt_scheme s rest)

/-- the stored URL is the one that the connection was made from -/
theorem buildConnection_ok {net : Net} {cfg : FacadeConfig} {tlsOpts : Option TlsOpts} {c : Redis}
    (h : buildConnection net cfg tlsOpts = .ok c) :
    c.url = String.ofList (withResp3 cfg.toUrl) ∧ net.client c.url tlsOpts = .ok () ∧
      c.connection.regular = .standard ⟨c.url, tlsOpts, connManagerConfig none⟩ := by
  obtain ⟨v, hconnect, h⟩ := bind_ok_iff.1 h
  obtain rfl := Except.ok.inj h
  have hstored := urlWithResp3_ofList cfg.toUrl
  have htwice : urlWithResp3 (urlWithResp3 (String.ofList cfg.toUrl)) = urlWithResp3 (String.ofList cfg.toUrl) := by
    rw [hstored, urlWithResp3_ofList, urlWithResp3_idem]
  have hconnection := connectStandard_ok hconnect
  rw [htwice] at hconnection
  obtain ⟨_, hclient, -⟩ := bind_ok_iff.1 hconnect
  rw [htwice] at hclient
  refine ⟨hstored, textError_ok hclient, ?_⟩
  rw [hconnection]

variable {net : Net} {world : (ℕ → SentinelAnswer) → Prop} {d : Deployment Node}

theorem confirms_iff_index {c : Redis} : Confirms d c ↔ (urlDbIndex c.url.toList : ℤ) = c.usedDb d := by
  constructor
  · intro h
    exact confirms_iff.1 ⟨h.confirms, h.raises⟩
  · intro h
    obtain ⟨hconfirms, hraises⟩ := confirms_iff.2 h
    exact ⟨hconfirms, hraises⟩

/-- **The clients of a configuration.** -/
theorem confirms_standard (hdoc : Documented net world d) {cfg : FacadeConfig} {tlsOpts : Option TlsOpts} {c : Redis}
    (h : buildConnection net cfg tlsOpts = .ok c) : Confirms d c ↔
      if plainAuthority cfg then 0 ≤ cfg.db.toInt ∧ cfg.db.toInt ≤ 255
      else Spelled (afterScheme (withResp3 cfg.toUrl)) := by
  obtain ⟨hurl, hclient, hregular⟩ := buildConnection_ok h
  have hused : c.usedDb d = (d.names c.url).2 := by
    rw [Redis.usedDb, hregular]
    rfl
  obtain ⟨rest, hresp3, -⟩ := withResp3_scheme cfg.scheme (authorityOf cfg ++ '/' :: (toString cfg.db.toInt).toList)
  rw [← toUrl_eq] at hresp3
  rw [hresp3] at hurl
  have hdb : pathDb rest = some (c.usedDb d) := by
    rw [hused, hurl]
    exact hdoc.client cfg.scheme rest tlsOpts FacadeConfig.scheme_ne_unix (hurl ▸ hclient)
  rw [confirms_iff_index, hurl, String.toList_ofList, urlDbIndex_scheme]
  split_ifs with hplain
  · obtain ⟨rest', hresp3', hdb', htext⟩ :=
      resp3_db cfg.scheme (authorityOf_plain (plainAuthority_iff.1 hplain)) ⟨cfg.db.le_toInt, cfg.db.toInt_lt⟩
    rw [← toUrl_eq, hresp3] at hresp3'
    obtain rfl := List.append_cancel_left hresp3'
    rw [hdb] at hdb'
    rw [Option.some.inj hdb', named, htext]
    exact parseU8_toString cfg.db.toInt
  · rw [hresp3, afterScheme_scheme]
    exact named_eq_iff hdb

/-! ## The clients of a sentinel -/

/-- a connection that sentinels have led to: some answer of theirs gave its address, and a client was made for it -/
structure LedTo (world : (ℕ → SentinelAnswer) → Prop) (db : ℤ) (s : SentinelConn) : Prop where
  same_db : s.db = db
  target : ∃ answers, world answers ∧ ∃ i isSlave addr, addr ∈ (answers i).addrs isSlave ∧
    s.inner.url = targetUrl s.tlsOpts db addr ∧ (answers i).targetClient s.inner.url = .ok ()

theorem ledTo_created {p : SentinelParams} {answers : ℕ → SentinelAnswer} (hanswers : world answers) {s : SentinelConn}
    (h : createSentinelInner p answers = .ok s) : LedTo world p.db s := by
  have hspec := createSentinelInner_spec p answers
  cases hchoice : p.choice answers with
  | none =>
    rw [hchoice] at hspec
    obtain ⟨e, he⟩ := hspec
    rw [h] at he
    cases he
  | some b =>
    obtain ⟨a, addr⟩ := b
    simp only [hchoice] at hspec
    rw [h] at hspec
    obtain ⟨mgr, hconnect, rfl⟩ := map_ok_iff.1 hspec.symm
    obtain rfl := connect_ok hconnect
    obtain ⟨x, hx, hreported⟩ := Lib.Fallback.mem_of_pick hchoice
    obtain ⟨⟨url, i⟩, -, rfl⟩ := List.mem_map.1 hx
    have haddr : a = answers i ∧ addr ∈ (answers i).addrs p.isSlave := by
      unfold reported at hreported
      split at hreported
      · obtain ⟨addr', hmem, heq⟩ := List.mem_map.1 hreported
        obtain ⟨ha, haddr⟩ := Prod.mk.inj heq
        exact ⟨ha.symm, haddr ▸ hmem⟩
      · cases hreported
    obtain ⟨rfl, hmem⟩ := haddr
    obtain ⟨_, hclient, -⟩ := bind_ok_iff.1 hconnect
    have hurl : (p.sentinelConn (p.manager addr)).inner.url = targetUrl p.tlsOpts p.db addr := by
      rw [SentinelParams.sentinelConn, SentinelParams.manager]
    refine ⟨rfl, answers, hanswers, i, p.isSlave, addr, hmem, hurl, ?_⟩
    rw [hurl]
    exact hclient

theorem ledTo_buildRedisConn {inner : SentinelInner} {kwargs : ConnectionKwargs} {service : String} {isSlave : Bool}
    {answers : ℕ → SentinelAnswer} (hanswers : world answers) {s : SentinelConn}
    (h : inner.buildRedisConn kwargs service isSlave answers = .ok s) : LedTo world kwargs.db s := by
  have hconn := mapError_ok_iff.1 h
  split_ifs at hconn with hnil
  exact ledTo_created hanswers (mapError_ok_iff.1 hconn)

/-- a rediscovery leads to another address, and to the same db -/
theorem ledTo_rediscover {db : ℤ} {s : SentinelConn} (h : LedTo world db s) {answers : ℕ → SentinelAnswer}
    (hanswers : world answers) : LedTo world db (s.rediscover answers).2 := by
  rcases rediscover_cases s answers with ⟨e, hfailed, -⟩ | ⟨c, hrediscover, hcreated⟩
  · rw [hfailed]
    exact h
  · rw [hrediscover]
    have hled := ledTo_created hanswers hcreated
    have hdb : s.params.db = db := h.same_db
    rwa [hdb] at hled

/-- what holds of every client that was built -/
def Kept (net : Net) (world : (ℕ → SentinelAnswer) → Prop) (c : Redis) : Origin → Prop
  | .standard cfg => ∃ tlsOpts, buildConnection net cfg tlsOpts = .ok c
  | .sentinel host port db => c.url = String.ofList (sentinelUrl host port) ∧
      ∃ s, c.connection.regular = .sentinel s ∧ LedTo world db.toInt s

theorem kept_of_built {o : Origin} {c : Redis} (h : Built net world o c) : Kept net world c o := by
  have hfirst : ∀ {host : Str} {port : UInt16} {sentinels : List (Str × UInt16)} {inner : SentinelInner},
      newSentinel ((host, port) :: sentinels) = .ok inner →
        inner.urls.head? = some (String.ofList (sentinelUrl host port)) := by
    intro host port sentinels inner hinner
    obtain rfl := Except.ok.inj hinner
    rfl
  induction h with
  | constructor cfg db tlsOpts h => exact ⟨tlsOpts, h⟩
  | fromUrl url kwargs tlsOpts hurl h => exact ⟨tlsOpts, h⟩
  | @masterFor inner s answers host port sentinels db kwargs service hinner hdb hanswers h =>
    refine ⟨?_, s, rfl, hdb ▸ ledTo_buildRedisConn hanswers h⟩
    rw [sentinelRedis, hfirst hinner]
    rfl
  | @slaveFor inner cursor s answers host port sentinels db kwargs service hinner hcursor hdb hanswers h =>
    refine ⟨?_, s, rfl, hdb ▸ ledTo_buildRedisConn hanswers h⟩
    rw [sentinelRedis, hfirst hinner]
    rfl
  | @rediscovered o s cfg url answers h hanswers ih =>
    cases o with
    | standard cfg' =>
      obtain ⟨tlsOpts, hbuilt⟩ := ih
      have hregular := (buildConnection_ok hbuilt).2.2
      cases hregular
    | sentinel host port db =>
      obtain ⟨hurl, s', hs', hled⟩ := ih
      cases hs'
      exact ⟨hurl, _, rfl, ledTo_rediscover hled hanswers⟩

theorem target_text (tlsOpts : Option TlsOpts) (db : ℤ) (addr : Addr) : ∃ s : Scheme, s ≠ .unix ∧
    targetUrl tlsOpts db addr = String.ofList (withResp3 (s.text ++ "://".toList ++
      (addr.1.toList ++ ':' :: addr.2.toList ++ '/' :: (toString db).toList))) := by
  have htext : ∀ s : Scheme, String.ofList s.text ++ "://" ++ addr.1 ++ ":" ++ addr.2 ++ "/" ++ toString db =
      String.ofList (s.text ++ "://".toList ++ (addr.1.toList ++ ':' :: addr.2.toList ++ '/' :: (toString db).toList)) := by
    intro s
    rw [← String.toList_inj]
    simp [String.toList_append]
  cases htls : tlsOpts.isSome with
  | true =>
    refine ⟨.rediss, by decide, ?_⟩
    rw [← urlWithResp3_ofList, ← htext, targetUrl, htls]
    rfl
  | false =>
    refine ⟨.redis, by decide, ?_⟩
    rw [← urlWithResp3_ofList, ← htext, targetUrl, htls]
    rfl

/-- the db of the client is the one that was asked for -/
theorem usedDb_of_ledTo (hdoc : Documented net world d) {db : Int64} {s : SentinelConn} (h : LedTo world db.toInt s) :
    (d.names s.inner.url).2 = db.toInt := by
  obtain ⟨answers, hanswers, i, isSlave, addr, hmem, hurl, hclient⟩ := h.target
  obtain ⟨scheme, hscheme, htext⟩ := target_text s.tlsOpts db.toInt addr
  have haddr := hdoc.addresses answers hanswers i isSlave addr hmem
  have hauthority : ∀ c ∈ addr.1.toList ++ ':' :: addr.2.toList, endsAuthority c = false := by
    intro c hc
    rcases List.mem_append.1 hc with hc | hc
    · exact haddr c (List.mem_append_left _ hc)
    · rcases List.mem_cons.1 hc with rfl | hc
      · decide
      · exact haddr c (List.mem_append_right _ hc)
  obtain ⟨rest, hresp3, hdb, -⟩ := resp3_db scheme hauthority ⟨db.le_toInt, db.toInt_lt⟩
  rw [htext, hresp3] at hurl
  have hnamed := hdoc.target answers hanswers i scheme rest hscheme (hurl ▸ hclient)
  rw [hdb] at hnamed
  rw [hurl]
  exact (Option.some.inj hnamed).symm

/-- **The clients of a sentinel.** -/
theorem confirms_sentinel (hdoc : Documented net world d) {host : Str} {port : UInt16} {db : Int64} {c : Redis}
    (h : Kept net world c (.sentinel host port db)) : Confirms d c ↔
      if '/' ∈ host then db.toInt = (parseU8 (dbText (host ++ ':' :: (toString port.toNat).toList))).getD 0
      else db.toInt = 0 := by
  obtain ⟨hurl, s, hregular, hled⟩ := h
  have hused : c.usedDb d = db.toInt := by
    rw [Redis.usedDb, hregular]
    exact usedDb_of_ledTo hdoc hled
  have hstored : c.url.toList = Scheme.redis.text ++ "://".toList ++ (host ++ ':' :: (toString port.toNat).toList) := by
    rw [hurl, String.toList_ofList]
    rfl
  rw [confirms_iff_index, hused, hstored, urlDbIndex_scheme]
  split_ifs with hslash
  · exact eq_comm
  · have hnone : '/' ∉ host ++ ':' :: (toString port.toNat).toList := by
      intro hmem
      rcases List.mem_append.1 hmem with hmem | hmem
      · exact hslash hmem
      · exact FacadeConfig.not_mem_port (by decide) ((List.mem_cons.1 hmem).resolve_left (by decide))
    have hzero : named (host ++ ':' :: (toString port.toNat).toList) = 0 := by
      rw [named, dbText, splitOnce_eq_none_iff.2 hnone]
      rfl
    rw [hzero]
    exact eq_comm

/-! ## All clients -/

/-- when a client confirms the db in use. Of a configuration whose credentials and host have no `/`, `?` and `#`: a db
that is a `u8`; of another one: a URL that is spelled so. Of a sentinel: db 0, unless the host of the first sentinel has a
`/`, and then the number that stands there, if one does -/
def Origin.Confirmed : Origin → Prop
  | .standard cfg =>
    if plainAuthority cfg then 0 ≤ cfg.db.toInt ∧ cfg.db.toInt ≤ 255
    else Spelled (afterScheme (withResp3 cfg.toUrl))
  | .sentinel host port db =>
    if '/' ∈ host then db.toInt = (parseU8 (dbText (host ++ ':' :: (toString port.toNat).toList))).getD 0
    else db.toInt = 0

/-- **`select`.** Every client confirms exactly the db that its connection uses, and raises otherwise, if and only if that
db can be read from the URL that it stores. -/
theorem select_confirms_iff (hdoc : Documented net world d) {o : Origin} {c : Redis} (h : Built net world o c) :
    Confirms d c ↔ o.Confirmed := by
  have hkept := kept_of_built h
  cases o with
  | standard cfg =>
    obtain ⟨tlsOpts, hbuilt⟩ := hkept
    rw [Origin.Confirmed]
    exact confirms_standard hdoc hbuilt
  | sentinel host port db => exact confirms_sentinel hdoc hkept

/-! ## A deployment -/

/-- every URL that names a db is accepted -/
def opens (url : String) : RedisResult Unit :=
  if pathDb (afterScheme url.toList) = none then .error (ioError "Invalid database number") else .ok ()

/-- one server -/
def oneServer : Deployment Unit := ⟨fun url => ((), (pathDb (afterScheme url.toList)).getD 0), fun _ => ()⟩

/-- a sentinel that reports it -/
def oneMaster : SentinelAnswer := ⟨.ok (), .ok (), .ok ["10.0.0.1", "6379"], .ok [], opens, fun _ => .ok ()⟩

def oneNet : Net where
  client := fun url _ => opens url
  manager := fun _ => .ok ()
  multiplexed := fun _ => .ok ()
  clusterClient := fun _ _ => .ok ()
  clusterConn := fun _ _ => .ok ()
  answers := fun _ => oneMaster

theorem opens_ok_iff {s : Scheme} {rest : Str} :
    opens (String.ofList (s.text ++ "://".toList ++ rest)) = .ok () ↔ pathDb rest ≠ none := by
  rw [opens, String.toList_ofList, afterScheme_scheme]
  split_ifs with hnone
  · simp [hnone]
  · simp [hnone]

theorem oneServer_names (url : String) : (oneServer.names url).2 = (pathDb (afterScheme url.toList)).getD 0 := by
  rw [oneServer]

/-- an accepted URL names its db -/
theorem names_of_opens {s : Scheme} {rest : Str} (h : opens (String.ofList (s.text ++ "://".toList ++ rest)) = .ok ()) :
    pathDb rest = some (oneServer.names (String.ofList (s.text ++ "://".toList ++ rest))).2 := by
  obtain ⟨db, hdb⟩ := Option.ne_none_iff_exists'.1 (opens_ok_iff.1 h)
  rw [oneServer_names, String.toList_ofList, afterScheme_scheme, hdb, Option.getD_some]

theorem oneMaster_addresses {isSlave : Bool} {addr : Addr} (h : addr ∈ oneMaster.addrs isSlave) :
    ∀ c ∈ addr.1.toList ++ addr.2.toList, endsAuthority c = false := by
  intro c hc
  cases isSlave with
  | true => cases h
  | false =>
    obtain rfl := List.mem_singleton.1 h
    have hall : ("10.0.0.1".toList ++ "6379".toList).all (fun c => !endsAuthority c) = true := by decide
    have hnot := List.all_eq_true.1 hall c hc
    rwa [Bool.not_eq_true'] at hnot

theorem oneServer_documented : Documented oneNet (fun answers => answers = fun _ => oneMaster) oneServer := by
  constructor
  · intro s rest tlsOpts _ h
    simp only [oneNet] at h
    exact names_of_opens h
  · intro answers hanswers i s rest _ h
    simp only [hanswers, oneMaster] at h
    exact names_of_opens h
  · intro answers hanswers i isSlave addr haddr
    rw [hanswers] at haddr
    exact oneMaster_addresses haddr

/-- the URL of a plain authority is accepted -/
theorem opens_resp3 (s : Scheme) {authority : Str} (hauthority : ∀ c ∈ authority, endsAuthority c = false) {d : ℤ}
    (hd : InI64 d) :
    opens (String.ofList (withResp3 (s.text ++ "://".toList ++ (authority ++ '/' :: (toString d).toList)))) = .ok () := by
  obtain ⟨rest, hresp3, hdb, -⟩ := resp3_db s hauthority hd
  rw [hresp3, opens_ok_iff, hdb]
  exact Option.some_ne_none d

theorem buildConnection_oneNet {cfg : FacadeConfig} (h : plainAuthority cfg = true) :
    ∃ c, buildConnection oneNet cfg none = .ok c := by
  have hopens : opens (urlWithResp3 (urlWithResp3 (String.ofList cfg.toUrl))) = .ok () := by
    rw [urlWithResp3_ofList, urlWithResp3_ofList, urlWithResp3_idem, toUrl_eq]
    exact opens_resp3 cfg.scheme (authorityOf_plain (plainAuthority_iff.1 h)) ⟨cfg.db.le_toInt, cfg.db.toInt_lt⟩
  simp only [buildConnection, connectStandard, oneNet, hopens, textError, Except.mapError, bind, Except.bind]
  exact ⟨_, rfl⟩

/-- `Redis()` -/
def plainConfig : FacadeConfig := ⟨"localhost".toList, 6379, 0, none, none, false⟩

/-- `Redis(db=3)` -/
theorem select_confirms_iff_constructor : ∃ c, Built oneNet (fun answers => answers = fun _ => oneMaster)
    (.standard { plainConfig with db := constructorDb (some (.int 3)) }) c ∧ Confirms oneServer c := by
  have hplain : plainAuthority { plainConfig with db := constructorDb (some (.int 3)) } = true := by decide
  obtain ⟨c, hc⟩ := buildConnection_oneNet hplain
  have hbuilt := @Built.constructor oneNet (fun answers => answers = fun _ => oneMaster) c plainConfig (some (.int 3)) none hc
  have hbyte : 0 ≤ (constructorDb (some (.int 3))).toInt ∧ (constructorDb (some (.int 3))).toInt ≤ 255 := by decide
  have hiff := select_confirms_iff oneServer_documented hbuilt
  rw [Origin.Confirmed, if_pos hplain] at hiff
  exact ⟨c, hbuilt, hiff.2 hbyte⟩

/-- a client for db 3 -/
def dbKwargs : ConnectionKwargs := ⟨(kwargsDb (some (.int 3))).toInt, none, none⟩

/-- the `Sentinel` with one sentinel -/
def oneSentinel : SentinelInner := ⟨[String.ofList (sentinelUrl "s".toList 26379)], fun _ => 0⟩

theorem masterFor_oneSentinel : ∃ s, oneSentinel.masterFor dbKwargs "mymaster" (fun _ => oneMaster) = .ok s := by
  have hspec := createSentinelInner_spec (oneSentinel.params dbKwargs "mymaster" false) fun _ => oneMaster
  have hchoice : (oneSentinel.params dbKwargs "mymaster" false).choice (fun _ => oneMaster) =
      some (oneMaster, ("10.0.0.1", "6379")) := rfl
  rw [hchoice] at hspec
  obtain ⟨scheme, -, htext⟩ := target_text none dbKwargs.db ("10.0.0.1", "6379")
  have hall : ("10.0.0.1".toList ++ ':' :: "6379".toList).all (fun x => !endsAuthority x) = true := by decide
  have hplain : ∀ x ∈ "10.0.0.1".toList ++ ':' :: "6379".toList, endsAuthority x = false := by
    intro x hx
    simpa using List.all_eq_true.1 hall x hx
  have hopens : opens (targetUrl none dbKwargs.db ("10.0.0.1", "6379")) = .ok () := by
    rw [htext]
    exact opens_resp3 scheme hplain (by decide)
  have hconnect : oneMaster.connect ((oneSentinel.params dbKwargs "mymaster" false).manager ("10.0.0.1", "6379")) =
      .ok ((oneSentinel.params dbKwargs "mymaster" false).manager ("10.0.0.1", "6379")) := by
    refine bind_ok_iff.2 ⟨(), hopens, ?_⟩
    rfl
  simp only [hconnect] at hspec
  unfold SentinelInner.masterFor SentinelInner.buildRedisConn
  rw [hspec]
  exact ⟨_, rfl⟩

/-- `Sentinel([('s', 26379)]).master_for('mymaster', db=3)` confirms db 0 -/
theorem select_sentinel_db : ¬ ∀ (o : Origin) (c : Redis),
    Built oneNet (fun answers => answers = fun _ => oneMaster) o c → Confirms oneServer c := by
  intro h
  obtain ⟨s, hs⟩ := masterFor_oneSentinel
  have hbuilt : Built oneNet (fun answers => answers = fun _ => oneMaster)
      (.sentinel "s".toList 26379 (kwargsDb (some (.int 3)))) (sentinelRedis oneSentinel dbKwargs "mymaster" false s) :=
    .masterFor "s".toList 26379 [] (some (.int 3)) dbKwargs "mymaster" rfl rfl rfl hs
  have hzero := (confirms_sentinel oneServer_documented (kept_of_built hbuilt)).1 (h _ _ hbuilt)
  rw [if_neg (by decide)] at hzero
  exact absurd hzero (by decide)

end RedisRsPy.Commands.Select
