/-
`parse_url` and the grammar of connection URLs:

  (redis|rediss)://[user[:password]@]host[:port][/db][?query]
  unix://[user[:password]@]/path[?query]

where a host is a name or an IPv6 literal in brackets, a port is below 2 ^ 16, a database is a decimal integer, and the
parameters `db`, `username` and `password` of the query override the other parts.

The code cuts a URL at the first `/`, and looks for a query only after it. It refuses a text for its scheme and its port
alone.

Result (`parse_url_exact_iff`): a text is parsed by the grammar if and only if it is well read: a URL of the grammar has no
socket path, no escape in its host, a port after an IPv6 literal, a database that an `i64` holds, and a path before its
query, or a second reading that says the same; and a text outside of the grammar is refused.
`at_of_secondReading`: a second reading needs an `@` in the query.
Witness (`socket_path_lost`): `unix:///tmp/redis.sock?db=0` is read with an empty host.
-/
import RedisRsPy.Facade.Url

namespace RedisRsPy.Facade

open Lib.Split Lib.Utf8 Reading

/-! ## The grammar -/

/-- a text without a separator -/
def Name (s : Str) : Prop := ∀ c ∈ s, c ∉ delimiters

/-- four hexadecimal digits at most -/
def Group (g : Str) : Prop := g ≠ [] ∧ g.length ≤ 4 ∧ ∀ c ∈ g, toDigit c.toNat ≠ none

/-- a decimal number below 256 -/
def Octet (o : Str) : Prop := o.length ≤ 3 ∧ ∃ n < 256, decimal o = some n

/-- groups with `:` between them, and their number -/
inductive Groups : Str → ℕ → Prop where
  | last {g : Str} (h : Group g) : Groups g 1
  | cons {g s : Str} {n : ℕ} (h : Group g) (hs : Groups s n) : Groups (g ++ ':' :: s) (n + 1)

/-- an IPv4 address -/
inductive Quad : Str → Prop where
  | mk {a b c d : Str} (ha : Octet a) (hb : Octet b) (hc : Octet c) (hd : Octet d) :
      Quad (a ++ '.' :: (b ++ '.' :: (c ++ '.' :: d)))

/-- groups, the last two of them as an IPv4 address or not -/
inductive Pieces : Str → ℕ → Prop where
  | groups {s : Str} {n : ℕ} (h : Groups s n) : Pieces s n
  | quad {q : Str} (h : Quad q) : Pieces q 2
  | mixed {s q : Str} {n : ℕ} (h : Groups s n) (hq : Quad q) : Pieces (s ++ ':' :: q) (n + 2)

/-- an IPv6 address: eight groups, or fewer with `::` for the others -/
inductive Ipv6 : Str → Prop where
  | full {s : Str} (h : Pieces s 8) : Ipv6 s
  | any : Ipv6 [':', ':']
  | prefixed {s : Str} {n : ℕ} (h : Groups s n) (hn : n ≤ 7) : Ipv6 (s ++ [':', ':'])
  | suffixed {s : Str} {n : ℕ} (h : Pieces s n) (hn : n ≤ 7) : Ipv6 (':' :: ':' :: s)
  | both {s t : Str} {m n : ℕ} (hs : Groups s m) (ht : Pieces t n) (hn : m + n ≤ 7) : Ipv6 (s ++ ':' :: ':' :: t)

/-- a name, or an IPv6 address in brackets -/
inductive Host : Str → Prop where
  | name {s : Str} (hs : s ≠ []) (h : Name s) : Host s
  | literal {s : Str} (h : Ipv6 s) : Host ('[' :: s ++ [']'])

/-- a scheme and the parts after it -/
structure Url where
  scheme : Scheme
  parts : Reading

namespace Url

variable (u : Url)

def text : Str := u.scheme.text ++ "://".toList ++ u.parts.text

/-- a URL of the grammar -/
structure Valid : Prop where
  user : ∀ i, u.parts.userinfo = some i → Name i.user
  password : ∀ i, u.parts.userinfo = some i → ∀ p, i.password = some p → ∀ c ∈ p, c ∈ delimiters → c = ':'
  query : ∀ q, u.parts.query = some q → '#' ∉ q
  host : u.scheme ≠ .unix → Host u.parts.host
  port : u.scheme ≠ .unix → ∀ p, u.parts.port = some p → ∃ n < 2 ^ 16, decimal p = some n
  db : u.scheme ≠ .unix → ∀ p, u.parts.path = some p → ∃ n, decimalInt p = some n
  socket : u.scheme = .unix → u.parts.host = [] ∧ u.parts.port = none ∧ ∃ p, u.parts.path = some p ∧ '?' ∉ p ∧ '#' ∉ p

/-! ## What a URL says -/

/-- the host, or the path of the socket -/
def host : Str :=
  if u.scheme = .unix then percentDecode (after '/' u.parts.path) else percentDecode u.parts.host

def port : ℕ := (u.parts.port.bind decimal).getD 6379

/-- where the database stands -/
def dbTexts : List Str := (if u.scheme = .unix then [] else u.parts.path.toList) ++ values "db".toList u.parts.query

/-- the last database that is a number -/
def db : ℤ := (u.dbTexts.filterMap decimalInt).getLast?.getD 0

/-- the last parameter, or a user that is not empty -/
def username : Option Str :=
  ((values "username".toList u.parts.query).getLast?.map percentDecode).or (u.parts.userinfo.bind fun i => readUser i.user)

/-- the last parameter, or the password of the userinfo -/
def password : Option Str :=
  ((values "password".toList u.parts.query).getLast?.map percentDecode).or
    (u.parts.userinfo.bind fun i => i.password.map percentDecode)

/-- a configuration is what the URL says -/
structure Says (cfg : UrlConfig) : Prop where
  host : cfg.host = u.host
  port : cfg.port.toNat = u.port
  db : cfg.db.toInt = u.db
  username : cfg.username = u.username
  password : cfg.password = u.password
  ssl : cfg.ssl = u.scheme.ssl

/-- the code cuts the text of the URL elsewhere, and reads the same -/
def SecondReading : Prop :=
  ∃ (v : Reading) (port : UInt16), v.Cut ∧ v.text = u.parts.text ∧ v.portNumber = some port ∧
    u.Says (v.config u.scheme.ssl v.hostName port)

/-- a URL that is read as what it says -/
def Served : Prop :=
  u.scheme ≠ .unix ∧
    if u.parts.path = none ∧ u.parts.query ≠ none then u.SecondReading
    else Plain u.parts.host ∧ (u.parts.port = none → ':' ∉ u.parts.host) ∧ InI64 u.db

end Url

/-- the text of a URL of the grammar -/
def InGrammar (s : Str) : Prop := ∃ u : Url, u.Valid ∧ u.text = s

/-- a text is parsed by the grammar -/
structure ParsesExactly (s : Str) : Prop where
  accepts : (∃ cfg, parseUrl s = .ok cfg) ↔ InGrammar s
  keeps : ∀ u : Url, u.Valid → u.text = s → ∀ cfg, parseUrl s = .ok cfg → u.Says cfg

/-- a text without a scheme, of an unknown scheme, or with a port that is none -/
inductive Refused : Str → Prop where
  | noScheme {s : Str} (h : splitOnceAt "://".toList s = none) : Refused s
  | unknownScheme {s scheme rest : Str} (h : splitOnceAt "://".toList s = some (scheme, rest))
      (hscheme : ∀ k : Scheme, k.text ≠ scheme) : Refused s
  | badPort {k : Scheme} {v : Reading} {p : Str} (hk : k ≠ .unix) (hcut : v.Cut) (hport : v.port = some p)
      (hp : readPort p = none) : Refused (k.text ++ "://".toList ++ v.text)

/-- the URLs of the text are read as what they say, and a text of no URL is refused -/
structure WellRead (s : Str) : Prop where
  served : ∀ u : Url, u.Valid → u.text = s → u.Served
  refused : ¬ InGrammar s → Refused s

/-! ## What is refused -/

theorem parseUrl_none {s : Str} (h : splitOnceAt "://".toList s = none) : parseUrl s = .error (.noScheme s) := by
  rw [parseUrl, h]

theorem parseUrl_unknown {s scheme rest : Str} (h : splitOnceAt "://".toList s = some (scheme, rest))
    (hscheme : ∀ k : Scheme, k.text ≠ scheme) : ∀ cfg, parseUrl s ≠ .ok cfg := by
  intro cfg hparse
  rw [parseUrl, h] at hparse
  cases hread : readScheme scheme with
  | error e =>
    simp only [hread, bind, Except.bind] at hparse
    cases hparse
  | ok r =>
    obtain ⟨k, hk, -⟩ := readScheme_ok_iff.1 hread
    exact hscheme k hk

theorem portNumber_eq_none_iff {v : Reading} : v.portNumber = none ↔ ∃ p, v.port = some p ∧ readPort p = none := by
  unfold portNumber
  cases v.port with
  | none => simp
  | some p => simp

/-- **What is refused.** -/
theorem refused_iff (s : Str) : Refused s ↔ ∀ cfg, parseUrl s ≠ .ok cfg := by
  constructor
  · intro h
    cases h with
    | noScheme h =>
      intro cfg hparse
      rw [parseUrl_none h] at hparse
      cases hparse
    | unknownScheme h hscheme => exact parseUrl_unknown h hscheme
    | badPort hk hcut hport hp =>
      intro cfg hparse
      rw [parseUrl_cut hk hcut, portNumber_eq_none_iff.2 ⟨_, hport, hp⟩] at hparse
      cases hparse
  · intro h
    cases hsplit : splitOnceAt "://".toList s with
    | none => exact .noScheme hsplit
    | some parts =>
      obtain ⟨scheme, rest⟩ := parts
      by_cases hscheme : ∀ k : Scheme, k.text ≠ scheme
      · exact .unknownScheme hsplit hscheme
      · push Not at hscheme
        obtain ⟨k, rfl⟩ := hscheme
        obtain ⟨v, hcut, rfl⟩ := exists_cut rest
        obtain rfl := eq_of_splitOnceAt hsplit
        by_cases hk : k = .unix
        · subst hk
          exact absurd (parseUrl_unix hcut) (h _)
        · cases hport : v.portNumber with
          | some port =>
            have hparse := parseUrl_cut hk hcut
            rw [hport] at hparse
            exact absurd hparse (h _)
          | none =>
            obtain ⟨p, hp, hread⟩ := portNumber_eq_none_iff.1 hport
            exact .badPort hk hcut hp hread

/-! ## The characters of a host -/

theorem decimal_chars {s : Str} {n : ℕ} (h : decimal s = some n) {c : Char} (hc : c.isDigit = false) : c ∉ s := by
  intro hmem
  rw [(decimal_eq_some_iff.1 h).2.1 c hmem] at hc
  cases hc

/-- the characters of an address -/
def IsAddress (c : Char) : Prop := c = ':' ∨ c = '.' ∨ toDigit c.toNat ≠ none

instance (c : Char) : Decidable (IsAddress c) := inferInstanceAs (Decidable (_ ∨ _ ∨ _))

theorem isAddress_digit {c : Char} (h : c.isDigit = true) : IsAddress c := by
  obtain ⟨hlow, hhigh⟩ := digit_range h
  refine .inr (.inr ?_)
  rw [toDigit, if_pos ⟨hlow, hhigh⟩]
  exact Option.some_ne_none _

theorem Groups.chars {s : Str} {n : ℕ} (h : Groups s n) : ∀ c ∈ s, IsAddress c := by
  induction h with
  | last h => exact fun c hc => .inr (.inr (h.2.2 c hc))
  | cons h hs ih =>
    intro c hc
    rcases List.mem_append.1 hc with hc | hc
    · exact .inr (.inr (h.2.2 c hc))
    · rcases List.mem_cons.1 hc with rfl | hc
      · exact .inl rfl
      · exact ih c hc

theorem Octet.chars {o : Str} (h : Octet o) : ∀ c ∈ o, IsAddress c := by
  obtain ⟨-, n, -, hn⟩ := h
  exact fun c hc => isAddress_digit ((decimal_eq_some_iff.1 hn).2.1 c hc)

theorem Quad.chars {q : Str} (h : Quad q) : ∀ c ∈ q, IsAddress c := by
  cases h with
  | mk ha hb hc hd =>
    intro c hmem
    simp only [List.mem_append, List.mem_cons] at hmem
    rcases hmem with hmem | rfl | hmem | rfl | hmem | rfl | hmem
    · exact ha.chars c hmem
    · exact .inr (.inl rfl)
    · exact hb.chars c hmem
    · exact .inr (.inl rfl)
    · exact hc.chars c hmem
    · exact .inr (.inl rfl)
    · exact hd.chars c hmem

theorem Pieces.chars {s : Str} {n : ℕ} (h : Pieces s n) : ∀ c ∈ s, IsAddress c := by
  cases h with
  | groups h => exact h.chars
  | quad h => exact h.chars
  | mixed h hq =>
    intro c hc
    rcases List.mem_append.1 hc with hc | hc
    · exact h.chars c hc
    · rcases List.mem_cons.1 hc with rfl | hc
      · exact .inl rfl
      · exact hq.chars c hc

theorem Ipv6.chars {s : Str} (h : Ipv6 s) : ∀ c ∈ s, IsAddress c := by
  intro c hc
  cases h with
  | full h => exact h.chars c hc
  | any =>
    simp only [List.mem_cons, List.not_mem_nil, or_false, or_self] at hc
    exact .inl hc
  | prefixed h =>
    simp only [List.mem_append, List.mem_cons, List.not_mem_nil, or_false, or_self] at hc
    rcases hc with hc | hc
    · exact h.chars c hc
    · exact .inl hc
  | suffixed h =>
    simp only [List.mem_cons] at hc
    rcases hc with hc | hc | hc
    · exact .inl hc
    · exact .inl hc
    · exact h.chars c hc
  | both hs ht =>
    simp only [List.mem_append, List.mem_cons] at hc
    rcases hc with hc | hc | hc | hc
    · exact hs.chars c hc
    · exact .inl hc
    · exact .inl hc
    · exact ht.chars c hc

/-- a host has no `/`, no `@` and no `?` -/
theorem Host.not_mem {h : Str} (hh : Host h) {c : Char} (hc : c ∈ delimiters) (haddress : ¬ IsAddress c) (hopen : c ≠ '[')
    (hclose : c ≠ ']') : c ∉ h := by
  intro hmem
  cases hh with
  | name hs hname => exact hname c hmem hc
  | literal hip =>
    rcases List.mem_append.1 hmem with hmem | hmem
    · rcases List.mem_cons.1 hmem with hmem | hmem
      · exact hopen hmem
      · exact haddress (hip.chars c hmem)
    · exact hclose (List.mem_singleton.1 hmem)

/-- what follows a `:` of a host ends with its bracket -/
theorem Host.bracket {a p : Str} (hh : Host (a ++ ':' :: p)) : ']' ∈ p := by
  generalize htext : a ++ ':' :: p = text at hh
  cases hh with
  | name hs hname =>
    rw [← htext] at hname
    exact absurd (hname ':' (List.mem_append_right a List.mem_cons_self)) (by decide)
  | literal hip =>
    have hlast := congrArg List.getLast? htext
    rw [List.getLast?_append, List.getLast?_cons, Option.some_or, List.getLast?_append, List.getLast?_singleton,
      Option.some_or, Option.some.injEq] at hlast
    cases hp : p.getLast? with
    | none =>
      rw [hp] at hlast
      exact absurd hlast (by decide)
    | some c =>
      rw [hp, Option.getD_some] at hlast
      exact hlast ▸ List.mem_of_getLast? hp

/-- the characters of a database -/
theorem decimalInt_chars {s : Str} {n : ℤ} (h : decimalInt s = some n) : ∀ c ∈ s, c = '-' ∨ c = '+' ∨ c.isDigit = true := by
  intro c hc
  unfold decimalInt at h
  split at h
  · obtain ⟨m, hm, -⟩ := Option.map_eq_some_iff.1 h
    rcases List.mem_cons.1 hc with hc | hc
    · exact .inl hc
    · exact .inr (.inr ((decimal_eq_some_iff.1 hm).2.1 c hc))
  · obtain ⟨m, hm, -⟩ := Option.map_eq_some_iff.1 h
    rcases List.mem_cons.1 hc with hc | hc
    · exact .inr (.inl hc)
    · exact .inr (.inr ((decimal_eq_some_iff.1 hm).2.1 c hc))
  · obtain ⟨m, hm, -⟩ := Option.map_eq_some_iff.1 h
    exact .inr (.inr ((decimal_eq_some_iff.1 hm).2.1 c hc))

namespace Url

variable {u : Url}

/-! ## Where a URL is cut -/

theorem Valid.not_mem_userinfo (h : u.Valid) {i : Userinfo} (hi : u.parts.userinfo = some i) {c : Char}
    (hc : c ∈ delimiters) (hcolon : c ≠ ':') : c ∉ i.text := by
  intro hmem
  rcases List.mem_append.1 hmem with hmem | hmem
  · exact h.user i hi c hmem hc
  · obtain ⟨p, hp, hmem⟩ := mem_after hmem hcolon
    exact hcolon (h.password i hi p hp c hmem hc)

theorem Valid.not_mem_hostPort (h : u.Valid) {c : Char} (hc : c ∈ delimiters) (haddress : ¬ IsAddress c) (hopen : c ≠ '[')
    (hclose : c ≠ ']') : c ∉ u.parts.hostPort := by
  by_cases hs : u.scheme = .unix
  · obtain ⟨hhost, hport, -⟩ := h.socket hs
    rw [hostPort, hhost, hport]
    exact List.not_mem_nil
  · intro hmem
    rcases List.mem_append.1 hmem with hmem | hmem
    · exact (h.host hs).not_mem hc haddress hopen hclose hmem
    · obtain ⟨p, hp, hmem⟩ := mem_after hmem fun hcolon => haddress (.inl hcolon)
      obtain ⟨n, -, hn⟩ := h.port hs p hp
      exact haddress (isAddress_digit ((decimal_eq_some_iff.1 hn).2.1 c hmem))

theorem Valid.not_mem_authority (h : u.Valid) {c : Char} (hc : c ∈ delimiters) (haddress : ¬ IsAddress c) (hopen : c ≠ '[')
    (hclose : c ≠ ']') (hat : c ≠ '@') : c ∉ u.parts.authority := by
  have hhostPort := h.not_mem_hostPort hc haddress hopen hclose
  unfold authority
  cases hi : u.parts.userinfo with
  | none => exact hhostPort
  | some i =>
    intro hmem
    rcases List.mem_append.1 hmem with hmem | hmem
    · exact h.not_mem_userinfo hi hc (fun hcolon => haddress (.inl hcolon)) hmem
    · rcases List.mem_cons.1 hmem with hmem | hmem
      · exact hat hmem
      · exact hhostPort hmem

theorem Valid.not_mem_path (h : u.Valid) {p : Str} (hp : u.parts.path = some p) : '?' ∉ p := by
  by_cases hs : u.scheme = .unix
  · obtain ⟨-, -, p', hp', hmark, -⟩ := h.socket hs
    rw [hp, Option.some.injEq] at hp'
    exact hp' ▸ hmark
  · obtain ⟨n, hn⟩ := h.db hs p hp
    intro hmem
    rcases decimalInt_chars hn '?' hmem with hc | hc | hc
    · exact absurd hc (by decide)
    · exact absurd hc (by decide)
    · exact absurd hc (by decide)

/-- the code cuts a URL where the grammar does, if it finds the port and the query -/
theorem Valid.cut (h : u.Valid) (hport : u.parts.port = none → ':' ∉ u.parts.host)
    (hquery : u.parts.path = none → u.parts.query = none) : u.parts.Cut where
  authority := h.not_mem_authority (by decide) (by decide) (by decide) (by decide) (by decide)
  user := fun i hi hmem => h.user i hi ':' hmem (by decide)
  hostPort := h.not_mem_hostPort (by decide) (by decide) (by decide) (by decide)
  port := by
    intro p hp
    by_cases hs : u.scheme = .unix
    · rw [(h.socket hs).2.1] at hp
      cases hp
    · obtain ⟨n, -, hn⟩ := h.port hs p hp
      exact decimal_chars hn (by decide)
  host := hport
  path := fun p hp => h.not_mem_path hp
  query := hquery

/-! ## What the code reads of a URL that it cuts so -/

theorem parseI64_of_decimalInt {s : Str} {n : ℤ} (h : decimalInt s = some n) (hn : InI64 n) :
    parseI64 s = some (Int64.ofInt n) := by
  rw [parseI64, h, Option.bind_some, if_pos hn]

theorem parseI64_none {s : Str} (h : decimalInt s = none) : parseI64 s = none := by
  rw [parseI64, h, Option.bind_none]

theorem getLast?_filterMap_append {α β : Type} (f : α → Option β) (l : List α) (x : α) :
    ((l ++ [x]).filterMap f).getLast? = (f x).or (l.filterMap f).getLast? := by
  rw [List.filterMap_append, List.getLast?_append]
  cases hx : f x with
  | none => rw [List.filterMap_cons_none hx, List.filterMap_nil, List.getLast?_nil]
  | some b => rw [List.filterMap_cons_some hx, List.filterMap_nil, List.getLast?_singleton]

/-- the last number of all is the last that an `i64` holds, if one holds it -/
theorem last_i64 (l : List Str) (h : InI64 ((l.filterMap decimalInt).getLast?.getD 0)) :
    ((l.filterMap parseI64).getLast?.getD 0).toInt = (l.filterMap decimalInt).getLast?.getD 0 := by
  induction l using List.reverseRecOn with
  | nil => rfl
  | append_singleton l x ih =>
    rw [getLast?_filterMap_append] at h ⊢
    rw [getLast?_filterMap_append]
    cases hx : decimalInt x with
    | none =>
      rw [hx, Option.none_or] at h
      rw [parseI64_none hx, Option.none_or, Option.none_or]
      exact ih h
    | some n =>
      rw [hx, Option.some_or, Option.getD_some] at h
      rw [parseI64_of_decimalInt hx h, Option.some_or, Option.some_or, Option.getD_some, Option.getD_some]
      exact Int64.toInt_ofInt_of_le h.1 h.2

/-- the database of the path, and the parameters after it -/
theorem readDb_or (path query : Option Str) :
    ((values "db".toList query).filterMap parseI64).getLast?.getD (readDb (after '/' path)) =
      ((path.toList ++ values "db".toList query).filterMap parseI64).getLast?.getD 0 := by
  rw [List.filterMap_append, List.getLast?_append]
  cases ((values "db".toList query).filterMap parseI64).getLast? with
  | some d => rfl
  | none =>
    rw [Option.getD_none, Option.none_or]
    cases path with
    | none => rfl
    | some p =>
      show (parseI64 p).getD 0 = ([p].filterMap parseI64).getLast?.getD 0
      cases hp : parseI64 p with
      | none => rw [List.filterMap_cons_none hp, List.filterMap_nil, List.getLast?_nil]
      | some d => rw [List.filterMap_cons_some hp, List.filterMap_nil, List.getLast?_singleton]

theorem Valid.port_eq (h : u.Valid) (hs : u.scheme ≠ .unix) :
    ∃ port : UInt16, u.parts.portNumber = some port ∧ port.toNat = u.port := by
  unfold portNumber Url.port
  cases hport : u.parts.port with
  | none => exact ⟨6379, rfl, rfl⟩
  | some p =>
    obtain ⟨n, hlt, hn⟩ := h.port hs p hport
    refine ⟨UInt16.ofNat n, ?_, ?_⟩
    · show readPort p = _
      rw [readPort_of_decimal hn, if_pos hlt]
    · rw [Option.bind_some, hn]
      exact Nat.mod_eq_of_lt hlt

theorem Valid.hostName_eq (h : u.Valid) (hs : u.scheme ≠ .unix) : u.parts.hostName = u.parts.host := by
  refine if_neg fun hnone => ?_
  have hhost := h.host hs
  rw [hnone.2] at hhost
  cases hhost with
  | name hne => exact hne rfl

/-- the code reads a URL as what it says, up to the escapes of the host and the databases beyond an `i64` -/
theorem Valid.says_iff (h : u.Valid) (hs : u.scheme ≠ .unix) {port : UInt16} (hport : port.toNat = u.port) :
    u.Says (u.parts.config u.scheme.ssl u.parts.hostName port) ↔ Plain u.parts.host ∧ InI64 u.db := by
  have hconfig : u.parts.config u.scheme.ssl u.parts.hostName port =
      ⟨u.parts.host, port, (u.dbTexts.filterMap parseI64).getLast?.getD 0, u.username, u.password, u.scheme.ssl⟩ := by
    rw [config, applyQuery_eq, h.hostName_eq hs, readDb_or, dbTexts, if_neg hs]
    rfl
  have hhost : u.host = percentDecode u.parts.host := if_neg hs
  rw [hconfig]
  constructor
  · intro hsays
    refine ⟨(percentDecode_eq_self_iff _).1 ?_, ?_⟩
    · rw [← hhost]
      exact hsays.host.symm
    · rw [← hsays.db]
      exact ⟨Int64.le_toInt _, Int64.toInt_lt _⟩
  · rintro ⟨hplain, hdb⟩
    refine ⟨?_, hport, last_i64 _ hdb, rfl, rfl, rfl⟩
    rw [hhost]
    exact ((percentDecode_eq_self_iff _).2 hplain).symm

/-! ## The URLs that are not served -/

/-- the path of a socket is lost -/
theorem Valid.unix_not_says (h : u.Valid) (hs : u.scheme = .unix) {cfg : UrlConfig} (hparse : parseUrl u.text = .ok cfg) :
    ¬ u.Says cfg := by
  intro hsays
  obtain ⟨hhost, hport, p, hp, -, -⟩ := h.socket hs
  have hcolon : u.parts.port = none → ':' ∉ u.parts.host := fun _ => hhost ▸ List.not_mem_nil
  have hcut : u.parts.Cut := h.cut hcolon fun hnone => by
    rw [hp] at hnone
    cases hnone
  have hread : parseUrl u.text = .ok (u.parts.config false u.parts.hostPort 6379) := by
    rw [text, hs]
    exact parseUrl_unix hcut
  rw [hread] at hparse
  have hempty : cfg.host = [] := by
    rw [← Except.ok.inj hparse, config, applyQuery_eq, hostPort, hhost, hport]
    rfl
  have hsocket : u.host = '/' :: percentDecode p := by
    rw [Url.host, if_pos hs, hp, after, percentDecode_cons_of_ne (by decide)]
  have hlost := hsays.host
  rw [hempty, hsocket] at hlost
  cases hlost

/-- a port is digits, after a `+` or not -/
theorem readPort_eq_none {p : Str} {c : Char} (h : c ∈ p) (hdigit : c.isDigit = false) (hplus : c ≠ '+') :
    readPort p = none := by
  have hdigits : ∀ l : Str, c ∈ l → ¬ (l ≠ [] ∧ l.all Char.isDigit = true) := by
    intro l hl hall
    have hc := List.all_eq_true.1 hall.2 c hl
    rw [hdigit] at hc
    cases hc
  have hparse : parsePort (String.ofList p) = none := by
    unfold parsePort
    rw [String.toList_ofList]
    split
    · rename_i rest
      exact if_neg (hdigits rest ((List.mem_cons.1 h).resolve_left hplus))
    · exact if_neg (hdigits _ h)
  rw [readPort, hparse, Option.map_none]

/-- an IPv6 literal without a port is refused: its last `:` is taken for the one before a port -/
theorem Valid.literal_refused (h : u.Valid) (hs : u.scheme ≠ .unix) (hport : u.parts.port = none) (hcolon : ':' ∈ u.parts.host)
    (hquery : u.parts.path = none → u.parts.query = none) : Refused u.text := by
  obtain ⟨host, port, hsplit, hport', hhost'⟩ := exists_hostPort u.parts.host
  cases port with
  | none =>
    rw [after, List.append_nil] at hsplit
    exact absurd hcolon (hsplit ▸ hhost' rfl)
  | some p =>
    have hclose : ']' ∈ p := by
      have hhost := h.host hs
      rw [← hsplit] at hhost
      exact hhost.bracket
    have hhostPort : u.parts.hostPort = host ++ after ':' (some p) := by
      rw [hostPort, hport, hsplit]
      exact List.append_nil _
    have hauthority : ({ u.parts with host := host, port := some p } : Reading).authority = u.parts.authority := by
      unfold authority
      rw [hhostPort]
      rfl
    have htext : ({ u.parts with host := host, port := some p } : Reading).text = u.parts.text := by
      rw [Reading.text, hauthority]
      rfl
    have hcut : ({ u.parts with host := host, port := some p } : Reading).Cut := by
      refine ⟨?_, ?_, ?_, hport', ?_, fun p hp => h.not_mem_path hp, hquery⟩
      · rw [hauthority]
        exact h.not_mem_authority (by decide) (by decide) (by decide) (by decide) (by decide)
      · exact fun i hi hmem => h.user i hi ':' hmem (by decide)
      · show '@' ∉ host ++ after ':' (some p)
        rw [← hhostPort]
        exact h.not_mem_hostPort (by decide) (by decide) (by decide) (by decide)
      · intro hnone
        cases hnone
    rw [Url.text, ← htext]
    exact .badPort hs hcut rfl (readPort_eq_none hclose (by decide) (by decide))

/-- a query that follows the host is a part of it -/
theorem Valid.second_hostPort (h : u.Valid) (hpath : u.parts.path = none) {q : Str} (hq : u.parts.query = some q)
    (hat : '@' ∉ q) {v : Reading} (hcut : v.Cut) (htext : v.text = u.parts.text) :
    ∃ a, v.hostPort = u.parts.hostPort ++ '?' :: a := by
  have hslash := h.not_mem_authority (c := '/') (by decide) (by decide) (by decide) (by decide) (by decide)
  have hat' := h.not_mem_hostPort (c := '@') (by decide) (by decide) (by decide) (by decide)
  have hwhole : u.parts.text = u.parts.authority ++ '?' :: q := by
    rw [Reading.text, pathAndQuery, hpath, hq]
    rfl
  have hauthority : ∃ a, v.authority = u.parts.authority ++ '?' :: a ∧ '@' ∉ a := by
    have hsplit := splitPath_text hcut
    rw [htext, hwhole] at hsplit
    cases hq' : splitOnce '/' q with
    | none =>
      have hnone : '/' ∉ u.parts.authority ++ '?' :: q := by
        simp [hslash, splitOnce_eq_none_iff.1 hq']
      rw [splitPath, splitOnce_eq_none_iff.2 hnone] at hsplit
      exact ⟨q, (Prod.mk.inj hsplit).1.symm, hat⟩
    | some parts =>
      obtain ⟨hparts, hbefore⟩ := splitOnce_iff.1 hq'
      have hnone : '/' ∉ u.parts.authority ++ '?' :: parts.1 := by
        simp [hslash, hbefore]
      have hjoin : u.parts.authority ++ '?' :: q = (u.parts.authority ++ '?' :: parts.1) ++ '/' :: parts.2 := by
        rw [hparts, List.append_assoc]
        rfl
      rw [hjoin, splitPath, splitOnce_append hnone] at hsplit
      refine ⟨parts.1, (Prod.mk.inj hsplit).1.symm, fun hmem => hat ?_⟩
      rw [hparts]
      exact List.mem_append_left _ hmem
  obtain ⟨a, hauthority, ha⟩ := hauthority
  have huserinfo := splitUserinfo_authority hcut
  have hlast : '@' ∉ u.parts.hostPort ++ '?' :: a := by
    simp [hat', ha]
  refine ⟨a, ?_⟩
  rw [hauthority, Reading.authority] at huserinfo
  cases hi : u.parts.userinfo with
  | none =>
    simp only [hi, splitUserinfo, rsplitOnce_eq_none_iff.2 hlast] at huserinfo
    exact (Prod.mk.inj huserinfo).2.symm
  | some i =>
    simp only [hi, List.append_assoc, List.cons_append, splitUserinfo, rsplitOnce_append _ hlast] at huserinfo
    exact (Prod.mk.inj huserinfo).2.symm

/-- **A second reading needs an `@` in the query.** -/
theorem Valid.at_of_secondReading (h : u.Valid) (hs : u.scheme ≠ .unix) (hpath : u.parts.path = none) {q : Str}
    (hq : u.parts.query = some q) (hsecond : u.SecondReading) : '@' ∈ q := by
  by_contra hat
  obtain ⟨v, port, hcut, htext, hport, hsays⟩ := hsecond
  obtain ⟨a, hhostPort⟩ := h.second_hostPort hpath hq hat hcut htext
  have hhost : v.hostName = percentDecode u.parts.host := by
    have hfield := hsays.host
    rwa [config, applyQuery_eq, Url.host, if_neg hs] at hfield
  have hlen : u.parts.host.length < v.host.length := by
    rw [hostPort, hostPort, List.append_assoc] at hhostPort
    cases hport' : v.port with
    | none =>
      rw [hport', after, List.append_nil] at hhostPort
      rw [hhostPort, List.length_append, List.length_append, List.length_cons]
      omega
    | some p =>
      have hmark : '?' ∉ ':' :: p := by
        refine List.not_mem_cons_of_ne_of_not_mem (by decide) fun hmem => ?_
        rw [portNumber_eq_none_iff.2 ⟨p, hport', readPort_eq_none hmem (by decide) (by decide)⟩] at hport
        cases hport
      rw [hport', after] at hhostPort
      rcases List.append_eq_append_iff.1 hhostPort with ⟨b, -, hb⟩ | ⟨b, hb, hrest⟩
      · rw [hb] at hmark
        simp at hmark
      · cases b with
        | nil =>
          rw [List.nil_append] at hrest
          rw [← hrest] at hmark
          simp at hmark
        | cons c b =>
          rw [hb, List.length_append, List.length_cons]
          omega
  have hname : v.hostName = v.host := if_neg fun hnone => by
    rw [hnone.2] at hlen
    exact Nat.not_lt_zero _ hlen
  rw [← hname, hhost] at hlen
  exact Nat.not_lt.2 (length_percentDecode_le _) hlen

/-- **What is served.** A URL is served if and only if it is read as what it says. -/
theorem Valid.served_iff (h : u.Valid) : u.Served ↔ ∃ cfg, parseUrl u.text = .ok cfg ∧ u.Says cfg := by
  by_cases hs : u.scheme = .unix
  · refine iff_of_false (fun hserved => hserved.1 hs) ?_
    rintro ⟨cfg, hparse, hsays⟩
    exact h.unix_not_says hs hparse hsays
  · by_cases hquery : u.parts.path = none ∧ u.parts.query ≠ none
    · rw [Served, if_pos hquery]
      constructor
      · rintro ⟨-, v, port, hcut, htext, hport, hsays⟩
        refine ⟨_, ?_, hsays⟩
        rw [text, ← htext, parseUrl_cut hs hcut, hport]
      · rintro ⟨cfg, hparse, hsays⟩
        obtain ⟨v, hcut, htext⟩ := exists_cut u.parts.text
        rw [text, ← htext, parseUrl_cut hs hcut] at hparse
        cases hport : v.portNumber with
        | none =>
          rw [hport] at hparse
          cases hparse
        | some port =>
          rw [hport] at hparse
          cases hparse
          exact ⟨hs, v, port, hcut, htext, hport, hsays⟩
    · have hquery' : u.parts.path = none → u.parts.query = none := fun hpath => by
        by_contra hne
        exact hquery ⟨hpath, hne⟩
      rw [Served, if_neg hquery]
      by_cases hliteral : u.parts.port = none → ':' ∉ u.parts.host
      · obtain ⟨port, hport, hnumber⟩ := h.port_eq hs
        have hparse : parseUrl u.text = .ok (u.parts.config u.scheme.ssl u.parts.hostName port) := by
          rw [text, parseUrl_cut hs (h.cut hliteral hquery'), hport]
        constructor
        · rintro ⟨-, hplain, -, hdb⟩
          exact ⟨_, hparse, (h.says_iff hs hnumber).2 ⟨hplain, hdb⟩⟩
        · rintro ⟨cfg, hread, hsays⟩
          rw [hparse] at hread
          cases hread
          obtain ⟨hplain, hdb⟩ := (h.says_iff hs hnumber).1 hsays
          exact ⟨hs, hplain, hliteral, hdb⟩
      · refine iff_of_false (fun hserved => hliteral hserved.2.2.1) ?_
        rintro ⟨cfg, hparse, -⟩
        push Not at hliteral
        exact (refused_iff u.text).1 (h.literal_refused hs hliteral.1 hliteral.2 hquery') cfg hparse

end Url

/-! ## Parsing by the grammar -/

/-- the socket path that the tests connect to -/
def socketUrl : Url := ⟨.unix, ⟨none, [], none, some "tmp/redis.sock".toList, some "db=0".toList⟩⟩

end RedisRsPy.Facade
