/-
The warnings of the constructors: keyword arguments that are taken and ignored (`facade/kwargs.rs`), and client-side
caching on a cluster (`facade/cluster.rs`).

A name is recorded for the whole process, under a lock, before its warning is given. `warnings.warn` runs Python code:
a filter or a hook may make it raise, and any other thread may construct a client before it is done.

Results:
- `constructors_warn_once`: in every run of any number of constructors, each name is warned about at most once, by one
  that was given it; one that returned has a warning for each name it does not take, from itself or from another that
  is at it; at most one fails for each name; none waits for another; `AsyncRedis` takes every name of redis-py as a
  parameter and warns about unknown names only.
-/
import RedisRsPy.Lib.Runs
import Mathlib.Data.List.Nodup
import Mathlib.Data.List.Perm.Subperm

namespace RedisRsPy.Facade.Kwargs

open Lib

/-! ## Names -/

/-- `KNOWN_KWARGS` -/
def knownKwargs : List String :=
  ["host", "port", "db", "password", "socket_timeout", "socket_connect_timeout", "socket_keepalive",
    "socket_keepalive_options", "connection_pool", "unix_socket_path", "encoding", "encoding_errors", "charset",
    "errors", "decode_responses", "retry_on_timeout", "retry_on_error", "ssl", "ssl_keyfile", "ssl_certfile",
    "ssl_cert_reqs", "ssl_ca_certs", "ssl_ca_path", "ssl_ca_data", "ssl_check_hostname", "ssl_password",
    "ssl_validate_ocsp", "ssl_validate_ocsp_stapled", "ssl_ocsp_context", "ssl_ocsp_expected_cert",
    "ssl_min_version", "ssl_ciphers", "max_connections", "single_connection_client", "health_check_interval",
    "client_name", "lib_name", "lib_version", "username", "retry", "redis_connect_func", "credential_provider",
    "protocol", "cache", "cache_config", "event_dispatcher"]

/-- `IMPLEMENTED_KWARGS` -/
def implementedKwargs : List String :=
  ["host", "port", "db", "password", "username", "ssl", "ssl_keyfile", "ssl_certfile", "ssl_ca_certs",
    "socket_timeout", "max_connections", "health_check_interval", "client_name", "protocol", "decode_responses",
    "encoding", "encoding_errors"]

/-- `CLUSTER_KWARGS_ACCEPT` -/
def clusterKwargsAccept : List String :=
  ["host", "port", "startup_nodes", "url", "username", "password", "db", "decode_responses", "encoding",
    "encoding_errors", "ssl", "ssl_ca_certs", "ssl_certfile", "ssl_keyfile", "ssl_cert_reqs", "ssl_check_hostname",
    "socket_timeout", "socket_connect_timeout", "socket_keepalive", "socket_keepalive_options",
    "max_connections_per_node", "client_name", "cluster_error_retry_attempts", "connection_error_retry_attempts",
    "read_from_replicas", "dynamic_startup_nodes", "require_full_coverage", "reinitialize_steps",
    "load_balancing_strategy", "address_remap", "cache_max_size", "cache_ttl_secs", "retry", "cache", "cache_config",
    "event_dispatcher"]

/-- `SENTINEL_KWARGS_ACCEPT` -/
def sentinelKwargsAccept : List String :=
  ["sentinels", "min_other_sentinels", "sentinel_kwargs", "force_master_ip", "db", "username", "password",
    "decode_responses", "encoding", "encoding_errors", "ssl", "ssl_ca_certs", "ssl_certfile", "ssl_keyfile",
    "socket_timeout", "socket_connect_timeout", "socket_keepalive", "client_name", "cache_max_size", "cache_ttl_secs"]

/-! ## Warnings -/

inductive Category where
  | userWarning
  | runtimeWarning
deriving DecidableEq

structure Warning where
  category : Category
  message : String

/-- what is warned about once in a process -/
inductive Shot where
  | cache
  | kwarg (name : String)
deriving DecidableEq

def Shot.warning : Shot → Warning
  | .cache => ⟨.userWarning, "redis-rs-py: client-side caching is not supported on cluster connections " ++
      "(redis-rs cluster_async has no CacheConfig hook). " ++
      "cache_max_size / cache_ttl_secs are ignored."⟩
  | .kwarg name =>
    if name ∈ knownKwargs then
      ⟨.userWarning, "redis_rs_py.Redis: kwarg `" ++ name ++ "` is recognised by redis-py but not yet " ++
        "implemented in this driver — it has been accepted and ignored. " ++
        "See the compatibility matrix for status."⟩
    else
      ⟨.runtimeWarning, "redis_rs_py.Redis: kwarg `" ++ name ++ "` is not recognised by redis-py 5.x or this " ++
        "driver — it has been accepted and ignored. Check for a typo."⟩

/-- `SEEN_UNIMPLEMENTED`, `SEEN_UNKNOWN` and `CACHE_ON_CLUSTER_WARNED` -/
structure Seen where
  unimplemented : List String
  unknown : List String
  cacheOnCluster : Bool

def Seen.contains (seen : Seen) : Shot → Bool
  | .cache => seen.cacheOnCluster
  | .kwarg name => if name ∈ knownKwargs then seen.unimplemented.contains name else seen.unknown.contains name

def Seen.insert (seen : Seen) : Shot → Seen
  | .cache => { seen with cacheOnCluster := true }
  | .kwarg name =>
    if name ∈ knownKwargs then { seen with unimplemented := name :: seen.unimplemented }
    else { seen with unknown := name :: seen.unknown }

@[simp] theorem contains_insert (seen : Seen) (shot shot' : Shot) :
    (seen.insert shot).contains shot' = (decide (shot' = shot) || seen.contains shot') := by
  cases shot with
  | cache => cases shot' <;> simp [Seen.contains, Seen.insert]
  | kwarg name =>
    by_cases hk : name ∈ knownKwargs
    · cases shot' with
      | cache => simp [Seen.contains, Seen.insert, hk]
      | kwarg name' =>
        by_cases hn : name' = name
        · simp [Seen.contains, Seen.insert, hk, hn]
        · by_cases hk' : name' ∈ knownKwargs <;> simp [Seen.contains, Seen.insert, hk, hk', hn]
    · cases shot' with
      | cache => simp [Seen.contains, Seen.insert, hk]
      | kwarg name' =>
        by_cases hn : name' = name
        · simp [Seen.contains, Seen.insert, hk, hn]
        · by_cases hk' : name' ∈ knownKwargs <;> simp [Seen.contains, Seen.insert, hk, hk', hn]

/-! ## Constructors -/

/-- what a constructor goes through: whether it was given cache options, and its keys, none for one that is no UTF-8 -/
inductive Item where
  | cache
  | key (name : Option String)
deriving DecidableEq

structure Constructor where
  /-- `implemented` -/
  accepted : List String
  items : List Item

/-- the keywords that no parameter takes -/
def extra (params : List String) (kwargs : List (Option String)) : List Item :=
  (kwargs.filter fun name => !name.any params.contains).map .key

/-- `Redis(**kwargs)` -/
def redis (kwargs : List (Option String)) : Constructor :=
  ⟨implementedKwargs, extra
    ["host", "port", "db", "password", "socket_timeout", "encoding", "encoding_errors", "decode_responses", "ssl",
      "ssl_keyfile", "ssl_certfile", "ssl_ca_certs", "max_connections", "health_check_interval", "client_name",
      "username", "protocol"] kwargs⟩

/-- the parameters of `AsyncRedis` -/
def asyncRedisParams : List String :=
  ["host", "port", "db", "password", "socket_timeout", "socket_connect_timeout", "socket_keepalive",
    "socket_keepalive_options", "connection_pool", "unix_socket_path", "encoding", "encoding_errors", "charset",
    "errors", "decode_responses", "retry_on_timeout", "retry_on_error", "ssl", "ssl_keyfile", "ssl_certfile",
    "ssl_cert_reqs", "ssl_ca_certs", "ssl_ca_path", "ssl_ca_data", "ssl_check_hostname", "ssl_password",
    "ssl_validate_ocsp", "ssl_validate_ocsp_stapled", "ssl_ocsp_context", "ssl_ocsp_expected_cert",
    "ssl_min_version", "ssl_ciphers", "max_connections", "single_connection_client", "health_check_interval",
    "client_name", "lib_name", "lib_version", "username", "retry", "redis_connect_func", "credential_provider",
    "protocol", "cache", "cache_config", "event_dispatcher"]

/-- `AsyncRedis(**kwargs)` -/
def asyncRedis (kwargs : List (Option String)) : Constructor := ⟨implementedKwargs, extra asyncRedisParams kwargs⟩

/-- `RedisCluster(**kwargs)` and `AsyncRedisCluster(**kwargs)`; `cached` where a cache option is not None -/
def redisCluster (cached : Bool) (kwargs : List (Option String)) : Constructor :=
  ⟨clusterKwargsAccept, (if cached then [.cache] else []) ++ extra
    ["host", "port", "startup_nodes", "url", "cluster_error_retry_attempts", "connection_error_retry_attempts",
      "read_from_replicas", "dynamic_startup_nodes", "decode_responses", "encoding", "encoding_errors", "ssl",
      "ssl_ca_certs", "ssl_certfile", "ssl_keyfile", "username", "password", "socket_timeout",
      "socket_connect_timeout", "max_connections_per_node", "client_name", "cache_max_size", "cache_ttl_secs"] kwargs⟩

/-- `Sentinel(sentinels, **kwargs)` and `AsyncSentinel(sentinels, **kwargs)` -/
def sentinel (kwargs : List (Option String)) : Constructor :=
  ⟨sentinelKwargsAccept, extra ["sentinels", "min_other_sentinels", "sentinel_kwargs", "force_master_ip"] kwargs⟩

/-! ## Runs of constructors -/

inductive Phase where
  | idle
  | loop (items : List Item)
  /-- the name is recorded, `warnings.warn` is not done -/
  | warning (shot : Shot) (items : List Item)
  | returned
  | raised

def once (seen : Seen) (shot : Shot) (rest : List Item) : Phase × Seen :=
  if seen.contains shot then (.loop rest, seen) else (.warning shot rest, seen.insert shot)

/-- the next item of `accept_and_warn`, or `warn_cache_on_cluster` before it -/
def Constructor.visit (new : Constructor) (seen : Seen) : List Item → Phase × Seen
  | [] => (.returned, seen)
  | .cache :: rest => once seen .cache rest
  | .key none :: _ => (.raised, seen)
  | .key (some name) :: rest =>
    if name ∈ new.accepted then (.loop rest, seen) else once seen (.kwarg name) rest

/-- the process: what it has warned about, the constructors, and the warnings in their order -/
structure World (κ : Type) where
  seen : Seen
  phase : κ → Phase
  log : List (κ × Shot)

inductive Event (κ : Type) where
  | begin (c : κ)
  /-- the constructor goes on; `raises` is what `warnings.warn` does -/
  | move (c : κ) (raises : Bool)

variable {κ : Type}

def World.start : World κ := ⟨⟨[], [], false⟩, fun _ => .idle, []⟩

section Steps

variable [DecidableEq κ] (new : κ → Constructor)

def step (w : World κ) : Event κ → World κ
  | .begin c =>
    match w.phase c with
    | .idle => { w with phase := Function.update w.phase c (.loop (new c).items) }
    | _ => w
  | .move c raises =>
    match w.phase c with
    | .loop items =>
      let next := (new c).visit w.seen items
      { w with seen := next.2, phase := Function.update w.phase c next.1 }
    | .warning shot rest =>
      let next := if raises then .raised else .loop rest
      { w with phase := Function.update w.phase c next, log := w.log ++ [(c, shot)] }
    | _ => w

/-! ## What a step does -/

/-- what the item is warned about, where the constructor does not take it -/
def Constructor.wants (new : Constructor) : Item → Option Shot
  | .cache => some .cache
  | .key none => none
  | .key (some name) => if name ∈ new.accepted then none else some (.kwarg name)

/-- the constructor went on after these: they are names, and those it does not take are recorded -/
def Constructor.Passed (new : Constructor) (seen : Seen) (items : List Item) : Prop :=
  ∀ item ∈ items, item ≠ .key none ∧ ∀ shot, new.wants item = some shot → seen.contains shot = true

inductive Visits (new : Constructor) (seen : Seen) : List Item → Phase × Seen → Prop
  | finished : Visits new seen [] (.returned, seen)
  | notText (rest : List Item) : Visits new seen (.key none :: rest) (.raised, seen)
  | passed (item : Item) (rest : List Item) (h : new.Passed seen [item]) :
    Visits new seen (item :: rest) (.loop rest, seen)
  | recorded (item : Item) (rest : List Item) (shot : Shot) (hwants : new.wants item = some shot)
    (hnew : seen.contains shot = false) : Visits new seen (item :: rest) (.warning shot rest, seen.insert shot)

theorem passed_of_wants {new : Constructor} {seen : Seen} {item : Item} {shot : Shot}
    (hwants : new.wants item = some shot) (hseen : seen.contains shot = true) : new.Passed seen [item] := by
  intro it hit
  rw [List.mem_singleton.1 hit]
  refine ⟨fun hnone => ?_, fun s hs => ?_⟩
  · rw [hnone] at hwants
    cases hwants
  · rw [hwants] at hs
    exact Option.some.inj hs ▸ hseen

theorem visits_once {new : Constructor} {item : Item} {shot : Shot} (hwants : new.wants item = some shot) (seen : Seen)
    (rest : List Item) : Visits new seen (item :: rest) (once seen shot rest) := by
  unfold once
  split_ifs with hseen
  · exact .passed item rest (passed_of_wants hwants hseen)
  · exact .recorded item rest shot hwants (by simpa using hseen)

theorem visit_cases (new : Constructor) (seen : Seen) (items : List Item) :
    Visits new seen items (new.visit seen items) := by
  rcases items with _ | ⟨_ | _ | name, rest⟩
  · exact .finished
  · exact visits_once rfl seen rest
  · exact .notText rest
  · simp only [Constructor.visit]
    split_ifs with hacc
    · refine .passed _ rest fun it hit => ?_
      rw [List.mem_singleton.1 hit]
      exact ⟨by simp, fun s hs => by simp [Constructor.wants, hacc] at hs⟩
    · exact visits_once (by simp [Constructor.wants, hacc]) seen rest

inductive Moves (w : World κ) : World κ → Prop
  | begun (c : κ) (h : w.phase c = .idle) :
    Moves w { w with phase := Function.update w.phase c (.loop (new c).items) }
  | visited (c : κ) (items : List Item) (next : Phase × Seen) (h : w.phase c = .loop items)
    (hvisits : Visits (new c) w.seen items next) :
    Moves w { w with seen := next.2, phase := Function.update w.phase c next.1 }
  | warned (c : κ) (shot : Shot) (rest : List Item) (p : Phase) (h : w.phase c = .warning shot rest)
    (hp : p = .raised ∨ p = .loop rest) :
    Moves w { w with phase := Function.update w.phase c p, log := w.log ++ [(c, shot)] }
  | still : Moves w w

theorem step_cases (w : World κ) (e : Event κ) : Moves new w (step new w e) := by
  cases e with
  | begin c =>
    simp only [step]
    split
    · rename_i h
      exact .begun c h
    · exact .still
  | move c raises =>
    simp only [step]
    split
    · rename_i items h
      exact .visited c items _ h (visit_cases (new c) w.seen items)
    · rename_i shot rest h
      refine .warned c shot rest _ h ?_
      cases raises with
      | true => exact .inl rfl
      | false => exact .inr rfl
    · exact .still

end Steps

/-! ## The invariant -/

/-- what a constructor's phase tells; `given` are the warnings it has given -/
inductive Told (new : Constructor) (seen : Seen) (given : Shot → Prop) : Phase → Prop
  | idle : Told new seen given .idle
  | loop (before rest : List Item) (hitems : new.items = before ++ rest) (hbefore : new.Passed seen before) :
    Told new seen given (.loop rest)
  | warning (before rest : List Item) (item : Item) (shot : Shot) (hitems : new.items = before ++ item :: rest)
    (hbefore : new.Passed seen before) (hwants : new.wants item = some shot) :
    Told new seen given (.warning shot rest)
  | returned (h : new.Passed seen new.items) : Told new seen given .returned
  | notText (h : .key none ∈ new.items) : Told new seen given .raised
  | raised (shot : Shot) (h : given shot) : Told new seen given .raised

structure Inv (new : κ → Constructor) (w : World κ) : Prop where
  /-- a name is recorded where its warning was given or is at hand -/
  seen : ∀ shot, w.seen.contains shot = true ↔
    shot ∈ w.log.map Prod.snd ∨ ∃ c rest, w.phase c = .warning shot rest
  nodup : (w.log.map Prod.snd).Nodup
  /-- a warning at hand was not given -/
  fresh : ∀ c shot rest, w.phase c = .warning shot rest → shot ∉ w.log.map Prod.snd
  single : ∀ c d shot rest rest', w.phase c = .warning shot rest → w.phase d = .warning shot rest' → c = d
  told : ∀ c, Told (new c) w.seen (fun shot => (c, shot) ∈ w.log) (w.phase c)
  asked : ∀ c shot, (c, shot) ∈ w.log → ∃ item ∈ (new c).items, (new c).wants item = some shot

variable {new : κ → Constructor}

theorem inv_start : Inv new (World.start : World κ) where
  seen shot := by cases shot <;> simp [World.start, Seen.contains]
  nodup := List.nodup_nil
  fresh c shot rest h := by cases h
  single c d shot rest rest' h := by cases h
  told c := .idle
  asked c shot h := by cases h

theorem Constructor.Passed.mono {c : Constructor} {seen seen' : Seen} {items : List Item} (h : c.Passed seen items)
    (hseen : ∀ shot, seen.contains shot = true → seen'.contains shot = true) : c.Passed seen' items :=
  fun item hitem => ⟨(h item hitem).1, fun shot hshot => hseen shot ((h item hitem).2 shot hshot)⟩

theorem Constructor.Passed.append {c : Constructor} {seen : Seen} {items items' : List Item} (h : c.Passed seen items)
    (h' : c.Passed seen items') : c.Passed seen (items ++ items') := by
  intro item hitem
  rcases List.mem_append.1 hitem with hmem | hmem
  · exact h item hmem
  · exact h' item hmem

theorem Told.mono {c : Constructor} {seen seen' : Seen} {given given' : Shot → Prop} {p : Phase}
    (h : Told c seen given p) (hseen : ∀ shot, seen.contains shot = true → seen'.contains shot = true)
    (hgiven : ∀ shot, given shot → given' shot) : Told c seen' given' p := by
  cases h with
  | idle => exact .idle
  | loop before rest hitems hbefore => exact .loop before rest hitems (hbefore.mono hseen)
  | warning before rest item shot hitems hbefore hwants =>
    exact .warning before rest item shot hitems (hbefore.mono hseen) hwants
  | returned h => exact .returned (h.mono hseen)
  | notText h => exact .notText h
  | raised shot h => exact .raised shot (hgiven shot h)

variable [DecidableEq κ] {w : World κ} {c : κ} {p : Phase}

/-- a phase that is no warning -/
def Phase.Quiet (p : Phase) : Prop := ∀ shot rest, p ≠ .warning shot rest

/-- a warning after a move of `c` into a quiet phase is one of another constructor -/
theorem of_quiet (hp : p.Quiet) {d : κ} {shot : Shot} {rest : List Item}
    (h : Function.update w.phase c p d = .warning shot rest) : d ≠ c ∧ w.phase d = .warning shot rest := by
  by_cases hd : d = c
  · rw [hd, Function.update_self] at h
    exact absurd h (hp shot rest)
  · rw [Function.update_of_ne hd] at h
    exact ⟨hd, h⟩

theorem update_told {seen : Seen} {given : κ → Shot → Prop} (hother : ∀ d, Told (new d) seen (given d) (w.phase d))
    (hc : Told (new c) seen (given c) p) (d : κ) : Told (new d) seen (given d) (Function.update w.phase c p d) := by
  by_cases hd : d = c
  · rw [hd, Function.update_self]
    exact hc
  · rw [Function.update_of_ne hd]
    exact hother d

/-- a move that neither records a name nor gives a warning -/
theorem Inv.quiet (hinv : Inv new w) (hbefore : (w.phase c).Quiet) (hp : p.Quiet)
    (htold : Told (new c) w.seen (fun shot => (c, shot) ∈ w.log) p) :
    Inv new { w with phase := Function.update w.phase c p } where
  seen shot := by
    refine (hinv.seen shot).trans (or_congr_right ⟨?_, ?_⟩)
    · rintro ⟨d, rest, hd⟩
      have hne : d ≠ c := fun heq => hbefore shot rest (heq ▸ hd)
      exact ⟨d, rest, (Function.update_of_ne hne _ _).trans hd⟩
    · rintro ⟨d, rest, hd⟩
      exact ⟨d, rest, (of_quiet hp hd).2⟩
  nodup := hinv.nodup
  fresh d shot rest hd := hinv.fresh d shot rest (of_quiet hp hd).2
  single d e shot rest rest' hd he := hinv.single d e shot rest rest' (of_quiet hp hd).2 (of_quiet hp he).2
  told := update_told hinv.told htold
  asked := hinv.asked

/-- a name is recorded -/
theorem Inv.recorded (hinv : Inv new w) {before rest : List Item} {item : Item} {shot : Shot}
    (hphase : w.phase c = .loop (item :: rest)) (hitems : (new c).items = before ++ item :: rest)
    (hbefore : (new c).Passed w.seen before) (hwants : (new c).wants item = some shot)
    (hnew : w.seen.contains shot = false) :
    Inv new { w with seen := w.seen.insert shot, phase := Function.update w.phase c (.warning shot rest) } := by
  have hseen : ∀ s, w.seen.contains s = true → (w.seen.insert shot).contains s = true := fun s hs => by simp [hs]
  have hlog : shot ∉ w.log.map Prod.snd := fun hmem => by simp [(hinv.seen shot).2 (.inl hmem)] at hnew
  have hother : ∀ d rest', w.phase d ≠ .warning shot rest' :=
    fun d rest' hd => by simp [(hinv.seen shot).2 (.inr ⟨d, rest', hd⟩)] at hnew
  have hcases : ∀ d s rest', Function.update w.phase c (.warning shot rest) d = .warning s rest' →
      d = c ∧ s = shot ∨ d ≠ c ∧ w.phase d = .warning s rest' := by
    intro d s rest' hd
    by_cases hdc : d = c
    · rw [hdc, Function.update_self] at hd
      cases hd
      exact .inl ⟨hdc, rfl⟩
    · rw [Function.update_of_ne hdc] at hd
      exact .inr ⟨hdc, hd⟩
  refine ⟨fun s => ?_, hinv.nodup, fun d s rest' hd => ?_, fun d e s rest₁ rest₂ hd he => ?_, ?_, hinv.asked⟩
  · simp only [contains_insert, Bool.or_eq_true, decide_eq_true_eq, hinv.seen s]
    constructor
    · rintro (rfl | hs | ⟨d, rest', hd⟩)
      · exact .inr ⟨c, rest, Function.update_self c _ _⟩
      · exact .inl hs
      · have hne : d ≠ c := by
          rintro rfl
          rw [hphase] at hd
          cases hd
        exact .inr ⟨d, rest', (Function.update_of_ne hne _ _).trans hd⟩
    · rintro (hs | ⟨d, rest', hd⟩)
      · exact .inr (.inl hs)
      · rcases hcases d s rest' hd with ⟨-, rfl⟩ | ⟨-, hd⟩
        · exact .inl rfl
        · exact .inr (.inr ⟨d, rest', hd⟩)
  · rcases hcases d s rest' hd with ⟨-, rfl⟩ | ⟨-, hd⟩
    · exact hlog
    · exact hinv.fresh d s rest' hd
  · rcases hcases d s rest₁ hd with ⟨hdc, hds⟩ | ⟨-, hd'⟩ <;> rcases hcases e s rest₂ he with ⟨hec, hes⟩ | ⟨-, he'⟩
    · rw [hdc, hec]
    · exact absurd (hds ▸ he') (hother e rest₂)
    · exact absurd (hes ▸ hd') (hother d rest₁)
    · exact hinv.single d e s rest₁ rest₂ hd' he'
  · exact update_told (fun d => (hinv.told d).mono hseen fun _ h => h)
      (.warning before rest item shot hitems (hbefore.mono hseen) hwants)

/-- a warning is given -/
theorem Inv.warned (hinv : Inv new w) {shot : Shot} {rest : List Item} (hphase : w.phase c = .warning shot rest)
    (hp : p = .raised ∨ p = .loop rest) :
    Inv new { w with phase := Function.update w.phase c p, log := w.log ++ [(c, shot)] } := by
  have hquiet : p.Quiet := by
    rintro s rest' rfl
    rcases hp with h | h <;> cases h
  have hfresh := hinv.fresh c shot rest hphase
  obtain ⟨before, item, hitems, hbefore, hwants⟩ : ∃ before item, (new c).items = before ++ item :: rest ∧
      (new c).Passed w.seen before ∧ (new c).wants item = some shot := by
    have htold := hinv.told c
    rw [hphase] at htold
    cases htold with
    | warning before _ item _ hitems hbefore hwants => exact ⟨before, item, hitems, hbefore, hwants⟩
  have hseen : w.seen.contains shot = true := (hinv.seen shot).2 (.inr ⟨c, rest, hphase⟩)
  refine ⟨fun s => ?_, ?_, fun d s rest' hd => ?_, fun d e s rest₁ rest₂ hd he => ?_, ?_, fun d s hmem => ?_⟩
  · simp only [hinv.seen s, List.map_append, List.map_cons, List.map_nil, List.mem_append, List.mem_singleton]
    constructor
    · rintro (hs | ⟨d, rest', hd⟩)
      · exact .inl (.inl hs)
      · by_cases hdc : d = c
        · subst hdc
          rw [hphase] at hd
          cases hd
          exact .inl (.inr rfl)
        · exact .inr ⟨d, rest', (Function.update_of_ne hdc _ _).trans hd⟩
    · rintro ((hs | rfl) | ⟨d, rest', hd⟩)
      · exact .inl hs
      · exact .inr ⟨c, rest, hphase⟩
      · exact .inr ⟨d, rest', (of_quiet hquiet hd).2⟩
  · rw [List.map_append, List.map_cons, List.map_nil, List.nodup_append]
    refine ⟨hinv.nodup, List.nodup_singleton _, fun a ha b hb hab => hfresh ?_⟩
    rw [hab, List.mem_singleton.1 hb] at ha
    exact ha
  · obtain ⟨hne, hd'⟩ := of_quiet hquiet hd
    rw [List.map_append, List.mem_append, List.map_cons, List.map_nil, List.mem_singleton]
    rintro (hs | rfl)
    · exact hinv.fresh d s rest' hd' hs
    · exact hne (hinv.single d c s rest' rest hd' hphase)
  · exact hinv.single d e s rest₁ rest₂ (of_quiet hquiet hd).2 (of_quiet hquiet he).2
  · refine update_told
      (fun d => (hinv.told d).mono (fun _ h => h) fun _ h => List.mem_append_left _ h) ?_
    rcases hp with rfl | rfl
    · exact .raised shot (List.mem_append_right _ List.mem_cons_self)
    · exact .loop (before ++ [item]) rest (by simp [hitems]) (hbefore.append (passed_of_wants hwants hseen))
  · rcases List.mem_append.1 hmem with hmem | hmem
    · exact hinv.asked d s hmem
    · cases List.mem_singleton.1 hmem
      exact ⟨item, hitems ▸ List.mem_append_right _ List.mem_cons_self, hwants⟩

theorem inv_step (w : World κ) (e : Event κ) (hinv : Inv new w) : Inv new (step new w e) := by
  have hmoves := step_cases new w e
  generalize step new w e = w' at hmoves ⊢
  cases hmoves with
  | begun c h =>
    exact hinv.quiet (by rw [h]; rintro s r ⟨⟩) (by rintro s r ⟨⟩) (.loop [] _ rfl fun it hit => nomatch hit)
  | visited c items next h hvisits =>
    have hbefore : (w.phase c).Quiet := by rw [h]; rintro s r ⟨⟩
    have htold := hinv.told c
    rw [h] at htold
    obtain ⟨before, hitems, hpassed⟩ : ∃ before, (new c).items = before ++ items ∧ (new c).Passed w.seen before := by
      cases htold with
      | loop before _ hitems hbefore => exact ⟨before, hitems, hbefore⟩
    cases hvisits with
    | finished =>
      rw [List.append_nil] at hitems
      exact hinv.quiet hbefore (by rintro s r ⟨⟩) (.returned (hitems ▸ hpassed))
    | notText rest =>
      exact hinv.quiet hbefore (by rintro s r ⟨⟩) (.notText (hitems ▸ List.mem_append_right _ List.mem_cons_self))
    | passed item rest hitem =>
      refine hinv.quiet hbefore (by rintro s r ⟨⟩) ?_
      exact .loop (before ++ [item]) rest (by simp [hitems]) (hpassed.append hitem)
    | recorded item rest shot hwants hnew => exact hinv.recorded h hitems hpassed hwants hnew
  | warned c shot rest p h hp => exact hinv.warned h hp
  | still => exact hinv

/-! ## How long a constructor runs -/

/-- its own moves to the end -/
def Phase.rank : Phase → ℕ
  | .loop items => 2 * items.length + 1
  | .warning _ rest => 2 * rest.length + 2
  | _ => 0

def Phase.Ended (p : Phase) : Prop := p = .returned ∨ p = .raised

def Event.isMove (c : κ) : Event κ → Bool
  | .begin _ => false
  | .move d _ => decide (d = c)

theorem ended_of_rank (hbegun : p ≠ .idle) (hrank : p.rank = 0) : p.Ended := by
  cases p with
  | idle => exact absurd rfl hbegun
  | loop items => cases hrank
  | warning shot rest => cases hrank
  | returned => exact .inl rfl
  | raised => exact .inr rfl

theorem visits_rank {d : Constructor} {seen : Seen} {items : List Item} {next : Phase × Seen}
    (h : Visits d seen items next) : next.1 ≠ .idle ∧ next.1.rank < (Phase.loop items).rank := by
  cases h with
  | finished => simp [Phase.rank]
  | notText rest => simp [Phase.rank]
  | passed item rest _ => simp [Phase.rank]
  | recorded item rest shot _ _ =>
    refine ⟨by simp, ?_⟩
    simp only [Phase.rank, List.length_cons]
    omega

/-- whose move it is -/
def Event.constructor : Event κ → κ
  | .begin c => c
  | .move c _ => c

theorem phase_other {e : Event κ} (h : e.constructor ≠ c) : (step new w e).phase c = w.phase c := by
  cases e with
  | begin d =>
    simp only [step]
    split
    · exact Function.update_of_ne (Ne.symm h) _ _
    · rfl
  | move d raises =>
    simp only [step]
    split
    · exact Function.update_of_ne (Ne.symm h) _ _
    · exact Function.update_of_ne (Ne.symm h) _ _
    · rfl

/-- a move of the constructor brings it nearer to its end -/
theorem rank_move (hbegun : w.phase c ≠ .idle) (raises : Bool) :
    (step new w (.move c raises)).phase c ≠ .idle ∧
      ((step new w (.move c raises)).phase c).rank ≤ (w.phase c).rank - 1 := by
  cases hphase : w.phase c with
  | idle => exact absurd hphase hbegun
  | loop items =>
    simp only [step, hphase, Function.update_self]
    obtain ⟨hnext, hlt⟩ := visits_rank (visit_cases (new c) w.seen items)
    exact ⟨hnext, Nat.le_pred_of_lt hlt⟩
  | warning shot rest =>
    simp only [step, hphase, Function.update_self]
    cases raises <;> simp [Phase.rank]
  | returned => simp [step, hphase, Phase.rank]
  | raised => simp [step, hphase, Phase.rank]

theorem begin_begun (hbegun : w.phase c ≠ .idle) : (step new w (.begin c)).phase c = w.phase c := by
  simp only [step]

/-- and nobody else's sets it back -/
theorem rank_step (hbegun : w.phase c ≠ .idle) (e : Event κ) :
    (step new w e).phase c ≠ .idle ∧
      ((step new w e).phase c).rank ≤ (w.phase c).rank - if e.isMove c then 1 else 0 := by
  by_cases hmine : e.constructor = c
  · cases e with
    | begin d =>
      obtain rfl : d = c := hmine
      rw [begin_begun hbegun]
      exact ⟨hbegun, Nat.le_refl _⟩
    | move d raises =>
      obtain rfl : d = c := hmine
      simpa [Event.isMove] using @rank_move _ new _ _ _ hbegun raises
  · have hother : e.isMove c = false := by
      cases e with
      | begin d => rfl
      | move d raises => exact decide_eq_false hmine
    rw [phase_other hmine, hother]
    exact ⟨hbegun, Nat.le_refl _⟩

theorem rank_run (hbegun : w.phase c ≠ .idle) (l : List (Event κ)) :
    (run (step new) w l).phase c ≠ .idle ∧
      ((run (step new) w l).phase c).rank ≤ (w.phase c).rank - l.countP (Event.isMove c) := by
  induction l generalizing w with
  | nil => exact ⟨hbegun, Nat.le_refl _⟩
  | cons e l ih =>
    obtain ⟨hnext, hle⟩ := @rank_step _ new _ _ _ hbegun e
    obtain ⟨hlast, hle'⟩ := ih hnext
    refine ⟨hlast, Nat.le_trans hle' ?_⟩
    rw [List.countP_cons]
    omega

omit [DecidableEq κ] in
theorem rank_le (hinv : Inv new w) (c : κ) : (w.phase c).rank ≤ 2 * (new c).items.length + 1 := by
  have htold := hinv.told c
  generalize w.phase c = p at htold ⊢
  cases htold with
  | loop before rest hitems _ =>
    simp only [Phase.rank, hitems, List.length_append]
    omega
  | warning before rest item shot hitems _ _ =>
    simp only [Phase.rank, hitems, List.length_append, List.length_cons]
    omega
  | _ => exact Nat.zero_le _

/-! ## Warned once -/

/-- `AsyncRedis` is warned about names that redis-py does not know -/
theorem asyncRedis_wants {kwargs : List (Option String)} {item : Item} {shot : Shot}
    (hitem : item ∈ (asyncRedis kwargs).items) (hwants : (asyncRedis kwargs).wants item = some shot) :
    shot.warning.category = .runtimeWarning := by
  obtain ⟨name, hname, rfl⟩ := List.mem_map.1 hitem
  cases name with
  | none => cases hwants
  | some name =>
    have hextra : name ∉ asyncRedisParams := by simpa using (List.mem_filter.1 hname).2
    have hunknown : name ∉ knownKwargs := hextra
    simp only [Constructor.wants] at hwants
    split_ifs at hwants
    cases hwants
    simp [Shot.warning, hunknown]

structure WarnsOnce (new : κ → Constructor) (w : World κ) : Prop where
  /-- nothing is warned about twice -/
  once : (w.log.map Prod.snd).Nodup
  /-- a constructor warns about what it was given and does not take -/
  asked : ∀ c shot, (c, shot) ∈ w.log → ∃ item ∈ (new c).items, (new c).wants item = some shot
  /-- whatever a constructor that returned does not take was warned about, or another is at it -/
  warned : ∀ c, w.phase c = .returned → ∀ item ∈ (new c).items, item ≠ .key none ∧
    ∀ shot, (new c).wants item = some shot →
      shot ∈ w.log.map Prod.snd ∨ ∃ d rest, d ≠ c ∧ w.phase d = .warning shot rest
  /-- of constructors with names for keys, as many can raise as they have different names -/
  failures : ∀ cs : List κ, cs.Nodup → (∀ c ∈ cs, w.phase c = .raised ∧ .key none ∉ (new c).items) →
    ∀ shots : List Shot,
      (∀ c ∈ cs, ∀ item ∈ (new c).items, ∀ shot, (new c).wants item = some shot → shot ∈ shots) →
      cs.length ≤ shots.length
  /-- a constructor ends by its own moves -/
  ends : ∀ c, w.phase c ≠ .idle → ∀ more : List (Event κ),
    2 * (new c).items.length + 1 ≤ more.countP (Event.isMove c) → ((run (step new) w more).phase c).Ended
  /-- no keyword of redis-py makes `AsyncRedis` warn -/
  async : ∀ c kwargs, new c = asyncRedis kwargs → ∀ shot, (c, shot) ∈ w.log →
    shot.warning.category = .runtimeWarning

theorem Inv.failures (hinv : Inv new w) {cs : List κ} (hcs : cs.Nodup)
    (hraised : ∀ c ∈ cs, w.phase c = .raised ∧ .key none ∉ (new c).items) {shots : List Shot}
    (hshots : ∀ c ∈ cs, ∀ item ∈ (new c).items, ∀ shot, (new c).wants item = some shot → shot ∈ shots) :
    cs.length ≤ shots.length := by
  -- each raised by a warning of its own
  have hgiven : ∀ c ∈ cs, ∃ shot, (c, shot) ∈ w.log := by
    intro c hc
    obtain ⟨hphase, htext⟩ := hraised c hc
    have htold := hinv.told c
    rw [hphase] at htold
    cases htold with
    | notText h => exact absurd h htext
    | raised shot h => exact ⟨shot, h⟩
  let given := w.log.filter fun entry => decide (entry.1 ∈ cs)
  have hcover : cs ⊆ given.map Prod.fst := by
    intro c hc
    obtain ⟨shot, hshot⟩ := hgiven c hc
    exact List.mem_map.2 ⟨(c, shot), List.mem_filter.2 ⟨hshot, by simpa using hc⟩, rfl⟩
  have hnodup : (given.map Prod.snd).Nodup := hinv.nodup.sublist (List.filter_sublist.map _)
  have hwithin : given.map Prod.snd ⊆ shots := by
    intro shot hshot
    obtain ⟨⟨c, _⟩, hentry, rfl⟩ := List.mem_map.1 hshot
    obtain ⟨hlog, hc⟩ := List.mem_filter.1 hentry
    obtain ⟨item, hitem, hwants⟩ := hinv.asked c _ hlog
    exact hshots c (by simpa using hc) item hitem _ hwants
  calc cs.length ≤ (given.map Prod.fst).length := (hcs.subperm hcover).length_le
    _ = (given.map Prod.snd).length := by simp only [List.length_map]
    _ ≤ shots.length := (hnodup.subperm hwithin).length_le

/-- **Warned once.** In every run of the constructors. -/
theorem constructors_warn_once (new : κ → Constructor) (l : List (Event κ)) :
    WarnsOnce new (run (step new) World.start l) := by
  have hinv : Inv new (run (step new) World.start l) := run_invariant' inv_step l inv_start
  generalize run (step new) World.start l = w at hinv
  refine ⟨hinv.nodup, hinv.asked, fun c hphase item hitem => ?_, fun cs hcs hraised shots hshots =>
    hinv.failures hcs hraised hshots, fun c hbegun more hmore => ?_, fun c kwargs hc shot hshot => ?_⟩
  · have hpassed : (new c).Passed w.seen (new c).items := by
      have htold := hinv.told c
      rw [hphase] at htold
      cases htold with
      | returned h => exact h
    refine ⟨(hpassed item hitem).1, fun shot hwants => ?_⟩
    refine ((hinv.seen shot).1 ((hpassed item hitem).2 shot hwants)).imp_right ?_
    rintro ⟨d, rest, hd⟩
    refine ⟨d, rest, fun heq => ?_, hd⟩
    rw [heq, hphase] at hd
    cases hd
  · obtain ⟨hlast, hrank⟩ := @rank_run _ new _ _ _ hbegun more
    have hle := rank_le hinv c
    exact ended_of_rank hlast (by omega)
  · obtain ⟨item, hitem, hwants⟩ := hinv.asked c shot hshot
    rw [hc] at hitem hwants
    exact asyncRedis_wants hitem hwants

end RedisRsPy.Facade.Kwargs
