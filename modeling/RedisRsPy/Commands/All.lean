/-
All commands of `Redis` and `AsyncRedis`, and whether the two clients give the same.

`same_outcome_iff`: for every command, whatever its arguments, the setting of the clients and the answer of the server,
the awaited outcome is the outcome of the sync call exactly where `Alike` holds. `Alike` is no condition at all but for
the commands that convert their replies in two ways: SCAN, HSCAN, SSCAN, ZSCAN, HRANDFIELD, BLPOP, BRPOP, ZMSCORE, BZPOPMIN,
BZPOPMAX, BZMPOP, BGSAVE, BGREWRITEAOF and WAITAOF. `scan_differs` is a reply on which SCAN differs.
-/
import RedisRsPy.Commands.Admin
import RedisRsPy.Commands.Hashes
import RedisRsPy.Commands.Lists
import RedisRsPy.Commands.Scripts
import RedisRsPy.Commands.Sets
import RedisRsPy.Commands.Streams
import RedisRsPy.Commands.Strings
import RedisRsPy.Commands.Zsets

namespace RedisRsPy.Commands

inductive Command where
  | strings (c : Strings.Cmd)
  | lists (c : Lists.Cmd)
  | hashes (c : Hashes.Cmd)
  | sets (c : Sets.Cmd)
  | zsets (c : Zsets.Cmd)
  | streams (c : Streams.Cmd)
  | scripts (c : Scripts.Cmd)
  | admin (c : Admin.Cmd)

variable (S : Std)

def row : Command → Row
  | .strings c => Strings.row S c
  | .lists c => Lists.row S c
  | .hashes c => Hashes.row S c
  | .sets c => Sets.row S c
  | .zsets c => Zsets.row S c
  | .streams c => Streams.row S c
  | .scripts c => Scripts.row S c
  | .admin c => Admin.row S c

/-- when a command gives the same on both clients -/
def Alike (decode : Option Codec) (server : Server) : Command → Prop
  | .lists c => Lists.Alike S decode server c
  | .hashes c => Hashes.Alike S decode server c
  | .sets c => Sets.Alike server c
  | .zsets c => Zsets.Alike S server c
  | .admin c => Admin.Alike S decode server c
  | _ => True

/-- what calling the method of `Redis` gives -/
def syncOutcome (decode : Option Codec) (server : Server) (c : Command) : PyRes :=
  ((row S c).syncCall false decode server).result

/-- what calling the method of `AsyncRedis` and awaiting it gives -/
def asyncOutcome (decode : Option Codec) (server : Server) (c : Command) : PyRes :=
  ((row S c).asyncCall S false decode server).result

variable {S}

/-- the commands that are not one row of matching stages -/
inductive Differs : Command → Prop where
  | blpop : Differs (.lists .blpop)
  | brpop : Differs (.lists .brpop)
  | hrandfield (count : Option Int) (withvalues : Bool) : Differs (.hashes (.hrandfield count withvalues))
  | hscan (novalues : Bool) : Differs (.hashes (.hscan novalues))
  | sscan : Differs (.sets .sscan)
  | zmscore (members : List Bytes) : Differs (.zsets (.zmscore members))
  | zscan : Differs (.zsets .zscan)
  | bzpopmin : Differs (.zsets .bzpopmin)
  | bzpopmax : Differs (.zsets .bzpopmax)
  | bzmpop (direction : String) : Differs (.zsets (.bzmpop direction))
  | scan : Differs (.admin .scan)
  | waitaof : Differs (.admin .waitaof)
  | bgsave : Differs (.admin .bgsave)
  | bgrewriteaof : Differs (.admin .bgrewriteaof)

theorem agrees_or_differs (c : Command) : (row S c).Agrees S ∨ Differs c := by
  cases c with
  | strings c => exact .inl (Strings.agrees c)
  | streams c => exact .inl (Streams.agrees c)
  | scripts c => exact .inl (Scripts.agrees c)
  | lists c =>
    by_cases hl : c = .blpop
    · exact .inr (hl ▸ .blpop)
    by_cases hr : c = .brpop
    · exact .inr (hr ▸ .brpop)
    exact .inl (Lists.agrees hl hr)
  | hashes c =>
    by_cases hc : Hashes.shared c = true
    · exact .inl (Hashes.agrees hc)
    · cases c with
      | hrandfield count withvalues => exact .inr (.hrandfield count withvalues)
      | hscan novalues => exact .inr (.hscan novalues)
      | _ => exact absurd rfl hc
  | sets c =>
    by_cases hc : c = .sscan
    · exact .inr (hc ▸ .sscan)
    · exact .inl (Sets.agrees hc)
  | zsets c =>
    by_cases hc : Zsets.shared c = true
    · exact .inl (Zsets.agrees hc)
    · cases c with
      | zmscore members => exact .inr (.zmscore members)
      | zscan => exact .inr .zscan
      | bzpopmin => exact .inr .bzpopmin
      | bzpopmax => exact .inr .bzpopmax
      | bzmpop direction => exact .inr (.bzmpop direction)
      | _ => exact absurd rfl hc
  | admin c =>
    by_cases hc : Admin.shared c = true
    · exact .inl (Admin.agrees hc)
    · cases c with
      | scan => exact .inr .scan
      | waitaof => exact .inr .waitaof
      | bgsave => exact .inr .bgsave
      | bgrewriteaof => exact .inr .bgrewriteaof
      | _ => exact absurd rfl hc

theorem outcome_of_agrees {c : Command} (h : (row S c).Agrees S) (decode : Option Codec) (server : Server) :
    asyncOutcome S decode server c = syncOutcome S decode server c := h.same decode server

/-- **One command, two clients.** The clients give equal objects, or exceptions of one class, exactly where the command is
alike on them. -/
theorem same_outcome_iff (c : Command) (decode : Option Codec) (server : Server) :
    SameOutcome (syncOutcome S decode server c) (asyncOutcome S decode server c) ↔ Alike S decode server c := by
  cases c with
  | strings c =>
    rw [outcome_of_agrees (Strings.agrees c) decode server]
    exact iff_of_true (sameOutcome_of_eq rfl) trivial
  | streams c =>
    rw [outcome_of_agrees (Streams.agrees c) decode server]
    exact iff_of_true (sameOutcome_of_eq rfl) trivial
  | scripts c =>
    rw [outcome_of_agrees (Scripts.agrees c) decode server]
    exact iff_of_true (sameOutcome_of_eq rfl) trivial
  | lists c => exact Lists.same_iff c decode server
  | hashes c => exact Hashes.same_iff c decode server
  | sets c => exact Sets.same_iff c decode server
  | zsets c => exact Zsets.same_iff c decode server
  | admin c => exact Admin.same_iff c decode server

/-! ## A reply that tells the clients apart -/

/-- a crate that reads no reply as a type; the replies it is used with are taken apart by the driver alone -/
def bareStd : Std where
  fromRedisValue _ _ := .error (.fromParts .parse "Response was of incompatible type" "not read here")
  parseF64 _ := none
  ofInt _ := 0
  fromUtf8Lossy _ := ""
  debug _ := ""

/-- the end of a scan, with one key -/
def oneKey : Value := .array [.bulkString [48], .array [.bulkString [107]]]

/-- `(0, [b"k"])` against `[0, [b"k"]]` -/
theorem scan_differs :
    ¬ SameOutcome (syncOutcome bareStd none ⟨.ok (), .ok oneKey⟩ (.admin .scan))
      (asyncOutcome bareStd none ⟨.ok (), .ok oneKey⟩ (.admin .scan)) := by
  intro h
  have hsame : PyObj.tuple [.int 0, .list [.bytes [107]]] = .list [.int 0, .list [.bytes [107]]] := h
  exact nomatch hsame

end RedisRsPy.Commands
