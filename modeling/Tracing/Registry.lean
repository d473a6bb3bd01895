import Tracing.Act
import Tracing.Settings

/-!
# Registry

Some libraries report the start and the finish of an operation through two callbacks that share nothing but a key.
A registry holds a value, usually a span, under the key between the two. A key holds one value at a time; a second
one is refused and handed back. Operations that never finish would leave their entries behind, so an entry that has
reached the greatest age has expired. Expired entries are swept when something is registered into a registry that
is full or was not swept for that long, and on demand. The number of entries is bounded.

A value may be the last thing to hold something else, so discarding it can have consequences beyond the registry.
They come at once, before the sweep is reported. What a registry does in a larger state is therefore said for its
home there (`Registry.Home`), which knows of these consequences; a registry on its own has none.
-/

namespace Tracing

/-- Keys that messages can show. -/
class KeyText (κ : Type) where
  keyText : κ → String

/-- The keys by which the callbacks of a library find each other: the numbers of a connection and of a request on
it, a name, or a number. -/
inductive CorrelationKey where
  | pair (connection : UInt32) (request : UInt64)
  | name (s : String)
  | number (n : Int)
deriving DecidableEq, Repr

instance : KeyText CorrelationKey where
  keyText
    | .pair a b => s!"({a.toNat}, {b.toNat})"
    | .name s => Text.quoted s
    | .number n => toString n

/-- What a registry holds under a key. -/
structure RegistryEntry (ν : Type) where
  value : ν
  registeredAt : Instant
deriving DecidableEq

/-- Values under keys, to be resolved. -/
structure Registry (κ ν : Type) where
  policy : RegistryPolicy
  strict : Bool := false
  lastSweep : Instant
  entries : List (κ × RegistryEntry ν) := []

/-- Why a value was not registered. It is handed back with its key. -/
inductive RegisterError (κ ν : Type) where
  | keyInUse (key : κ) (value : ν)
  | full (key : κ) (value : ν)

namespace RegisterError

variable {κ ν : Type}

/-- The wording of a refusal. -/
def message [KeyText κ] : RegisterError κ ν → String
  | keyInUse key _ => s!"correlation key {KeyText.keyText key} is already registered"
  | full key _ => s!"correlation registry is full, key {KeyText.keyText key} rejected"

/-- The value that was not registered. -/
def value : RegisterError κ ν → ν
  | keyInUse _ v | full _ v => v

end RegisterError

namespace Registry

variable {κ ν : Type}

/-- The registry without entries, at the time it is made. -/
def empty (policy : RegistryPolicy) (now : Instant) (strict : Bool := false) : Registry κ ν :=
  { policy, strict, lastSweep := now }

/-- The number of entries, expired ones included. -/
def size (r : Registry κ ν) : Nat := r.entries.length

/-- The values held, expired ones included. -/
def values (r : Registry κ ν) : List ν := r.entries.map fun e => e.2.value

/-- The entry has not reached the greatest age. -/
def isLive (r : Registry κ ν) (now : Instant) (e : RegistryEntry ν) : Bool :=
  (Instant.elapsed e.registeredAt now).nanos < r.policy.maxAge.nanos

/-- The registry without its expired entries. -/
def swept (r : Registry κ ν) (now : Instant) : Registry κ ν :=
  { r with entries := r.entries.filter fun (_, e) => r.isLive now e, lastSweep := now }

/-- Discards the expired entries and returns how many there were. -/
def discardExpired (now : Instant) : Act (Registry κ ν) Nat :=
  Act.update fun r => (r.size - (r.swept now).size, r.swept now)

/-- Reports how many entries a sweep has discarded, if any. -/
def reportSweep (count : Nat) : Act (Registry κ ν) Unit := do
  if count > 0 then Act.emit (.orphansSwept count (← Act.get).policy.maxAge)

/-- Registering has to sweep first: the registry is full, or was not swept for the greatest age. -/
def sweepIsDue (r : Registry κ ν) (now : Instant) : Bool :=
  r.size ≥ r.policy.capacity || (Instant.elapsed r.lastSweep now).nanos ≥ r.policy.maxAge.nanos

/-- Where a registry is kept in a larger state, and what follows there when it has discarded values. -/
structure Home (σ κ ν : Type) where
  view : σ → Registry κ ν
  put : Registry κ ν → σ → σ
  release : Act σ Unit

namespace Home

variable {σ : Type}

/-- The home of a registry on its own: nothing follows when it discards values. -/
def alone : Home (Registry κ ν) κ ν where
  view := id
  put := fun r _ => r
  release := pure ()

/-- An act on the registry as an act on the state in which it is kept. -/
def act {α : Type} (h : Home σ κ ν) (x : Act (Registry κ ν) α) : Act σ α := Act.onPart h.view h.put x

@[simp] theorem alone_act {α : Type} (x : Act (Registry κ ν) α) : alone.act x = x := rfl

/-- Discards the expired entries, lets what follows from that happen, and reports how many there were. -/
def sweep (h : Home σ κ ν) (now : Instant) : Act σ Nat := do
  let count ← h.act (discardExpired now)
  h.release
  h.act (reportSweep count)
  return count

end Home

/-- Discards the expired entries of a registry on its own and reports how many there were. -/
def sweep (now : Instant) : Act (Registry κ ν) Nat := Home.alone.sweep now

variable [DecidableEq κ]

/-- The entry under a key. -/
def find? (r : Registry κ ν) (key : κ) : Option (RegistryEntry ν) :=
  (r.entries.find? fun e => e.1 = key).map Prod.snd

/-- The registry without the entry under a key. -/
def erase (r : Registry κ ν) (key : κ) : Registry κ ν :=
  { r with entries := r.entries.filter fun e => e.1 ≠ key }

/-- The registry with a value under a key, in place of an earlier one. -/
def insert (r : Registry κ ν) (now : Instant) (key : κ) (value : ν) : Registry κ ν :=
  { r.erase key with entries := (key, ⟨value, now⟩) :: (r.erase key).entries }

/-- Takes the value under a key. -/
def resolve (r : Registry κ ν) (key : κ) : Option ν × Registry κ ν :=
  ((r.find? key).map RegistryEntry.value, r.erase key)

/-- Registers a value under a key that holds no live one, without a sweep. Using a live key is a misuse. -/
def accept [KeyText κ] (now : Instant) (key : κ) (value : ν) :
    Act (Registry κ ν) (Except (RegisterError κ ν) Unit) := do
  let r ← Act.get
  match r.find? key with
  | some e =>
    if r.isLive now e then
      Act.misuse r.strict (.keyInUse (KeyText.keyText key))
      return .error (.keyInUse key value)
    Act.emit (.expiredReplaced (KeyText.keyText key))
  | none =>
    if r.size ≥ r.policy.capacity then
      Act.emit (.registryFull r.policy.capacity)
      return .error (.full key value)
  Act.modify (·.insert now key value)
  return .ok ()

/-- Registers a value under a key that holds no live one, after a sweep if one is due. A value that it replaces is
discarded too. -/
def Home.register [KeyText κ] {σ : Type} (h : Home σ κ ν) (now : Instant) (key : κ) (value : ν) :
    Act σ (Except (RegisterError κ ν) Unit) := do
  if (← h.act Act.get).sweepIsDue now then
    let _ ← h.sweep now
  let answer ← h.act (accept now key value)
  h.release
  return answer

/-- Registers a value in a registry on its own. -/
def register [KeyText κ] (now : Instant) (key : κ) (value : ν) :
    Act (Registry κ ν) (Except (RegisterError κ ν) Unit) :=
  Home.alone.register now key value

/-- A registry as reports show it. -/
def text (r : Registry κ ν) : String :=
  "CorrelationRegistry \x7b entries: " ++ toString r.size ++ ", config: RegistryConfig \x7b max_age: " ++
    r.policy.maxAge.text ++ ", capacity: " ++ toString r.policy.capacity ++ " \x7d \x7d"

end Registry

end Tracing
