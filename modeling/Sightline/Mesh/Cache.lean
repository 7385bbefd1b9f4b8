/-!
# Bounded caches

A cache keeps what was generated for a key until room is needed, and then drops the key that was
used longest ago. Every use takes the next tick of a counter, so the ticks of the keys tell how
recently each was used.

Generating a value may itself use the cache. What it left behind is looked at again before the
value is stored: the first value stored under a key is the one everybody gets.
-/

namespace Sightline

structure Slot (K V : Type) where
  key : K
  value : V
  lastUsed : UInt64
deriving Repr

structure Cache (K V : Type) where
  /-- The number of slots, at least one. -/
  capacity : Nat
  /-- What is held, in the order it came. -/
  slots : List (Slot K V)
  tick : UInt64
  /-- Requests answered by what was held at once. -/
  hits : UInt64
  /-- Requests that had to generate. -/
  misses : UInt64
  evictions : UInt64
deriving Repr

/-- What a request for a value came to. -/
structure Fetched (K V ε σ : Type) where
  answer : Except ε V
  cache : Cache K V
  evicted : Option K
  /-- What generating left besides the value, if it was needed. -/
  generated : Option σ

namespace Cache

variable {K V ε σ : Type} [DecidableEq K]

def empty (capacity : Nat) : Cache K V where
  capacity := max capacity 1
  slots := []
  tick := 0
  hits := 0
  misses := 0
  evictions := 0

def size (c : Cache K V) : Nat := c.slots.length

def slot? (c : Cache K V) (key : K) : Option (Slot K V) := c.slots.find? (·.key == key)

def get? (c : Cache K V) (key : K) : Option V := (c.slot? key).map Slot.value

/-- Mark a key as used now. -/
def touch (c : Cache K V) (key : K) : Cache K V :=
  { c with
    slots := c.slots.map fun s => if s.key == key then { s with lastUsed := c.tick + 1 } else s
    tick := c.tick + 1 }

/-- The value held under a key, which counts as a use of it. -/
def lookup (c : Cache K V) (key : K) : Option V × Cache K V :=
  match c.get? key with
  | some value => (some value, c.touch key)
  | none => (none, c)

/-- The slot used longest ago, the earlier one of two used at the same tick. -/
def oldest? : List (Slot K V) → Option (Slot K V)
  | [] => none
  | s :: rest =>
    match oldest? rest with
    | none => some s
    | some t => if s.lastUsed ≤ t.lastUsed then some s else some t

def makeRoom (c : Cache K V) : Cache K V × Option K :=
  if c.capacity ≤ c.size then
    match oldest? c.slots with
    | some s =>
      ({ c with
          slots := c.slots.filter fun t => t.key != s.key
          evictions := c.evictions + 1 }, some s.key)
    | none => (c, none)
  else (c, none)

/-- Hold a value under a key that is not held yet. -/
def insert (c : Cache K V) (key : K) (value : V) : Cache K V :=
  { c with slots := c.slots ++ [⟨key, value, c.tick + 1⟩], tick := c.tick + 1 }

/-- Store a generated value. A value that is held already stays, and is the one returned; otherwise
room is made, and the key that had to go is returned too. -/
def store (c : Cache K V) (key : K) (value : V) : V × Cache K V × Option K :=
  match c.lookup key with
  | (some held, c) => (held, c, none)
  | (none, c) =>
    let (c, evicted) := c.makeRoom
    (value, c.insert key value, evicted)

/-- The value of a key: what is held under it, or else what `generate` makes of the cache it is
handed. Nothing is stored when generating fails. -/
def fetch (c : Cache K V) (key : K) (generate : Cache K V → Except ε V × Cache K V × σ) :
    Fetched K V ε σ :=
  match c.lookup key with
  | (some value, c) =>
    { answer := .ok value
      cache := { c with hits := c.hits + 1 }
      evicted := none
      generated := none }
  | (none, c) =>
    match generate { c with misses := c.misses + 1 } with
    | (.error e, c, left) =>
      { answer := .error e, cache := c, evicted := none, generated := some left }
    | (.ok value, c, left) =>
      let (value, c, evicted) := c.store key value
      { answer := .ok value, cache := c, evicted := evicted, generated := some left }

end Cache

end Sightline
