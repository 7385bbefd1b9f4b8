import Sightline.Query.Hit

/-!
# Collecting hits

Every source of hits adds to one collector, and nothing is left out on arrival. In the end the hits
are sorted, near-duplicates from one part are dropped, and the limits are applied from the nearest
hit on.
-/

namespace Sightline

/-- Which earlier hits a hit is held against. -/
inductive DedupScope where
  /-- All earlier hits of the same part. -/
  | perPart
  /-- The run of hits of the same part right before it. -/
  | adjacent
deriving DecidableEq, Repr

namespace DedupScope

def all : List DedupScope := [.perPart, .adjacent]

def word : DedupScope → String
  | .perPart => "per_part"
  | .adjacent => "adjacent"

end DedupScope

structure HitLimits where
  maxHits : UInt64 := 16
  perPart : UInt64 := 16
  perGroup : UInt64 := 16
deriving DecidableEq, Repr

inductive Outcome where
  | hits (list : List Hit)
  | noHit

def Outcome.ofList (hits : List Hit) : Outcome := if hits.isEmpty then .noHit else .hits hits

def Outcome.toList : Outcome → List Hit
  | .hits list => list
  | .noHit => []

structure Collector where
  /-- Hits of one part that are less than this apart are near-duplicates. -/
  tolerance : Float32
  scope : DedupScope
  limits : HitLimits
  hits : List Hit := []
  duplicates : Nat := 0

namespace Collector

def push (c : Collector) (hit : Hit) : Collector := { c with hits := c.hits ++ [hit] }

def extend (c : Collector) (hits : List Hit) : Collector := { c with hits := c.hits ++ hits }

def size (c : Collector) : Nat := c.hits.length

/-- Earlier hits that a hit is held against, given the ones kept so far, the latest first. -/
def rivals (scope : DedupScope) (kept : List Hit) (hit : Hit) : List Hit :=
  match scope with
  | .perPart => kept.filter (·.part == hit.part)
  | .adjacent => kept.takeWhile (·.part == hit.part)

def isDuplicate (tolerance : Float32) (scope : DedupScope) (kept : List Hit) (hit : Hit) : Bool :=
  (rivals scope kept hit).any fun prior => Distance.near tolerance prior.distance hit.distance

/-- The hits that remain of a list when near-duplicates are dropped. `kept` are those before the
list that remained, the latest first. -/
def survivors (tolerance : Float32) (scope : DedupScope) (kept : List Hit) : List Hit → List Hit
  | [] => []
  | hit :: rest =>
    if isDuplicate tolerance scope kept hit then survivors tolerance scope kept rest
    else hit :: survivors tolerance scope (hit :: kept) rest

/-- The hits held, in the order of hits; those that are equal in it stay as they came. -/
def sorted (c : Collector) : List Hit := c.hits.mergeSort Hit.le

/-- Sort the hits and drop near-duplicates. A hit is only held against hits that remained, so what
remains depends on the sorted order alone. -/
def dedup (c : Collector) : Collector :=
  let kept := survivors c.tolerance c.scope [] c.sorted
  { c with hits := kept, duplicates := c.duplicates + (c.hits.length - kept.length) }

def dropped (c : Collector) : Nat := c.hits.length - c.dedup.hits.length

/-- The hits that the limits leave of a list. `taken` are those before the list that were taken. -/
def capped (limits : HitLimits) (taken : List Hit) : List Hit → List Hit
  | [] => []
  | hit :: rest =>
    if limits.maxHits.toNat ≤ taken.length then []
    -- what a part or a group has too many of is passed over, and the rest is still looked at
    else if limits.perPart.toNat ≤ taken.countP (·.part == hit.part) then
      capped limits taken rest
    else if limits.perGroup.toNat ≤ taken.countP (·.group == hit.group) then
      capped limits taken rest
    else hit :: capped limits (hit :: taken) rest

/-- The hits that remain in the end when `requested` are asked for. -/
def finalHits (c : Collector) (requested : Nat) : List Hit :=
  (capped c.limits [] c.dedup.hits).take (min requested c.limits.maxHits.toNat)

def finish (c : Collector) (requested : Nat) : Outcome := .ofList (c.finalHits requested)

end Collector

end Sightline
