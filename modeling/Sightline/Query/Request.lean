import Sightline.Geometry.Segment
import Sightline.Query.Option
import Sightline.Single

/-!
# Requests

A request says which ray is cast and what is wanted. It is read from two endpoints and an option
list; what cannot be read makes the whole request malformed.
-/

namespace Sightline

inductive RequestError where
  /-- Keys and values do not pair up. -/
  | oddArity (length : Nat)
  /-- A key is not an integer; the index is that of the key in the list. -/
  | keyNotInteger (index : Nat)
  | unknownKey (key : Int32)
  | valueNotInteger (key : Int32)
  | nonFiniteRay
deriving DecidableEq, Repr

def RequestError.message : RequestError → String
  | .oddArity length => s!"option list has odd length {length}"
  | .keyNotInteger index => s!"option key at index {index} is not an integer"
  | .unknownKey key => s!"unknown option key {key.toInt}"
  | .valueNotInteger key => s!"value for option {key.toInt} is not an integer"
  | .nonFiniteRay => "ray endpoints must be finite"

structure Request where
  segment : Segment Float32
  reject : Rejects := {}
  detectPhantom : Bool := false
  detectAttachments : Bool := false
  flags : DataFlags := {}
  maxHits : Nat := 1

namespace Request

def withOption (r : Request) (value : Int32) : OptionKey → Request
  | .rejectTypes => { r with reject := Rejects.ofBits value.toUInt32.toNat }
  | .detectPhantom => { r with detectPhantom := value != 0 }
  | .dataFlags => { r with flags := DataFlags.ofBits value.toUInt32.toNat }
  | .maxHits => { r with maxHits := if value < 0 then 1 else value.toInt.toNat }
  | .detectAttachments => { r with detectAttachments := value != 0 }

/-- Read keys and values from index `index` on. In each pair the key is looked at first, then the
value, and only then whether the key is known. -/
def withOptions (r : Request) (index : Nat) : List OptionValue → Except RequestError Request
  | key :: value :: rest =>
    match key, value with
    | .int key, .int value =>
      match OptionKey.ofNumber? key with
      | some known => (r.withOption value known).withOptions (index + 2) rest
      | none => .error (.unknownKey key)
    | .int key, _ => .error (.valueNotInteger key)
    | _, _ => .error (.keyNotInteger index)
  | _ => .ok r

/-- The request with the number of hits moved into `[1, ceiling]`, or to one if the ceiling is
zero. -/
def clamped (r : Request) (ceiling : Nat) : Request :=
  { r with maxHits := min (max r.maxHits 1) (max ceiling 1) }

/-- Read a request. No more than `ceiling` hits can be asked for. -/
def parse (start stop : Vec3 Float32) (options : List OptionValue) (ceiling : Nat) :
    Except RequestError Request :=
  let segment : Segment Float32 := ⟨start, stop⟩
  if !segment.isFinite then .error .nonFiniteRay
  else if options.length % 2 ≠ 0 then .error (.oddArity options.length)
  else ((Request.mk segment {} false false {} 1).withOptions 0 options).map (·.clamped ceiling)

def wantsAgents (r : Request) : Bool := !r.reject.agents

def wantsLand (r : Request) : Bool := !r.reject.land

/-- Objects of one kind or the other are looked at. -/
def wantsObjects (r : Request) : Bool := !(r.reject.physical && r.reject.nonphysical)

end Request

end Sightline
