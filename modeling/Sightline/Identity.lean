/-!
# Identities

Names of the things a query can hit, of the places it runs in, of the users it is billed to, and of
the assets behind a shape. Each kind of name is a type of its own.
-/

namespace Sightline

/-- The last `width` hexadecimal digits of a number, most significant first. -/
def hexDigits : (width : Nat) → Nat → List Char
  | 0, _ => []
  | width + 1, n => hexDigits width (n / 16) ++ [Nat.digitChar (n % 16)]

/-- Names anything a ray can hit. -/
structure EntityId where
  value : UInt64
deriving DecidableEq, Repr

namespace EntityId

/-- Stands for the ground, which has no name of its own. -/
def terrain : EntityId := ⟨0⟩

/-- The name as scripts see it: sixteen lower-case hexadecimal digits. -/
def text (id : EntityId) : String := String.ofList (hexDigits 16 id.value.toNat)

end EntityId

structure RegionId where
  value : UInt64
deriving DecidableEq, Repr

/-- Names the user a call is billed to. -/
structure UserId where
  value : UInt64
deriving DecidableEq, Repr

/-- Names the asset that holds the surface of a sculpted or meshed shape. -/
structure AssetId where
  value : Nat
deriving DecidableEq, Repr

def AssetId.text (id : AssetId) : String := s!"AssetId({id.value})"

end Sightline
