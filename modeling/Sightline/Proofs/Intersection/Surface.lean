import Mathlib.Tactic
import Sightline.Intersection.Surface

/-!
# What a hit says

A surface is met only after every check on the way: it has a normal, the ray is neither too short nor
parallel to it, the plane is met within the ray and the point there is on the surface. What is known
of a hit is what these checks say, and how the hit is read off the point.
-/

namespace Sightline

namespace SurfaceTest

variable {α : Type} [Scalar α]

/-- What was found on the way to a hit, check by check, and how the hit is read off the point. The two
checks that depend on the kind of surface are left out. -/
structure Meets (test : SurfaceTest α) (frame : RayFrame α) (tri : Triangle α) (normal : Vec3 α)
    (hit : SurfaceHit α) : Prop where
  normal_eq : tri.normal? test.tolerance = some normal
  long : ¬ frame.delta.norm < test.tolerance
  slanted : ¬ Scalar.abs (normal.dot frame.delta) < test.tolerance * frame.delta.norm
  t_eq : hit.t = (normal.dot tri.a - normal.dot frame.start) / normal.dot frame.delta
  inUnit : Scalar.inUnit hit.t = true
  covered : covers test.tolerance tri normal (frame.pointAt hit.t) = true
  position_eq : hit.position = frame.toWorld (frame.pointAt hit.t)
  outward_eq : hit.normal = if normal.dot frame.delta < 0 then frame.toWorldNormal normal
    else -frame.toWorldNormal normal
  distance_eq : hit.distance = frame.distanceTo hit.position

/-- Every hit went through every check. -/
lemma exists_meets {test : SurfaceTest α} {frame : RayFrame α} {tri : Triangle α}
    {hit : SurfaceHit α} (h : test.intersect? frame tri = some hit) :
    ∃ normal, test.Meets frame tri normal hit := by
  simp only [intersect?, Option.bind_eq_bind, Option.bind_eq_some_iff, Option.guard_eq_some',
    Option.pure_def, Option.some.injEq, exists_and_left, exists_const,
    Bool.not_eq_true', decide_eq_false_iff_not] at h
  obtain ⟨normal, hnormal, hlong, hslanted, -, -, hunit, hcovered, rfl⟩ := h
  exact ⟨normal, {
    normal_eq := hnormal
    long := hlong
    slanted := hslanted
    t_eq := rfl
    inUnit := hunit
    covered := hcovered
    position_eq := rfl
    outward_eq := by simp only [decide_eq_true_eq]
    distance_eq := rfl }⟩

/-- A ray that enters a surface with end caps is met once it passes the other checks. -/
lemma exists_hit {test : SurfaceTest α} {frame : RayFrame α} {tri : Triangle α} {normal : Vec3 α}
    {t : α} (hnormal : tri.normal? test.tolerance = some normal)
    (hlong : ¬ frame.delta.norm < test.tolerance)
    (hslanted : ¬ Scalar.abs (normal.dot frame.delta) < test.tolerance * frame.delta.norm)
    (hentering : normal.dot frame.delta < 0) (hcaps : frame.traits.endCaps = true)
    (ht : (normal.dot tri.a - normal.dot frame.start) / normal.dot frame.delta = t)
    (hunit : Scalar.inUnit t = true)
    (hcovered : covers test.tolerance tri normal (frame.pointAt t) = true) :
    ∃ hit, test.intersect? frame tri = some hit := by
  subst ht
  simp [intersect?, hnormal, hlong, hslanted, hentering, hcaps, hunit, hcovered, guard]

end SurfaceTest

end Sightline
