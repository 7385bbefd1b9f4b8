import Mathlib.Tactic
import Sightline.Mesh.Basic

/-!
# Meshes of indices

Indices are taken three at a time and looked up one after the other, and the first one that points
past the end of the points is reported. So only the indices of whole triangles matter: when all of
these point to points there is a mesh, whose triangles are the triples in order, and otherwise the
first one that does not is the reason why there is none.
-/

namespace Sightline

namespace Mesh

variable {α : Type} {vertices : Array (Vec3 α)} {indices : List UInt32} {index : UInt32}

/-! ### Looking up -/

/-- The index points past the end of the points. -/
def isBeyond (vertices : Array (Vec3 α)) (index : UInt32) : Bool :=
  decide (vertices.size ≤ index.toNat)

lemma isBeyond_eq_false_iff : isBeyond vertices index = false ↔ index.toNat < vertices.size := by
  rw [isBeyond, decide_eq_false_iff_not, not_le]

lemma vertex_eq_ok (h : index.toNat < vertices.size) :
    vertex vertices index = .ok vertices[index.toNat] := by
  rw [vertex, Array.getElem?_eq_getElem h]

lemma vertex_eq_error (h : isBeyond vertices index = true) :
    vertex vertices index = .error (.invalidIndex index vertices.size) := by
  rw [vertex, Array.getElem?_eq_none (of_decide_eq_true h)]

/-- The point that the index at a place of the list points to. -/
def corner? (vertices : Array (Vec3 α)) (indices : List UInt32) (place : ℕ) : Option (Vec3 α) :=
  indices[place]?.bind fun index => vertices[index.toNat]?

lemma corner?_of_getElem? {place : ℕ} (hplace : indices[place]? = some index)
    (h : index.toNat < vertices.size) :
    corner? vertices indices place = some vertices[index.toNat] := by
  rw [corner?, hplace, Option.bind_some, Array.getElem?_eq_getElem h]

/-! ### Whole triples -/

/-- The indices that belong to whole triangles. -/
def wholeTriples (indices : List UInt32) : List UInt32 :=
  indices.take (3 * (indices.length / 3))

lemma length_wholeTriples (indices : List UInt32) :
    (wholeTriples indices).length = 3 * (indices.length / 3) := by
  rw [wholeTriples, List.length_take]
  omega

lemma wholeTriples_cons (i j k : UInt32) (rest : List UInt32) :
    wholeTriples (i :: j :: k :: rest) = [i, j, k] ++ wholeTriples rest := by
  have hlength : 3 * ((i :: j :: k :: rest).length / 3) = 3 * (rest.length / 3) + 3 := by
    simp only [List.length_cons]
    omega
  rw [wholeTriples, hlength]
  rfl

lemma wholeTriples_of_short (h : indices.length < 3) : wholeTriples indices = [] := by
  rw [wholeTriples, Nat.div_eq_of_lt h, Nat.mul_zero, List.take_zero]

/-- What is left after the last whole triple does not make another one. -/
lemma wholeTriples_append {rest : List UInt32} (h : rest.length < 3) :
    wholeTriples (wholeTriples indices ++ rest) = wholeTriples indices := by
  have hlength := length_wholeTriples indices
  have hwhole : 3 * ((wholeTriples indices ++ rest).length / 3) = (wholeTriples indices).length := by
    rw [List.length_append, hlength]
    omega
  rw [wholeTriples, hwhole, List.take_left]

lemma length_lt_three (h : ∀ i j k rest, indices = i :: j :: k :: rest → False) :
    indices.length < 3 := by
  match indices with
  | [] | [_] | [_, _] => simp
  | i :: j :: k :: rest => exact (h i j k rest rfl).elim

/-! ### Triangles -/

lemma trianglesOf_of_short (vertices : Array (Vec3 α)) (h : indices.length < 3) :
    trianglesOf vertices indices = .ok [] := by
  rw [trianglesOf]
  rintro i j k rest rfl
  simp only [List.length_cons] at h
  omega

lemma trianglesOf_cons (i j k : UInt32) (rest : List UInt32) (hi : i.toNat < vertices.size)
    (hj : j.toNat < vertices.size) (hk : k.toNat < vertices.size) :
    trianglesOf vertices (i :: j :: k :: rest) = (trianglesOf vertices rest).map
      (⟨vertices[i.toNat], vertices[j.toNat], vertices[k.toNat]⟩ :: ·) := by
  rw [trianglesOf, vertex_eq_ok hi, vertex_eq_ok hj, vertex_eq_ok hk]
  cases trianglesOf vertices rest <;> rfl

/-- The indices of a triple are looked up in order. -/
lemma trianglesOf_cons_error {i j k bad : UInt32} (rest : List UInt32)
    (hbad : [i, j, k].find? (isBeyond vertices) = some bad) :
    trianglesOf vertices (i :: j :: k :: rest) = .error (.invalidIndex bad vertices.size) := by
  rw [trianglesOf]
  cases hi : isBeyond vertices i with
  | true =>
    rw [List.find?_cons_of_pos hi] at hbad
    rw [vertex_eq_error hi, Option.some.inj hbad]
    rfl
  | false =>
    rw [List.find?_cons_of_neg (by rw [hi]; decide)] at hbad
    rw [vertex_eq_ok (isBeyond_eq_false_iff.mp hi)]
    cases hj : isBeyond vertices j with
    | true =>
      rw [List.find?_cons_of_pos hj] at hbad
      rw [vertex_eq_error hj, Option.some.inj hbad]
      rfl
    | false =>
      rw [List.find?_cons_of_neg (by rw [hj]; decide)] at hbad
      rw [vertex_eq_ok (isBeyond_eq_false_iff.mp hj)]
      have hk : isBeyond vertices bad = true := List.find?_some hbad
      obtain rfl : bad = k := List.mem_singleton.mp (List.mem_of_find?_eq_some hbad)
      rw [vertex_eq_error hk]
      rfl

/-- Only the indices of whole triples are looked at. -/
lemma trianglesOf_wholeTriples (vertices : Array (Vec3 α)) (indices : List UInt32) :
    trianglesOf vertices (wholeTriples indices) = trianglesOf vertices indices := by
  induction indices using trianglesOf.induct with
  | case1 i j k rest ih =>
    rw [wholeTriples_cons, List.cons_append, List.cons_append, List.cons_append, List.nil_append,
      trianglesOf, trianglesOf, ih]
  | case2 indices hshort =>
    have hlength := length_lt_three hshort
    rw [wholeTriples_of_short hlength, trianglesOf_of_short vertices hlength]
    exact trianglesOf_of_short vertices (by simp)

/-- The triangles are the triples of points that the indices point to, in order. -/
structure AreIndexed (vertices : Array (Vec3 α)) (indices : List UInt32)
    (triangles : List (Triangle α)) : Prop where
  /-- There are as many as there are whole triples. -/
  length_eq : triangles.length = indices.length / 3
  /-- The corners of each are the points of its triple. -/
  corners : ∀ (place : ℕ) (tri : Triangle α), triangles[place]? = some tri →
    corner? vertices indices (3 * place) = some tri.a ∧
    corner? vertices indices (3 * place + 1) = some tri.b ∧
    corner? vertices indices (3 * place + 2) = some tri.c

lemma areIndexed_of_short (vertices : Array (Vec3 α)) (h : indices.length < 3) :
    AreIndexed vertices indices [] where
  length_eq := (Nat.div_eq_of_lt h).symm
  corners := by simp

/-- A triple of indices puts a triangle before the others. -/
lemma AreIndexed.cons {i j k : UInt32} {rest : List UInt32} {triangles : List (Triangle α)}
    (h : AreIndexed vertices rest triangles) (hi : i.toNat < vertices.size)
    (hj : j.toNat < vertices.size) (hk : k.toNat < vertices.size) :
    AreIndexed vertices (i :: j :: k :: rest)
      (⟨vertices[i.toNat], vertices[j.toNat], vertices[k.toNat]⟩ :: triangles) where
  length_eq := by
    simp only [List.length_cons, h.length_eq]
    omega
  corners := by
    intro place tri htri
    cases place with
    | zero =>
      obtain rfl := Option.some.inj htri
      exact ⟨corner?_of_getElem? rfl hi, corner?_of_getElem? rfl hj, corner?_of_getElem? rfl hk⟩
    | succ place => exact h.corners place tri htri

/-- Looking up ends at the first index of a whole triple that points past the end, or with all
triangles if there is none. -/
lemma trianglesOf_cases (vertices : Array (Vec3 α)) (indices : List UInt32) :
    match (wholeTriples indices).find? (isBeyond vertices) with
    | some bad => trianglesOf vertices indices = .error (.invalidIndex bad vertices.size)
    | none => ∃ triangles, trianglesOf vertices indices = .ok triangles ∧
        AreIndexed vertices indices triangles := by
  induction indices using trianglesOf.induct with
  | case1 i j k rest ih =>
    rw [wholeTriples_cons, List.find?_append]
    cases hfirst : [i, j, k].find? (isBeyond vertices) with
    | some bad => exact trianglesOf_cons_error rest hfirst
    | none =>
      simp only [List.find?_eq_none, List.forall_mem_cons, Bool.not_eq_true,
        isBeyond_eq_false_iff] at hfirst
      obtain ⟨hi, hj, hk, -⟩ := hfirst
      rw [Option.none_or, trianglesOf_cons i j k rest hi hj hk]
      split at ih
      next bad _ =>
        rw [ih]
        rfl
      next =>
        obtain ⟨triangles, htriangles, hindexed⟩ := ih
        rw [htriangles]
        exact ⟨_, rfl, hindexed.cons hi hj hk⟩
  | case2 indices hshort =>
    have hlength := length_lt_three hshort
    rw [wholeTriples_of_short hlength]
    exact ⟨[], trianglesOf_of_short vertices hlength, areIndexed_of_short vertices hlength⟩

/-! ### Meshes -/

lemma ofIndexed_of_ok {triangles : List (Triangle α)}
    (h : trianglesOf vertices indices = .ok triangles) :
    ofIndexed vertices indices = .ok ⟨triangles⟩ := by
  rw [ofIndexed, h]
  rfl

lemma ofIndexed_of_error {e : MeshError} (h : trianglesOf vertices indices = .error e) :
    ofIndexed vertices indices = .error e := by
  rw [ofIndexed, h]
  rfl

/-- Indices after the whole triples make no difference. -/
lemma ofIndexed_append (vertices : Array (Vec3 α)) (indices : List UInt32) {rest : List UInt32}
    (h : rest.length < 3) :
    ofIndexed vertices (wholeTriples indices ++ rest) = ofIndexed vertices indices := by
  rw [ofIndexed, ofIndexed, ← trianglesOf_wholeTriples vertices (wholeTriples indices ++ rest),
    wholeTriples_append h, trianglesOf_wholeTriples]

/-- There is a mesh exactly when all indices of whole triples point to points, and then its triangles
are those triples. Otherwise the first of these indices that points past the end is reported. Up to
two indices after the whole triples make no difference. -/
theorem ofIndexed_looksUp (vertices : Array (Vec3 α)) (indices : List UInt32) :
    ((∃ mesh, ofIndexed vertices indices = .ok mesh) ↔
      ∀ index ∈ wholeTriples indices, index.toNat < vertices.size) ∧
    (∀ mesh, ofIndexed vertices indices = .ok mesh →
      AreIndexed vertices indices mesh.triangles) ∧
    (∀ e, ofIndexed vertices indices = .error e ↔
      ∃ bad, (wholeTriples indices).find? (isBeyond vertices) = some bad ∧
        e = .invalidIndex bad vertices.size) ∧
    ∀ rest : List UInt32, rest.length < 3 →
      ofIndexed vertices (wholeTriples indices ++ rest) = ofIndexed vertices indices := by
  have hcases := trianglesOf_cases vertices indices
  cases hfind : (wholeTriples indices).find? (isBeyond vertices) with
  | some bad =>
    rw [hfind] at hcases
    have herror := ofIndexed_of_error hcases
    have hbad : ¬ bad.toNat < vertices.size := by
      rw [← isBeyond_eq_false_iff, List.find?_some hfind]
      decide
    rw [herror]
    refine ⟨iff_of_false (by simp) fun h => hbad (h bad (List.mem_of_find?_eq_some hfind)), by simp,
      fun e => ?_, fun rest hrest => (ofIndexed_append vertices indices hrest).trans herror⟩
    simp only [Except.error.injEq, Option.some.injEq, exists_eq_left']
    exact eq_comm
  | none =>
    rw [hfind] at hcases
    obtain ⟨triangles, htriangles, hindexed⟩ := hcases
    have hok := ofIndexed_of_ok htriangles
    have hinside : ∀ index ∈ wholeTriples indices, index.toNat < vertices.size := by
      intro index hindex
      have := List.find?_eq_none.mp hfind index hindex
      rwa [Bool.not_eq_true, isBeyond_eq_false_iff] at this
    rw [hok]
    refine ⟨iff_of_true ⟨_, rfl⟩ hinside, fun mesh hmesh => ?_, by simp,
      fun rest hrest => (ofIndexed_append vertices indices hrest).trans hok⟩
    obtain rfl := Except.ok.inj hmesh
    exact hindexed

/-- A triangle, an index behind it that is not looked at, and an index in a second triangle that
comes before another wrong one. -/
theorem ofIndexed_looksUp_behind :
    let vertices : Array (Vec3 ℕ) := #[⟨0, 0, 0⟩, ⟨1, 0, 0⟩, ⟨0, 1, 0⟩]
    let mesh : Mesh ℕ := ⟨[⟨⟨0, 0, 0⟩, ⟨1, 0, 0⟩, ⟨0, 1, 0⟩⟩]⟩
    let wrong : List UInt32 := [0, 1, 2, 1, 3, 7, 9]
    ([9] : List UInt32).length < 3 ∧ ofIndexed vertices [0, 1, 2] = .ok mesh ∧
    AreIndexed vertices [0, 1, 2] mesh.triangles ∧
    ofIndexed vertices [0, 1, 2, 9] = .ok mesh ∧
    ofIndexed vertices wrong = .error (.invalidIndex 3 3) := by
  intro vertices mesh wrong
  have hok : ofIndexed vertices [0, 1, 2] = .ok mesh := rfl
  obtain ⟨-, hmesh, -, htail⟩ := ofIndexed_looksUp vertices [0, 1, 2]
  obtain ⟨-, -, herror, -⟩ := ofIndexed_looksUp vertices wrong
  exact ⟨by decide, hok, hmesh mesh hok, (htail [9] (by decide)).trans hok,
    (herror _).mpr ⟨3, by decide, rfl⟩⟩

end Mesh

end Sightline
