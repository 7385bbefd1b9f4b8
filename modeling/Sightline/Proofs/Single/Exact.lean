import Mathlib.Tactic
import Sightline.Proofs.Single.Units

/-!
# Exact operations

A whole number of units with at most 24 significant bits is a single. So an operation does not round
where its exact result is such a number: whole numbers up to `2 ^ 24` convert without loss, and the
difference of two singles is exact where it is one.
-/

namespace Sightline

namespace Single

open Float.Model (Format UnpackedFloat totalExponent)
open Float.Model.UnpackedFloat

/-! ### Packing and unpacking -/

lemma ofBitVec_toBitVec (s : Sign) : Sign.ofBitVec s.toBitVec = s := by cases s <;> rfl

lemma unpack_subnormal (s : Sign) {m : BitVec 23} (hm : 0 < m.toNat) :
    UnpackedFloat.unpack Format.binary32 (packComponents Format.binary32 s 0#8 m) =
      .finite s m.toNat (-149) hm := by
  have hne : m ≠ 0#23 := fun h => hm.ne' (congrArg BitVec.toNat h)
  simp only [UnpackedFloat.unpack, unpackMantissa_packComponents, unpackExponent_packComponents,
    unpackSign_packComponents, ofBitVec_toBitVec]
  rw [if_neg (by decide), if_true, dif_neg hne]
  rfl

lemma unpack_normal (s : Sign) {e : BitVec 8} (hlow : e ≠ 0#8) (htop : e ≠ -1#8) (m : BitVec 23)
    (hm : 0 < (1#1 ++ m).toNat) :
    UnpackedFloat.unpack Format.binary32 (packComponents Format.binary32 s e m) =
      .finite s (1#1 ++ m).toNat (e.toNat - (127 + 23)) hm := by
  simp only [UnpackedFloat.unpack, unpackMantissa_packComponents, unpackExponent_packComponents,
    unpackSign_packComponents, ofBitVec_toBitVec]
  rw [if_neg htop, if_neg hlow]
  rfl

/-- What is in canonical form is stored without loss. -/
lemma unpack_pack {u : UnpackedFloat} (hu : Canonical u) :
    UnpackedFloat.unpack Format.binary32 (UnpackedFloat.pack Format.binary32 u) = u := by
  cases u with
  | notANumber => rfl
  | zero s => cases s <;> rfl
  | infinity s => cases s <;> rfl
  | finite s m e hm =>
    obtain ⟨hbits, hlow, hhigh, hnormal⟩ := hu
    rcases lt_or_ge m (2 ^ 23) with hsub | hfull
    · obtain ⟨v, rfl⟩ : ∃ v : BitVec 23, m = v.toNat := ⟨⟨m, hsub⟩, rfl⟩
      obtain rfl : e = -149 := hnormal.resolve_left (by omega)
      rw [pack_subnormal s hm, unpack_subnormal s hm]
    · obtain ⟨v, rfl⟩ : ∃ v : BitVec 23, m = (1#1 ++ v).toNat := by
        have hrest : m - 2 ^ 23 < 2 ^ 23 := by omega
        refine ⟨⟨m - 2 ^ 23, hrest⟩, ?_⟩
        rw [toNat_one_append]
        exact (Nat.add_sub_cancel' hfull).symm
      obtain ⟨field, rfl, hzero, htop⟩ : ∃ field : BitVec 8,
          e = field.toNat - (127 + 23) ∧ field ≠ 0#8 ∧ field ≠ -1#8 := by
        have hfield : (e + 150).toNat < 2 ^ 8 := by omega
        have hval : (⟨(e + 150).toNat, hfield⟩ : BitVec 8).toNat = (e + 150).toNat := rfl
        refine ⟨⟨(e + 150).toNat, hfield⟩, ?_, fun h => ?_, fun h => ?_⟩
        · rw [hval]
          omega
        · have := congrArg BitVec.toNat h
          rw [hval, BitVec.toNat_zero] at this
          omega
        · have := congrArg BitVec.toNat h
          rw [hval, show (-1#8).toNat = 255 from rfl] at this
          omega
      rw [pack_normal s htop v hm, unpack_normal s hzero htop v hm]

/-! ### What an unpacked single stands for -/

/-- In the form it is stored in, and standing for a given number of units. -/
structure Stands (u : UnpackedFloat) (z : ℤ) : Prop where
  /-- It is stored without loss. -/
  canonical : Canonical u
  /-- It is a number. -/
  isNumber : u ≠ .notANumber
  /-- The number of units. -/
  units_eq : unitsOf u = z

lemma Stands.of_pack {x : Float32} {u : UnpackedFloat} {z : ℤ} (h : Stands u z)
    (hx : x.toModel = Float32.Model.pack u) : IsNumber x ∧ units x = z := by
  have hunpack : x.toModel.unpack = u := by
    rw [hx]
    exact unpack_pack h.canonical
  rw [IsNumber, units, hunpack]
  exact ⟨h.isNumber, h.units_eq⟩

lemma stands_zero (s : Sign) : Stands (.zero s) 0 := ⟨trivial, by simp, rfl⟩

/-! ### Rounding what need not be rounded -/

/-- The number has at most 24 significant bits and is below what no finite single reaches. -/
def Exact (n : ℕ) : Prop := n < reach ∧ 2 ^ (n.log2 - 23) ∣ n

lemma exact_mul_two_pow {n k : ℕ} (hn : n < 2 ^ 24) (hk : k ≤ 253) : Exact (n * 2 ^ k) := by
  have hpow : 0 < 2 ^ k := Nat.two_pow_pos k
  constructor
  · calc n * 2 ^ k < 2 ^ 24 * 2 ^ k := Nat.mul_lt_mul_of_pos_right hn hpow
      _ ≤ 2 ^ 24 * 2 ^ 253 := Nat.mul_le_mul_left _ (Nat.pow_le_pow_right Nat.zero_lt_two hk)
      _ = reach := by rw [reach, one, ← pow_add, ← pow_add]
  · rcases Nat.eq_zero_or_pos n with rfl | hpos
    · rw [Nat.zero_mul]
      exact dvd_zero _
    · have hlog : (n * 2 ^ k).log2 < k + 24 := by
        rw [Nat.log2_lt (Nat.mul_pos hpos hpow).ne', pow_add, mul_comm]
        exact Nat.mul_lt_mul_of_pos_left hn hpow
      exact Dvd.dvd.mul_left (Nat.pow_dvd_pow 2 (by omega)) n

lemma log2_magnitude {m : ℕ} (hm : 0 < m) (e : ℤ) :
    (magnitude m e).log2 = m.log2 + (e + 149).toNat := by
  have hpow : 0 < 2 ^ (e + 149).toNat := Nat.two_pow_pos _
  have hlog := (Nat.log2_eq_iff hm.ne').mp rfl
  rw [Nat.log2_eq_iff (magnitude_pos hm e).ne', magnitude]
  constructor
  · rw [pow_add]
    exact Nat.mul_le_mul_right _ hlog.1
  · rw [Nat.add_right_comm, pow_add]
    exact Nat.mul_lt_mul_of_pos_right hlog.2 hpow

/-- The exponent a number is brought to depends on its units only. -/
lemma targetExponent_eq {m : ℕ} (hm : 0 < m) {e : ℤ} (he : -149 ≤ e) :
    Format.binary32.targetExponent (totalExponent m e) =
      (((magnitude m e).log2 - 23 : ℕ) : ℤ) - 149 := by
  have hleast : Format.binary32.minExponent = -149 := rfl
  have hbits : (Format.binary32.mantissaBits : ℤ) = 24 := rfl
  rw [log2_magnitude hm e, Format.targetExponent, totalExponent, hleast, hbits]
  omega

lemma magnitude_decreaseExponent (m : ℕ) {e t : ℤ} (ht : -149 ≤ t) (he : -149 ≤ e) :
    magnitude (decreaseExponent m e t).1 (decreaseExponent m e t).2 = magnitude m e := by
  simp only [decreaseExponent, magnitude, Nat.shiftLeft_eq]
  rw [mul_assoc, ← pow_add]
  congr 2
  omega

/-- Dropping bits that are all zero is exact. -/
lemma shiftRight_exact {m n : ℕ} (h : 2 ^ n ∣ m) :
    ExtendedMantissa.ofMantissaAndAccuracy m .exact >>> n =
      ExtendedMantissa.ofMantissaAndAccuracy (m / 2 ^ n) .exact := by
  induction n with
  | zero => rw [pow_zero, Nat.div_one]; rfl
  | succ n ih =>
    have heven : m / 2 ^ n % 2 = 0 := by
      obtain ⟨c, rfl⟩ := h
      rw [pow_succ, mul_assoc, Nat.mul_div_cancel_left _ (Nat.two_pow_pos n), Nat.mul_mod_right]
    change ExtendedMantissa.shiftRightOne
      (ExtendedMantissa.ofMantissaAndAccuracy m .exact >>> n) = _
    rw [ih ((Nat.pow_dvd_pow 2 n.le_succ).trans h), pow_succ, ← Nat.div_div_eq_div_mul]
    simp [ExtendedMantissa.shiftRightOne, ExtendedMantissa.ofMantissaAndAccuracy, heven]

/-- The exact mantissa at the exponent its units ask for. -/
lemma shiftToTargetExponent_exact {m : ℕ} (hm : 0 < m) {e : ℤ} (he : -149 ≤ e)
    (hexact : 2 ^ ((magnitude m e).log2 - 23) ∣ magnitude m e)
    (hle : e ≤ (((magnitude m e).log2 - 23 : ℕ) : ℤ) - 149) :
    shiftToTargetExponent Format.binary32 m e .exact =
      (ExtendedMantissa.ofMantissaAndAccuracy (magnitude m e / 2 ^ ((magnitude m e).log2 - 23))
        .exact, (((magnitude m e).log2 - 23 : ℕ) : ℤ) - 149) := by
  set k := (magnitude m e).log2 - 23 with hk
  have hsplit : k = ((k : ℤ) - 149 - e).toNat + (e + 149).toNat := by omega
  have hpow : 0 < 2 ^ (e + 149).toNat := Nat.two_pow_pos _
  have hdvd : 2 ^ ((k : ℤ) - 149 - e).toNat ∣ m := by
    rw [hsplit, pow_add] at hexact
    exact Nat.dvd_of_mul_dvd_mul_right hpow hexact
  have hdiv : magnitude m e / 2 ^ k = m / 2 ^ ((k : ℤ) - 149 - e).toNat := by
    conv_lhs => rw [hsplit, pow_add, magnitude]
    exact Nat.mul_div_mul_right _ _ hpow
  simp only [shiftToTargetExponent, shiftToExponent, targetExponent_eq hm he, ← hk]
  rw [shiftRight_exact hdvd, hdiv]
  congr 1
  omega

/-- The mantissa that is left has no more bits than a single can hold. -/
lemma canonical_quotient {n : ℕ} (hn : n < reach) (hpos : 0 < n / 2 ^ (n.log2 - 23)) (s : Sign) :
    Canonical (.finite s (n / 2 ^ (n.log2 - 23)) (((n.log2 - 23 : ℕ) : ℤ) - 149) hpos) := by
  have hne : n ≠ 0 := fun h => by simp [h] at hpos
  have hlog := (Nat.log2_eq_iff hne).mp rfl
  have hreach : n.log2 < 277 := by
    rw [Nat.log2_lt hne]
    exact hn.trans_eq (by rw [reach, one, ← pow_add])
  refine ⟨?_, by omega, by omega, ?_⟩
  · rw [Nat.div_lt_iff_lt_mul (Nat.two_pow_pos _), ← pow_add]
    exact hlog.2.trans_le (Nat.pow_le_pow_right Nat.zero_lt_two (by omega))
  · rcases lt_or_ge n.log2 23 with hsub | hfull
    · right
      omega
    · left
      rw [Nat.le_div_iff_mul_le (Nat.two_pow_pos _), ← pow_add]
      exact (Nat.pow_le_pow_right Nat.zero_lt_two (by omega)).trans hlog.1

/-- Rounding keeps what has no more bits than a single can hold. -/
lemma stands_round (s : Sign) {m : ℕ} (hm : 0 < m) {e : ℤ} (he : -149 ≤ e)
    (hexact : Exact (magnitude m e)) :
    Stands (UnpackedFloat.round Format.binary32 s m e) (s.apply (magnitude m e)) := by
  set n := magnitude m e with hn
  set k := n.log2 - 23 with hk
  set t : ℤ := (k : ℤ) - 149 with ht
  have hpos : 0 < n := magnitude_pos hm e
  have hq : 0 < n / 2 ^ k := Nat.div_pos (Nat.le_of_dvd hpos hexact.2) (Nat.two_pow_pos k)
  have hback : n / 2 ^ k * 2 ^ k = n := Nat.div_mul_cancel hexact.2
  -- The exponent is first brought down to the one asked for, then up; the units stay the same.
  obtain ⟨m', e', hdecrease⟩ : ∃ m' e', decreaseExponent m e t = (m', e') := ⟨_, _, rfl⟩
  have hsame : magnitude m' e' = n := by
    have := magnitude_decreaseExponent m (by omega : -149 ≤ t) he
    rwa [hdecrease] at this
  have hm' : 0 < m' := by
    refine Nat.pos_of_ne_zero fun h => hpos.ne' ?_
    rw [← hsame, h, magnitude, Nat.zero_mul]
  have he' : e' = e - ((e - t).toNat : ℤ) := (congrArg Prod.snd hdecrease).symm
  have hfirst := shiftToTargetExponent_exact hm' (by omega : -149 ≤ e')
    (by rw [hsame]; exact hexact.2) (by rw [hsame]; omega)
  rw [hsame, ← hk, ← ht] at hfirst
  -- A second pass finds the exponent where it belongs.
  have hagain : magnitude (n / 2 ^ k) t = n := by
    rw [magnitude, show (t + 149).toNat = k by omega, hback]
  have hsecond := shiftToTargetExponent_exact hq (by omega : -149 ≤ t)
    (by rw [hagain]; exact hexact.2) (by rw [hagain])
  rw [hagain, ← hk, ← ht] at hsecond
  have hround : UnpackedFloat.round Format.binary32 s m e = .finite s (n / 2 ^ k) t hq := by
    simp only [UnpackedFloat.round, targetExponent_eq hm he, ← hn, ← hk, ← ht, hdecrease,
      roundWithAccuracy, hfirst]
    have hkeep : (ExtendedMantissa.ofMantissaAndAccuracy (n / 2 ^ k) .exact).roundedMantissa =
        n / 2 ^ k := rfl
    simp only [hkeep, hsecond]
    exact dif_neg hq.ne'
  rw [hround]
  refine ⟨canonical_quotient hexact.1 hq s, by simp, ?_⟩
  rw [unitsOf, hagain]

/-! ### Operations -/

lemma stands_normalize (z : ℤ) {e : ℤ} (he : -149 ≤ e) (s : Sign)
    (hexact : Exact (magnitude z.natAbs e)) :
    Stands (UnpackedFloat.normalize Format.binary32 z e s) (z * 2 ^ (e + 149).toNat) := by
  have hunits : (magnitude z.natAbs e : ℤ) = z.natAbs * 2 ^ (e + 149).toNat := by
    rw [magnitude, Nat.cast_mul, Nat.cast_pow, Nat.cast_ofNat]
  rw [UnpackedFloat.normalize]
  rcases lt_trichotomy z 0 with hneg | rfl | hpos
  · rw [compare_lt_iff_lt.mpr hneg]
    have hround := stands_round .negative (by omega : 0 < z.natAbs) he hexact
    rw [show (-z).toNat = z.natAbs by omega]
    rwa [Sign.apply, hunits, ← neg_mul, show -(z.natAbs : ℤ) = z by omega] at hround
  · rw [compare_eq_iff_eq.mpr rfl, zero_mul]
    exact stands_zero s
  · rw [compare_gt_iff_gt.mpr hpos]
    have hround := stands_round .positive (by omega : 0 < z.natAbs) he hexact
    rw [show z.toNat = z.natAbs by omega]
    rwa [Sign.apply, hunits, show (z.natAbs : ℤ) = z by omega] at hround

/-- Whole numbers up to `2 ^ 24` have few enough bits. -/
lemma exact_mul_one {n : ℕ} (hn : n ≤ 2 ^ 24) : Exact (n * one) := by
  rcases hn.lt_or_eq with hlt | rfl
  · exact exact_mul_two_pow hlt (by omega)
  · have h := exact_mul_two_pow (by omega : 1 < 2 ^ 24) (by omega : 173 ≤ 253)
    rwa [Nat.one_mul, show 173 = 24 + 149 from rfl, pow_add] at h

/-- Whole numbers up to `2 ^ 24` are singles. -/
lemma ofNat_exact {n : ℕ} (hn : n ≤ 2 ^ 24) : IsNumber (ofNat n) ∧ units (ofNat n) = n * one := by
  have hword : (UInt64.ofNat n).toNat = n := UInt64.toNat_ofNat_of_lt (by
    rw [UInt64.size]
    omega)
  have hmodel : (ofNat n).toModel =
      Float32.Model.pack (UnpackedFloat.ofInt Format.binary32 (UInt64.ofNat n).toNat) := rfl
  rw [hword] at hmodel
  have hstands := stands_normalize (n : ℤ) (by omega : -149 ≤ (0 : ℤ)) .positive (exact_mul_one hn)
  exact (hstands.of_pack hmodel).imp_right fun h => h.trans (by simp [one])

lemma apply_natCast_mul (s : Sign) (m n : ℕ) : s.apply (m : ℤ) * n = s.apply ((m * n : ℕ) : ℤ) := by
  cases s <;> simp [Sign.apply]

/-- The units of a mantissa brought down to a lower exponent. -/
lemma apply_decreaseExponent (s : Sign) (m : ℕ) {e t : ℤ} (ht : -149 ≤ t) (he : t ≤ e) :
    s.apply ((decreaseExponent m e t).1 : ℤ) * 2 ^ (t + 149).toNat = s.apply (magnitude m e) := by
  have hexponent : (decreaseExponent m e t).2 = t := by
    simp only [decreaseExponent]
    omega
  have hsame := magnitude_decreaseExponent m ht (ht.trans he)
  rw [hexponent] at hsame
  rw [← hsame, magnitude, ← apply_natCast_mul, Nat.cast_pow, Nat.cast_ofNat]

lemma stands_sub_finite {s s' : Sign} {m m' : ℕ} {e e' : ℤ} {hm : 0 < m} {hm' : 0 < m'}
    (he : -149 ≤ e) (he' : -149 ≤ e')
    (hexact : Exact (s.apply (magnitude m e) - s'.apply (magnitude m' e')).natAbs) :
    Stands (UnpackedFloat.sub Format.binary32 (.finite s m e hm) (.finite s' m' e' hm'))
      (s.apply (magnitude m e) - s'.apply (magnitude m' e')) := by
  have hlow : -149 ≤ min e e' := le_min he he'
  rw [← apply_decreaseExponent s m hlow (min_le_left e e'),
    ← apply_decreaseExponent s' m' hlow (min_le_right e e'), ← sub_mul] at hexact ⊢
  refine stands_normalize _ hlow .positive ?_
  rwa [Int.natAbs_mul, Int.natAbs_pow] at hexact

/-- A difference that needs no rounding is exact. -/
lemma stands_sub {u v : UnpackedFloat} (hu : Canonical u) (hv : Canonical v)
    (hu' : u ≠ .notANumber) (hv' : v ≠ .notANumber) (hufinite : (unitsOf u).natAbs < reach)
    (hvfinite : (unitsOf v).natAbs < reach) (hexact : Exact (unitsOf u - unitsOf v).natAbs) :
    Stands (UnpackedFloat.sub Format.binary32 u v) (unitsOf u - unitsOf v) := by
  have hinfinite (s : Sign) : ¬ (unitsOf (.infinity s)).natAbs < reach := by
    cases s <;> simp [unitsOf, Sign.apply]
  cases u with
  | notANumber => exact absurd rfl hu'
  | infinity s => exact absurd hufinite (hinfinite s)
  | zero s =>
    cases v with
    | notANumber => exact absurd rfl hv'
    | infinity s' => exact absurd hvfinite (hinfinite s')
    | zero s' => cases s <;> cases s' <;> exact stands_zero _
    | finite s' m' e' hm' =>
      refine ⟨hv, by simp [UnpackedFloat.sub], ?_⟩
      cases s' <;> simp [UnpackedFloat.sub, unitsOf, Sign.apply]
  | finite s m e hm =>
    cases v with
    | notANumber => exact absurd rfl hv'
    | infinity s' => exact absurd hvfinite (hinfinite s')
    | zero s' =>
      have hsub : UnpackedFloat.sub Format.binary32 (.finite s m e hm) (.zero s') =
          .finite s m e hm := rfl
      rw [hsub, unitsOf, Int.sub_zero]
      exact ⟨hu, by simp, rfl⟩
    | finite s' m' e' hm' => exact stands_sub_finite hu.2.1 hv.2.1 hexact

lemma sub_exact {x y : Float32} (hx : IsNumber x) (hy : IsNumber y)
    (hxfinite : (units x).natAbs < reach) (hyfinite : (units y).natAbs < reach)
    (hexact : Exact (units x - units y).natAbs) :
    IsNumber (x - y) ∧ units (x - y) = units x - units y :=
  (stands_sub (canonical x) (canonical y) hx hy hxfinite hyfinite hexact).of_pack rfl

/-! ### Whole numbers -/

/-- Going one down from a whole number up to `2 ^ 24` does not round. -/
lemma ofNat_sub_one {n : ℕ} (hn : n ≤ 2 ^ 24) (hpos : 0 < n) :
    IsNumber (ofNat n - 1) ∧ units (ofNat n - 1) = ((n - 1 : ℕ) : ℤ) * one := by
  obtain ⟨hnumber, hunits⟩ := ofNat_exact hn
  obtain ⟨hnumber', hunits'⟩ := ofNat_exact (by omega : 1 ≤ 2 ^ 24)
  have hone : (1 : Float32) = ofNat 1 := rfl
  have hdiff : units (ofNat n) - units (1 : Float32) = ((n - 1 : ℕ) : ℤ) * one := by
    rw [hone, hunits, hunits', ← sub_mul, Nat.cast_sub hpos]
  have hbound (k : ℕ) (hk : k ≤ 2 ^ 24) : Exact ((k : ℤ) * one).natAbs := by
    rw [Int.natAbs_mul, Int.natAbs_natCast, Int.natAbs_natCast]
    exact exact_mul_one hk
  rw [← hdiff]
  refine sub_exact hnumber hnumber' ?_ ?_ ?_
  · rw [hunits]
    exact (hbound n hn).1
  · rw [hone, hunits']
    exact (hbound 1 (by omega)).1
  · rw [hdiff]
    exact hbound (n - 1) (by omega)

/-- Taking the whole part gives the whole number back. -/
lemma toNat_of_units {x : Float32} {n : ℕ} (hx : units x = n * one) (hn : n < UInt64.size) :
    toNat x = n := by
  have hone : 0 < one := Nat.two_pow_pos _
  rw [toNat_eq, hx, ← Nat.cast_mul, Int.toNat_natCast, Nat.mul_div_cancel _ hone]
  exact min_eq_left (Nat.le_sub_one_of_lt hn)

/-- Whole parts keep the order. -/
lemma toNat_le_toNat {x y : Float32} (h : units x ≤ units y) : toNat x ≤ toNat y := by
  rw [toNat_eq, toNat_eq]
  exact min_le_min_right _ (Nat.div_le_div_right (Int.toNat_le_toNat h))

end Single

end Sightline
