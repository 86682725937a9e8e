import Causeway.Object.Builtin
import Mathlib.Algebra.Order.Field.Rat
import Mathlib.Data.Rat.Cast.Order
import Mathlib.Tactic.Linarith
import Mathlib.Tactic.NormNum
import Mathlib.Tactic.Ring
/-!
# Exact numbers

The number that a binary64 datum denotes, as a rational. All finite data are multiples of
`2 ^ -1074`, and the word of a datum follows from its number but for the sign of zero. So a datum is
integral exactly when its number is an integer, and two data have one key exactly when they denote
one number. What an integer has in common with a datum is checked by size, and the check stops one
short: `-2 ^ 63` is an integer of 64 bits, and the datum that denotes it keeps a key of its own.
-/
set_option autoImplicit false

namespace Causeway

inductive Number where
  | finite (value : ℚ)
  | infinite (negative : Bool)
deriving DecidableEq

namespace Binary64

variable {x y : Binary64}

def magnitude (x : Binary64) : ℚ := x.significand * 2 ^ x.exponent

def value (x : Binary64) : ℚ := if x.negative then -x.magnitude else x.magnitude

def number? (x : Binary64) : Option Number :=
  if x.isNaN then none
  else if x.isInfinite then some (.infinite x.negative)
  else some (.finite x.value)

theorem fraction_lt (x : Binary64) : x.fraction < 2 ^ 52 := Nat.mod_lt _ (by decide)

theorem ext_parts (hsign : x.negative = y.negative) (hfield : x.field = y.field)
    (hfraction : x.fraction = y.fraction) : x = y := by
  have hx := x.bits.toNat_lt
  have hy := y.bits.toNat_lt
  have hsign' : x.bits.toNat / 2 ^ 63 % 2 = y.bits.toNat / 2 ^ 63 % 2 := by
    simp only [negative, Nat.pow_eq] at hsign
    rw [Bool.eq_iff_iff] at hsign
    simp only [beq_iff_eq] at hsign
    omega
  simp only [field, fraction, Nat.pow_eq] at hfield hfraction
  obtain ⟨a⟩ := x
  obtain ⟨b⟩ := y
  refine congrArg Binary64.mk (UInt64.toNat_inj.1 ?_)
  dsimp only at *
  omega

def grains (x : Binary64) : Nat := x.significand * 2 ^ (x.field - 1)

theorem magnitude_eq (x : Binary64) : x.magnitude = x.grains * (2 : ℚ) ^ (-1074 : ℤ) := by
  have hexponent : x.exponent = ((x.field - 1 : ℕ) : ℤ) + -1074 := by
    unfold exponent
    split <;> omega
  rw [magnitude, grains, hexponent, zpow_add₀ two_ne_zero, zpow_natCast, Nat.cast_mul, Nat.cast_pow,
    Nat.cast_ofNat, mul_assoc]

theorem magnitude_nonneg (x : Binary64) : 0 ≤ x.magnitude :=
  mul_nonneg (Nat.cast_nonneg _) (zpow_nonneg two_pos.le _)

theorem grains_inj (h : x.magnitude = y.magnitude) : x.grains = y.grains := by
  rw [magnitude_eq, magnitude_eq] at h
  exact_mod_cast mul_right_cancel₀ (zpow_ne_zero _ two_ne_zero) h

/-- A greater field is a greater magnitude, unless both are the least. -/
theorem grains_lt (hfield : x.field < y.field) (hleast : 1 < y.field) : x.grains < y.grains := by
  have hx : x.significand < 2 ^ 53 := by
    have := x.fraction_lt
    unfold significand
    simp only [Nat.pow_eq]
    split <;> omega
  have hy : 2 ^ 52 ≤ y.significand := by
    unfold significand
    simp only [Nat.pow_eq]
    split <;> omega
  calc x.grains < 2 ^ 53 * 2 ^ (x.field - 1) :=
        Nat.mul_lt_mul_of_pos_right hx (Nat.two_pow_pos _)
    _ = 2 ^ 52 * 2 ^ (x.field - 1 + 1) := by ring
    _ ≤ 2 ^ 52 * 2 ^ (y.field - 1) :=
        Nat.mul_le_mul_left _ (Nat.pow_le_pow_right two_pos (by omega))
    _ ≤ y.grains := Nat.mul_le_mul_right _ hy

theorem parts_of_grains (h : x.grains = y.grains) :
    x.field = y.field ∧ x.fraction = y.fraction := by
  have hx := x.fraction_lt
  have hy := y.fraction_lt
  have hfields : x.field = y.field ∨ (x.field ≤ 1 ∧ y.field ≤ 1) := by
    rcases lt_trichotomy x.field y.field with hlt | heq | hlt
    · by_cases hleast : 1 < y.field
      · have := grains_lt hlt hleast
        omega
      · omega
    · exact .inl heq
    · by_cases hleast : 1 < x.field
      · have := grains_lt hlt hleast
        omega
      · omega
  have hsignificand : x.significand = y.significand := by
    have hpower : x.field - 1 = y.field - 1 := by omega
    unfold grains at h
    rw [hpower] at h
    exact Nat.eq_of_mul_eq_mul_right (Nat.two_pow_pos _) h
  unfold significand at hsignificand
  simp only [Nat.pow_eq] at hsignificand
  split at hsignificand <;> split at hsignificand <;> omega

theorem sign_of_value (h : x.value = y.value) (hzero : x.value ≠ 0) :
    x.negative = y.negative ∧ x.magnitude = y.magnitude := by
  have hx := x.magnitude_nonneg
  have hy := y.magnitude_nonneg
  unfold value at h hzero
  cases hxs : x.negative with
  | false =>
    cases hys : y.negative with
    | false => simpa [hxs, hys] using h
    | true =>
      simp only [hxs, hys, if_true, Bool.false_eq_true, if_false] at h hzero
      exact absurd (by linarith) hzero
  | true =>
    cases hys : y.negative with
    | false =>
      simp only [hxs, hys, if_true, Bool.false_eq_true, if_false] at h hzero
      exact absurd (by linarith) hzero
    | true => simpa [hxs, hys] using h

/-- Data that denote one number are one datum, or both zero. -/
theorem eq_of_value_eq (h : x.value = y.value) : x = y ∨ x.value = 0 := by
  by_cases hzero : x.value = 0
  · exact .inr hzero
  · obtain ⟨hsign, hmagnitude⟩ := sign_of_value h hzero
    obtain ⟨hfield, hfraction⟩ := parts_of_grains (grains_inj hmagnitude)
    exact .inl (ext_parts hsign hfield hfraction)

theorem natural_iff (x : Binary64) (n : Nat) :
    (if 0 ≤ x.exponent then some (x.significand * Nat.pow 2 x.exponent.toNat)
      else if x.significand % Nat.pow 2 (-x.exponent).toNat = 0 then
        some (x.significand / Nat.pow 2 (-x.exponent).toNat)
      else none) = some n ↔ x.magnitude = n := by
  unfold magnitude
  simp only [Nat.pow_eq]
  by_cases hpos : 0 ≤ x.exponent
  · obtain ⟨e, he⟩ : ∃ e : ℕ, x.exponent = e := ⟨x.exponent.toNat, by omega⟩
    rw [if_pos hpos, he, zpow_natCast, Int.toNat_natCast, Option.some.injEq]
    exact_mod_cast Iff.rfl
  · obtain ⟨e, he⟩ : ∃ e : ℕ, x.exponent = -(e : ℤ) := ⟨(-x.exponent).toNat, by omega⟩
    have hpower : (2 : ℚ) ^ e ≠ 0 := pow_ne_zero _ two_ne_zero
    rw [if_neg hpos, he, neg_neg, Int.toNat_natCast, zpow_neg, zpow_natCast, ← div_eq_mul_inv,
      div_eq_iff hpower]
    constructor
    · intro hsome
      split at hsome
      · rename_i hdvd
        rw [← Option.some.inj hsome]
        exact_mod_cast (Nat.div_mul_cancel (Nat.dvd_of_mod_eq_zero hdvd)).symm
      · cases hsome
    · intro hn
      have hn : x.significand = n * 2 ^ e := by exact_mod_cast hn
      rw [hn, Nat.mul_mod_left, if_pos rfl, Nat.mul_div_cancel _ (Nat.two_pow_pos _)]

theorem integer?_eq_some {i : Int} : x.integer? = some i ↔ x.isFinite = true ∧ x.value = i := by
  unfold integer?
  cases hfinite : x.isFinite with
  | false => simp
  | true =>
    simp only [Bool.not_true, Bool.false_eq_true, if_false, true_and, Option.map_eq_some_iff,
      Option.bind_eq_bind, Option.bind_eq_some_iff, Option.pure_def, Option.some.injEq, natural_iff]
    unfold value
    have hx := x.magnitude_nonneg
    cases hsign : x.negative with
    | false =>
      simp only [Bool.false_eq_true, if_false]
      constructor
      · rintro ⟨_, ⟨n, hn, rfl⟩, rfl⟩
        rw [hn, Int.cast_natCast]
      · intro hi
        rw [hi] at hx
        obtain ⟨n, rfl⟩ := Int.eq_ofNat_of_zero_le (Int.cast_nonneg_iff.1 hx)
        exact ⟨n, ⟨n, by exact_mod_cast hi, rfl⟩, rfl⟩
    | true =>
      simp only [if_true]
      constructor
      · rintro ⟨_, ⟨n, hn, rfl⟩, rfl⟩
        rw [hn, Int.cast_neg, Int.cast_natCast]
      · intro hi
        have hi : x.magnitude = ((-i : ℤ) : ℚ) := by
          rw [Int.cast_neg, ← hi, neg_neg]
        rw [hi] at hx
        obtain ⟨n, hn⟩ := Int.eq_ofNat_of_zero_le (Int.cast_nonneg_iff.1 hx)
        refine ⟨n, ⟨n, ?_, rfl⟩, by omega⟩
        rw [hi, hn, Int.cast_natCast]

theorem number?_eq_finite {q : ℚ} :
    x.number? = some (.finite q) ↔ x.isFinite = true ∧ x.value = q := by
  unfold number? isNaN isInfinite isFinite
  by_cases hfield : x.field = 2047 <;> by_cases hfraction : x.fraction = 0 <;>
    simp [hfield, hfraction]

theorem number?_eq_infinite {s : Bool} :
    x.number? = some (.infinite s) ↔ x.field = 2047 ∧ x.fraction = 0 ∧ x.negative = s := by
  unfold number? isNaN isInfinite
  by_cases hfield : x.field = 2047 <;> by_cases hfraction : x.fraction = 0 <;>
    simp [hfield, hfraction]

theorem integer?_eq_some_iff {i : Int} : x.integer? = some i ↔ x.number? = some (.finite i) :=
  integer?_eq_some.trans number?_eq_finite.symm

end Binary64

namespace Key

variable {x y : Binary64} {i : Int64}

theorem ofFloat_eq_int : ofFloat x = .int i ↔
    x.number? = some (.finite i.toInt) ∧ i ≠ Int64.minValue := by
  have hlow := i.le_toInt
  have hhigh := i.toInt_lt
  have hleast : i = Int64.minValue ↔ i.toInt = -2 ^ 63 := by
    rw [← Int64.toInt_inj, Int64.toInt_minValue]
  rw [← Binary64.integer?_eq_some_iff, Ne, hleast]
  unfold ofFloat
  simp only [Nat.pow_eq]
  cases x.integer? with
  | none => simp
  | some j =>
    dsimp only
    rw [Option.some.injEq]
    split
    · rename_i hsmall
      have hj : (Int64.ofInt j).toInt = j := Int64.toInt_ofInt_of_le (by omega) (by omega)
      rw [Key.int.injEq, ← Int64.toInt_inj, hj]
      omega
    · rename_i hlarge
      constructor
      · intro h
        cases h
      · rintro ⟨rfl, hne⟩
        omega

theorem ofFloat_cases (x : Binary64) : (∃ i, ofFloat x = .int i) ∨ ofFloat x = .float x.bits := by
  unfold ofFloat
  split
  · split
    · exact .inl ⟨_, rfl⟩
    · exact .inr rfl
  · exact .inr rfl

theorem ofFloat_eq_ofFloat {m n : Number} (hx : x.number? = some m) (hy : y.number? = some n) :
    ofFloat x = ofFloat y ↔ m = n := by
  constructor
  · intro h
    obtain ⟨i, hi⟩ | hbits := ofFloat_cases x
    · obtain ⟨hx', -⟩ := ofFloat_eq_int.1 hi
      obtain ⟨hy', -⟩ := ofFloat_eq_int.1 (h ▸ hi)
      rw [hx] at hx'
      rw [hy] at hy'
      exact Option.some.inj (hx'.trans hy'.symm)
    · rw [hbits] at h
      obtain ⟨j, hj⟩ | hbits' := ofFloat_cases y
      · rw [hj] at h
        cases h
      · rw [hbits'] at h
        have hsame : x = y := congrArg Binary64.mk (Key.float.inj h)
        rw [hsame, hy] at hx
        exact (Option.some.inj hx).symm
  · rintro rfl
    cases m with
    | infinite s =>
      obtain ⟨hfield, hfraction, hsign⟩ := Binary64.number?_eq_infinite.1 hx
      obtain ⟨hfield', hfraction', hsign'⟩ := Binary64.number?_eq_infinite.1 hy
      rw [Binary64.ext_parts (hsign.trans hsign'.symm) (hfield.trans hfield'.symm)
        (hfraction.trans hfraction'.symm)]
    | finite q =>
      obtain ⟨-, hvalue⟩ := Binary64.number?_eq_finite.1 hx
      obtain ⟨-, hvalue'⟩ := Binary64.number?_eq_finite.1 hy
      obtain rfl | hzero := Binary64.eq_of_value_eq (hvalue.trans hvalue'.symm)
      · rfl
      · obtain rfl : q = 0 := hvalue.symm.trans hzero
        have hzero' : ((0 : Int64).toInt : ℚ) = 0 := by simp
        rw [ofFloat_eq_int.2 ⟨by rw [hx, hzero'], by decide⟩,
          ofFloat_eq_int.2 ⟨by rw [hy, hzero'], by decide⟩]

end Key

end Causeway
