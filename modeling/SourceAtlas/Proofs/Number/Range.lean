/-
# SourceAtlas.Proofs.Number.Range — which numbers have a double.

Rounding to nearest can fail only above the largest double.  A first bound is one binary place below
that: every fraction below `roundingLimit` has a nearest double (`nearest?_isSome`), so a count
fails to be a double only from it on (`asDouble_error`), and every positive integer, however large,
has a logarithm (`commonLog_ok`), because an integer beyond the doubles is split into a fraction
below one and a power of two.  For integers the bound is sharp at `overflowLimit`, halfway between
the largest double and the next power of two (`ofInt?_eq_none_iff`).  The other way round, a double
has an exact value unless it is infinite or no number (`dyadic?_eq_none_iff`).
-/
import Mathlib
import SourceAtlas.Rank

namespace SourceAtlas.Number

/-! ## Rounded quotients -/

/-- Rounding moves a quotient up by one at most, so it stays within a strict bound. -/
theorem divNearest_le {num den bound : Nat} (h : num < bound * den) :
    divNearest num den ≤ bound := by
  have hwhole : num / den < bound := Nat.div_lt_of_lt_mul (by rwa [Nat.mul_comm])
  unfold divNearest
  simp only
  split <;> omega

/-- A quotient is rounded below an even bound exactly if it is below the bound by more than a half:
a half goes to the bound, which is the even neighbour. -/
theorem divNearest_lt_iff {num den bound : Nat} (hden : 0 < den) (hpos : 0 < bound)
    (heven : bound % 2 = 0) : divNearest num den < bound ↔ 2 * num + den < 2 * (bound * den) := by
  obtain ⟨whole, rest, hnum, hrest⟩ : ∃ whole rest, num = whole * den + rest ∧ rest < den :=
    ⟨num / den, num % den, (Nat.div_add_mod' num den).symm, Nat.mod_lt _ hden⟩
  have hdiv : num / den = whole := by
    rw [hnum, Nat.mul_comm, Nat.mul_add_div hden, Nat.div_eq_of_lt hrest, Nat.add_zero]
  have hmod : num % den = rest := by
    rw [hnum, Nat.mul_comm, Nat.mul_add_mod, Nat.mod_eq_of_lt hrest]
  have hvalue : divNearest num den =
      if den < 2 * rest ∨ 2 * rest = den ∧ whole % 2 = 1 then whole + 1 else whole := by
    unfold divNearest
    simp only [hdiv, hmod, Bool.or_eq_true, decide_eq_true_eq, Bool.and_eq_true, beq_iff_eq]
  rw [hvalue]
  rcases Nat.lt_trichotomy (whole + 1) bound with hlt | heq | hgt
  · have hle : (whole + 2) * den ≤ bound * den := Nat.mul_le_mul_right _ hlt
    have hexpand : (whole + 2) * den = whole * den + 2 * den := Nat.add_mul _ _ _
    constructor
    · intro _
      omega
    · intro _
      split <;> omega
  · subst heq
    have hexpand : (whole + 1) * den = whole * den + den := Nat.succ_mul _ _
    constructor
    · intro h
      split at h <;> omega
    · intro h
      rw [if_neg (by omega)]
      omega
  · have hle : bound * den ≤ whole * den := Nat.mul_le_mul_right _ (by omega)
    constructor
    · intro h
      split at h <;> omega
    · intro h
      omega

/-- Rounding never goes below the quotient. -/
theorem div_le_divNearest (num den : Nat) : num / den ≤ divNearest num den := by
  unfold divNearest
  simp only
  split <;> omega

/-! ## The binary exponent of a fraction -/

/-- The leading place is the difference `k` of the logarithms if the fraction reaches `2 ^ k`, and
the place below otherwise. -/
theorem floorLog2_cases (num den : Nat) (k : Int) (hk : k = (num.log2 : Int) - den.log2) :
    (floorLog2 num den = k ∧ (0 ≤ k → den * 2 ^ k.toNat ≤ num)) ∨
    (floorLog2 num den = k - 1 ∧ 0 ≤ k ∧ num < den * 2 ^ k.toNat) ∨
    (floorLog2 num den = k - 1 ∧ k < 0 ∧ num * 2 ^ (-k).toNat < den) := by
  unfold floorLog2 twoTo
  simp only [Nat.pow_eq, ← hk]
  by_cases hpos : 0 ≤ k
  · by_cases hreached : den * 2 ^ k.toNat ≤ num
    · left
      simp [hpos, hreached]
    · right
      left
      refine ⟨by simp [hpos, hreached], hpos, by omega⟩
  · by_cases hreached : den ≤ num * 2 ^ (-k).toNat
    · left
      simp [hpos, hreached]
    · right
      right
      refine ⟨by simp [hpos, hreached], by omega, by omega⟩

/-- A fraction in units of `2 ^ exponent` is below `2 ^ 53` if its leading place is at most 52
places above that unit. -/
theorem mantissa_lt {num den : Nat} (hden : den ≠ 0) {exponent : Int}
    (he : floorLog2 num den - 52 ≤ exponent) :
    if 0 ≤ exponent then num < 2 ^ 53 * (den * 2 ^ exponent.toNat)
    else num * 2 ^ (-exponent).toNat < 2 ^ 53 * den := by
  have hnumLt : num < 2 ^ (num.log2 + 1) := Nat.lt_log2_self
  have hdenLe : 2 ^ den.log2 ≤ den := Nat.log2_self_le hden
  obtain ⟨k, hk⟩ : ∃ k : Int, k = (num.log2 : Int) - den.log2 := ⟨_, rfl⟩
  rcases floorLog2_cases num den k hk with ⟨hlog, -⟩ | ⟨hlog, hpos, hlt⟩ | ⟨hlog, hneg, hlt⟩
  · rw [hlog] at he
    split
    · calc num < 2 ^ (num.log2 + 1) := hnumLt
        _ ≤ 2 ^ (53 + (den.log2 + exponent.toNat)) := Nat.pow_le_pow_right (by decide) (by omega)
        _ = 2 ^ 53 * (2 ^ den.log2 * 2 ^ exponent.toNat) := by rw [Nat.pow_add, Nat.pow_add]
        _ ≤ 2 ^ 53 * (den * 2 ^ exponent.toNat) :=
            Nat.mul_le_mul_left _ (Nat.mul_le_mul_right _ hdenLe)
    · calc num * 2 ^ (-exponent).toNat < 2 ^ (num.log2 + 1) * 2 ^ (-exponent).toNat :=
            Nat.mul_lt_mul_of_pos_right hnumLt (Nat.two_pow_pos _)
        _ = 2 ^ (num.log2 + 1 + (-exponent).toNat) := (Nat.pow_add _ _ _).symm
        _ ≤ 2 ^ (53 + den.log2) := Nat.pow_le_pow_right (by decide) (by omega)
        _ = 2 ^ 53 * 2 ^ den.log2 := Nat.pow_add _ _ _
        _ ≤ 2 ^ 53 * den := Nat.mul_le_mul_left _ hdenLe
  · rw [hlog] at he
    split
    · calc num < den * 2 ^ k.toNat := hlt
        _ ≤ den * 2 ^ (53 + exponent.toNat) :=
            Nat.mul_le_mul_left _ (Nat.pow_le_pow_right (by decide) (by omega))
        _ = 2 ^ 53 * (den * 2 ^ exponent.toNat) := by rw [Nat.pow_add]; ring
    · calc num * 2 ^ (-exponent).toNat < den * 2 ^ k.toNat * 2 ^ (-exponent).toNat :=
            Nat.mul_lt_mul_of_pos_right hlt (Nat.two_pow_pos _)
        _ = den * 2 ^ (k.toNat + (-exponent).toNat) := by rw [Nat.pow_add]; ring
        _ ≤ den * 2 ^ 53 := Nat.mul_le_mul_left _ (Nat.pow_le_pow_right (by decide) (by omega))
        _ = 2 ^ 53 * den := Nat.mul_comm _ _
  · rw [hlog] at he
    split
    · calc num ≤ num * 2 ^ (-k).toNat := Nat.le_mul_of_pos_right _ (Nat.two_pow_pos _)
        _ < den := hlt
        _ ≤ den * 2 ^ exponent.toNat := Nat.le_mul_of_pos_right _ (Nat.two_pow_pos _)
        _ ≤ 2 ^ 53 * (den * 2 ^ exponent.toNat) := Nat.le_mul_of_pos_left _ (Nat.two_pow_pos _)
    · calc num * 2 ^ (-exponent).toNat ≤ num * 2 ^ ((-k).toNat + 53) :=
            Nat.mul_le_mul_left _ (Nat.pow_le_pow_right (by decide) (by omega))
        _ = num * 2 ^ (-k).toNat * 2 ^ 53 := by rw [Nat.pow_add]; ring
        _ < den * 2 ^ 53 := Nat.mul_lt_mul_of_pos_right hlt (Nat.two_pow_pos _)
        _ = 2 ^ 53 * den := Nat.mul_comm _ _

/-- A fraction below `2 ^ bound` has its leading place below that one. -/
theorem floorLog2_lt {num den bound : Nat} (hnum : num ≠ 0) (h : num < den * twoTo bound) :
    floorLog2 num den < bound := by
  replace h : num < den * 2 ^ bound := h
  have hnumLe : 2 ^ num.log2 ≤ num := Nat.log2_self_le hnum
  have hdenLt : den < 2 ^ (den.log2 + 1) := Nat.lt_log2_self
  -- the logarithms alone allow one place too many
  have hrough : num.log2 < den.log2 + 1 + bound := by
    have hlt : 2 ^ num.log2 < 2 ^ (den.log2 + 1 + bound) :=
      calc 2 ^ num.log2 ≤ num := hnumLe
        _ < den * 2 ^ bound := h
        _ ≤ 2 ^ (den.log2 + 1) * 2 ^ bound := Nat.mul_le_mul_right _ (Nat.le_of_lt hdenLt)
        _ = 2 ^ (den.log2 + 1 + bound) := (Nat.pow_add _ _ _).symm
    exact (Nat.pow_lt_pow_iff_right (by decide)).mp hlt
  obtain ⟨k, hk⟩ : ∃ k : Int, k = (num.log2 : Int) - den.log2 := ⟨_, rfl⟩
  rcases floorLog2_cases num den k hk with ⟨hlog, hreached⟩ | ⟨hlog, -, -⟩ | ⟨hlog, -, -⟩
  · rw [hlog]
    by_cases hpos : 0 ≤ k
    · have hpow : 2 ^ k.toNat < 2 ^ bound :=
        Nat.lt_of_mul_lt_mul_left (Nat.lt_of_le_of_lt (hreached hpos) h)
      have := (Nat.pow_lt_pow_iff_right (by decide)).mp hpow
      omega
    · omega
  · omega
  · omega

/-! ## Numbers below the limit -/

/-- The bound below which every number has a double. -/
def roundingLimit : Nat := twoTo 1023

theorem twoTo_pos (k : Nat) : 0 < twoTo k := Nat.two_pow_pos k

/-- **Every fraction below the limit has a nearest double.** -/
theorem nearest?_isSome {negative : Bool} {num den : Nat} (hden : den ≠ 0)
    (h : num < den * roundingLimit) : (nearest? negative num den).isSome = true := by
  by_cases hnum : num = 0
  · subst hnum
    simp [nearest?]
  · have hlog : floorLog2 num den < 1023 := floorLog2_lt hnum h
    have hmantissa := mantissa_lt hden (Int.le_max_left (floorLog2 num den - 52) leastExponent)
    have hle : max (floorLog2 num den - 52) leastExponent ≤ 970 := by
      unfold leastExponent
      omega
    unfold nearest? nearestBits? twoTo
    simp only [Nat.pow_eq, beq_iff_eq, hnum, if_false, Option.isSome_map]
    -- a rounded mantissa may reach the next power of two, which still fits
    generalize max (floorLog2 num den - 52) leastExponent = exponent at hmantissa hle
    have hround : (if 0 ≤ exponent then divNearest num (den * 2 ^ exponent.toNat)
        else divNearest (num * 2 ^ (-exponent).toNat) den) ≤ 2 ^ 53 := by
      split at hmantissa
      · rename_i hpos
        rw [if_pos hpos]
        exact divNearest_le hmantissa
      · rename_i hneg
        rw [if_neg hneg]
        exact divNearest_le hmantissa
    have hshift : (exponent - leastExponent).toNat ≤ 2044 := by
      unfold leastExponent
      omega
    rw [if_pos]
    · rfl
    · calc _ ≤ 2044 * 2 ^ 52 + 2 ^ 53 := Nat.add_le_add (Nat.mul_le_mul_right _ hshift) hround
        _ < 2047 * 2 ^ 52 := by decide

/-! ## Integers without a double -/

/-- The least magnitude of an integer without a double: halfway between the largest double and the
next power of two. -/
def overflowLimit : Nat := twoTo 1024 - twoTo 970

theorem twoTo_add (j k : Nat) : twoTo (j + k) = twoTo j * twoTo k := Nat.pow_add 2 j k

theorem twoTo_le {j k : Nat} (h : j ≤ k) : twoTo j ≤ twoTo k := Nat.pow_le_pow_right (by decide) h

/-- The limit in units of the spacing of the largest doubles: half a unit is missing to the next
power of two. -/
theorem overflowLimit_le_iff (n : Nat) :
    overflowLimit ≤ n ↔ ¬ 2 * n + twoTo 971 < 2 * (twoTo 53 * twoTo 971) := by
  have hhalf : twoTo 971 = twoTo 1 * twoTo 970 := twoTo_add 1 970
  have htop : twoTo 1024 = twoTo 53 * twoTo 971 := twoTo_add 53 971
  have htwo : twoTo 1 = 2 := rfl
  unfold overflowLimit
  rw [htop, hhalf, htwo]
  omega

theorem floorLog2_one {n : Nat} (h : n ≠ 0) : floorLog2 n 1 = n.log2 := by
  have hle : twoTo n.log2 ≤ n := Nat.log2_self_le h
  have hone : Nat.log2 1 = 0 := by decide
  unfold floorLog2
  simp [hone, hle]

/-- An integer whose leading place is at least the 52nd has its places from there on rounded. -/
theorem nearestBits?_one_eq_none_iff {n shift : Nat} (hlog : n.log2 = 52 + shift) :
    nearestBits? n 1 = none ↔
      2047 * twoTo 52 ≤ (shift + 1074) * twoTo 52 + divNearest n (twoTo shift) := by
  have hne : n ≠ 0 := by
    rintro rfl
    rw [Nat.log2_zero] at hlog
    omega
  have hexp : max (floorLog2 n 1 - 52) leastExponent = (shift : Int) := by
    rw [floorLog2_one hne, hlog]
    unfold leastExponent
    omega
  have hbits : ((shift : Int) - leastExponent).toNat = shift + 1074 := by
    unfold leastExponent
    omega
  unfold nearestBits?
  simp [hexp, hbits]

theorem nearest?_eq_none_iff {negative : Bool} {num den : Nat} (h : num ≠ 0) :
    nearest? negative num den = none ↔ nearestBits? num den = none := by
  unfold nearest?
  simp [h]

theorem roundingLimit_le_overflowLimit : roundingLimit ≤ overflowLimit := by
  have htop : twoTo 1024 = twoTo 1 * twoTo 1023 := twoTo_add 1 1023
  have htwo : twoTo 1 = 2 := rfl
  have hhalf : twoTo 970 ≤ twoTo 1023 := twoTo_le (by decide)
  unfold overflowLimit roundingLimit
  rw [htop, htwo]
  omega

theorem overflowLimit_le : overflowLimit ≤ twoTo 1024 := Nat.sub_le _ _

/-- **An integer has no double exactly if its magnitude reaches the limit.** -/
theorem ofInt?_eq_none_iff (n : Int) : ofInt? n = none ↔ overflowLimit ≤ n.natAbs := by
  unfold ofInt?
  generalize n.natAbs = m
  have h52 : twoTo 52 = 2 ^ 52 := rfl
  have h53 : twoTo 53 = 2 ^ 53 := rfl
  rcases Nat.lt_or_ge m.log2 1023 with hlow | hhigh
  · -- with its leading place below the 1023rd an integer is below the rounding limit
    have hlt : m < roundingLimit := Nat.lt_of_lt_of_le Nat.lt_log2_self (twoTo_le hlow)
    have hsome : (nearest? (decide (n < 0)) m 1).isSome = true :=
      nearest?_isSome (by decide) (by rwa [Nat.one_mul])
    have hbelow := Nat.lt_of_lt_of_le hlt roundingLimit_le_overflowLimit
    exact iff_of_false (Option.isSome_iff_ne_none.mp hsome) (Nat.not_le_of_lt hbelow)
  · obtain ⟨shift, hshift⟩ : ∃ shift, m.log2 = 52 + shift := ⟨m.log2 - 52, by omega⟩
    have hne : m ≠ 0 := by
      rintro rfl
      rw [Nat.log2_zero] at hshift
      omega
    have hself : twoTo m.log2 ≤ m := Nat.log2_self_le hne
    rw [nearest?_eq_none_iff hne, nearestBits?_one_eq_none_iff hshift]
    rcases Nat.eq_or_lt_of_le hhigh with htop | hlarger
    · -- the places of the largest doubles: all depends on whether the mantissa is rounded up
      obtain rfl : shift = 971 := by omega
      rw [overflowLimit_le_iff, ← divNearest_lt_iff (twoTo_pos 971) (twoTo_pos 53) (by decide),
        Nat.not_lt, h52, h53]
      omega
    · -- from the 1024th place on the leading place alone is too much
      have habove : overflowLimit ≤ m :=
        calc overflowLimit ≤ twoTo 1024 := overflowLimit_le
          _ ≤ twoTo m.log2 := twoTo_le hlarger
          _ ≤ m := hself
      have hwhole : twoTo 52 ≤ m / twoTo shift := by
        rw [Nat.le_div_iff_mul_le (twoTo_pos shift), ← twoTo_add, ← hshift]
        exact hself
      have hmantissa : twoTo 52 ≤ divNearest m (twoTo shift) :=
        Nat.le_trans hwhole (div_le_divNearest _ _)
      rw [h52] at hmantissa ⊢
      exact iff_of_true (by omega) habove

/-! ## Doubles without an exact value -/

open Float.Model (Format)
open Float.Model.UnpackedFloat (unpack unpackExponent)

/-- The exponent field of the bits of a double. -/
theorem toNat_unpackExponent (bits : BitVec 64) :
    (@unpackExponent Format.binary64 bits).toNat =
      bits.toNat / twoTo 52 % twoTo 11 := by
  unfold twoTo
  simp [unpackExponent, Nat.shiftRight_eq_div_pow]

theorem dyadic?_eq_none_iff_field (x : Float) :
    dyadic? x = none ↔ x.toBits.toNat / twoTo 52 % twoTo 11 = 2047 := by
  unfold dyadic?
  simp only [beq_iff_eq]
  split
  · simp_all
  · split <;> simp_all

/-- **A double has no exact value exactly if it is infinite or no number.** -/
theorem dyadic?_eq_none_iff (x : Float) : dyadic? x = none ↔ x.isNaN = true ∨ x.isInf = true := by
  have hfield : @unpackExponent Format.binary64 x.toBits.toBitVec = -1#11 ↔
      x.toBits.toNat / twoTo 52 % twoTo 11 = 2047 := by
    have hones : (-1#11).toNat = 2047 := by decide
    rw [← BitVec.toNat_inj, toNat_unpackExponent, hones]
    rfl
  rw [dyadic?_eq_none_iff_field, ← hfield]
  show _ ↔ (unpack Format.binary64 x.toBits.toBitVec).isNaN = true ∨
    (unpack Format.binary64 x.toBits.toBitVec).isInf = true
  unfold unpack
  simp only
  split
  · rename_i hones
    split
    · exact iff_of_true hones (Or.inr rfl)
    · exact iff_of_true hones (Or.inl rfl)
  · rename_i hother
    refine iff_of_false hother ?_
    split
    · split
      · exact fun h => h.elim Bool.false_ne_true Bool.false_ne_true
      · exact fun h => h.elim Bool.false_ne_true Bool.false_ne_true
    · exact fun h => h.elim Bool.false_ne_true Bool.false_ne_true

/-- What is no number is not infinite. -/
theorem isInf_of_isNaN {x : Float} (h : x.isNaN = true) : x.isInf = false := by
  show (unpack Format.binary64 x.toBits.toBitVec).isInf = false
  replace h : (unpack Format.binary64 x.toBits.toBitVec).isNaN = true := h
  cases hunpack : unpack Format.binary64 x.toBits.toBitVec with
  | notANumber => rfl
  | infinity sign =>
      rw [hunpack] at h
      cases h
  | zero sign => rfl
  | finite sign mantissa exponent hpos => rfl

end SourceAtlas.Number

namespace SourceAtlas

open Number

/-- A count fails to be a double only from the limit on. -/
theorem asDouble_error {n : Nat} {fault : SizeFault} (h : asDouble (n : Int) = .error fault) :
    fault = .tooBig ∧ roundingLimit ≤ n := by
  unfold asDouble at h
  split at h
  · cases h
  · rename_i hnone
    cases h
    refine ⟨rfl, Nat.le_of_not_lt fun hlt => ?_⟩
    have hsome : (ofInt? (n : Int)).isSome = true := by
      unfold ofInt?
      exact nearest?_isSome (by decide) (by rwa [Int.natAbs_natCast, Nat.one_mul])
    rw [hnone] at hsome
    cases hsome

/-- **Every positive integer has a common logarithm**, also one that is too big for a double. -/
theorem commonLog_ok {n : Int} (h : 0 < n) : ∃ x, commonLog n = .ok x := by
  unfold commonLog
  rw [if_neg (by omega)]
  split
  · exact ⟨_, rfl⟩
  · -- the fraction `n / 2 ^ (log2 n + 1)` is below one
    have hlt : n.natAbs < twoTo (n.natAbs.log2 + 1) * roundingLimit := by
      unfold twoTo
      calc n.natAbs < 2 ^ (n.natAbs.log2 + 1) := Nat.lt_log2_self
        _ ≤ 2 ^ (n.natAbs.log2 + 1) * roundingLimit :=
            Nat.le_mul_of_pos_right _ (twoTo_pos 1023)
    have hsome : (nearest? false n.natAbs (twoTo (n.natAbs.log2 + 1))).isSome = true :=
      nearest?_isSome (Nat.ne_of_gt (twoTo_pos _)) hlt
    obtain ⟨x, hx⟩ := Option.isSome_iff_exists.mp hsome
    simp only [hx]
    split
    · exact ⟨_, rfl⟩
    · exact ⟨_, rfl⟩

/-- Megabytes fail in one way. -/
theorem megabytes_error {bytes : Int} {fault : SizeFault} (h : megabytes bytes = .error fault) :
    fault = .tooBig := by
  unfold megabytes at h
  split at h
  · cases h
  · cases h
    rfl

end SourceAtlas
