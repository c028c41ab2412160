import Mathlib.Data.Nat.Dist
import Shortcode.Decimal.Binary64
import Shortcode.FileSize

/-!
# Sizes keep their order

The unit of a shown size changes where the number of decimal digits does, but each unit is 1024
times the one before, so the number drops to a fraction of one at each power of 1000, and what
is shown is rounded twice. It does not show: the rounding to 53 bits is monotone, for no
number with 53 bits is nearer than the one that is chosen, and below each change of the unit
at most 999 is shown, above it at least 1.

* `roundsTo_roundBits`: the first rounding, in terms of the numbers with 53 bits alone.
* `RoundsTo.mono`: rounding to a nearest number keeps the order.
* `unitIndex_le_iff`: the powers of 1000 at which the unit changes.
* `read?_text`: what is shown is read back as a number and a unit.
* `shown_sizes_keep_order`: a larger size is never shown as a smaller one.
-/

namespace Shortcode

/-! ## Rounding to a multiple -/

/-- The multiple of `den` that a number is rounded to is at most half of `den` away. -/
theorem dist_roundHalfEven_mul_le (num : Nat) {den : Nat} (h : 0 < den) :
    2 * Nat.dist num (roundHalfEven num den * den) ≤ den := by
  have hsplit := Nat.div_add_mod' num den
  have hrest := Nat.mod_lt num h
  have hnext : (num / den + 1) * den = num / den * den + den := Nat.succ_mul _ _
  unfold Nat.dist roundHalfEven
  dsimp only
  split_ifs <;> omega

/-- Where it is just half of `den` away, it is an even multiple. -/
theorem roundHalfEven_mod_two {num den : Nat} (h : 0 < den)
    (htie : 2 * Nat.dist num (roundHalfEven num den * den) = den) :
    roundHalfEven num den % 2 = 0 := by
  have hsplit := Nat.div_add_mod' num den
  have hrest := Nat.mod_lt num h
  have hnext : (num / den + 1) * den = num / den * den + den := Nat.succ_mul _ _
  unfold Nat.dist roundHalfEven at htie
  unfold roundHalfEven
  dsimp only at htie ⊢
  split_ifs at htie ⊢ <;> omega

namespace FileSize

/-! ## Rounding to 53 bits -/

/-- A number with at most 53 significant bits. -/
def HasBits (n : Nat) : Prop :=
  ∃ mantissa exponent, mantissa < 2 ^ 53 ∧ n = mantissa * 2 ^ exponent

/-- A number is rounded to `r`: no number with 53 bits is nearer, and another one that is
    equally near has a 1 where the last bit of `r` is a 0. -/
structure RoundsTo (n r : Nat) : Prop where
  hasBits : HasBits r
  nearest : ∀ s, HasBits s → Nat.dist n r ≤ Nat.dist n s
  even : ∀ s, HasBits s → s ≠ r → Nat.dist n s = Nat.dist n r →
    ∃ k, 2 ^ (k + 1) ∣ r ∧ ¬ 2 ^ (k + 1) ∣ s

namespace RoundsTo

variable {a b n r s : Nat}

/-- There is one number that a number is rounded to. -/
theorem unique (hr : RoundsTo n r) (hs : RoundsTo n s) : r = s := by
  by_contra hne
  have hdist : Nat.dist n s = Nat.dist n r :=
    Nat.le_antisymm (hs.nearest r hr.hasBits) (hr.nearest s hs.hasBits)
  obtain ⟨k, hkr, hks⟩ := hr.even s hs.hasBits (Ne.symm hne) hdist
  obtain ⟨l, hls, hlr⟩ := hs.even r hr.hasBits hne hdist.symm
  -- the last bits of the two cannot both be the lower one
  rcases Nat.le_total k l with hle | hle
  · exact hks (Nat.dvd_trans (Nat.pow_dvd_pow 2 (Nat.succ_le_succ hle)) hls)
  · exact hlr (Nat.dvd_trans (Nat.pow_dvd_pow 2 (Nat.succ_le_succ hle)) hkr)

/-- Rounding keeps the order: if `a` were rounded to more than `b` is, both would lie in the
    middle between the two results. -/
theorem mono (hr : RoundsTo a r) (hs : RoundsTo b s) (h : a ≤ b) : r ≤ s := by
  by_contra hlt
  have ha := hr.nearest s hs.hasBits
  have hb := hs.nearest r hr.hasBits
  have heq : a = b := by
    unfold Nat.dist at ha hb
    omega
  subst heq
  exact hlt (Nat.le_of_eq (hr.unique hs))

/-- A number with 53 bits is not rounded. -/
theorem eq_of_hasBits (hr : RoundsTo n r) (h : HasBits n) : r = n := by
  have hdist := hr.nearest n h
  rw [Nat.dist_self, Nat.le_zero] at hdist
  exact (Nat.eq_of_dist_eq_zero hdist).symm

end RoundsTo

theorem hasBits_of_le {n : Nat} (h : n ≤ 2 ^ 53) : HasBits n := by
  rcases Nat.lt_or_eq_of_le h with h | h
  · exact ⟨n, 0, h, (Nat.mul_one n).symm⟩
  · exact ⟨1, 53, by decide, by rw [h, Nat.one_mul]⟩

/-- The weight of the last of 53 bits of a number. -/
def lastBit (n : Nat) : Nat :=
  2 ^ (n.log2 + 1 - 53)

theorem lastBit_pos (n : Nat) : 0 < lastBit n :=
  Nat.two_pow_pos _

/-- The number is rounded to a multiple of its last bit. -/
theorem roundBits_eq (n : Nat) : roundBits n = roundHalfEven n (lastBit n) * lastBit n := by
  unfold roundBits roundHalfEven
  change (if 2 * (n % lastBit n) < lastBit n then n / lastBit n * lastBit n
    else if lastBit n < 2 * (n % lastBit n) then (n / lastBit n + 1) * lastBit n
    else if n / lastBit n % 2 = 0 then n / lastBit n * lastBit n
    else (n / lastBit n + 1) * lastBit n) = _
  dsimp only
  split_ifs <;> rfl

theorem div_lastBit_lt (n : Nat) : n / lastBit n < 2 ^ 53 := by
  rw [Nat.div_lt_iff_lt_mul (lastBit_pos n), lastBit, ← Nat.pow_add]
  exact Nat.lt_of_lt_of_le Nat.lt_log2_self (Nat.pow_le_pow_right (by decide) (by omega))

theorem hasBits_roundBits (n : Nat) : HasBits (roundBits n) := by
  have hlt := div_lastBit_lt n
  have hle : roundHalfEven n (lastBit n) ≤ n / lastBit n + 1 := by
    unfold roundHalfEven
    dsimp only
    split_ifs <;> omega
  obtain ⟨mantissa, exponent, hm, heq⟩ := hasBits_of_le (Nat.le_trans hle hlt)
  refine ⟨mantissa, exponent + (n.log2 + 1 - 53), hm, ?_⟩
  rw [roundBits_eq, heq, lastBit, Nat.pow_add, Nat.mul_assoc]

/-- A number with 53 bits is a multiple of the last bit of `n`, or it is so small that there
    is one between it and `n`. -/
theorem HasBits.dvd_or_lt {s : Nat} (h : HasBits s) (n : Nat) :
    lastBit n ∣ s ∨ ∃ m, s < m ∧ m ≤ n ∧ lastBit n ∣ m := by
  obtain ⟨mantissa, exponent, hm, rfl⟩ := h
  by_cases hexp : n.log2 + 1 - 53 ≤ exponent
  · exact .inl (Nat.dvd_mul_left_of_dvd (Nat.pow_dvd_pow 2 hexp) _)
  · -- the last bit weighs more than 1, so `n` is not less than its first bit
    have hn : n ≠ 0 := by
      rintro rfl
      exact hexp (by simp)
    have hfirst : lastBit n ∣ 2 ^ n.log2 := Nat.pow_dvd_pow 2 (by omega)
    refine .inr ⟨2 ^ n.log2, ?_, Nat.log2_self_le hn, hfirst⟩
    calc mantissa * 2 ^ exponent < 2 ^ 53 * 2 ^ exponent :=
          Nat.mul_lt_mul_of_pos_right hm (Nat.two_pow_pos _)
      _ = 2 ^ (53 + exponent) := (Nat.pow_add 2 53 exponent).symm
      _ ≤ 2 ^ n.log2 := Nat.pow_le_pow_right (by decide) (by omega)

section Multiples

variable {n unit q s : Nat}

/-- A multiple that is at most half a unit away is a nearest one. -/
theorem dist_le_of_dvd (hunit : 0 < unit) (h : 2 * Nat.dist n (q * unit) ≤ unit) (hs : unit ∣ s) :
    Nat.dist n (q * unit) ≤ Nat.dist n s := by
  obtain ⟨p, rfl⟩ := hs
  rw [Nat.mul_comm unit p]
  rcases Nat.lt_trichotomy p q with hlt | rfl | hlt
  · have hstep : (p + 1) * unit ≤ q * unit := Nat.mul_le_mul_right unit hlt
    rw [Nat.succ_mul] at hstep
    unfold Nat.dist at h ⊢
    omega
  · exact Nat.le_refl _
  · have hstep : (q + 1) * unit ≤ p * unit := Nat.mul_le_mul_right unit hlt
    rw [Nat.succ_mul] at hstep
    unfold Nat.dist at h ⊢
    omega

/-- Of two multiples that are equally near, each half a unit away, one is odd if the other one
    is even. -/
theorem tie_of_dvd (hunit : 0 < unit) (h : 2 * Nat.dist n (q * unit) ≤ unit) (hs : unit ∣ s)
    (hne : s ≠ q * unit) (hdist : Nat.dist n s = Nat.dist n (q * unit)) :
    2 * Nat.dist n (q * unit) = unit ∧ (q % 2 = 0 → ¬ 2 * unit ∣ s) := by
  obtain ⟨p, rfl⟩ := hs
  rw [Nat.mul_comm unit p] at hne hdist ⊢
  have hneighbours : p + 1 = q ∨ p = q + 1 := by
    by_contra hfar
    rcases Nat.lt_trichotomy p q with hlt | rfl | hlt
    · have hstep : (p + 2) * unit ≤ q * unit := Nat.mul_le_mul_right unit (by omega)
      rw [Nat.add_mul] at hstep
      unfold Nat.dist at h hdist
      omega
    · exact hne rfl
    · have hstep : (q + 2) * unit ≤ p * unit := Nat.mul_le_mul_right unit (by omega)
      rw [Nat.add_mul] at hstep
      unfold Nat.dist at h hdist
      omega
  constructor
  · have hstep : p * unit + unit = q * unit ∨ p * unit = q * unit + unit := by
      rw [← Nat.succ_mul, ← Nat.succ_mul]
      exact hneighbours.imp (congrArg (· * unit)) (congrArg (· * unit))
    unfold Nat.dist at h hdist ⊢
    omega
  · intro heven hdvd
    rw [Nat.mul_dvd_mul_iff_right hunit] at hdvd
    omega

end Multiples

/-- What a number is rounded to: no number with 53 bits is nearer, and of two that are equally
    near it is the even one. -/
theorem roundsTo_roundBits (n : Nat) : RoundsTo n (roundBits n) := by
  have hpos := lastBit_pos n
  have hhalf := dist_roundHalfEven_mul_le n hpos
  refine ⟨hasBits_roundBits n, fun s hs => ?_, fun s hs hne hdist => ?_⟩
  · rw [roundBits_eq]
    rcases hs.dvd_or_lt n with hdvd | ⟨m, hsm, hmn, hdvd⟩
    · exact dist_le_of_dvd hpos hhalf hdvd
    · have hm := dist_le_of_dvd hpos hhalf hdvd
      unfold Nat.dist at hm ⊢
      omega
  · rw [roundBits_eq] at hne hdist ⊢
    rcases hs.dvd_or_lt n with hdvd | ⟨m, hsm, hmn, hdvd⟩
    · obtain ⟨htie, hodd⟩ := tie_of_dvd hpos hhalf hdvd hne hdist
      have heven := roundHalfEven_mod_two hpos htie
      have hnext : 2 ^ (n.log2 + 1 - 53 + 1) = 2 * lastBit n := Nat.pow_succ'
      refine ⟨n.log2 + 1 - 53, ?_, ?_⟩
      · rw [hnext]
        exact Nat.mul_dvd_mul_right (Nat.dvd_of_mod_eq_zero heven) _
      · rw [hnext]
        exact hodd heven
    · -- a multiple between the two is nearer
      have hm := dist_le_of_dvd hpos hhalf hdvd
      unfold Nat.dist at hm hdist
      omega

theorem roundBits_mono {a b : Nat} (h : a ≤ b) : roundBits a ≤ roundBits b :=
  (roundsTo_roundBits a).mono (roundsTo_roundBits b) h

theorem roundBits_of_le {n : Nat} (h : n ≤ 2 ^ 53) : roundBits n = n :=
  (roundsTo_roundBits n).eq_of_hasBits (hasBits_of_le h)

/-! ## Units -/

theorem unitIndex_le (bytes : Nat) : unitIndex bytes ≤ 5 :=
  Nat.min_le_right _ _

/-- The unit changes at the powers of 1000. -/
theorem unitIndex_le_iff {bytes f : Nat} (hf : f < 5) :
    unitIndex bytes ≤ f ↔ bytes < 1000 ^ (f + 1) := by
  have hpow : 1000 ^ (f + 1) = 10 ^ (3 * (f + 1)) := Nat.pow_mul 10 3 (f + 1) ▸ rfl
  have hlength : (decimal bytes).length ≤ 3 * (f + 1) ↔ bytes < 10 ^ (3 * (f + 1)) :=
    Nat.length_toDigits_le_iff (by decide) (by omega)
  rw [hpow, ← hlength, unitIndex, show units.length = 6 from rfl]
  omega

theorem unitIndex_mono {a b : Nat} (h : a ≤ b) : unitIndex a ≤ unitIndex b := by
  rcases Nat.lt_or_eq_of_le (unitIndex_le b) with hb | hb
  · rw [unitIndex_le_iff hb]
    exact Nat.lt_of_le_of_lt h ((unitIndex_le_iff hb).1 (Nat.le_refl _))
  · rw [hb]
    exact unitIndex_le a

/-- Where a size is shown in a unit other than the first one, it is not less than the power of
    1000 at which that unit begins. -/
theorem pow_unitIndex_le {bytes : Nat} (h : 0 < bytes) : 1000 ^ unitIndex bytes ≤ bytes := by
  have hle := unitIndex_le bytes
  cases hf : unitIndex bytes with
  | zero => exact h
  | succ f =>
    by_contra hlt
    have := (unitIndex_le_iff (by omega)).2 (Nat.lt_of_not_le hlt)
    omega

/-- A unit is less than twice the power of 1000 at which it begins. -/
theorem unit_le_two_mul_begin : ∀ f ≤ 5, 1024 ^ f ≤ 2 * 1000 ^ f := by
  decide

/-- The power of 1000 at which a unit ends is less than 999 and a half of it; of single bytes
    there are no halves. -/
theorem two_mul_end_le : ∀ f < 5, 2 * 1000 ^ (f + 1) ≤ 1999 * 1024 ^ f + 1 := by
  decide

/-! ## The number shown -/

theorem shown_eq (bytes : Nat) :
    shown bytes = (2 * roundBits bytes + 1024 ^ unitIndex bytes) / (2 * 1024 ^ unitIndex bytes) :=
  rfl

/-- At least one unit is shown of a size that is not 0. -/
theorem one_le_shown {bytes : Nat} (h : 0 < bytes) : 1 ≤ shown bytes := by
  have hle := unitIndex_le bytes
  have hbegin := roundBits_mono (pow_unitIndex_le h)
  have hexact : 1000 ^ unitIndex bytes ≤ 2 ^ 53 :=
    Nat.le_trans (Nat.pow_le_pow_right (by decide) hle) (by decide)
  rw [roundBits_of_le hexact] at hbegin
  have hunit := unit_le_two_mul_begin _ hle
  rw [shown_eq, Nat.one_le_div_iff (Nat.mul_pos (by decide) (Nat.pow_pos (by decide)))]
  omega

/-- At most 999 units are shown below the last unit. -/
theorem shown_le {bytes : Nat} (h : unitIndex bytes < 5) : shown bytes ≤ 999 := by
  have hlt : bytes < 1000 ^ (unitIndex bytes + 1) := (unitIndex_le_iff h).1 (Nat.le_refl _)
  have hexact : 1000 ^ (unitIndex bytes + 1) ≤ 2 ^ 53 :=
    Nat.le_trans (Nat.pow_le_pow_right (by decide) h) (by decide)
  have hunit := two_mul_end_le _ h
  rw [shown_eq, roundBits_of_le (by omega), ← Nat.lt_succ_iff,
    Nat.div_lt_iff_lt_mul (Nat.mul_pos (by decide) (Nat.pow_pos (by decide)))]
  omega

/-! ## Reading what is shown -/

/-- So many of a unit. -/
structure Amount where
  count : Nat
  unit : Nat
  deriving DecidableEq, Repr

/-- The bytes that an amount stands for. -/
def Amount.bytes (x : Amount) : Nat :=
  x.count * 1024 ^ x.unit

/-- Reads an amount: digits, and the name of a unit behind them. -/
def read? (t : Text) : Option Amount := do
  let count ← digits? 0 (t.takeWhile Char.isDigit)
  let unit ← units.idxOf? (String.ofList (t.dropWhile Char.isDigit))
  some ⟨count, unit⟩

theorem idxOf?_units : ∀ f ≤ 5, units.idxOf? (units.getD f "") = some f := by
  decide

/-- No name of a unit begins with a digit. -/
theorem isDigit_units : ∀ f ≤ 5, (units.getD f "").toList.takeWhile Char.isDigit = [] ∧
    (units.getD f "").toList.dropWhile Char.isDigit = (units.getD f "").toList := by
  decide

/-- What is shown is read back as the number and the unit it is made of. -/
theorem read?_text (bytes : Nat) : read? (text bytes) = some ⟨shown bytes, unitIndex bytes⟩ := by
  have hle := unitIndex_le bytes
  have hdigits : ∀ c ∈ decimal (shown bytes), c.isDigit = true := fun _ => isDigit_of_mem_decimal
  obtain ⟨hnone, hall⟩ := isDigit_units _ hle
  rw [read?, text, List.takeWhile_append_of_pos hdigits, List.dropWhile_append_of_pos hdigits,
    hnone, hall, List.append_nil, digits?_decimal, String.ofList_toList, idxOf?_units _ hle]
  rfl

/-! ## Order -/

/-- Sizes in one unit are shown in their order, since the rounding keeps it. A size in a
    smaller unit is shown with at most 999 of them, which is less than one of the next unit. -/
theorem bytes_shown_mono {a b : Nat} (h : a ≤ b) :
    shown a * 1024 ^ unitIndex a ≤ shown b * 1024 ^ unitIndex b := by
  rcases Nat.lt_or_eq_of_le (unitIndex_mono h) with hunit | hunit
  · have hpos : 0 < b := by
      refine Nat.pos_of_ne_zero fun hb => ?_
      rw [hb, show unitIndex 0 = 0 from rfl] at hunit
      omega
    have hle := unitIndex_le b
    calc shown a * 1024 ^ unitIndex a
        ≤ 1024 * 1024 ^ unitIndex a :=
          Nat.mul_le_mul_right _ (Nat.le_trans (shown_le (by omega)) (by decide))
      _ = 1024 ^ (unitIndex a + 1) := Nat.pow_succ'.symm
      _ ≤ 1024 ^ unitIndex b := Nat.pow_le_pow_right (by decide) hunit
      _ ≤ shown b * 1024 ^ unitIndex b := Nat.le_mul_of_pos_left _ (one_le_shown hpos)
  · rw [shown_eq, shown_eq, hunit]
    have hround := roundBits_mono h
    exact Nat.mul_le_mul_right _ (Nat.div_le_div_right (by omega))

/-- What is shown is half a unit away from the size at most, if the size is not rounded before. -/
theorem dist_bytes_shown_le {bytes : Nat} (h : bytes ≤ 2 ^ 53) :
    2 * Nat.dist (shown bytes * 1024 ^ unitIndex bytes) bytes ≤ 1024 ^ unitIndex bytes := by
  rw [shown_eq, roundBits_of_le h]
  have hpos : 0 < 1024 ^ unitIndex bytes := Nat.pow_pos (by decide)
  generalize 1024 ^ unitIndex bytes = unit at hpos
  have hsplit := Nat.div_add_mod' (2 * bytes + unit) (2 * unit)
  have hrest := Nat.mod_lt (2 * bytes + unit) (Nat.mul_pos Nat.two_pos hpos)
  rw [Nat.mul_left_comm] at hsplit
  unfold Nat.dist
  omega

/-- A larger size is never shown as a smaller one. Of a size that is not 0 at least one unit is
    shown, and below `10 ^ 15` bytes at most 999 units are. Up to `2 ^ 53` bytes what is shown is
    at most half a unit away from the size. The number shown comes from two roundings: that of
    the size to 53 bits, and that of what this is in units to the nearest number, a half
    upwards. -/
theorem shown_sizes_keep_order {a b : Nat} (h : a ≤ b) :
    ∃ x y, read? (text a) = some x ∧ read? (text b) = some y ∧ x.bytes ≤ y.bytes ∧
      (0 < b → 1 ≤ y.count) ∧ (b < 10 ^ 15 → y.count ≤ 999) ∧
      (b ≤ 2 ^ 53 → 2 * Nat.dist y.bytes b ≤ 1024 ^ y.unit) ∧
      ∃ r, RoundsTo b r ∧ y.count = (2 * r + 1024 ^ y.unit) / (2 * 1024 ^ y.unit) := by
  refine ⟨_, _, read?_text a, read?_text b, bytes_shown_mono h, one_le_shown, fun hb => ?_,
    dist_bytes_shown_le, _, roundsTo_roundBits b, shown_eq b⟩
  exact shown_le (Nat.lt_succ_of_le ((unitIndex_le_iff (by decide)).2 hb))

/-- The greatest size in kilobytes, which is shown as more bytes than the first one in megabytes
    has, but not as more than the bytes that are shown for it. -/
theorem shown_sizes_keep_order_megabyte :
    999999 ≤ 1000000 ∧ text 999999 = "977KB".toList ∧ text 1000000 = "1MB".toList ∧
      ∃ x y, read? "977KB".toList = some x ∧ read? "1MB".toList = some y ∧ x.bytes = 1000448 ∧
        x.bytes ≤ y.bytes ∧ 1 ≤ y.count ∧ y.count ≤ 999 ∧
        2 * Nat.dist y.bytes 1000000 ≤ 1024 ^ y.unit := by
  have hle : 999999 ≤ 1000000 := by decide
  have ha : text 999999 = "977KB".toList := by decide +kernel
  have hb : text 1000000 = "1MB".toList := by decide +kernel
  have hkilobytes : read? "977KB".toList = some ⟨977, 1⟩ := by decide +kernel
  obtain ⟨x, y, hx, hy, horder, hone, hmost, hdist, -⟩ := shown_sizes_keep_order hle
  rw [ha] at hx
  rw [hb] at hy
  have hbytes : x.bytes = 1000448 := by
    rw [← Option.some.inj (hkilobytes.symm.trans hx)]
    rfl
  exact ⟨hle, ha, hb, x, y, hx, hy, hbytes, horder, hone (by decide), hmost (by decide),
    hdist (by decide)⟩

end FileSize

end Shortcode
