/-
This file gives the doubles their order, and says which double an integer becomes.

The bits of a double, read as a number, grow with it, and a sign turns the order around. So a
double has a rank among the doubles, both zeros the same one, and a NaN has none: it is neither
below nor above anything. An integer becomes the nearest double, and of two that are as near the
even one.
-/

import Mathlib.Tactic.Positivity
import Mathlib.Tactic.Ring

namespace Euclid.Binary64

open Nat

def infinity : ℕ := 2047 * 2 ^ 52

/-- Where a double stands among the doubles, if it is a number. -/
def rank (bits : UInt64) : Option Int :=
  let magnitude := bits.toNat % 2 ^ 63
  if infinity < magnitude then none
  else some (if bits.toNat < 2 ^ 63 then magnitude else -magnitude)

/-- The rank of the double nearest to a natural number. -/
def nearest (number : ℕ) : ℕ :=
  if number = 0 then 0
  else if number.log2 ≤ 52 then (number.log2 + 1022) * 2 ^ 52 + number * 2 ^ (52 - number.log2)
  else
    let unit := 2 ^ (number.log2 - 52)
    let whole := number / unit
    let beyond := 2 * (number % unit)
    (number.log2 + 1022) * 2 ^ 52 + whole +
      if unit < beyond ∨ beyond = unit ∧ whole % 2 = 1 then 1 else 0

/-- The rank of the double an integer becomes. -/
def ofInt (number : Int) : Int :=
  if number < 0 then -nearest number.natAbs else nearest number.natAbs

/-- Whether one rank is below another. What has no rank is not. -/
def below : Option Int → Option Int → Bool
  | some left, some right => decide (left < right)
  | _, _ => false

theorem below_asymm {left right : Option Int} (before : below left right) :
    below right left = false := by
  cases left with
  | none => cases before
  | some left =>
    cases right with
    | none => rfl
    | some right => exact decide_eq_false (of_decide_eq_true before).not_gt

/-! ### The size of a double -/

/-- How large the double of a rank is, in units of the smallest. Infinity is as large as the first
double that would follow. -/
def scaled (rank : ℕ) : ℕ :=
  (rank % 2 ^ 52 + if rank < 2 ^ 52 then 0 else 2 ^ 52) * 2 ^ (rank / 2 ^ 52 - 1)

def scale : ℕ := 2 ^ 1074

theorem scale_pos : 0 < scale := by
  unfold scale
  positivity

theorem scaled_small {rank : ℕ} (small : rank < 2 ^ 52) : scaled rank = rank := by
  rw [scaled, if_pos small, div_eq_of_lt small, mod_eq_of_lt small]
  simp

theorem scaled_normal (exponent significand : ℕ) (least : 2 ^ 52 ≤ significand)
    (most : significand ≤ 2 ^ 53) :
    scaled (exponent * 2 ^ 52 + significand) = significand * 2 ^ exponent := by
  have large : ¬exponent * 2 ^ 52 + significand < 2 ^ 52 := by omega
  rw [scaled, if_neg large]
  by_cases last : significand = 2 ^ 53
  · have quotient : (exponent * 2 ^ 52 + significand) / 2 ^ 52 = exponent + 2 := by omega
    have remainder : (exponent * 2 ^ 52 + significand) % 2 ^ 52 = 0 := by omega
    rw [quotient, remainder, last, show exponent + 2 - 1 = exponent + 1 from rfl]
    ring
  · have quotient : (exponent * 2 ^ 52 + significand) / 2 ^ 52 = exponent + 1 := by omega
    have remainder : (exponent * 2 ^ 52 + significand) % 2 ^ 52 + 2 ^ 52 = significand := by omega
    rw [quotient, remainder, Nat.add_sub_cancel]

theorem scaled_lt_succ (rank : ℕ) : scaled rank < scaled (rank + 1) := by
  by_cases small : rank < 2 ^ 52
  · rw [scaled_small small]
    by_cases small' : rank + 1 < 2 ^ 52
    · rw [scaled_small small']
      omega
    · have last : rank + 1 = 0 * 2 ^ 52 + 2 ^ 52 := by omega
      rw [last, scaled_normal 0 _ le_rfl (by omega)]
      omega
  · have split : rank = (rank / 2 ^ 52 - 1) * 2 ^ 52 + (rank % 2 ^ 52 + 2 ^ 52) := by omega
    have after : rank + 1 = (rank / 2 ^ 52 - 1) * 2 ^ 52 + (rank % 2 ^ 52 + 2 ^ 52 + 1) := by omega
    rw [after, scaled_normal _ _ (by omega) (by omega)]
    conv_lhs => rw [split, scaled_normal _ _ (by omega) (by omega)]
    exact Nat.mul_lt_mul_of_pos_right (Nat.lt_succ_self _) (Nat.two_pow_pos _)

theorem scaled_strictMono : StrictMono scaled := strictMono_nat_of_lt_succ scaled_lt_succ

/-! ### Rounding -/

/-- The rank of the double nearest to a size: that of the double below it, or the next one if that
is nearer, or as near and even. -/
def Near (rank size : ℕ) : Prop :=
  ∃ floor, scaled floor ≤ size ∧ size < scaled (floor + 1) ∧
    rank = floor + if scaled (floor + 1) - scaled floor < 2 * (size - scaled floor) ∨
      2 * (size - scaled floor) = scaled (floor + 1) - scaled floor ∧ floor % 2 = 1 then 1 else 0

theorem near_scaled (rank : ℕ) : Near rank (scaled rank) := by
  have grows := scaled_lt_succ rank
  refine ⟨rank, le_rfl, grows, ?_⟩
  rw [if_neg (by omega), add_zero]

theorem Near.le {first second size size' : ℕ} (near : Near first size) (near' : Near second size')
    (upTo : size ≤ size') : first ≤ second := by
  obtain ⟨floor, least, most, rfl⟩ := near
  obtain ⟨floor', least', most', rfl⟩ := near'
  have floors : floor ≤ floor' :=
    Nat.lt_succ_iff.mp (scaled_strictMono.lt_iff_lt.mp (least.trans_lt (upTo.trans_lt most')))
  rcases floors.eq_or_lt with rfl | before
  · split_ifs <;> omega
  · split_ifs <;> omega

/-- The size of a natural number is a power of two times the number. -/
theorem near_nearest (number : ℕ) : Near (nearest number) (number * scale) := by
  by_cases zero : number = 0
  · subst zero
    have near := near_scaled 0
    rw [scaled_small (by omega)] at near
    rwa [Nat.zero_mul, nearest, if_pos rfl]
  have lower := Nat.log2_self_le zero
  have upper := Nat.lt_log2_self (n := number)
  unfold nearest
  rw [if_neg zero]
  split
  · rename_i short
    have least : 2 ^ 52 ≤ number * 2 ^ (52 - number.log2) := by
      calc 2 ^ 52 = 2 ^ number.log2 * 2 ^ (52 - number.log2) := by
            rw [← Nat.pow_add, Nat.add_sub_cancel' short]
        _ ≤ _ := Nat.mul_le_mul_right _ lower
    have most : number * 2 ^ (52 - number.log2) ≤ 2 ^ 53 := by
      calc _ ≤ 2 ^ (number.log2 + 1) * 2 ^ (52 - number.log2) := Nat.mul_le_mul_right _ upper.le
        _ = 2 ^ 53 := by rw [← Nat.pow_add]; congr 1; omega
    have exactly : number * 2 ^ (52 - number.log2) * 2 ^ (number.log2 + 1022) = number * scale := by
      have exponent : 52 - number.log2 + (number.log2 + 1022) = 1074 := by omega
      rw [scale, ← exponent, Nat.pow_add _ _ (number.log2 + 1022), Nat.mul_assoc]
    have near := near_scaled ((number.log2 + 1022) * 2 ^ 52 + number * 2 ^ (52 - number.log2))
    rwa [scaled_normal _ _ least most, exactly] at near
  · rename_i long
    have width : 2 ^ (number.log2 + 1022) = 2 ^ (number.log2 - 52) * scale := by
      have exponent : number.log2 - 52 + 1074 = number.log2 + 1022 := by omega
      rw [scale, ← Nat.pow_add, exponent]
    have least : 2 ^ 52 ≤ number / 2 ^ (number.log2 - 52) := by
      rw [Nat.le_div_iff_mul_le (Nat.two_pow_pos _), ← Nat.pow_add]
      rwa [show 52 + (number.log2 - 52) = number.log2 by omega]
    have most : number / 2 ^ (number.log2 - 52) < 2 ^ 53 := by
      rw [Nat.div_lt_iff_lt_mul (Nat.two_pow_pos _), ← Nat.pow_add]
      rwa [show 53 + (number.log2 - 52) = number.log2 + 1 by omega]
    have low := scaled_normal (number.log2 + 1022) _ least most.le
    have high := scaled_normal (number.log2 + 1022) _ (least.trans (Nat.le_succ _)) most
    have whole := Nat.div_add_mod number (2 ^ (number.log2 - 52))
    have below := Nat.mod_lt number (Nat.two_pow_pos (number.log2 - 52))
    rw [width] at low high
    dsimp only
    generalize number / 2 ^ (number.log2 - 52) = quotient at *
    generalize number % 2 ^ (number.log2 - 52) = remainder at *
    generalize 2 ^ (number.log2 - 52) = unit at *
    have positive := scale_pos
    have size : number * scale = quotient * (unit * scale) + remainder * scale := by
      rw [← whole]
      ring
    have gap : (quotient + 1) * (unit * scale) = quotient * (unit * scale) + unit * scale := by ring
    refine ⟨(number.log2 + 1022) * 2 ^ 52 + quotient, ?_, ?_, ?_⟩
    · rw [low, size]
      exact Nat.le_add_right _ _
    · rw [Nat.add_assoc, high, size, gap]
      exact Nat.add_lt_add_left (Nat.mul_lt_mul_of_pos_right below positive) _
    · have parity : ((number.log2 + 1022) * 2 ^ 52 + quotient) % 2 = quotient % 2 := by omega
      rw [Nat.add_assoc _ quotient 1, high, low, size, gap, parity]
      simp only [Nat.add_sub_cancel_left, ← Nat.mul_assoc, Nat.mul_lt_mul_right positive,
        Nat.mul_left_inj positive.ne']

/-- The size of the double of a rank, with its sign. -/
def size (rank : Int) : Int :=
  if rank < 0 then -scaled rank.natAbs else scaled rank.natAbs

/-- Rounding on either side of zero. -/
def Rounds (rank size : Int) : Prop :=
  ∃ first second : ℕ, Near first second ∧
    (rank = first ∧ size = second ∨ rank = -first ∧ size = -second)

theorem rounds_size (rank : Int) : Rounds rank (size rank) := by
  refine ⟨rank.natAbs, _, near_scaled _, ?_⟩
  unfold size
  split_ifs with negative
  · exact .inr ⟨by omega, rfl⟩
  · exact .inl ⟨by omega, rfl⟩

theorem rounds_ofInt (number : Int) : Rounds (ofInt number) (number * scale) := by
  refine ⟨_, _, near_nearest number.natAbs, ?_⟩
  unfold ofInt
  split_ifs with negative
  · refine .inr ⟨rfl, ?_⟩
    rw [cast_mul, ← Int.neg_mul]
    congr 1
    omega
  · refine .inl ⟨rfl, ?_⟩
    rw [cast_mul]
    congr 1
    omega

theorem Rounds.le {rank rank' size size' : Int} (rounds : Rounds rank size)
    (rounds' : Rounds rank' size') (upTo : size ≤ size') : rank ≤ rank' := by
  obtain ⟨first, second, near, ⟨rfl, rfl⟩ | ⟨rfl, rfl⟩⟩ := rounds <;>
    obtain ⟨first', second', near', ⟨rfl, rfl⟩ | ⟨rfl, rfl⟩⟩ := rounds'
  · exact Int.ofNat_le.mpr (near.le near' (Int.ofNat_le.mp upTo))
  · -- Both are zero.
    have least := near.le (near_scaled 0) (by omega)
    have least' := near'.le (near_scaled 0) (by omega)
    omega
  · omega
  · have back := near'.le near (by omega)
    omega

/-- Beyond 53 bits two integers become one double. -/
example : ofInt (2 ^ 53) = ofInt (2 ^ 53 + 1) ∧ ofInt (2 ^ 53 + 1) ≠ ofInt (2 ^ 53 + 2) ∧
    some (ofInt (-3)) = rank 0xC008000000000000 := by decide

end Euclid.Binary64
