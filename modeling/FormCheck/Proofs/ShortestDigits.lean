import FormCheck.Proofs.Decimals
import FormCheck.Proofs.RoundingErrors

/-!
# The fewest digits that read back

A decimal reads back as a magnitude if its value is rounded to it. What reads back lies in an
interval around the magnitude, so if any multiple of a step does, one of the two multiples around
the magnitude does. The search goes through steps of powers of ten and therefore stops at the
coarsest that has a multiple in the interval. No shorter decimal reads back, and of those that are
as short none is closer. Two can be equally close, and then the search takes the upper or the even
one. With either rule there is one shortest decimal.
-/
namespace FormCheck

/-- How far a multiple below is: the remainder, and whole steps. -/
theorem abs_mul_sub_of_le_div {n step k : ℕ} (hle : k ≤ n / step) :
    |(k * step : ℚ) - n| = (n % step : ℕ) + (n / step - k : ℕ) * step := by
  obtain ⟨m, hm⟩ := Nat.exists_eq_add_of_le hle
  have hdiv : (n : ℚ) = step * (k + m : ℕ) + (n % step : ℕ) := by
    rw [← hm]
    exact_mod_cast (Nat.div_add_mod n step).symm
  have hsteps : (0 : ℚ) ≤ m * step := by positivity
  have hrest : (0 : ℚ) ≤ (n % step : ℕ) := Nat.cast_nonneg _
  rw [hm, Nat.add_sub_cancel_left, abs_sub_comm]
  generalize ((n % step : ℕ) : ℚ) = rest at hdiv hrest ⊢
  rw [hdiv, abs_of_nonneg]
  all_goals push_cast
  all_goals linarith

/-- How far a multiple above is: what the remainder leaves of a step, and whole steps. -/
theorem abs_mul_sub_of_div_lt {n step k : ℕ} (hstep : 0 < step) (hlt : n / step < k) :
    |(k * step : ℚ) - n| = step - (n % step : ℕ) + (k - (n / step + 1) : ℕ) * step := by
  obtain ⟨m, rfl⟩ := Nat.exists_eq_add_of_le (Nat.succ_le_of_lt hlt)
  have hdiv : (n : ℚ) = step * (n / step : ℕ) + (n % step : ℕ) := by
    exact_mod_cast (Nat.div_add_mod n step).symm
  have hsteps : (0 : ℚ) ≤ m * step := by positivity
  have hrest : ((n % step : ℕ) : ℚ) ≤ step := by exact_mod_cast (Nat.mod_lt n hstep).le
  rw [Nat.succ_eq_add_one, Nat.add_sub_cancel_left]
  generalize ((n % step : ℕ) : ℚ) = rest at hdiv hrest ⊢
  generalize n / step = quotient at hdiv ⊢
  rw [hdiv, abs_of_nonneg]
  all_goals push_cast
  all_goals linarith

namespace Tie

/-- Whether a rule for ties takes `c` where `k` is as close. -/
def Prefers : Tie → ℕ → ℕ → Prop
  | up, c, k => k ≤ c
  | even, c, k => k = c ∨ 2 ∣ c

theorem prefers_self (tie : Tie) (c : ℕ) : tie.Prefers c c := by
  cases tie
  · exact le_rfl
  · exact .inl rfl

end Tie

namespace Magnitude

theorem unitsPerQuantum_pos : 0 < unitsPerQuantum := by
  unfold unitsPerQuantum
  generalize 1074 = n
  exact Nat.pow_pos (by decide)

theorem unitsPerQuantum_cast_ne_zero : (unitsPerQuantum : ℚ) ≠ 0 := by
  exact_mod_cast unitsPerQuantum_pos.ne'

/-- Whether a value is rounded to a magnitude, in units of `10 ^ -1074`. -/
def Covers (x : Magnitude) (units : ℚ) : Prop := RoundsTo (units / unitsPerQuantum) x.quanta

variable {x : Magnitude}

theorem readsBack_eq_true_iff {units : ℕ} : x.readsBack units = true ↔ x.Covers units := by
  rw [readsBack, beq_iff_eq, ← roundsTo_iff_eq_roundedQuotient unitsPerQuantum_pos, Covers]

theorem covers_expansion (x : Magnitude) : x.Covers x.expansion := by
  have hquanta : (x.expansion / unitsPerQuantum : ℚ) = x.quanta := by
    rw [expansion, Nat.cast_mul, mul_div_cancel_right₀ _ unitsPerQuantum_cast_ne_zero]
  rw [Covers, hquanta]
  exact RoundsTo.self x.representable

theorem Covers.of_between {u v w : ℚ} (hu : x.Covers u) (hw : x.Covers w) (huv : u ≤ v)
    (hvw : v ≤ w) : x.Covers v := by
  have hpos : (0 : ℚ) ≤ unitsPerQuantum := Nat.cast_nonneg _
  exact RoundsTo.of_between hu hw (div_le_div_of_nonneg_right huv hpos)
    (div_le_div_of_nonneg_right hvw hpos)

/-- Only zero is read from zero. -/
theorem not_covers_zero (hx : x.quanta ≠ 0) : ¬ x.Covers 0 := by
  intro h
  rw [Covers, zero_div] at h
  exact hx (h.unique RoundsTo.zero)

/-- A multiple of `step` to write for a magnitude: it reads back, is among the two around it, and no
other that reads back is closer. It is taken before every other that is as close. -/
structure IsChoice (tie : Tie) (x : Magnitude) (step c : ℕ) : Prop where
  covers : x.Covers (c * step)
  le : c * step ≤ x.expansion + step
  closest : ∀ k : ℕ, x.Covers (k * step) →
    |(c * step : ℚ) - x.expansion| ≤ |(k * step : ℚ) - x.expansion|
  preferred : ∀ k : ℕ, x.Covers (k * step) →
    |(k * step : ℚ) - x.expansion| = |(c * step : ℚ) - x.expansion| → tie.Prefers c k

section Choice

variable {tie : Tie} {step c : ℕ}

theorem covers_below {k : ℕ} (hk : x.Covers (k * step)) (hle : k ≤ x.expansion / step) :
    x.Covers ((x.expansion / step : ℕ) * step) := by
  refine hk.of_between x.covers_expansion ?_ ?_
  · exact_mod_cast Nat.mul_le_mul_right step hle
  · exact_mod_cast Nat.div_mul_le_self x.expansion step

theorem covers_above (hstep : 0 < step) {k : ℕ} (hk : x.Covers (k * step))
    (hlt : x.expansion / step < k) : x.Covers ((x.expansion / step + 1 : ℕ) * step) := by
  refine x.covers_expansion.of_between hk ?_ ?_
  · exact_mod_cast (Nat.lt_mul_of_div_lt (Nat.lt_succ_self _) hstep).le
  · exact_mod_cast Nat.mul_le_mul_right step hlt

/-- It is enough to compare a multiple with the two around the magnitude. -/
theorem isChoice_of_neighbours (hstep : 0 < step) (hc : x.Covers (c * step))
    (hle : c * step ≤ x.expansion + step)
    (hbelow : x.Covers ((x.expansion / step : ℕ) * step) →
      |(c * step : ℚ) - x.expansion| ≤ (x.expansion % step : ℕ) ∧
      (|(c * step : ℚ) - x.expansion| = (x.expansion % step : ℕ) →
        tie.Prefers c (x.expansion / step)))
    (habove : x.Covers ((x.expansion / step + 1 : ℕ) * step) →
      |(c * step : ℚ) - x.expansion| ≤ step - (x.expansion % step : ℕ) ∧
      (|(c * step : ℚ) - x.expansion| = step - (x.expansion % step : ℕ) →
        tie.Prefers c (x.expansion / step + 1))) :
    IsChoice tie x step c := by
  have hstepq : (0 : ℚ) < step := by exact_mod_cast hstep
  refine ⟨hc, hle, ?_, ?_⟩
  · intro k hk
    rcases Nat.lt_or_ge (x.expansion / step) k with hlt | hge
    · have hsteps : (0 : ℚ) ≤ (k - (x.expansion / step + 1) : ℕ) * step :=
        mul_nonneg (Nat.cast_nonneg _) hstepq.le
      rw [abs_mul_sub_of_div_lt hstep hlt]
      linarith [(habove (covers_above hstep hk hlt)).1]
    · have hsteps : (0 : ℚ) ≤ (x.expansion / step - k : ℕ) * step :=
        mul_nonneg (Nat.cast_nonneg _) hstepq.le
      rw [abs_mul_sub_of_le_div hge]
      linarith [(hbelow (covers_below hk hge)).1]
  · -- A multiple that is as close as the chosen one is itself next to the magnitude.
    have hnone {m : ℕ} (hsteps : (m : ℚ) * step ≤ 0) : m = 0 := by
      exact_mod_cast le_antisymm (nonpos_of_mul_nonpos_left hsteps hstepq) (Nat.cast_nonneg _)
    intro k hk heq
    rcases Nat.lt_or_ge (x.expansion / step) k with hlt | hge
    · obtain ⟨hclose, hprefers⟩ := habove (covers_above hstep hk hlt)
      rw [abs_mul_sub_of_div_lt hstep hlt] at heq
      have hzero : k - (x.expansion / step + 1) = 0 := hnone (by linarith)
      rw [hzero, Nat.cast_zero, zero_mul, add_zero] at heq
      rw [show k = x.expansion / step + 1 by omega]
      exact hprefers heq.symm
    · obtain ⟨hclose, hprefers⟩ := hbelow (covers_below hk hge)
      rw [abs_mul_sub_of_le_div hge] at heq
      have hzero : x.expansion / step - k = 0 := hnone (by linarith)
      rw [hzero, Nat.cast_zero, zero_mul, add_zero] at heq
      rw [show k = x.expansion / step by omega]
      exact hprefers heq.symm

theorem isChoice_below (hstep : 0 < step) (hbelow : x.Covers ((x.expansion / step : ℕ) * step))
    (habove : x.Covers ((x.expansion / step + 1 : ℕ) * step) →
      2 * (x.expansion % step) ≤ step ∧ (2 * (x.expansion % step) = step →
        tie.Prefers (x.expansion / step) (x.expansion / step + 1))) :
    IsChoice tie x step (x.expansion / step) := by
  have hdistance := abs_mul_sub_of_le_div (le_refl (x.expansion / step))
  rw [Nat.sub_self, Nat.cast_zero, zero_mul, add_zero] at hdistance
  have hle := Nat.div_mul_le_self x.expansion step
  refine isChoice_of_neighbours hstep hbelow (by omega) (fun _ => ?_) fun hcovers => ?_
  · exact ⟨hdistance.le, fun _ => tie.prefers_self _⟩
  · obtain ⟨hcloser, hprefers⟩ := habove hcovers
    rw [hdistance]
    refine ⟨?_, fun heq => hprefers ?_⟩
    · have : (2 * (x.expansion % step : ℕ) : ℚ) ≤ step := by exact_mod_cast hcloser
      linarith
    · have : (2 * (x.expansion % step : ℕ) : ℚ) = step := by linarith
      exact_mod_cast this

theorem isChoice_above (hstep : 0 < step)
    (habove : x.Covers ((x.expansion / step + 1 : ℕ) * step))
    (hbelow : x.Covers ((x.expansion / step : ℕ) * step) →
      step ≤ 2 * (x.expansion % step) ∧ (2 * (x.expansion % step) = step →
        tie.Prefers (x.expansion / step + 1) (x.expansion / step))) :
    IsChoice tie x step (x.expansion / step + 1) := by
  have hdistance := abs_mul_sub_of_div_lt hstep (Nat.lt_succ_self (x.expansion / step))
  rw [Nat.succ_eq_add_one, Nat.sub_self, Nat.cast_zero, zero_mul, add_zero] at hdistance
  have hle := Nat.div_mul_le_self x.expansion step
  rw [← Nat.succ_eq_add_one] at habove ⊢
  refine isChoice_of_neighbours hstep habove ?_ (fun hcovers => ?_) fun _ => ?_
  · rw [Nat.succ_mul]
    omega
  · obtain ⟨hcloser, hprefers⟩ := hbelow hcovers
    rw [Nat.succ_eq_add_one, hdistance]
    refine ⟨?_, fun heq => hprefers ?_⟩
    · have : (step : ℚ) ≤ 2 * (x.expansion % step : ℕ) := by exact_mod_cast hcloser
      linarith
    · have : (2 * (x.expansion % step : ℕ) : ℚ) = step := by linarith
      exact_mod_cast this
  · exact ⟨hdistance.le, fun _ => tie.prefers_self _⟩

/-- A chosen multiple reads back, and the other one does not, or is not closer and not preferred. -/
theorem neighbour?_eq_some {below rest : ℕ} {belowReads aboveReads : Bool}
    (h : neighbour? tie step below rest belowReads aboveReads = some c) :
    (c = below ∧ belowReads = true ∧
        (aboveReads = true → 2 * rest ≤ step ∧
          (2 * rest = step → tie.Prefers below (below + 1)))) ∨
      (c = below + 1 ∧ aboveReads = true ∧
        (belowReads = true → step ≤ 2 * rest ∧
          (2 * rest = step → tie.Prefers (below + 1) below))) := by
  cases belowReads <;> cases aboveReads <;> simp only [neighbour?] at h
  case false.false => cases h
  case false.true => cases h; simp
  case true.false => cases h; simp
  case true.true =>
    split at h
    · cases h
      exact .inl ⟨rfl, rfl, fun _ => ⟨by omega, fun htie => by omega⟩⟩
    · split at h
      · cases h
        exact .inr ⟨rfl, rfl, fun _ => ⟨by omega, fun htie => by omega⟩⟩
      · have htie : 2 * rest = step := by omega
        cases tie
        case up =>
          cases h
          exact .inr ⟨rfl, rfl, fun _ => ⟨htie.ge, fun _ => Nat.le_succ below⟩⟩
        case even =>
          cases h
          rcases Nat.mod_two_eq_zero_or_one below with heven | hodd
          · exact .inl ⟨by omega, rfl, fun _ => ⟨htie.le, fun _ => .inr (by omega)⟩⟩
          · exact .inr ⟨by omega, rfl, fun _ => ⟨htie.ge, fun _ => .inr (by omega)⟩⟩

theorem neighbour?_eq_none {below rest : ℕ} {belowReads aboveReads : Bool}
    (h : neighbour? tie step below rest belowReads aboveReads = none) :
    belowReads = false ∧ aboveReads = false := by
  cases belowReads <;> cases aboveReads <;> simp only [neighbour?] at h
  case false.false => exact ⟨rfl, rfl⟩
  case true.true =>
    split at h
    · cases h
    · split at h
      · cases h
      · cases tie <;> cases h
  all_goals cases h

theorem isChoice_of_candidate? (hstep : 0 < step) (h : candidate? tie x step = some c) :
    IsChoice tie x step c := by
  rcases neighbour?_eq_some h with ⟨rfl, hbelow, hcloser⟩ | ⟨rfl, habove, hcloser⟩
  · refine isChoice_below hstep ?_ fun habove => hcloser ?_
    · exact_mod_cast readsBack_eq_true_iff.mp hbelow
    · exact readsBack_eq_true_iff.mpr (by exact_mod_cast habove)
  · refine isChoice_above hstep ?_ fun hbelow => hcloser ?_
    · exact_mod_cast readsBack_eq_true_iff.mp habove
    · exact readsBack_eq_true_iff.mpr (by exact_mod_cast hbelow)

/-- If neither of the two multiples around a magnitude reads back, none does. -/
theorem not_covers_of_candidate?_eq_none (hstep : 0 < step) (h : candidate? tie x step = none)
    (k : ℕ) : ¬ x.Covers (k * step) := by
  intro hk
  obtain ⟨hbelow, habove⟩ := neighbour?_eq_none h
  rcases Nat.lt_or_ge (x.expansion / step) k with hlt | hge
  · have hcovers := covers_above hstep hk hlt
    exact Bool.eq_false_iff.mp habove (readsBack_eq_true_iff.mpr (by exact_mod_cast hcovers))
  · have hcovers := covers_below hk hge
    exact Bool.eq_false_iff.mp hbelow (readsBack_eq_true_iff.mpr (by exact_mod_cast hcovers))

end Choice

/-- The coarsest step `10 ^ j`, with `j` up to a bound, that has a multiple which reads back, and
the multiple to write. -/
structure IsCoarsest (tie : Tie) (x : Magnitude) (bound c j : ℕ) : Prop where
  choice : IsChoice tie x (10 ^ j) c
  le : j ≤ bound
  coarsest : ∀ i n : ℕ, j < i → i ≤ bound → ¬ x.Covers (n * (10 ^ i : ℕ))

theorem isChoice_expansion (tie : Tie) (x : Magnitude) : IsChoice tie x 1 x.expansion := by
  have hself : ((x.expansion : ℕ) : ℚ) * (1 : ℕ) = x.expansion := by rw [Nat.cast_one, mul_one]
  refine ⟨?_, by omega, ?_, ?_⟩
  · rw [hself]
    exact x.covers_expansion
  · intro k _
    rw [hself, sub_self, abs_zero]
    exact abs_nonneg _
  · intro k _ heq
    rw [hself, sub_self, abs_zero, abs_eq_zero, sub_eq_zero, Nat.cast_one, mul_one] at heq
    rw [Nat.cast_injective heq]
    exact tie.prefers_self _

theorem isCoarsest_search (tie : Tie) (x : Magnitude) (bound : ℕ) :
    IsCoarsest tie x bound (search tie x bound).1 (search tie x bound).2 := by
  induction bound with
  | zero =>
    refine ⟨?_, le_rfl, fun i n hlt hle => ?_⟩
    · exact isChoice_expansion tie x
    · exact absurd hlt (Nat.not_lt.mpr hle)
  | succ k ih =>
    have hstep : 0 < 10 ^ (k + 1) := Nat.pow_pos (by decide)
    rw [search]
    cases hfound : candidate? tie x (Nat.pow 10 (k + 1)) with
    | some c =>
      refine ⟨isChoice_of_candidate? hstep hfound, le_rfl, fun i n hlt hle => ?_⟩
      exact absurd hlt (Nat.not_lt.mpr hle)
    | none =>
      refine ⟨ih.choice, Nat.le_succ_of_le ih.le, fun i n hlt hle => ?_⟩
      rcases Nat.le_or_eq_of_le_succ hle with hle | rfl
      · exact ih.coarsest i n hlt hle
      · exact not_covers_of_candidate?_eq_none hstep hfound n

section Coarsest

variable {tie : Tie} {c j bound : ℕ}

theorem IsChoice.ne_zero {step : ℕ} (h : IsChoice tie x step c) (hx : x.quanta ≠ 0) : c ≠ 0 := by
  rintro rfl
  have hzero := h.covers
  rw [Nat.cast_zero, zero_mul] at hzero
  exact not_covers_zero hx hzero

/-- The choice has at most as many digits as are left above its step, or is the power of ten behind
them. -/
theorem IsCoarsest.le_pow (h : IsCoarsest tie x bound c j)
    (hhigh : x.expansion < 10 ^ (bound + 1)) : c ≤ 10 ^ (bound + 1 - j) := by
  have hpow : 10 ^ (bound + 1) = 10 ^ (bound + 1 - j) * 10 ^ j := by
    rw [← Nat.pow_add, Nat.sub_add_cancel (Nat.le_succ_of_le h.le)]
  have hle := h.choice.le
  have hlt : c * 10 ^ j < (10 ^ (bound + 1 - j) + 1) * 10 ^ j := by
    rw [Nat.add_mul, Nat.one_mul, ← hpow]
    omega
  exact Nat.le_of_lt_succ (Nat.lt_of_mul_lt_mul_right hlt)

/-- A number with few digits is a multiple of a power of ten, or below the leading one. -/
theorem multiple_or_lt {n length : ℕ} {i : ℤ} (hn : n < 10 ^ length)
    (hle : length + j ≤ bound + 1) :
    (∃ m : ℕ, (n * 10 ^ i : ℚ) = m * (10 ^ j : ℕ)) ∨ (n * 10 ^ i : ℚ) < (10 ^ bound : ℕ) := by
  rcases le_or_gt (j : ℤ) i with hge | hlt
  · left
    obtain ⟨k, rfl⟩ := Int.exists_add_of_le hge
    refine ⟨n * 10 ^ k, ?_⟩
    rw [zpow_add₀ (by norm_num), zpow_natCast, zpow_natCast]
    push_cast
    ring
  · right
    calc (n * 10 ^ i : ℚ) < 10 ^ (length + i) := scaled_lt_pow hn i
      _ ≤ 10 ^ (bound : ℤ) := zpow_le_zpow_right₀ (by norm_num) (by omega)
      _ = (10 ^ bound : ℕ) := by rw [zpow_natCast, Nat.cast_pow, Nat.cast_ofNat]

/-- If a value below the leading power of ten reads back, then so does the power. -/
theorem covers_pow {u : ℚ} (hu : x.Covers u) (hlow : 10 ^ bound ≤ x.expansion)
    (hlt : u < (10 ^ bound : ℕ)) : x.Covers (10 ^ bound : ℕ) :=
  hu.of_between x.covers_expansion hlt.le (by exact_mod_cast hlow)

theorem pow_eq_multiple (hle : j ≤ bound) :
    ((10 ^ bound : ℕ) : ℚ) = (10 ^ (bound - j) : ℕ) * (10 ^ j : ℕ) := by
  rw [← Nat.cast_mul, ← Nat.pow_add, Nat.sub_add_cancel hle]

/-- What reads back has at least as many digits as are left above the coarsest step. -/
theorem IsCoarsest.le_length (h : IsCoarsest tie x bound c j) (hx : x.quanta ≠ 0)
    (hlow : 10 ^ bound ≤ x.expansion) {n length : ℕ} {i : ℤ} (hn : n < 10 ^ length)
    (hcovers : x.Covers (n * 10 ^ i)) : bound + 1 - j ≤ length := by
  refine Nat.le_of_not_lt fun hshort => ?_
  have hne : n ≠ 0 := by
    rintro rfl
    rw [Nat.cast_zero, zero_mul] at hcovers
    exact not_covers_zero hx hcovers
  have hlength : length ≠ 0 := by
    rintro rfl
    omega
  -- One coarser step is left, and a multiple of it would read back.
  have hfits : length + (j + 1) ≤ bound + 1 := by omega
  have hcoarser : j + 1 ≤ bound := by omega
  rcases multiple_or_lt hn hfits with ⟨m, hm⟩ | hlt
  · rw [hm] at hcovers
    exact h.coarsest (j + 1) m (Nat.lt_succ_self j) hcoarser hcovers
  · have hpow := covers_pow hcovers hlow hlt
    rw [pow_eq_multiple hcoarser] at hpow
    exact h.coarsest (j + 1) _ (Nat.lt_succ_self j) hcoarser hpow

/-- Of what reads back with no more digits, nothing is closer than the choice, and what is as close
is a multiple of the same step. -/
theorem IsCoarsest.closest (h : IsCoarsest tie x bound c j) (hlow : 10 ^ bound ≤ x.expansion)
    {n : ℕ} {i : ℤ} (hn : n < 10 ^ (bound + 1 - j)) (hcovers : x.Covers (n * 10 ^ i)) :
    |(c * (10 ^ j : ℕ) : ℚ) - x.expansion| ≤ |(n * 10 ^ i : ℚ) - x.expansion| ∧
      (|(n * 10 ^ i : ℚ) - x.expansion| = |(c * (10 ^ j : ℕ) : ℚ) - x.expansion| →
        ∃ m : ℕ, (n * 10 ^ i : ℚ) = m * (10 ^ j : ℕ)) := by
  have hle := h.le
  have hfits : bound + 1 - j + j ≤ bound + 1 := by omega
  rcases multiple_or_lt hn hfits with ⟨m, hm⟩ | hlt
  · rw [hm] at hcovers ⊢
    exact ⟨h.choice.closest m hcovers, fun _ => ⟨m, rfl⟩⟩
  · -- The leading power of ten is a multiple of the step and strictly closer.
    have hpow := covers_pow hcovers hlow hlt
    have hlowq : ((10 ^ bound : ℕ) : ℚ) ≤ x.expansion := by exact_mod_cast hlow
    have hcloser : |((10 ^ bound : ℕ) : ℚ) - x.expansion| < |(n * 10 ^ i : ℚ) - x.expansion| := by
      rw [abs_of_nonpos (by linarith), abs_of_neg (by linarith)]
      linarith
    rw [pow_eq_multiple hle] at hpow hcloser
    have hstrict := (h.choice.closest _ hpow).trans_lt hcloser
    exact ⟨hstrict.le, fun heq => absurd heq hstrict.ne'⟩

/-- No magnitude that is read from ten steps is halfway between nine and ten of them. It would be a
multiple of nineteen quanta, and rounding does not move a value by one part in nineteen. -/
theorem Covers.ne_halfway {step : ℕ} (hx : x.quanta ≠ 0) (hten : x.Covers (10 * step)) :
    (2 * x.expansion : ℚ) ≠ 19 * step := by
  intro hhalf
  have hdvd : 19 ∣ x.quanta := by
    have hcoprime : Nat.Coprime 19 unitsPerQuantum := by
      unfold unitsPerQuantum
      generalize 1074 = n
      exact Nat.Coprime.pow_right n (by decide)
    have htwo : 19 ∣ 2 * x.expansion := ⟨step, by exact_mod_cast hhalf⟩
    exact hcoprime.dvd_of_dvd_mul_right (Nat.Coprime.dvd_of_dvd_mul_left (by decide) htwo)
  have hquanta : (19 : ℚ) ≤ x.quanta := by exact_mod_cast Nat.le_of_dvd (Nat.pos_of_ne_zero hx) hdvd
  have hvalue : (10 * step / unitsPerQuantum : ℚ) = 20 / 19 * x.quanta := by
    rw [expansion, Nat.cast_mul] at hhalf
    rw [div_eq_iff unitsPerQuantum_cast_ne_zero]
    linarith
  rw [Covers, hvalue] at hten
  have herror := hten.error_le (by linarith)
  have hdistance : |(20 / 19 * x.quanta - x.quanta : ℚ)| = x.quanta / 19 := by
    rw [abs_of_nonneg (by linarith)]
    ring
  rw [hdistance] at herror
  rcases herror with hhalf | hpart
  · linarith
  · linarith

/-- If ten steps are chosen for what is below them, no other multiple is as close. -/
theorem IsChoice.eq_ten {step m : ℕ} (h : IsChoice tie x step 10) (hx : x.quanta ≠ 0)
    (hhigh : x.expansion < 10 * step) (hm : x.Covers (m * step))
    (heq : |(m * step : ℚ) - x.expansion| = |((10 : ℕ) * step : ℚ) - x.expansion|) : m = 10 := by
  have hstep : (0 : ℚ) < step := by
    exact_mod_cast Nat.pos_of_mul_pos_left ((Nat.zero_le _).trans_lt hhigh)
  have hten := h.covers
  have hnine := h.closest 9
  have hhighq : (x.expansion : ℚ) < 10 * step := by exact_mod_cast hhigh
  rw [Nat.cast_ofNat] at heq hten hnine
  rw [Nat.cast_ofNat] at hnine
  have hdistance : |10 * (step : ℚ) - x.expansion| = 10 * step - x.expansion :=
    abs_of_pos (by linarith)
  rw [hdistance] at heq hnine
  rcases (abs_eq (by linarith)).mp heq with habove | hbelow
  · exact_mod_cast mul_right_cancel₀ hstep.ne' (sub_left_injective habove)
  · exfalso
    have hlt : (m : ℚ) < (10 : ℕ) := lt_of_mul_lt_mul_right (by push_cast; linarith) hstep.le
    have hle : (m : ℚ) ≤ 9 := by exact_mod_cast Nat.le_of_lt_succ (Nat.cast_lt.mp hlt)
    have hmul : (m * step : ℚ) ≤ 9 * step := mul_le_mul_of_nonneg_right hle hstep.le
    -- Nine steps read back as well and are not closer, so the magnitude is halfway.
    have hcloser := hnine (hm.of_between hten hmul (by linarith))
    refine hten.ne_halfway hx (le_antisymm (by linarith) ?_)
    rcases le_total (x.expansion : ℚ) (9 * step) with hsmall | hlarge
    · rw [abs_of_nonneg (sub_nonneg.mpr hsmall)] at hcloser
      linarith
    · rw [abs_of_nonpos (sub_nonpos.mpr hlarge)] at hcloser
      linarith

/-- A choice with a zero at its end is the leading power of ten. -/
theorem IsCoarsest.eq_ten_of_dvd (h : IsCoarsest tie x bound c j) (hx : x.quanta ≠ 0)
    (hhigh : x.expansion < 10 ^ (bound + 1)) (hdvd : 10 ∣ c) : c = 10 ∧ j = bound := by
  obtain ⟨n, rfl⟩ := hdvd
  have hlast : j = bound := by
    refine le_antisymm h.le (Nat.le_of_not_lt fun hlt => ?_)
    have hmultiple : ((10 * n : ℕ) * (10 ^ j : ℕ) : ℚ) = n * (10 ^ (j + 1) : ℕ) := by
      push_cast
      ring
    have hcovers := h.choice.covers
    rw [hmultiple] at hcovers
    exact h.coarsest (j + 1) n (Nat.lt_succ_self j) hlt hcovers
  have hle := h.le_pow hhigh
  have hne := h.choice.ne_zero hx
  rw [hlast, Nat.add_sub_cancel_left] at hle
  omega

/-- If ties go to even numbers, a choice that another multiple ties with is even and ends in no
zero. -/
theorem IsCoarsest.even (h : IsCoarsest .even x bound c j) (hx : x.quanta ≠ 0)
    (hhigh : x.expansion < 10 ^ (bound + 1)) {m : ℕ} (hm : x.Covers (m * (10 ^ j : ℕ)))
    (heq : |(m * (10 ^ j : ℕ) : ℚ) - x.expansion| = |(c * (10 ^ j : ℕ) : ℚ) - x.expansion|) :
    m = c ∨ 2 ∣ c ∧ ¬ 10 ∣ c := by
  by_cases hdvd : 10 ∣ c
  · left
    obtain ⟨rfl, rfl⟩ := h.eq_ten_of_dvd hx hhigh hdvd
    rw [Nat.pow_succ, Nat.mul_comm] at hhigh
    exact h.choice.eq_ten hx hhigh hm heq
  · exact (h.choice.preferred m hm heq).imp_right fun htwo => ⟨htwo, hdvd⟩

end Coarsest

/-- How many units there are in one. -/
def unitsPerOne : ℚ := unitsPerQuantum * quantaPerUnit

theorem unitsPerOne_eq : unitsPerOne = 10 ^ (1074 : ℤ) := by
  have hexponent : (1074 : ℤ) = (1074 : ℕ) := rfl
  unfold unitsPerOne unitsPerQuantum quantaPerUnit
  rw [hexponent]
  generalize 1074 = n
  rw [zpow_natCast, ← Nat.cast_mul, powTwo, Nat.pow_eq, Nat.pow_eq, ← Nat.mul_pow, Nat.cast_pow]
  rfl

theorem unitsPerOne_pos : 0 < unitsPerOne := by
  rw [unitsPerOne_eq]
  exact zpow_pos (by norm_num) _

theorem isNearestTo_iff {v : ℚ} : x.IsNearestTo v ↔ x.Covers (v * unitsPerOne) := by
  rw [IsNearestTo, Covers, unitsPerOne, mul_left_comm,
    mul_div_cancel_left₀ _ unitsPerQuantum_cast_ne_zero]

theorem abs_sub_value_mul (v : ℚ) (x : Magnitude) :
    |v - x.value| * unitsPerOne = |v * unitsPerOne - x.expansion| := by
  have hvalue : x.value * unitsPerOne = x.expansion := by
    rw [value, unitsPerOne, mul_left_comm, div_mul_cancel₀ _ quantaPerUnit_cast_pos.ne',
      mul_comm, expansion, Nat.cast_mul]
  rw [← hvalue, ← sub_mul, abs_mul, abs_of_pos unitsPerOne_pos]

/-- Whether a decimal has digits only and its value is rounded to a magnitude. -/
structure IsReadFrom (x : Magnitude) (d : Decimal) : Prop where
  isDigit : ∀ c ∈ d.digits, c.isDigit = true
  nearest : x.IsNearestTo d.value

/-- The shortest decimal that reads back as a magnitude: nothing shorter reads back, and of what is
as short nothing is closer. Of two equally close it is the upper one if ties go up, and the one with
even digits if ties go to even. -/
structure IsShortest (tie : Tie) (x : Magnitude) (d : Decimal) : Prop where
  normal : d.IsNormal
  nearest : x.IsNearestTo d.value
  shortest : ∀ e, x.IsReadFrom e → d.digits.length ≤ e.digits.length
  closest : ∀ e, x.IsReadFrom e → e.digits.length = d.digits.length →
    |d.value - x.value| ≤ |e.value - x.value|
  upper : tie = .up → ∀ e, x.IsReadFrom e → e.digits.length = d.digits.length →
    |e.value - x.value| = |d.value - x.value| → e.value ≤ d.value
  even : tie = .even → ∀ e, x.IsReadFrom e → e.digits.length = d.digits.length →
    |e.value - x.value| = |d.value - x.value| →
    e.value = d.value ∨ 2 ∣ Nat.ofDigitChars 10 d.digits 0

theorem IsShortest.isReadFrom {tie : Tie} {d : Decimal} (h : IsShortest tie x d) :
    x.IsReadFrom d :=
  ⟨h.normal.isDigit, h.nearest⟩

section Unique

variable {tie other : Tie} {d e f : Decimal}

theorem IsShortest.length_eq (hd : IsShortest tie x d) (he : IsShortest other x e) :
    d.digits.length = e.digits.length :=
  le_antisymm (hd.shortest e he.isReadFrom) (he.shortest d hd.isReadFrom)

theorem IsShortest.distance_eq (hd : IsShortest tie x d) (he : IsShortest other x e) :
    |d.value - x.value| = |e.value - x.value| :=
  le_antisymm (hd.closest e he.isReadFrom (he.length_eq hd))
    (he.closest d hd.isReadFrom (hd.length_eq he))

theorem IsReadFrom.of_between (hd : x.IsReadFrom d) (he : x.IsReadFrom e)
    (hf : ∀ c ∈ f.digits, c.isDigit = true) (hdf : d.value ≤ f.value) (hfe : f.value ≤ e.value) :
    x.IsReadFrom f :=
  ⟨hf, RoundsTo.of_between hd.nearest he.nearest
    (mul_le_mul_of_nonneg_right hdf quantaPerUnit_cast_pos.le)
    (mul_le_mul_of_nonneg_right hfe quantaPerUnit_cast_pos.le)⟩

/-- Between two shortest decimals lies no decimal of no more digits: it would be closer. -/
theorem IsShortest.not_between (hd : IsShortest tie x d) (he : IsShortest other x e)
    (hf : f.IsNormal) (hlength : f.digits.length ≤ d.digits.length) (hdf : d.value < f.value) :
    ¬ f.value < e.value := by
  intro hfe
  have hread := hd.isReadFrom.of_between he.isReadFrom hf.isDigit hdf.le hfe.le
  have hclosest := hd.closest f hread (le_antisymm hlength (hd.shortest f hread))
  have hdistance := he.distance_eq hd
  -- The two are on both sides of the magnitude.
  rcases abs_eq_abs.mp hdistance with hsame | hsides
  · linarith
  · have hcloser : |f.value - x.value| < e.value - x.value :=
      abs_lt.mpr ⟨by linarith, by linarith⟩
    linarith [le_abs_self (e.value - x.value)]

/-- With the point in the same place, the digits of two shortest decimals differ by one at most. -/
theorem IsShortest.digits_le_succ (hd : IsShortest tie x d) (he : IsShortest other x e)
    (hpoint : d.point = e.point) :
    Nat.ofDigitChars 10 e.digits 0 ≤ Nat.ofDigitChars 10 d.digits 0 + 1 := by
  have hpos : (0 : ℚ) < 10 ^ (d.point - d.digits.length) := zpow_pos (by norm_num) _
  have hfits := ofDigitChars_lt he.normal.isDigit
  refine Nat.le_of_not_lt fun hlt => ?_
  rw [he.length_eq hd] at hfits
  refine hd.not_between he (Decimal.isNormal_trimmed (Nat.succ_ne_zero _) _)
    (Decimal.length_trimmed_le (List.length_pos_iff.mpr hd.normal.ne_nil)
      (hlt.trans hfits).le (d.point - d.digits.length)) ?_ ?_
  · rw [Decimal.value_trimmed, Decimal.value, Nat.cast_succ]
    exact mul_lt_mul_of_pos_right (lt_add_one _) hpos
  · rw [Decimal.value_trimmed, Decimal.value, ← hpoint, he.length_eq hd]
    exact mul_lt_mul_of_pos_right (by exact_mod_cast hlt) hpos

/-- With the point further to the right, the other decimal is the next power of ten. -/
theorem IsShortest.eq_power (hd : IsShortest tie x d) (he : IsShortest other x e)
    (hpoint : d.point < e.point) : e = Decimal.power d.point := by
  have hbelow : d.value < (Decimal.power d.point).value := by
    rw [Decimal.value_power]
    exact Decimal.value_lt_pow hd.normal.isDigit
  have habove : (Decimal.power d.point).value ≤ e.value := by
    rw [Decimal.value_power]
    refine (zpow_le_zpow_right₀ (by norm_num) ?_).trans he.normal.pow_le_value
    omega
  have hnormal := Decimal.isNormal_power d.point
  have hread := hd.isReadFrom.of_between he.isReadFrom hnormal.isDigit hbelow.le habove
  have hbetween := hd.not_between he hnormal (List.length_pos_iff.mpr hd.normal.ne_nil) hbelow
  refine he.normal.eq_of_value_eq hnormal ?_ (le_antisymm (not_lt.mp hbetween) habove)
  exact le_antisymm (he.shortest _ hread) (List.length_pos_iff.mpr he.normal.ne_nil)

/-- Two shortest decimals do not both have even digits. -/
theorem IsShortest.not_lt_of_even (hd : IsShortest tie x d) (he : IsShortest other x e)
    (hdeven : 2 ∣ Nat.ofDigitChars 10 d.digits 0) (heeven : 2 ∣ Nat.ofDigitChars 10 e.digits 0) :
    ¬ d.value < e.value := by
  intro hlt
  have hpoint : d.point - 1 < e.point := by
    have hpow := (hd.normal.pow_le_value.trans hlt.le).trans_lt
      (Decimal.value_lt_pow he.normal.isDigit)
    rwa [zpow_lt_zpow_iff_right₀ (by norm_num)] at hpow
  rcases (Int.le_of_sub_one_lt hpoint).eq_or_lt with hsame | hgreater
  · have hdigits : Nat.ofDigitChars 10 d.digits 0 < Nat.ofDigitChars 10 e.digits 0 := by
      rw [Decimal.value, Decimal.value, ← hsame, he.length_eq hd] at hlt
      exact_mod_cast lt_of_mul_lt_mul_right hlt (zpow_pos (by norm_num) _).le
    have hnext := hd.digits_le_succ he hsame
    omega
  · have hodd : ¬ 2 ∣ Nat.ofDigitChars 10 ['1'] 0 := by decide
    rw [hd.eq_power he hgreater] at heeven
    exact hodd heeven

/-- There is one shortest decimal. -/
theorem IsShortest.unique (hd : IsShortest tie x d) (he : IsShortest tie x e) : d = e := by
  have hlength := hd.length_eq he
  have hdistance := hd.distance_eq he
  refine hd.normal.eq_of_value_eq he.normal hlength ?_
  cases tie with
  | up =>
    exact le_antisymm (he.upper rfl d hd.isReadFrom hlength hdistance)
      (hd.upper rfl e he.isReadFrom hlength.symm hdistance.symm)
  | even =>
    rcases hd.even rfl e he.isReadFrom hlength.symm hdistance.symm with heq | hdeven
    · exact heq.symm
    rcases he.even rfl d hd.isReadFrom hlength hdistance with heq | heeven
    · exact heq
    exact le_antisymm (not_lt.mp (he.not_lt_of_even hd heeven hdeven))
      (not_lt.mp (hd.not_lt_of_even he hdeven heeven))

end Unique

theorem value_mul_unitsPerOne (d : Decimal) : d.value * unitsPerOne =
    Nat.ofDigitChars 10 d.digits 0 * 10 ^ (d.point - d.digits.length + 1074) := by
  rw [unitsPerOne_eq, d.value_mul_pow]

section Decimals

variable {tie : Tie} {bound c j : ℕ} {d e : Decimal}

/-- No decimal of no more digits is closer than one that stands for the choice. -/
theorem IsCoarsest.closest_decimal (h : IsCoarsest tie x bound c j)
    (hlow : 10 ^ bound ≤ x.expansion) (hd : d.value * unitsPerOne = c * (10 ^ j : ℕ))
    (he : x.IsReadFrom e) (hlength : e.digits.length ≤ bound + 1 - j) :
    |d.value - x.value| ≤ |e.value - x.value| := by
  have hcovers := isNearestTo_iff.mp he.nearest
  have hfits := (ofDigitChars_lt he.isDigit).trans_le (Nat.pow_le_pow_right (by decide) hlength)
  rw [value_mul_unitsPerOne] at hcovers
  have hle := (h.closest hlow hfits hcovers).1
  rw [← hd, ← value_mul_unitsPerOne, ← abs_sub_value_mul, ← abs_sub_value_mul] at hle
  exact le_of_mul_le_mul_right hle unitsPerOne_pos

/-- A decimal of no more digits that is as close stands for a multiple that is as close. -/
theorem IsCoarsest.exists_tied (h : IsCoarsest tie x bound c j) (hlow : 10 ^ bound ≤ x.expansion)
    (hd : d.value * unitsPerOne = c * (10 ^ j : ℕ)) (he : x.IsReadFrom e)
    (hlength : e.digits.length ≤ bound + 1 - j)
    (heq : |e.value - x.value| = |d.value - x.value|) :
    ∃ m : ℕ, e.value * unitsPerOne = m * (10 ^ j : ℕ) ∧ x.Covers (m * (10 ^ j : ℕ)) ∧
      |(m * (10 ^ j : ℕ) : ℚ) - x.expansion| = |(c * (10 ^ j : ℕ) : ℚ) - x.expansion| := by
  have hcovers := isNearestTo_iff.mp he.nearest
  have hfits := (ofDigitChars_lt he.isDigit).trans_le (Nat.pow_le_pow_right (by decide) hlength)
  have hunits : |e.value * unitsPerOne - x.expansion| =
      |(c * (10 ^ j : ℕ) : ℚ) - x.expansion| := by
    rw [← hd, ← abs_sub_value_mul, ← abs_sub_value_mul, heq]
  obtain ⟨m, hm⟩ : ∃ m : ℕ, e.value * unitsPerOne = m * (10 ^ j : ℕ) := by
    rw [value_mul_unitsPerOne] at hcovers hunits ⊢
    exact (h.closest hlow hfits hcovers).2 hunits
  rw [hm] at hcovers hunits
  exact ⟨m, hm, hcovers, hunits⟩

/-- The multiple found at the coarsest step makes the shortest decimal. -/
theorem IsCoarsest.isShortest (h : IsCoarsest tie x bound c j) (hx : x.quanta ≠ 0)
    (hlow : 10 ^ bound ≤ x.expansion) (hhigh : x.expansion < 10 ^ (bound + 1)) :
    IsShortest tie x (Decimal.trimmed c (j - 1074)) := by
  have hj := h.le
  have hplaces : 0 < bound + 1 - j := by omega
  have hshort := Decimal.length_trimmed_le hplaces (h.le_pow hhigh) (j - 1074)
  have hvalue : (Decimal.trimmed c (j - 1074)).value * unitsPerOne = c * (10 ^ j : ℕ) := by
    rw [Decimal.value_trimmed, unitsPerOne_eq, mul_assoc, ← zpow_add₀ (by norm_num), sub_add_cancel,
      zpow_natCast, Nat.cast_pow, Nat.cast_ofNat]
  have hnormal := Decimal.isNormal_trimmed (h.choice.ne_zero hx) (j - 1074)
  have hdigits (hdvd : ¬ 10 ∣ c) := Decimal.ofDigitChars_trimmed hdvd (j - 1074)
  generalize Decimal.trimmed c (j - 1074) = d at hshort hvalue hnormal hdigits ⊢
  refine ⟨hnormal, ?_, ?_, ?_, ?_, ?_⟩
  · rw [isNearestTo_iff, hvalue]
    exact h.choice.covers
  · intro e he
    have hcovers := isNearestTo_iff.mp he.nearest
    rw [value_mul_unitsPerOne] at hcovers
    exact hshort.trans (h.le_length hx hlow (ofDigitChars_lt he.isDigit) hcovers)
  · intro e he hlength
    exact h.closest_decimal hlow hvalue he (hlength.trans_le hshort)
  · rintro rfl e he hlength heq
    obtain ⟨m, hm, hcovers, htie⟩ := h.exists_tied hlow hvalue he (hlength.trans_le hshort) heq
    have hle : m ≤ c := h.choice.preferred m hcovers htie
    refine le_of_mul_le_mul_right ?_ unitsPerOne_pos
    rw [hm, hvalue]
    exact mul_le_mul_of_nonneg_right (by exact_mod_cast hle) (Nat.cast_nonneg _)
  · rintro rfl e he hlength heq
    obtain ⟨m, hm, hcovers, htie⟩ := h.exists_tied hlow hvalue he (hlength.trans_le hshort) heq
    rcases h.even hx hhigh hcovers htie with rfl | ⟨htwo, hdvd⟩
    · exact .inl (mul_right_cancel₀ unitsPerOne_pos.ne' (hm.trans hvalue.symm))
    · exact .inr (by rwa [hdigits hdvd])

end Decimals

/-- What is written for a magnitude is its shortest decimal. -/
theorem isShortest_shortest (tie : Tie) (hx : x.quanta ≠ 0) :
    IsShortest tie x (x.shortest tie) := by
  have hexpansion : x.expansion ≠ 0 := Nat.mul_ne_zero hx unitsPerQuantum_pos.ne'
  obtain ⟨hlow, hhigh⟩ := pow_length_toDigits_bounds hexpansion
  have hfound := isCoarsest_search tie x ((Nat.toDigits 10 x.expansion).length - 1)
  rw [← Nat.sub_add_cancel Nat.length_toDigits_pos] at hhigh
  have hshortest := hfound.isShortest hx hlow hhigh
  rw [Decimal.trimmed, ← add_sub_assoc] at hshortest
  exact hshortest

end Magnitude
end FormCheck
