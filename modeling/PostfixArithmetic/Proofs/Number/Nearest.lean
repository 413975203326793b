import Mathlib
import PostfixArithmetic.Proofs.Number.Rounding

/-!
# Nearest magnitudes

What rounding to nearest means is said without a procedure: no magnitude is closer, and of
two that are equally close the one with the even pattern is taken, where infinity stands
for `2 ^ 1024`. There is exactly one such pattern, and it is the one that is computed. It is
computed in two parts as well: the leading bits of the quotient give a shift, and the
quotient in units of that shift is rounded to a whole number.
-/

namespace PostfixArithmetic.BitPattern

/-- The whole number nearest to `numerator / denominator`; halfway it is the even one. -/
def roundEven (numerator denominator : Nat) : Nat :=
  let below := numerator / denominator
  let twice := 2 * (numerator % denominator)
  if twice < denominator then below
  else if denominator < twice then below + 1
  else below + below % 2

/-- Rounding goes to the whole number below or to the next one. -/
theorem roundEven_eq_or (numerator denominator : Nat) :
    roundEven numerator denominator = numerator / denominator ∨
      roundEven numerator denominator = numerator / denominator + 1 := by
  simp only [roundEven]
  split_ifs
  · exact Or.inl rfl
  · exact Or.inr rfl
  · rcases Nat.mod_two_eq_zero_or_one (numerator / denominator) with h | h
    · exact Or.inl (by rw [h, Nat.add_zero])
    · exact Or.inr (by rw [h])

/-- A common factor does not matter. -/
theorem roundEven_mul_right (numerator denominator : Nat) {factor : Nat} (hf : 0 < factor) :
    roundEven (numerator * factor) (denominator * factor) = roundEven numerator denominator := by
  have htwice : 2 * (numerator % denominator * factor) =
      2 * (numerator % denominator) * factor := (Nat.mul_assoc _ _ _).symm
  simp only [roundEven, Nat.mul_div_mul_right _ _ hf, Nat.mul_mod_mul_right, htwice,
    Nat.mul_lt_mul_right hf]

/-- Only the value of the quotient matters. -/
theorem roundEven_congr {a b c d : Nat} (hb : 0 < b) (hd : 0 < d) (h : a * d = c * b) :
    roundEven a b = roundEven c d := by
  rw [← roundEven_mul_right a b hd, h, Nat.mul_comm b d, roundEven_mul_right c d hb]

/-- Larger patterns have larger magnitudes. -/
theorem units_strictMono : StrictMono units := by
  refine strictMono_nat_of_lt_succ fun pattern => ?_
  have hb := (floorOfUnits_bounds (units pattern)).2
  rwa [floorOfUnits_units] at hb

/-- Infinity counts as `2 ^ 1024`. -/
theorem units_infinity : units infinity = 2 ^ 2098 := by
  have hi : infinity = 2045 * 2 ^ 52 + 2 ^ 53 := by decide
  rw [hi, units_shifted (Or.inr (by decide)) (le_refl _), ← pow_add]

/-- The distance of a magnitude from `numerator / denominator`, counted in units and
multiplied by the denominator. -/
def distance (numerator denominator pattern : Nat) : Nat :=
  Nat.dist (numerator * 2 ^ 1074) (units pattern * denominator)

/-- A pattern is that of the magnitude nearest to `numerator / denominator`. Infinity takes
part as `2 ^ 1024`. -/
structure IsNearest (numerator denominator pattern : Nat) : Prop where
  /-- The pattern is that of a magnitude or of infinity. -/
  le_infinity : pattern ≤ infinity
  /-- No other one is closer. -/
  closest : ∀ other ≤ infinity,
    distance numerator denominator pattern ≤ distance numerator denominator other
  /-- If another one is as close, the pattern is even. -/
  even : ∀ other ≤ infinity, other ≠ pattern →
    distance numerator denominator other = distance numerator denominator pattern →
    pattern % 2 = 0

/-- There is a single nearest magnitude. -/
theorem IsNearest.unique {numerator denominator p q : Nat} (hd : 0 < denominator)
    (hp : IsNearest numerator denominator p) (hq : IsNearest numerator denominator q) : p = q := by
  -- of two patterns that are equally close both would be even, and the odd one between them
  -- would be closer
  have hlt : ∀ {p q}, IsNearest numerator denominator p → IsNearest numerator denominator q →
      ¬ p < q := by
    intro p q hp hq hpq
    have hsame := Nat.le_antisymm (hp.closest q hq.le_infinity) (hq.closest p hp.le_infinity)
    have hpeven := hp.even q hq.le_infinity hpq.ne' hsame.symm
    have hqeven := hq.even p hp.le_infinity hpq.ne hsame
    have hbetween := hp.closest (p + 1) (Nat.le_trans hpq hq.le_infinity)
    have hleft : units p * denominator < units (p + 1) * denominator :=
      (Nat.mul_lt_mul_right hd).mpr (units_strictMono (Nat.lt_succ_self p))
    have hright : units (p + 1) * denominator < units q * denominator :=
      (Nat.mul_lt_mul_right hd).mpr (units_strictMono (by omega))
    simp only [distance, Nat.dist] at hsame hbetween
    omega
  exact Nat.le_antisymm (Nat.not_lt.mp (hlt hq hp)) (Nat.not_lt.mp (hlt hp hq))

/-- From `2 ^ 1024` on, infinity is nearest. -/
theorem isNearest_infinity {numerator denominator : Nat}
    (h : 2 ^ 2098 * denominator ≤ numerator * 2 ^ 1074) :
    IsNearest numerator denominator infinity := by
  rw [← units_infinity] at h
  refine ⟨le_refl _, fun other ho => ?_, fun _ _ _ _ => by decide⟩
  have hle : units other * denominator ≤ units infinity * denominator :=
    Nat.mul_le_mul_right _ (units_strictMono.monotone ho)
  simp only [distance, Nat.dist]
  omega

section Neighbours

variable {numerator denominator below pattern : Nat}

/-- Between two neighbouring magnitudes the one on the near side of the middle is nearest.
In the middle it has to be even. -/
theorem isNearest_of_neighbours (hd : 0 < denominator) (hfinite : below < infinity)
    (hlow : units below * denominator ≤ numerator * 2 ^ 1074)
    (hhigh : numerator * 2 ^ 1074 < units (below + 1) * denominator)
    (hside : pattern = below ∧
        2 * (numerator * 2 ^ 1074) ≤ units below * denominator + units (below + 1) * denominator ∨
      pattern = below + 1 ∧
        units below * denominator + units (below + 1) * denominator ≤ 2 * (numerator * 2 ^ 1074))
    (heven : 2 * (numerator * 2 ^ 1074) =
        units below * denominator + units (below + 1) * denominator → pattern % 2 = 0) :
    IsNearest numerator denominator pattern := by
  have hmono : ∀ {p q}, p < q → units p * denominator < units q * denominator := fun h =>
    (Nat.mul_lt_mul_right hd).mpr (units_strictMono h)
  -- all other magnitudes are beyond one of the neighbours
  have hother : ∀ other, units other * denominator < units below * denominator ∨ other = below ∨
      other = below + 1 ∨ units (below + 1) * denominator < units other * denominator := by
    intro other
    rcases Nat.lt_trichotomy other below with h | h | h
    · exact Or.inl (hmono h)
    · exact Or.inr (Or.inl h)
    · rcases Nat.lt_or_eq_of_le (Nat.succ_le_of_lt h) with h | h
      · exact Or.inr (Or.inr (Or.inr (hmono h)))
      · exact Or.inr (Or.inr (Or.inl h.symm))
  refine ⟨by omega, fun other _ => ?_, fun other _ hne hsame => heven ?_⟩
  · simp only [distance, Nat.dist]
    rcases hside with ⟨rfl, hside⟩ | ⟨rfl, hside⟩
    all_goals rcases hother other with h | rfl | rfl | h
    all_goals omega
  · simp only [distance, Nat.dist] at hsame
    rcases hside with ⟨rfl, hside⟩ | ⟨rfl, hside⟩
    all_goals rcases hother other with h | rfl | rfl | h
    all_goals omega

end Neighbours

/-- The pattern that is computed is nearest. -/
theorem isNearest_nearest (numerator : Nat) {denominator : Nat} (hd : 0 < denominator) :
    IsNearest numerator denominator (nearest numerator denominator) := by
  by_cases hlarge : 2 ^ 2098 * denominator ≤ numerator * 2 ^ 1074
  · rw [nearest_of_large hlarge]
    exact isNearest_infinity hlarge
  · have hcount : numerator * 2 ^ 1074 / denominator < 2 ^ 2098 :=
      (Nat.div_lt_iff_lt_mul hd).mpr (Nat.not_le.mp hlarge)
    have hfinite := floorOfUnits_lt_infinity hcount
    obtain ⟨hlow, hhigh⟩ := floorOfUnits_bounds (numerator * 2 ^ 1074 / denominator)
    have hlow := (Nat.le_div_iff_mul_le hd).mp hlow
    have hhigh := (Nat.div_lt_iff_lt_mul hd).mp hhigh
    rw [nearest_of_small hlarge]
    simp only [Nat.add_mul]
    generalize floorOfUnits (numerator * 2 ^ 1074 / denominator) = below at *
    split_ifs with hleft hright heven
    · exact isNearest_of_neighbours hd hfinite hlow hhigh (Or.inl ⟨rfl, hleft.le⟩) (by omega)
    · exact isNearest_of_neighbours hd hfinite hlow hhigh (Or.inr ⟨rfl, hright.le⟩) (by omega)
    · exact isNearest_of_neighbours hd hfinite hlow hhigh (Or.inl ⟨rfl, by omega⟩) fun _ => heven
    · exact isNearest_of_neighbours hd hfinite hlow hhigh (Or.inr ⟨rfl, by omega⟩) (by omega)

/-- A pattern is nearest exactly if it is the one that is computed. -/
theorem isNearest_iff {numerator denominator pattern : Nat} (hd : 0 < denominator) :
    IsNearest numerator denominator pattern ↔ pattern = nearest numerator denominator := by
  have hnearest := isNearest_nearest numerator hd
  constructor
  · intro h
    exact h.unique hd hnearest
  · intro h
    rw [h]
    exact hnearest

/-- In the finite range a quotient is rounded in units of the shift of its leading bits. -/
theorem nearest_of_small_eq_roundEven {numerator denominator : Nat}
    (h : ¬ 2 ^ 2098 * denominator ≤ numerator * 2 ^ 1074) :
    nearest numerator denominator =
      ((numerator * 2 ^ 1074 / denominator).log2 - 52) * 2 ^ 52 +
        roundEven (numerator * 2 ^ 1074)
          (denominator * 2 ^ ((numerator * 2 ^ 1074 / denominator).log2 - 52)) := by
  have hbelow := floorOfUnits_eq (numerator * 2 ^ 1074 / denominator)
  have hunits := units_floorOfUnits (numerator * 2 ^ 1074 / denominator)
  have hnext := units_floorOfUnits_succ (numerator * 2 ^ 1074 / denominator)
  rw [Nat.div_div_eq_div_mul] at hbelow hunits hnext
  rw [nearest_of_small h]
  simp only [hunits, hnext]
  simp only [roundEven, hbelow]
  generalize (numerator * 2 ^ 1074 / denominator).log2 - 52 = shift
  generalize numerator * 2 ^ 1074 = scaled
  have hscaled := Nat.div_add_mod scaled (denominator * 2 ^ shift)
  have hmiddle : (scaled / (denominator * 2 ^ shift) * 2 ^ shift +
      (scaled / (denominator * 2 ^ shift) + 1) * 2 ^ shift) * denominator =
        2 * (denominator * 2 ^ shift * (scaled / (denominator * 2 ^ shift))) +
          denominator * 2 ^ shift := by ring
  rw [hmiddle]
  generalize scaled / (denominator * 2 ^ shift) = whole at *
  generalize denominator * 2 ^ shift * whole = product at *
  split_ifs <;> omega

/-- Up to infinity, the pattern is that of the quotient in units of a shift, rounded to a
whole number. The shift comes from the leading bits. -/
theorem nearest_eq_min {numerator denominator shift : Nat} (hd : 0 < denominator)
    (hshift : shift = (numerator * 2 ^ 1074 / denominator).log2 - 52) :
    nearest numerator denominator =
      min infinity
        (shift * 2 ^ 52 + roundEven (numerator * 2 ^ 1074) (denominator * 2 ^ shift)) := by
  by_cases hlarge : 2 ^ 2098 * denominator ≤ numerator * 2 ^ 1074
  · have hcount : 2 ^ 2098 ≤ numerator * 2 ^ 1074 / denominator :=
      (Nat.le_div_iff_mul_le hd).mpr hlarge
    have hpos := Nat.lt_of_lt_of_le (pow_pos (by decide) 2098) hcount
    have hlog := (Nat.le_log2 hpos.ne').mpr hcount
    have hsignificand := (significand_bounds (numerator * 2 ^ 1074 / denominator)).1
    rw [← hshift, Nat.div_div_eq_div_mul] at hsignificand
    have hround := roundEven_eq_or (numerator * 2 ^ 1074) (denominator * 2 ^ shift)
    have hinfinity : infinity = 2047 * 2 ^ 52 := by decide
    rw [nearest_of_large hlarge]
    generalize roundEven (numerator * 2 ^ 1074) (denominator * 2 ^ shift) = rounded at *
    omega
  · have hle := (isNearest_nearest numerator hd).le_infinity
    rw [nearest_of_small_eq_roundEven hlarge, ← hshift] at hle ⊢
    exact (Nat.min_eq_right hle).symm

end PostfixArithmetic.BitPattern
