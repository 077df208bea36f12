import RecordQuery.Numeral.Shortest
import RecordQuery.Proofs.NearestPattern

set_option autoImplicit false

/-!
# The decimal that ends farthest left

The search for the shortest decimal goes from coarse grids of decimals to fine ones and stops at the
first that has a point in the cell of the value.  On each grid it looks at the two neighbours of the
value only, which is enough, because a cell is an interval around it (`Cell.neighbour_of_holds`).  So
what it finds ends as far left as a decimal in the cell can, and is the nearest of those that end
there (`Format.isCoarsest_shortest`).
-/

namespace RecordQuery.Numeral

/-! ## The search on grids -/

namespace Cell

variable {c : Cell} {n m other : Nat}

theorem holds_iff {x : Nat} :
    c.holds x = true ↔ c.low ≤ 2 * x ∧ 2 * x ≤ c.high ∧
      (2 * x = c.low ∨ 2 * x = c.high → c.closed = true) := by
  unfold holds
  cases c.closed
  · simp
    omega
  · simp

theorem holds_of_between {x y z : Nat} (hx : c.holds x = true) (hz : c.holds z = true)
    (hxy : x ≤ y) (hyz : y ≤ z) : c.holds y = true := by
  rw [holds_iff] at *
  refine ⟨by omega, by omega, fun hend => ?_⟩
  rcases hend with hlow | hhigh
  · exact hx.2.2 (Or.inl (by omega))
  · exact hz.2.2 (Or.inr (by omega))

/-- How far a number of parts is from the value of the pattern. -/
def distance (c : Cell) (x : Nat) : Nat := ((x : Int) - c.centre).natAbs

/-- The point of a grid just above the centre. -/
theorem centre_between (c : Cell) (n : Nat) :
    c.centre / Nat.pow 10 n * Nat.pow 10 n + c.centre % Nat.pow 10 n = c.centre ∧
      c.centre % Nat.pow 10 n < Nat.pow 10 n ∧
        (c.centre / Nat.pow 10 n + 1) * Nat.pow 10 n =
          c.centre / Nat.pow 10 n * Nat.pow 10 n + Nat.pow 10 n := by
  refine ⟨Nat.div_add_mod' _ _, Nat.mod_lt _ (Nat.pow_pos (by decide)), Nat.succ_mul _ _⟩

/-- A point of a grid that lies in the cell has a neighbour of the centre between itself and the
centre, which lies in the cell too. -/
theorem neighbour_of_holds (hc : c.holds c.centre = true)
    (h : c.holds (other * Nat.pow 10 n) = true) :
    (other ≤ c.centre / Nat.pow 10 n ∧ c.holds (c.centre / Nat.pow 10 n * Nat.pow 10 n) = true) ∨
      (c.centre / Nat.pow 10 n < other ∧
        c.holds ((c.centre / Nat.pow 10 n + 1) * Nat.pow 10 n) = true) := by
  obtain ⟨hsum, hrest, hsucc⟩ := c.centre_between n
  rcases Nat.lt_or_ge (c.centre / Nat.pow 10 n) other with hlt | hle
  · exact Or.inr ⟨hlt, holds_of_between hc h (by omega) (Nat.mul_le_mul_right _ hlt)⟩
  · exact Or.inl ⟨hle, holds_of_between h hc (Nat.mul_le_mul_right _ hle) (by omega)⟩

/-- What is found on a grid lies in the cell, and nothing there is nearer to the centre. -/
theorem onGrid?_eq_some (hc : c.holds c.centre = true) (h : c.onGrid? n = some m) :
    c.holds (m * Nat.pow 10 n) = true ∧ ∀ other, c.holds (other * Nat.pow 10 n) = true →
      c.distance (m * Nat.pow 10 n) ≤ c.distance (other * Nat.pow 10 n) := by
  obtain ⟨hsum, hrest, hsucc⟩ := c.centre_between n
  have hfar : ∀ {other}, c.holds (other * Nat.pow 10 n) = true →
      (other * Nat.pow 10 n ≤ c.centre / Nat.pow 10 n * Nat.pow 10 n ∧
        c.holds (c.centre / Nat.pow 10 n * Nat.pow 10 n) = true) ∨
      ((c.centre / Nat.pow 10 n + 1) * Nat.pow 10 n ≤ other * Nat.pow 10 n ∧
        c.holds ((c.centre / Nat.pow 10 n + 1) * Nat.pow 10 n) = true) := by
    intro other hother
    exact (neighbour_of_holds hc hother).imp
      (And.imp_left (Nat.mul_le_mul_right _)) (And.imp_left (Nat.mul_le_mul_right _))
  unfold distance
  simp only [onGrid?] at h
  split at h
  · next hbelow habove =>
    have hm := Option.some.inj h
    split at hm
    · subst hm
      refine ⟨hbelow, fun other hother => ?_⟩
      rcases hfar hother with ⟨hle, -⟩ | ⟨hle, -⟩ <;> omega
    · subst hm
      refine ⟨habove, fun other hother => ?_⟩
      rcases hfar hother with ⟨hle, -⟩ | ⟨hle, -⟩ <;> omega
  · next hbelow habove =>
    cases h
    refine ⟨hbelow, fun other hother => ?_⟩
    rcases hfar hother with ⟨hle, -⟩ | ⟨hle, hholds⟩
    · omega
    · rw [hholds] at habove
      cases habove
  · next hbelow habove =>
    cases h
    refine ⟨habove, fun other hother => ?_⟩
    rcases hfar hother with ⟨hle, hholds⟩ | ⟨hle, -⟩
    · rw [hholds] at hbelow
      cases hbelow
    · omega
  · cases h

theorem not_holds_of_onGrid?_eq_none (hc : c.holds c.centre = true) (h : c.onGrid? n = none) :
    c.holds (other * Nat.pow 10 n) = false := by
  rw [Bool.eq_false_iff]
  intro hother
  simp only [onGrid?] at h
  rcases neighbour_of_holds hc hother with ⟨-, hbelow⟩ | ⟨-, habove⟩
  · rw [hbelow] at h
    split at h <;> simp_all
  · rw [habove] at h
    split at h <;> simp_all

/-- What the search comes to, from a grid on: a point in the cell, the nearest one on its grid, and
no point on the coarser grids that were tried. -/
structure IsCoarsest (c : Cell) (bound : Nat) (found : Nat × Nat) : Prop where
  holds : c.holds (found.1 * Nat.pow 10 found.2) = true
  nearest : ∀ other, c.holds (other * Nat.pow 10 found.2) = true →
    c.distance (found.1 * Nat.pow 10 found.2) ≤ c.distance (other * Nat.pow 10 found.2)
  none_coarser : ∀ n, found.2 < n → n ≤ bound → ∀ other, c.holds (other * Nat.pow 10 n) = false

theorem isCoarsest_coarsest (hc : c.holds c.centre = true) (bound : Nat) :
    c.IsCoarsest bound (c.coarsest bound) := by
  induction bound with
  | zero =>
    have hone : c.centre * Nat.pow 10 0 = c.centre := Nat.mul_one _
    rw [coarsest]
    refine ⟨by rwa [hone], fun other _ => ?_, fun n hlt hle => by omega⟩
    rw [hone, distance, Int.sub_self]
    exact Nat.zero_le _
  | succ bound ih =>
    rw [coarsest]
    cases hfound : c.onGrid? (bound + 1) with
    | some m =>
      obtain ⟨hholds, hnearest⟩ := onGrid?_eq_some hc hfound
      exact ⟨hholds, hnearest, fun n hlt hle => absurd hle (Nat.not_le_of_lt hlt)⟩
    | none =>
      refine ⟨ih.holds, ih.nearest, fun n hlt hle other => ?_⟩
      rcases Nat.lt_or_eq_of_le hle with hbound | rfl
      · exact ih.none_coarser n hlt (by omega) other
      · exact not_holds_of_onGrid?_eq_none hc hfound

end Cell

namespace Format

variable {F : Format} {pattern m n : Nat}

/-! ## Cells of patterns -/

/-- The parts that a least positive value is divided into, so that they are powers of ten. -/
def parts (F : Format) : Nat := Nat.pow 5 F.grain

theorem parts_pos (F : Format) : 0 < F.parts := Nat.pow_pos (by decide)

/-- The cell of a pattern, counted in parts. -/
def cell (F : Format) (pattern : Nat) : Cell := Cell.ofPattern F F.parts pattern

/-- The point of a grid as a decimal. -/
def gridPoint (F : Format) (m n : Nat) : Decimal := ⟨m, n - F.grain⟩

theorem value_gridPoint (F : Format) (m n : Nat) :
    (F.gridPoint m n).value = ((m * Nat.pow 10 n : Nat) : ℚ) / (F.parts * 2 ^ F.grain) := by
  have hpoint : ∀ g : Nat, (m : ℚ) * 10 ^ ((n : Int) - g) =
      ((m * 10 ^ n : Nat) : ℚ) / ((5 ^ g : Nat) * 2 ^ g) := by
    intro g
    rw [zpow_sub₀ (by norm_num), zpow_natCast, zpow_natCast]
    push_cast
    rw [← mul_pow, mul_div_assoc]
    norm_num
  exact hpoint F.grain

theorem centre_cell (F : Format) (pattern : Nat) :
    F.value pattern = (F.cell pattern).centre / (F.parts * 2 ^ F.grain) := by
  have hparts : (F.parts : ℚ) ≠ 0 := by exact_mod_cast F.parts_pos.ne'
  rw [value, cell, Cell.ofPattern]
  push_cast
  field_simp

theorem holds_cell_iff {x : Nat} :
    (F.cell pattern).holds x = true ↔ F.InCell (x / (F.parts * 2 ^ F.grain)) pattern := by
  rw [inCell_div_iff F.parts_pos, Cell.holds_iff]
  simp only [cell, Cell.ofPattern, beq_iff_eq]

theorem holds_gridPoint_iff :
    (F.cell pattern).holds (m * Nat.pow 10 n) = true ↔ F.InCell (F.gridPoint m n).value pattern := by
  rw [holds_cell_iff, value_gridPoint]

theorem holds_centre (F : Format) (pattern : Nat) :
    (F.cell pattern).holds (F.cell pattern).centre = true := by
  rw [holds_cell_iff, ← centre_cell]
  exact F.inCell_value pattern

theorem distance_gridPoint (F : Format) (pattern m n : Nat) :
    |(F.gridPoint m n).value - F.value pattern| =
      (F.cell pattern).distance (m * Nat.pow 10 n) / (F.parts * 2 ^ F.grain) := by
  have hscale : (0 : ℚ) < F.parts * 2 ^ F.grain :=
    mul_pos (by exact_mod_cast F.parts_pos) (by positivity)
  rw [value_gridPoint, F.centre_cell pattern, ← sub_div, abs_div, abs_of_pos hscale, Cell.distance,
    Nat.cast_natAbs, Int.cast_abs]
  push_cast
  rfl

theorem value_pos (h : 0 < pattern) : 0 < F.value pattern := by
  rw [← F.value_zero]
  exact F.value_strictMono h

/-- A cell lies between half and twice its value. -/
theorem InCell.value_bounds {x : ℚ} (hx : F.InCell x pattern) (h : 0 < pattern) :
    F.value pattern ≤ 2 * x ∧ x ≤ 2 * F.value pattern := by
  have hprevious := F.value_nonneg (pattern - 1)
  have hnext : F.value (pattern + 1) ≤ 2 * F.value pattern := by
    have hgap : F.units (pattern + 1) ≤ 2 * F.units pattern := by
      rw [units_succ]
      have := F.gap_le_units h
      omega
    rw [value, value, ← mul_div_assoc]
    exact div_le_div_of_nonneg_right (by exact_mod_cast hgap) (by positivity)
  have hlow := hx.low_le
  have hhigh := hx.le_high
  unfold low at hlow
  unfold high at hhigh
  constructor <;> linarith

/-- A grid of more digits than the value has parts is too coarse for its cell. -/
theorem not_inCell_of_bound_lt (h : 0 < pattern)
    (hn : (Nat.toDigits 10 (F.cell pattern).centre).length < n) :
    ¬ F.InCell (F.gridPoint m n).value pattern := by
  intro hcell
  obtain ⟨hge, hle⟩ := hcell.value_bounds h
  have hpos : 0 < (F.gridPoint m n).value := by linarith [value_pos (F := F) h]
  have hscale : (0 : ℚ) < F.parts * 2 ^ F.grain :=
    mul_pos (by exact_mod_cast F.parts_pos) (by positivity)
  rw [value_gridPoint] at hpos hle
  rw [centre_cell, ← mul_div_assoc, div_le_div_iff_of_pos_right hscale] at hle
  rw [div_pos_iff_of_pos_right hscale] at hpos
  have hle' : m * Nat.pow 10 n ≤ 2 * (F.cell pattern).centre := by exact_mod_cast hle
  have hpos' : 0 < m * Nat.pow 10 n := by exact_mod_cast hpos
  have hcentre : (F.cell pattern).centre <
      10 ^ (Nat.toDigits 10 (F.cell pattern).centre).length :=
    (Nat.length_toDigits_le_iff (by decide) (List.length_pos_iff.mpr Nat.toDigits_ne_nil)).mp le_rfl
  have hstep : 10 * 10 ^ (Nat.toDigits 10 (F.cell pattern).centre).length ≤ Nat.pow 10 n := by
    rw [← Nat.pow_succ']
    exact Nat.pow_le_pow_right (by decide) hn
  have hpoint : Nat.pow 10 n ≤ m * Nat.pow 10 n :=
    Nat.le_mul_of_pos_left _ (Nat.pos_of_mul_pos_right hpos')
  omega

/-! ## The shortest decimal -/

/-- A decimal in the cell of a pattern with its last digit as far left as such a digit can be, and
the nearest of those that end there. -/
structure IsCoarsest (F : Format) (pattern : Nat) (d : Decimal) : Prop where
  inCell : F.InCell d.value pattern
  exponent_le : ∀ other : Decimal, F.InCell other.value pattern → other.exponent ≤ d.exponent
  nearest : ∀ other : Decimal, F.InCell other.value pattern → other.exponent = d.exponent →
    |d.value - F.value pattern| ≤ |other.value - F.value pattern|

theorem isCoarsest_shortest (h : 0 < pattern) : F.IsCoarsest pattern (F.shortest pattern) := by
  obtain ⟨hholds, hnearest, hnone⟩ := Cell.isCoarsest_coarsest (F.holds_centre pattern)
    (Nat.toDigits 10 (F.cell pattern).centre).length
  have hshortest : F.shortest pattern =
      F.gridPoint ((F.cell pattern).coarsest (Nat.toDigits 10 (F.cell pattern).centre).length).1
        ((F.cell pattern).coarsest (Nat.toDigits 10 (F.cell pattern).centre).length).2 := by
    rw [shortest, if_neg h.ne']
    rfl
  rw [hshortest]
  generalize (F.cell pattern).coarsest _ = found at *
  have hscale : (0 : ℚ) ≤ F.parts * 2 ^ F.grain := by positivity
  constructor
  · exact holds_gridPoint_iff.mp hholds
  · rintro ⟨m, e⟩ hother
    by_contra hlt
    have hfound : (found.2 : Int) - F.grain < e := not_le.mp hlt
    obtain ⟨n, rfl⟩ : ∃ n : Nat, e = n - F.grain := ⟨(e + F.grain).toNat, by omega⟩
    have hcoarser : found.2 < n := by omega
    rcases Nat.lt_or_ge (Nat.toDigits 10 (F.cell pattern).centre).length n with hbound | hbound
    · exact not_inCell_of_bound_lt h hbound hother
    · have hfalse := hnone n hcoarser hbound m
      rw [holds_gridPoint_iff.mpr hother] at hfalse
      cases hfalse
  · rintro ⟨m, e⟩ hother rfl
    have hle := hnearest m (holds_gridPoint_iff.mpr hother)
    show |(F.gridPoint _ _).value - _| ≤ |(F.gridPoint m found.2).value - _|
    rw [distance_gridPoint, distance_gridPoint]
    exact div_le_div_of_nonneg_right (by exact_mod_cast hle) hscale

end Format

end RecordQuery.Numeral
