import RecordQuery.Proofs.Literals
import RecordQuery.Proofs.OneRendering

set_option autoImplicit false

/-!
# The order of date literals

On the clock of twenty-four hours a literal of a year of four digits consists of numbers of fixed
widths, from the year down to the second, with marks between them.  So literals are in the order of
these numbers, one after the other, and this is the order of the instants
(`Instant.literal_lt_literal_iff`), if one more second is left for a leap second in each minute.  That
is why a leap second inside of a minute may share its literal with the second behind it, but is
never put behind a later instant (`literals_sort_as_instants`).
-/

namespace RecordQuery.Calendar

/-! ## Numbers of one width -/

theorem ofDigitChars_cons_eq (c : Char) (digits : List Char) :
    Nat.ofDigitChars 10 (c :: digits) 0 =
      Nat.pow 10 digits.length * (c.toNat - '0'.toNat) + Nat.ofDigitChars 10 digits 0 := by
  rw [Nat.ofDigitChars_cons, Nat.mul_zero, Nat.zero_add, Nat.ofDigitChars_eq_ofDigitChars_zero]
  rfl

theorem ofDigitChars_lt {digits : List Char} (h : ∀ c ∈ digits, c.isDigit = true) :
    Nat.ofDigitChars 10 digits 0 < Nat.pow 10 digits.length := by
  induction digits with
  | nil => decide
  | cons c digits ih =>
    obtain ⟨hc, hdigits⟩ := List.forall_mem_cons.mp h
    have hnine : c.toNat - '0'.toNat ≤ 9 := Nat.sub_le_sub_right (Char.isDigit_iff_toNat.mp hc).2 _
    have hmul := Nat.mul_le_mul_left (Nat.pow 10 digits.length) hnine
    have hrest := ih hdigits
    have hpower : Nat.pow 10 (digits.length + 1) = Nat.pow 10 digits.length * 10 := rfl
    rw [ofDigitChars_cons_eq, List.length_cons, hpower]
    omega

/-- Texts that begin with equally many digits are in the order of the numbers that these spell, and
what follows them decides where the numbers are equal. -/
theorem append_lt_append_iff {left right : List Char} (hlength : left.length = right.length)
    (hleft : ∀ c ∈ left, c.isDigit = true) (hright : ∀ c ∈ right, c.isDigit = true)
    (rest rest' : List Char) :
    left ++ rest < right ++ rest' ↔
      Nat.ofDigitChars 10 left 0 < Nat.ofDigitChars 10 right 0 ∨
        Nat.ofDigitChars 10 left 0 = Nat.ofDigitChars 10 right 0 ∧ rest < rest' := by
  induction left generalizing right with
  | nil =>
    obtain rfl := List.length_eq_zero_iff.mp hlength.symm
    simp
  | cons a left ih =>
    obtain ⟨b, right, rfl⟩ := List.exists_cons_of_length_eq_add_one hlength.symm
    have hlength' : left.length = right.length := Nat.succ.inj hlength
    obtain ⟨ha, hleft⟩ := List.forall_mem_cons.mp hleft
    obtain ⟨hb, hright⟩ := List.forall_mem_cons.mp hright
    have hvalue := ofDigitChars_lt hleft
    have hvalue' := ofDigitChars_lt hright
    obtain ⟨hzero, -⟩ := Char.isDigit_iff_toNat.mp ha
    obtain ⟨hzero', -⟩ := Char.isDigit_iff_toNat.mp hb
    have hlt : a < b ↔ a.toNat < b.toNat := Iff.rfl
    -- a first digit outweighs all that stands behind it
    have houtweigh : ∀ {m n : Nat}, m < n →
        Nat.pow 10 right.length * m + Nat.pow 10 right.length ≤ Nat.pow 10 right.length * n := by
      intro m n hmn
      rw [← Nat.mul_succ]
      exact Nat.mul_le_mul_left _ hmn
    rw [List.cons_append, List.cons_append, List.cons_lt_cons_iff, ih hlength' hleft hright,
      ofDigitChars_cons_eq, ofDigitChars_cons_eq, hlength', hlt, ← Char.toNat_inj]
    rw [hlength'] at hvalue
    rcases Nat.lt_trichotomy a.toNat b.toNat with hless | heq | hgreater
    · have := houtweigh (show a.toNat - '0'.toNat < b.toNat - '0'.toNat by omega)
      simp only [hless, true_or, true_iff]
      left
      omega
    · simp only [heq, Nat.lt_irrefl, false_or, true_and, Nat.add_lt_add_iff_left,
        Nat.add_left_cancel_iff]
    · have := houtweigh (show b.toNat - '0'.toNat < a.toNat - '0'.toNat by omega)
      simp only [Nat.not_lt_of_gt hgreater, Nat.ne_of_gt hgreater, false_or, false_and, false_iff]
      rintro (hless | ⟨heq, -⟩) <;> omega

/-- Of two texts that begin with numbers of one width, the one with the smaller number is the
smaller one. -/
theorem padded_append_lt_iff {width m n : Nat} (hwidth : 0 < width) (hm : m < Nat.pow 10 width)
    (hn : n < Nat.pow 10 width) (rest rest' : List Char) :
    padded width m ++ rest < padded width n ++ rest' ↔ m < n ∨ m = n ∧ rest < rest' := by
  rw [append_lt_append_iff ((length_padded hwidth hm).trans (length_padded hwidth hn).symm)
    (fun c => isDigit_of_mem_padded) (fun c => isDigit_of_mem_padded), ofDigitChars_padded,
    ofDigitChars_padded]

/-! ## Dates -/

theorem daysBeforeMonth_add_le (year : Int) {month later : Nat} (hfirst : 1 ≤ month)
    (hlt : month < later) :
    daysBeforeMonth year month + monthLength year month ≤ daysBeforeMonth year later := by
  induction later with
  | zero => omega
  | succ later ih =>
    obtain ⟨k, rfl⟩ := Nat.exists_eq_succ_of_ne_zero (show later ≠ 0 by omega)
    show _ ≤ daysBeforeMonth year (k + 1) + monthLength year (k + 1)
    rcases Nat.lt_or_eq_of_le (Nat.le_of_lt_succ hlt) with hless | rfl
    · exact Nat.le_add_right_of_le (ih hless)
    · exact Nat.le_refl _

/-- The order of the parts of a date: years first, then months, then days. -/
def Date.Before (d e : Date) : Prop :=
  d.year < e.year ∨ d.year = e.year ∧ (d.month < e.month ∨ d.month = e.month ∧ d.day < e.day)

theorem Date.Before.dayNumber_lt {d e : Date} (h : d.Before e) (hd : d.Valid) (he : e.Valid) :
    d.dayNumber < e.dayNumber := by
  rcases h with hyear | ⟨hyear, hmonth | ⟨hmonth, hday⟩⟩
  · have hbefore := (not_congr (hd.le_year_iff e.year)).mp (by omega)
    have hafter := (he.le_year_iff e.year).mp (Int.le_refl _)
    omega
  · obtain ⟨hfirst, -, -, hlast⟩ := hd
    obtain ⟨-, -, hone, -⟩ := he
    have hmonths := daysBeforeMonth_add_le e.year hfirst hmonth
    rw [hyear] at hlast
    unfold dayNumber
    rw [hyear]
    omega
  · unfold dayNumber
    rw [hyear, hmonth]
    omega

/-- Days are counted in the order of their dates. -/
theorem Date.Valid.before_iff {d e : Date} (hd : d.Valid) (he : e.Valid) :
    d.Before e ↔ d.dayNumber < e.dayNumber := by
  refine ⟨fun h => h.dayNumber_lt hd he, fun h => ?_⟩
  by_contra hnot
  by_cases hsame : d.year = e.year ∧ d.month = e.month ∧ d.day = e.day
  · obtain rfl : d = e := by
      cases d
      cases e
      simpa using hsame
    omega
  · have hafter : e.Before d := by
      unfold Before at hnot ⊢
      omega
    have hless := hafter.dayNumber_lt he hd
    omega

/-! ## Literals -/

namespace Instant

/-- Where the literal of an instant stands among all literals, on a clock that has room for a leap
second in every minute. -/
def rank (i : Instant) : Int := 61 * (i.second / 60) + i.second % 60 + i.leap

theorem literal_twentyFour_eq {i : Instant} (hfour : 0 ≤ i.date.year ∧ i.date.year ≤ 9999) :
    i.literal .twentyFour =
      padded 4 i.date.year.toNat ++ '-' :: (padded 2 i.date.month ++ '-' :: (padded 2 i.date.day ++
        ' ' :: (padded 2 i.timeOfDay.hour ++ ':' :: (padded 2 i.timeOfDay.minute ++
          ':' :: (padded 2 (i.timeOfDay.second + i.leap) ++ []))))) := by
  show yearDigits i.date.year ++ '-' :: padded 2 i.date.month ++ '-' :: padded 2 i.date.day ++
    ' ' :: padded 2 i.timeOfDay.hour ++ ':' :: padded 2 i.timeOfDay.minute ++
      ':' :: padded 2 (i.timeOfDay.second + i.leap) = _
  rw [yearDigits, if_pos hfour]
  simp

/-- All parts of a literal have room in their places. -/
theorem parts_lt (i : Instant) : i.date.month < 100 ∧ i.date.day < 100 ∧
    i.timeOfDay.hour < 100 ∧ i.timeOfDay.minute < 100 ∧
      i.timeOfDay.second + i.leap < 100 := by
  obtain ⟨-, hmonth, -, hday⟩ := i.date_valid
  have hlength := monthLength_le i.date.year i.date.month
  have hhour := i.timeOfDay_hour_lt
  have hminute := i.timeOfDay_minute_lt
  have hsecond := i.timeOfDay_second_lt
  have hleap := i.leap_le
  refine ⟨?_, ?_, ?_, ?_, ?_⟩ <;> omega

theorem length_literal {i : Instant} (hfour : 0 ≤ i.date.year ∧ i.date.year ≤ 9999) :
    (i.literal .twentyFour).length = 19 := by
  obtain ⟨hmonth, hday, hhour, hminute, hsecond⟩ := i.parts_lt
  have hyear : i.date.year.toNat < 10000 := by omega
  rw [literal_twentyFour_eq hfour]
  simp only [List.length_append, List.length_cons, List.length_nil,
    length_padded (show 0 < 2 by decide) hmonth, length_padded (show 0 < 2 by decide) hday,
    length_padded (show 0 < 2 by decide) hhour, length_padded (show 0 < 2 by decide) hminute,
    length_padded (show 0 < 2 by decide) hsecond, length_padded (show 0 < 4 by decide) hyear]

theorem rank_eq (i : Instant) :
    i.rank = 61 * (1440 * i.date.dayNumber + 60 * i.timeOfDay.hour + i.timeOfDay.minute) +
      (i.timeOfDay.second + i.leap : Nat) := by
  have hday : i.date.dayNumber = i.second / 86400 := Date.dayNumber_ofDayNumber _
  have hhour : i.timeOfDay.hour = (i.second % 86400).toNat / 3600 := rfl
  have hminute : i.timeOfDay.minute = (i.second % 86400).toNat / 60 % 60 := rfl
  have hsecond : i.timeOfDay.second = (i.second % 86400).toNat % 60 := rfl
  unfold rank
  omega

/-- Literals are in the order of their ranks. -/
theorem literal_lt_literal_iff {i j : Instant} (hi : 0 ≤ i.date.year ∧ i.date.year ≤ 9999)
    (hj : 0 ≤ j.date.year ∧ j.date.year ≤ 9999) :
    i.literal .twentyFour < j.literal .twentyFour ↔ i.rank < j.rank := by
  obtain ⟨hmonth, hday, hhour, hminute, hsecond⟩ := i.parts_lt
  obtain ⟨hmonth', hday', hhour', hminute', hsecond'⟩ := j.parts_lt
  have hyear : i.date.year.toNat < 10000 := by omega
  have hyear' : j.date.year.toNat < 10000 := by omega
  rw [literal_twentyFour_eq hi, literal_twentyFour_eq hj,
    padded_append_lt_iff (by decide) hyear hyear', List.cons_lt_cons_self,
    padded_append_lt_iff (by decide) hmonth hmonth', List.cons_lt_cons_self,
    padded_append_lt_iff (by decide) hday hday', List.cons_lt_cons_self,
    padded_append_lt_iff (by decide) hhour hhour', List.cons_lt_cons_self,
    padded_append_lt_iff (by decide) hminute hminute', List.cons_lt_cons_self,
    padded_append_lt_iff (by decide) hsecond hsecond', rank_eq, rank_eq]
  have hnone : ¬ ([] : List Char) < [] := List.not_lt_nil _
  have hbefore := i.date_valid.before_iff j.date_valid
  have hafter := j.date_valid.before_iff i.date_valid
  have hclock := i.timeOfDay_hour_lt
  have hclock' := j.timeOfDay_hour_lt
  have hdial := i.timeOfDay_minute_lt
  have hdial' := j.timeOfDay_minute_lt
  have hleap := i.leap_le
  have hleap' := j.leap_le
  have hcount := i.timeOfDay_second_lt
  have hcount' := j.timeOfDay_second_lt
  simp only [hnone, and_false, or_false]
  unfold Date.Before at hbefore hafter
  omega

/-- An instant that is not later has no greater rank: a leap second counts as one more in its minute,
up to the second behind it, or ends the minute. -/
theorem rank_le_rank {i j : Instant}
    (h : i.second < j.second ∨ i.second = j.second ∧ i.nano ≤ j.nano) : i.rank ≤ j.rank := by
  have hleap := i.leap_le
  unfold rank
  rcases h with hless | ⟨heq, hnano⟩
  · omega
  · have hmono : i.leap ≤ j.leap := Nat.div_le_div_right hnano
    omega

theorem rank_lt_rank_iff {i j : Instant} (hi : i.nano < nanosPerSecond)
    (hj : j.nano < nanosPerSecond) : i.rank < j.rank ↔ i.second < j.second := by
  unfold rank
  rw [leap_of_lt hi, leap_of_lt hj]
  omega

end Instant

/-! ## Operands -/

open Query

/-- A date that is compared with is written as its literal. -/
theorem require_comparison_eq {d : Draft} {i : Instant} {field : String}
    {ask : Operand → Condition} (hfield : d.field = some field) (hask : ask ∈ comparisons) :
    d.require (ask (toOperand i)) = .ok (d.push (.condition field (ask (toOperand i)).operator
      (String.ofList (i.literal d.settings.clock)))) := by
  have htext := scalarText?_toOperand d.settings.clock i
  have hdate : ∃ date, toOperand i = .date date := ⟨i, rfl⟩
  obtain ⟨hparts, hacceptable⟩ : (ask (toOperand i)).parts = [toOperand i] ∧
      (ask (toOperand i)).IsAcceptable := by
    simp only [comparisons, List.mem_cons, List.not_mem_nil, or_false] at hask
    obtain rfl | rfl | rfl | rfl := hask <;> exact ⟨rfl, Or.inr (Or.inr hdate)⟩
  exact (Draft.require_eq_ok_iff_of_parts htext hparts).mpr ⟨field, hfield, hacceptable, rfl⟩

theorem compare_eq_compare {s t : String} {m n : Int} (hlt : s < t ↔ m < n) (heq : s = t ↔ m = n) :
    compare s t = compare m n := by
  show compareOfLessAndEq s t = compareOfLessAndEq m n
  simp only [compareOfLessAndEq, hlt, heq]

/-- Literals sort as their instants do.

On the clock of twenty-four hours the literal of an instant of the years 0 to 9999 has nineteen
characters.  If one of two instants is not later than the other, by its second and then by its
fraction, its literal is not greater, in leap seconds too, and outside of them literals compare as
seconds.  The operands that a draft writes for a range and for comparisons of dates are these
literals, so that they keep the order of the dates. -/
theorem literals_sort_as_instants (i j : Instant) (hi : 0 ≤ i.date.year ∧ i.date.year ≤ 9999)
    (hj : 0 ≤ j.date.year ∧ j.date.year ≤ 9999) :
    ∃ s t, (toOperand i).scalarText? .twentyFour = some s ∧
      (toOperand j).scalarText? .twentyFour = some t ∧ s.length = 19 ∧ t.length = 19 ∧
      (i.second < j.second ∨ i.second = j.second ∧ i.nano ≤ j.nano → ¬ t < s) ∧
      (i.nano < nanosPerSecond → j.nano < nanosPerSecond →
        compare s t = compare i.second j.second) ∧
      ∀ (d : Draft) (field : String), d.settings.clock = .twentyFour → d.field = some field →
        d.require (.between (toOperand i) (toOperand j)) =
          .ok (d.push (.condition field .between (s ++ "@" ++ t))) ∧
        ∀ ask ∈ comparisons,
          d.require (ask (toOperand i)) =
            .ok (d.push (.condition field (ask (toOperand i)).operator s)) ∧
          d.require (ask (toOperand j)) =
            .ok (d.push (.condition field (ask (toOperand j)).operator t)) := by
  refine ⟨_, _, scalarText?_toOperand .twentyFour i, scalarText?_toOperand .twentyFour j,
    ?_, ?_, ?_, ?_, ?_⟩
  · rw [String.length_ofList, Instant.length_literal hi]
  · rw [String.length_ofList, Instant.length_literal hj]
  · intro h hlt
    rw [String.lt_iff, String.toList_ofList, String.toList_ofList,
      Instant.literal_lt_literal_iff hj hi] at hlt
    have hle := Instant.rank_le_rank h
    omega
  · intro hnano hnano'
    have hlt : String.ofList (i.literal .twentyFour) < String.ofList (j.literal .twentyFour) ↔
        i.second < j.second := by
      rw [String.lt_iff, String.toList_ofList, String.toList_ofList,
        Instant.literal_lt_literal_iff hi hj, Instant.rank_lt_rank_iff hnano hnano']
    have heq : String.ofList (i.literal .twentyFour) = String.ofList (j.literal .twentyFour) ↔
        i.second = j.second := by
      rw [String.ofList_inj, Instant.literal_twentyFour_eq_iff hnano hnano']
    exact compare_eq_compare hlt heq
  · intro d field hclock hfield
    refine ⟨?_, fun ask hask => ⟨?_, ?_⟩⟩
    · have hfirst := scalarText?_toOperand d.settings.clock i
      have hlast := scalarText?_toOperand d.settings.clock j
      rw [← hclock]
      exact (Draft.require_between_eq_ok_iff hfirst hlast rfl).mpr ⟨field, hfield, rfl⟩
    · rw [require_comparison_eq hfield hask, hclock]
    · rw [require_comparison_eq hfield hask, hclock]

/-- A leap second inside a minute, as offsets of half a minute put it there, has the literal of the
second behind it; and the first and the last second of the years of four digits. -/
theorem literals_sort_as_instants_in_leap_second :
    let leap : Instant := ⟨1483228769, 1500000000, by decide⟩
    let next : Instant := ⟨1483228770, 0, by decide⟩
    let first : Instant := ⟨-62167219200, 0, by decide⟩
    let last : Instant := ⟨253402300799, 999999999, by decide⟩
    (0 ≤ leap.date.year ∧ leap.date.year ≤ 9999) ∧ (0 ≤ next.date.year ∧ next.date.year ≤ 9999) ∧
    (0 ≤ first.date.year ∧ first.date.year ≤ 9999) ∧
    (0 ≤ last.date.year ∧ last.date.year ≤ 9999) ∧
    leap.second < next.second ∧
    (∃ s t, (toOperand leap).scalarText? .twentyFour = some s ∧
      (toOperand next).scalarText? .twentyFour = some t ∧ s = "2016-12-31 23:59:30" ∧
      s.length = 19 ∧ ¬ t < s) ∧
    ∃ s t, (toOperand first).scalarText? .twentyFour = some s ∧
      (toOperand last).scalarText? .twentyFour = some t ∧ compare s t = .lt ∧
      ({ field := some "a" } : Draft).require (.between (toOperand first) (toOperand last)) =
        .ok { field := some "a", tokens := [.condition "a" .between (s ++ "@" ++ t)] } := by
  intro leap next first last
  have hleap : 0 ≤ leap.date.year ∧ leap.date.year ≤ 9999 := by decide
  have hnext : 0 ≤ next.date.year ∧ next.date.year ≤ 9999 := by decide
  have hfirst : 0 ≤ first.date.year ∧ first.date.year ≤ 9999 := by decide
  have hlast : 0 ≤ last.date.year ∧ last.date.year ≤ 9999 := by decide
  have hless : leap.second < next.second := by decide
  refine ⟨hleap, hnext, hfirst, hlast, hless, ?_, ?_⟩
  · obtain ⟨s, t, hs, ht, hlength, -, horder, -⟩ := literals_sort_as_instants leap next hleap hnext
    have htext : (toOperand leap).scalarText? .twentyFour = some "2016-12-31 23:59:30" := by decide
    exact ⟨s, t, hs, ht, Option.some.inj (hs.symm.trans htext), hlength, horder (Or.inl hless)⟩
  · obtain ⟨s, t, hs, ht, -, -, -, hcompare, hoperands⟩ :=
      literals_sort_as_instants first last hfirst hlast
    obtain ⟨hrange, -⟩ := hoperands { field := some "a" } "a" rfl rfl
    exact ⟨s, t, hs, ht, hcompare (by decide) (by decide), hrange⟩

end RecordQuery.Calendar
