import DataLink.Proofs.Doubles
import DataLink.Proofs.PositionalText
import DataLink.Proofs.RoundingInterval

/-!
# Numbers read back from their shortest text

The shortest decimal of a number lies among the magnitudes that are rounded to the number, and a
decimal is rounded once when it is read. So every finite number is read back from its plain text,
the sign of a zero included.
-/

namespace DataLink

namespace Shortest

variable {tie : Tie} {i : Interval} {code : Nat}

/-- The point of a grid that is chosen is in the interval. -/
theorem contains_of_choose {step digits : Nat}
    (h : choose tie i step (i.value / step) = some digits) :
    i.contains (digits * step) = true := by
  have hle := le_roundDiv tie i.value step
  have hge := roundDiv_le tie i.value step
  simp only [choose] at h
  split at h
  case h_1 hbelow habove =>
    obtain rfl := Option.some.inj h
    rcases Nat.le_iff_lt_or_eq.mp hle with hlt | heq
    · rwa [Nat.le_antisymm hge hlt]
    · rwa [← heq]
  case h_2 hbelow _ => rwa [← Option.some.inj h]
  case h_3 _ habove => rwa [← Option.some.inj h]
  case h_4 => cases h

/-- What is found is in the interval if the value is. -/
theorem contains_search (tie : Tie) (hvalue : i.contains i.value = true) (drop : Nat) :
    i.contains ((search tie i drop).1 * 10 ^ (search tie i drop).2) = true := by
  induction drop with
  | zero => simpa [search] using hvalue
  | succ drop ih =>
    rw [search]
    split
    case h_1 digits h => exact contains_of_choose h
    case h_2 => exact ih

/-- The interval of a number contains the number itself. -/
theorem contains_value (hcode : 0 < code) :
    (interval code).contains (interval code).value = true := by
  obtain ⟨lower, rfl⟩ : ∃ lower, code = lower + 1 := ⟨code - 1, by omega⟩
  have hbelow := Format.binary64.magnitude_lt_succ lower
  have habove := Format.binary64.magnitude_lt_succ (lower + 1)
  have hunit : 0 < Nat.pow 5 places := by
    rw [Nat.pow_eq]
    exact Nat.pow_pos (Nat.succ_pos 4)
  have hlow : (interval (lower + 1)).low < (interval (lower + 1)).value :=
    Nat.mul_lt_mul_of_pos_right (by rw [Nat.add_sub_cancel]; omega) hunit
  have hhigh : (interval (lower + 1)).value < (interval (lower + 1)).high :=
    Nat.mul_lt_mul_of_pos_right (by omega) hunit
  unfold Interval.contains
  split <;> simp [hlow, hhigh, hlow.le, hhigh.le]

end Shortest

namespace Binary64

open Shortest

variable {x : Binary64} {n count code : Nat}

/-- The shortest decimal is what the search finds, less a zero at its end. -/
theorem shortest_eq (tie : Tie) (x : Binary64) : ∃ start digits drop,
    search tie (interval x.code) start = (digits, drop) ∧
      x.shortest tie = if digits % 10 = 0 then ⟨digits / 10, (drop : Int) + 1 - places⟩
        else ⟨digits, drop - places⟩ := by
  -- The function is unfolded as a whole: an equation for its application makes the kernel run the
  -- search.
  generalize hshortest : shortest = function
  delta shortest at hshortest
  subst hshortest
  beta_reduce
  generalize interval x.code = i
  extract_lets j
  refine ⟨decimalLength j.value - 1, ?_⟩
  generalize decimalLength j.value - 1 = start
  generalize search tie j start = found
  obtain ⟨digits, drop⟩ := found
  exact ⟨digits, drop, rfl, rfl⟩

/-- The shortest decimal lies in the number's interval. -/
theorem exists_contains_shortest (tie : Tie) (hcode : 0 < x.code) : ∃ drop : Nat,
    (x.shortest tie).exponent = (drop : Int) - places ∧
      (interval x.code).contains ((x.shortest tie).significand * 10 ^ drop) = true := by
  obtain ⟨start, digits, drop, hsearch, hshortest⟩ := shortest_eq tie x
  have hfound := contains_search tie (contains_value hcode) start
  rw [hsearch] at hfound
  rw [hshortest]
  split_ifs with hzero
  · -- A zero at the end becomes a power of ten.
    refine ⟨drop + 1, by rw [Nat.cast_succ], ?_⟩
    have hdigits : digits / 10 * 10 ^ (drop + 1) = digits * 10 ^ drop := by
      rw [Nat.pow_succ', ← Nat.mul_assoc, Nat.div_mul_cancel (Nat.dvd_of_mod_eq_zero hzero)]
    rwa [hdigits]
  · exact ⟨drop, rfl, hfound⟩

/-! ### Reading a decimal -/

/-- Twice the quanta of one are a power of two. -/
theorem two_mul_perUnit : 2 * perUnit = 2 ^ places := by
  unfold perUnit places
  generalize Format.binary64.quantumPlaces = exponent
  exact (Nat.pow_succ').symm

/-- Half a quantum, in units of ten to the power of minus `p`. -/
theorem five_pow_mul_two_pow {p : Nat} (h : count ≤ p) :
    5 ^ p * 2 ^ p = 10 ^ count * 10 ^ (p - count) := by
  rw [← Nat.mul_pow, ← Nat.pow_add, Nat.add_sub_of_le h]

/-- Half quanta compared with a decimal of `count` places, in the units of the search and as a
quotient. -/
theorem mul_five_pow_le_iff {p : Nat} (h : count ≤ p) (halves n : Nat) :
    halves * 5 ^ p ≤ n * 10 ^ (p - count) ↔ halves * 10 ^ count ≤ n * 2 ^ p := by
  rw [← Nat.mul_le_mul_right_iff (Nat.two_pow_pos p), Nat.mul_assoc, five_pow_mul_two_pow h,
    ← Nat.mul_assoc, Nat.mul_right_comm n, Nat.mul_le_mul_right_iff (Nat.pow_pos (by decide))]

/-- A comparison with quanta is one with decimals, once both sides are scaled. -/
theorem le_mul_five_pow_iff {p : Nat} (h : count ≤ p) (halves n : Nat) :
    n * 10 ^ (p - count) ≤ halves * 5 ^ p ↔ n * 2 ^ p ≤ halves * 10 ^ count := by
  rw [← Nat.mul_le_mul_right_iff (Nat.two_pow_pos p), Nat.mul_assoc halves,
    five_pow_mul_two_pow h, ← Nat.mul_assoc, Nat.mul_right_comm n,
    Nat.mul_le_mul_right_iff (Nat.pow_pos (by decide))]

/-- A decimal in the interval of a code lies between the middles around the code. -/
theorem roundsTo_of_contains (hcount : count ≤ places)
    (h : (interval code).contains (n * 10 ^ (places - count)) = true) :
    Format.binary64.RoundsTo code (n * perUnit) (10 ^ count) := by
  have htwice : 2 * (n * perUnit) = n * 2 ^ places := by
    rw [Nat.mul_left_comm, two_mul_perUnit]
  simp only [Interval.contains, interval, Nat.pow_eq] at h
  by_cases heven : code % 2 = 0
  · simp only [heven, decide_true, if_true, Bool.and_eq_true, decide_eq_true_eq,
      mul_five_pow_le_iff hcount, le_mul_five_pow_iff hcount, ← htwice] at h
    exact ⟨h.1, h.2, by omega⟩
  · simp only [heven, decide_false, Bool.false_eq_true, if_false, Bool.and_eq_true,
      decide_eq_true_eq, ← Nat.not_le, mul_five_pow_le_iff hcount, le_mul_five_pow_iff hcount,
      ← htwice] at h
    rw [Nat.not_le, Nat.not_le] at h
    exact ⟨h.1.le, h.2.le, fun _ => h⟩

/-- A decimal in the interval of a finite code is read as the number with this code. -/
theorem ofDecimal_eq_of_contains (negative : Bool) (hpos : 0 < code)
    (hfinite : code < Format.binary64.infinity) (hcount : count ≤ places)
    (h : (interval code).contains (n * 10 ^ (places - count)) = true) :
    ofDecimal negative n (-count) = ofCode negative code := by
  have hrounds := roundsTo_of_contains hcount h
  have hden : 0 < 10 ^ count := Nat.pow_pos (by decide)
  -- The decimal is at least half a quantum, so it is neither zero nor settled by its size.
  have hlarge : 10 ^ count ≤ n * 2 ^ places := by
    have hmagnitude : 0 < Format.binary64.magnitude code := by
      rw [Nat.pos_iff_ne_zero, ne_eq, Format.magnitude_eq_zero_iff]
      omega
    have hlow := hrounds.low
    rw [Nat.mul_left_comm, two_mul_perUnit] at hlow
    exact Nat.le_trans (Nat.le_mul_of_pos_left _ (by omega)) hlow
  have hne : n ≠ 0 := by
    rintro rfl
    omega
  have hsize : 3 * count < n.log2 + 1 + places := by
    rw [← Nat.pow_lt_pow_iff_right (show 1 < 2 by decide)]
    calc 2 ^ (3 * count)
      _ = 8 ^ count := Nat.pow_mul 2 3 count
      _ ≤ 10 ^ count := Nat.pow_le_pow_left (by decide) count
      _ ≤ n * 2 ^ places := hlarge
      _ < 2 ^ (n.log2 + 1) * 2 ^ places :=
        Nat.mul_lt_mul_of_pos_right Nat.lt_log2_self (Nat.two_pow_pos _)
      _ = 2 ^ (n.log2 + 1 + places) := (Nat.pow_add ..).symm
  have hplaces : places = 1075 := by decide
  have hquotient : ofDecimal negative n (-count) =
      ofQuotient negative (n * perUnit) (10 ^ count) := by
    simp only [ofDecimal]
    rw [if_neg hne, if_neg (by omega), if_neg (by omega)]
    split_ifs with hwhole
    · obtain rfl : count = 0 := by omega
      simp
    · simp
  rw [hquotient, ofQuotient, hrounds.nearest_eq Format.regular_binary64 hden hpos,
    Nat.min_eq_right hfinite.le]

/-! ### Plain text -/

/-- The plain text of a finite number is a sign and a decimal that is read as the number. -/
theorem exists_positional_text (h : x.isFinite = true) : ∃ digits n count,
    (x.text .plain).toList = signed x.isNegative digits ∧ Positional digits n count ∧
      ofDecimal x.isNegative n (-count) = x := by
  have hsign : ∀ d : Decimal, ((if x.isNegative then "-" else "") ++
      DecimalStyle.plain.positionalText d).toList =
        signed x.isNegative (DecimalStyle.plain.positionalText d).toList := fun d => by
    rw [String.toList_append]
    cases x.isNegative <;> rfl
  have htext : x.text .plain = (if x.isNegative then "-" else "") ++
      DecimalStyle.plain.positionalText (if x.code = 0 then ⟨0, 0⟩ else x.shortest .upward) := by
    simp only [text, isNaN_of_isFinite h, isInfinite_of_isFinite h, Bool.false_eq_true, if_false]
    split <;> rfl
  rw [htext, hsign]
  refine ⟨_, _, _, rfl, positional_positionalText _, ?_⟩
  by_cases hzero : x.code = 0
  · rw [if_pos hzero]
    calc ofDecimal x.isNegative 0 0
      _ = ofCode x.isNegative 0 := rfl
      _ = x := by rw [← hzero, ofCode_code]
  · rw [if_neg hzero]
    obtain ⟨drop, hexponent, hcontains⟩ :=
      exists_contains_shortest .upward (Nat.pos_of_ne_zero hzero)
    have hdrop : drop = (x.shortest .upward).exponent.toNat +
        (places - (-(x.shortest .upward).exponent).toNat) := by omega
    rw [hdrop, Nat.pow_add, ← Nat.mul_assoc] at hcontains
    rw [ofDecimal_eq_of_contains _ (Nat.pos_of_ne_zero hzero) (isFinite_iff.mp h) (by omega)
      hcontains, ofCode_code]

/-- A finite number is read back from its plain text. -/
theorem readBinary64?_text (h : x.isFinite = true) :
    readBinary64? (x.text .plain).toList = some x := by
  obtain ⟨digits, n, count, htext, hdigits, hread⟩ := exists_positional_text h
  rw [htext, hdigits.readBinary64?_signed, hread]

end Binary64

end DataLink
