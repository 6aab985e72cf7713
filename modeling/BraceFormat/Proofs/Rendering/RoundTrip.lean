import BraceFormat.Proofs.Rendering.Denotation
import BraceFormat.Proofs.Rendering.Padding

/-!
# The shortest form reads back

Without a presentation and a precision, a finite number is put out in its shortest form. In
either notation this shows the shortest digits of its magnitude, so it reads back as the number
with its sign, and no numeral with fewer significant digits does; which notation it is depends on
the exponent of the first digit alone (`Argument.put_float_readsBack`).
-/

namespace BraceFormat

open Binary64

variable {H : Host}

/-- The power of ten of the first digit of a number has some exponent, that of zero being zero. -/
def LeadsAt (q : Rat) (e : Int) : Prop :=
  q = 0 ∧ e = 0 ∨ (10 : Rat) ^ e ≤ q ∧ q < (10 : Rat) ^ (e + 1)

namespace Numeral

/-- A numeral has the sign of a floating-point number, and the magnitude of this is the one that is
nearest to the number that the numeral stands for. -/
def ReadsBackAs (n : Numeral) (v : Binary64) : Prop :=
  n.negative = v.negative ∧ IsNearest n.magnitude v.magnitude

/-- A numeral has no exponent if that of its first digit is from -4 below 16, and otherwise one
digit in front of the point and at least two in the exponent. -/
def HasShortestNotation (n : Numeral) (e : Int) : Prop :=
  match n.mark with
  | none => -4 ≤ e ∧ e < 16
  | some mark =>
    ¬(-4 ≤ e ∧ e < 16) ∧ n.whole.length = 1 ∧ mark.letter = 'e' ∧ 2 ≤ mark.digits.length ∧
      mark.value = e

end Numeral

/-! ### Shortest digits of finite magnitudes -/

namespace Decimal

variable {m : Nat}

theorem value_shortest_zero :
  (shortest 0).value = 0
  := by
  have hdigits : Nat.ofDigitChars 10 (shortest 0).digits 0 = 0 := rfl
  rw [value, hdigits, Nat.cast_zero, zero_mul]

theorem isNearest_value_shortest (hm : m < infinity) :
  IsNearest (shortest m).value m
  := by
  rcases Nat.eq_zero_or_pos m with rfl | hpos
  · have h := isNearest_absolute (Nat.zero_le infinity)
    rwa [absolute_zero, ← value_shortest_zero] at h
  · exact (isShortest_shortest hpos hm).isNearest

theorem leadsAt_shortest (hm : m < infinity) :
  LeadsAt (shortest m).value (shortest m).exponent
  := by
  rcases Nat.eq_zero_or_pos m with rfl | hpos
  · exact .inl ⟨value_shortest_zero, rfl⟩
  · have h := isShortest_shortest hpos hm
    exact .inr ⟨h.le_value, h.value_lt⟩

/-- No decimal with fewer digits reads back as the magnitude. -/
theorem length_significantDigits_shortest_le (hm : m < infinity) {digits count : Nat}
    (hdigits : digits < 10 ^ count) {place : Int}
    (h : IsNearest (digits * (10 : Rat) ^ place) m) :
  (significantDigits (shortest m).digits).length ≤ count
  := by
  rcases Nat.eq_zero_or_pos m with rfl | hpos
  · exact Nat.zero_le count
  · calc (significantDigits (shortest m).digits).length
      _ ≤ (shortest m).digits.length := length_significantDigits_le _
      _ ≤ count := (isShortest_shortest hpos hm).length_le digits count place hdigits h

end Decimal

/-! ### The shortest form -/

/-- The shortest form is that of a numeral with the shortest digits. -/
theorem exists_numeral_shortestForm (alternate : Bool) (m : Nat) (negative : Bool) :
  ∃ n : Numeral, n.negative = negative ∧ n.IsWritten (shortestForm alternate m) ∧
    n.Shows (Decimal.shortest m) ∧ n.HasShortestNotation (Decimal.shortest m).exponent
  := by
  have hdigits := isDigits_shortest m
  rw [shortestForm]
  generalize Decimal.shortest m = d at hdigits
  dsimp only
  by_cases hrange : -4 ≤ d.exponent ∧ d.exponent < 16
  · rw [if_pos hrange]
    obtain ⟨n, rfl, hmark, hwritten, hshows⟩ := d.exists_numeral_positional hdigits negative
    split_ifs with hpoint
    · obtain ⟨n', hnegative, hmark', hwritten', hshows'⟩ :=
        hwritten.exists_append_zeros hmark hpoint.2 hshows 1
      refine ⟨n', hnegative, hwritten', hshows', ?_⟩
      rw [Numeral.HasShortestNotation, hmark']
      exact hrange
    · refine ⟨n, rfl, hwritten, hshows, ?_⟩
      rw [Numeral.HasShortestNotation, hmark]
      exact hrange
  · rw [if_neg hrange]
    have hlone : (if alternate = true then ['.', '0'] else []) = [] ∨
        ∃ k, (if alternate = true then ['.', '0'] else []) = '.' :: List.replicate k '0' := by
      cases alternate
      · exact .inl rfl
      · exact .inr ⟨1, rfl⟩
    obtain ⟨n, mark, hnegative, hmark, hletter, hvalue, hlength, hwhole, hwritten, hshows⟩ :=
      d.exists_numeral_scientific hdigits hlone negative false
    refine ⟨n, hnegative, hwritten, hshows, ?_⟩
    rw [Numeral.HasShortestNotation, hmark]
    exact ⟨hrange, hwhole, hletter, hlength, hvalue⟩

/-! ### Finite numbers -/

/-- Without a presentation and a precision a finite number is rendered in its shortest form. -/
theorem Rendering.ofFloat_of_none {v : Binary64} (hv : v.isFinite = true) {d : Directive}
    (hpresentation : d.presentation = none) (hprecision : d.precision = none)
    (locale : Locale) :
  ofFloat d locale v =
    .ok (ofDirective d .right (signText v.negative d.sign) (shortestForm d.alternate v.magnitude))
  := by
  rw [ofFloat, if_pos hv, floatBody, hpresentation, hprecision]
  rfl

/-- A finite number that is put out without a presentation and a precision comes out as a numeral
that reads back as it; under a width this is padded. Any other numeral that reads back as the
number has at least as many significant digits. The exponent of its first digit says in which
notation the numeral is. -/
theorem Argument.put_float_readsBack {v : Binary64} (hv : v.isFinite = true) {d : Directive}
    (hpresentation : d.presentation = Option.none) (hprecision : d.precision = Option.none)
    (locale : Locale) (world : World H) :
  let lead := signText v.negative d.sign
  ∃ body n,
    ((Argument.float v).put { d with width := 0 } locale world).success? =
      some (lead ++ body, ()) ∧
    ((Argument.float v).put d locale world).success? =
      some (padded d.fill (d.alignOr .right) d.width lead body, ()) ∧
    Numeral.read (lead ++ body) = some n ∧
    n.ReadsBackAs v ∧
    (∀ text n', Numeral.read text = some n' → n'.ReadsBackAs v →
      n.significant.length ≤ n'.significant.length) ∧
    ∃ e, LeadsAt n.magnitude e ∧ n.HasShortestNotation e
  := by
  intro lead
  have hm : v.magnitude < infinity := of_decide_eq_true hv
  obtain ⟨n, hnegative, hwritten, hshows, hnotation⟩ :=
    exists_numeral_shortestForm d.alternate v.magnitude v.negative
  refine ⟨shortestForm d.alternate v.magnitude, n, ?unpadded, ?padded, ?read,
    ⟨hnegative, ?nearest⟩, ?fewest, (Decimal.shortest v.magnitude).exponent, ?leads, hnotation⟩
  case unpadded =>
    apply success?_put_iff.mpr
    exact ⟨_, Rendering.ofFloat_of_none hv (d := { d with width := 0 }) hpresentation hprecision
      locale, (padded_zero ..).symm⟩
  case padded =>
    apply success?_put_iff.mpr
    exact ⟨_, Rendering.ofFloat_of_none hv hpresentation hprecision locale, rfl⟩
  case read =>
    have hread := hwritten.read_eq d.sign
    rwa [hnegative] at hread
  case nearest =>
    rw [hshows.magnitude_eq]
    exact Decimal.isNearest_value_shortest hm
  case fewest =>
    intro text n' hread hback
    obtain ⟨digits, place, hdigits, hmagnitude⟩ := Numeral.exists_magnitude_eq hread
    have hnearest := hback.2
    rw [hmagnitude] at hnearest
    rw [hshows.significant_eq]
    exact Decimal.length_significantDigits_shortest_le hm hdigits hnearest
  case leads =>
    rw [hshows.magnitude_eq]
    exact Decimal.leadsAt_shortest hm

/-- The negative number nearest to zero needs one digit. -/
theorem Argument.put_float_readsBack_smallest :
  let v : Binary64 := ⟨0x8000000000000001⟩
  let d : Directive := {}
  let text := ['-', '5', 'e', '-', '3', '2', '4']
  v.isFinite = true ∧ d.presentation = Option.none ∧ d.precision = Option.none ∧
    ((Argument.float v).put d .c (⟨Option.none, ()⟩ : World ⟨Unit, Unit⟩)).success? =
      some (text, ()) ∧
    ∃ n, Numeral.read text = some n ∧ n.ReadsBackAs v ∧
      (∀ text' n', Numeral.read text' = some n' → n'.ReadsBackAs v →
        1 ≤ n'.significant.length) ∧
      LeadsAt n.magnitude (-324)
  := by
  intro v d text
  have hfinite : v.isFinite = true := by decide
  have hput : ((Argument.float v).put d .c (⟨Option.none, ()⟩ : World ⟨Unit, Unit⟩)).success? =
      some (text, ()) := by
    decide +kernel
  refine ⟨hfinite, rfl, rfl, hput, ?_⟩
  obtain ⟨body, n, hbody, _, hread, hback, hfewest, e, he, hnotation⟩ :=
    put_float_readsBack (H := ⟨Unit, Unit⟩) hfinite (d := d) rfl rfl .c ⟨Option.none, ()⟩
  have htext : signText v.negative d.sign ++ body = text :=
    (Prod.mk.inj (Option.some.inj (hbody.symm.trans hput))).1
  rw [htext] at hread
  refine ⟨n, hread, hback, fun text' n' hread' hback' => ?_, ?_⟩
  · have hlength := hfewest text' n' hread' hback'
    cases hread
    exact hlength
  · cases hread
    obtain ⟨_, _, _, _, rfl⟩ := hnotation
    exact he

end BraceFormat
