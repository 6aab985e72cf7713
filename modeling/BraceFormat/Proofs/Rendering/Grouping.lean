import BraceFormat.Proofs.Rendering.FloatText
import BraceFormat.Proofs.Rendering.IntegerText

/-!
# Grouped digits

A locale cuts a run of digits into groups that are counted from the right. A separator stands
between two groups and nowhere else, so whoever splits the text there gets the groups back
(`Locale.areGroups_splitOn`). Setting a numeral in a locale groups the digits in front of its
point and replaces the point; the digits behind it and the exponent stay as they are
(`Locale.localize_append`). Nothing else happens to a number that is presented by `n`, and the
zeros of the padding stand in front of the groups (`formatField_grouped`).
-/

namespace BraceFormat

variable {H : Host}

/-! ### Groups -/

/-- A run of digits cut into groups: all of them have the full size, except that the first one
may be shorter. -/
structure AreGroups (size : Nat) (digits : List Char) (groups : List (List Char)) : Prop where
  flatten : groups.flatten = digits
  first : ∀ group ∈ groups.head?, 0 < group.length ∧ group.length ≤ size
  others : ∀ group ∈ groups.tail, group.length = size

namespace AreGroups

variable {size : Nat} {digits first : List Char} {others : List (List Char)}

/-- The number of digits tells whether the first group is full. -/
theorem length_mod_eq_zero_iff (h : AreGroups size digits (first :: others)) :
  digits.length % size = 0 ↔ first.length = size
  := by
  obtain ⟨hpos, hle⟩ := h.first first rfl
  have hothers : (others.map List.length).sum = others.length * size := by
    have hsizes : others.map List.length = others.map fun _ => size := List.map_congr_left h.others
    rw [hsizes, List.map_const', List.sum_replicate_nat]
  have hlength : digits.length = first.length + others.length * size := by
    rw [← h.flatten, List.flatten_cons, List.length_append, List.length_flatten, hothers]
  rw [hlength, Nat.add_mul_mod_self_right]
  constructor
  · intro hmod
    by_contra hne
    rw [Nat.mod_eq_of_lt (by omega)] at hmod
    omega
  · intro heq
    rw [heq, Nat.mod_self]

/-- A digit in front of a full group begins a group of its own. -/
theorem cons_of_full (h : AreGroups size digits (first :: others)) (hfull : first.length = size)
    (digit : Char) :
  AreGroups size (digit :: digits) ([digit] :: first :: others)
  := by
  obtain ⟨hpos, hle⟩ := h.first first rfl
  constructor
  · rw [List.flatten_cons, h.flatten]
    rfl
  · rintro _ ⟨⟩
    exact ⟨Nat.one_pos, hpos.trans_le hle⟩
  · intro group hgroup
    rcases List.mem_cons.mp hgroup with rfl | hgroup
    · apply hfull
    · apply h.others group hgroup

/-- A digit in front of a group that is not full belongs to this group. -/
theorem cons_of_short (h : AreGroups size digits (first :: others)) (hshort : first.length ≠ size)
    (digit : Char) :
  AreGroups size (digit :: digits) ((digit :: first) :: others)
  := by
  obtain ⟨hpos, hle⟩ := h.first first rfl
  constructor
  · rw [← h.flatten]
    rfl
  · rintro _ ⟨⟩
    rw [List.length_cons]
    omega
  · apply h.others

end AreGroups

namespace Locale

variable {locale : Locale} {separator : Char}

/-- A run of digits is written as its groups, with the separator between them. -/
theorem exists_group_eq_intercalate (hseparator : locale.separator = some separator)
    (hsize : 0 < locale.grouping.toNat) {digits : List Char} (hne : digits ≠ []) :
  ∃ first others, AreGroups locale.grouping.toNat digits (first :: others) ∧
    locale.group digits = [separator].intercalate (first :: others)
  := by
  induction digits with
  | nil => cases hne rfl
  | cons digit digits ih =>
    rcases digits with _ | ⟨next, digits⟩
    · refine ⟨[digit], [], ⟨rfl, ?_, by simp⟩, ?_⟩
      · rintro _ ⟨⟩
        exact ⟨Nat.one_pos, hsize⟩
      · have hlast : locale.separatorBefore 0 = none := if_neg fun h => Nat.lt_irrefl 0 h.2.1
        rw [group, List.length_nil, hlast, List.intercalate_singleton]
        rfl
    · obtain ⟨first, others, hgroups, heq⟩ := ih (List.cons_ne_nil _ _)
      rw [group, heq, separatorBefore, hseparator]
      by_cases hfull : first.length = locale.grouping.toNat
      · refine ⟨[digit], first :: others, hgroups.cons_of_full hfull digit, ?_⟩
        rw [if_pos ⟨hsize, Nat.succ_pos _, hgroups.length_mod_eq_zero_iff.mpr hfull⟩,
          List.intercalate_cons_cons]
        rfl
      · refine ⟨digit :: first, others, hgroups.cons_of_short hfull digit, ?_⟩
        rw [if_neg fun h => hfull (hgroups.length_mod_eq_zero_iff.mp h.2.2)]
        cases others <;> simp [List.intercalate_cons_cons]

/-- Splitting grouped digits at the separator gives the groups back. -/
theorem areGroups_splitOn (hseparator : locale.separator = some separator)
    (hdigit : separator.isDigit = false) (hsize : 0 < locale.grouping.toNat)
    {digits : List Char} (hdigits : IsDigits digits) :
  AreGroups locale.grouping.toNat digits ((locale.group digits).splitOn separator)
  := by
  obtain ⟨first, others, hgroups, heq⟩ := exists_group_eq_intercalate hseparator hsize hdigits.1
  have hfree : ∀ group ∈ first :: others, separator ∉ group := by
    intro group hgroup hmem
    have hmem : separator ∈ digits := by
      rw [← hgroups.flatten]
      apply List.mem_flatten_of_mem hgroup hmem
    rw [hdigits.2 separator hmem] at hdigit
    cases hdigit
  rw [heq, List.splitOn_intercalate separator hfree (List.cons_ne_nil _ _)]
  apply hgroups

/-- Grouping leaves the first digit where it is. -/
theorem head?_group (locale : Locale) (digits : List Char) :
  (locale.group digits).head? = digits.head?
  := by
  cases digits <;> rfl

/-- Grouping leaves the last digit where it is. -/
theorem getLast?_group (locale : Locale) (digits : List Char) :
  (locale.group digits).getLast? = digits.getLast?
  := by
  induction digits with
  | nil => rfl
  | cons digit digits ih =>
    rw [group, List.getLast?_append, ih]
    cases digits with
    | nil =>
      have hlast : locale.separatorBefore 0 = none := if_neg fun h => Nat.lt_irrefl 0 h.2.1
      rw [List.length_nil, hlast]
      rfl
    | cons next digits =>
      rw [List.getLast?_cons_cons, List.getLast?_eq_some_getLast (List.cons_ne_nil _ _)]
      rfl

end Locale

/-! ### Numbers presented by `n` -/

/-- A finite number is presented by `n` as the parts of one numeral, in the separators of each
locale. -/
theorem Rendering.exists_ofFloat_grouped {d : Directive} (hn : d.presentation = some .locale)
    (hdigits : d.digitsAsked ≤ digitLimit) {v : Binary64} (hv : v.isFinite = true) :
  ∃ whole fraction exponent, ArePartsOfNumeral whole fraction exponent ∧
    ∀ locale, ofFloat d locale v = .ok (.ofDirective d .right (signText v.negative d.sign)
      (locale.group whole ++ fractionText locale.point fraction ++ exponent))
  := by
  rw [Directive.digitsAsked, hn] at hdigits
  rcases hplain : plainForm d.precision d.alternate v.magnitude with (e | _) | numeral
  · cases plainForm_ne_error e hplain
  · rw [plainForm_eq_tooManyDigits_iff] at hplain
    cases hplain.not_ge hdigits
  · obtain ⟨whole, fraction, exponent, hparts, rfl⟩ := (isNumeral_of_plainForm hplain).exists_parts
    refine ⟨whole, fraction, exponent, hparts, fun locale => ?_⟩
    rw [ofFloat, if_pos hv, floatBody, hn]
    dsimp only
    rw [hplain, ← hparts.localize_eq]
    rfl

/-- An integer is presented by `n` as its grouped digits. -/
theorem Rendering.ofInteger_grouped {d : Directive} (hn : d.presentation = some .locale)
    (locale : Locale) (n : Int) :
  ofInteger d locale n = .ok (.ofDirective d .right (signText (n < 0) d.sign)
    (locale.group (Nat.toDigits 10 n.natAbs)))
  := by
  have hmarker : (if d.alternate then baseMarker (some .locale) n else []) = [] := ite_self []
  rw [ofInteger, hn]
  dsimp only [integerDigits]
  rw [hmarker, List.append_nil]

/-- A locale with a group size and a separator that is not a digit only puts separators between
the digits of a number, and only in the right places.

Grouped digits begin and end with a digit, and splitting them at the separator gives the groups:
they are the digits again, all groups have the full size except that the first one may be shorter.

A finite floating-point number with the presentation `n` comes out as it does in the locale without
separators, but for the digits in front of the point, which are grouped, and the point itself; it
comes out in neither if more digits are asked for than are ever generated. An integer comes out as
its grouped digits. The zeros of the zero flag stand between the sign and the groups. -/
theorem formatField_grouped (locale : Locale) :
  (∀ separator, locale.separator = some separator → separator.isDigit = false →
    0 < locale.grouping.toNat → ∀ digits, IsDigits digits →
      let grouped := locale.group digits
      AreGroups locale.grouping.toNat digits (grouped.splitOn separator) ∧
        grouped.head? ≠ some separator ∧ grouped.getLast? ≠ some separator) ∧
  ∀ (argument : Argument H) (spec : List Char) (args : Arguments H) (numbering after : Numbering)
    (d : Directive) (world : World H),
    readDirective argument.kind spec args numbering = .ok (d, after) →
    d.presentation = some .locale →
    let result (locale : Locale) :=
      (formatField argument spec args locale numbering world).success?
    let text (lead body : List Char) :=
      if d.zeroPad then lead ++ List.replicate (d.width - (lead ++ body).length) '0' ++ body
      else padded d.fill (d.alignOr .right) d.width lead body
    (∀ v, argument = .float v → v.isFinite = true →
      (d.digitsAsked ≤ digitLimit →
        ∃ whole fraction exponent, ArePartsOfNumeral whole fraction exponent ∧
          let lead := signText v.negative d.sign
          result .c = some (text lead (whole ++ fractionText '.' fraction ++ exponent), after) ∧
          result locale = some (text lead
            (locale.group whole ++ fractionText locale.point fraction ++ exponent), after)) ∧
      (digitLimit < d.digitsAsked → result .c = none ∧ result locale = none)) ∧
    (∀ n, argument.integer? = some n →
      result locale = some (text (if n < 0 then ['-'] else d.sign.text)
        (locale.group (Nat.toDigits 10 n.natAbs)), after))
  := by
  constructor
  · intro separator hseparator hdigit hsize digits hdigits grouped
    have hnotMem : separator ∉ digits := by
      intro hmem
      rw [hdigits.2 separator hmem] at hdigit
      cases hdigit
    refine ⟨Locale.areGroups_splitOn hseparator hdigit hsize hdigits, ?_, ?_⟩
    · rw [Locale.head?_group]
      intro hhead
      apply hnotMem (List.mem_of_head? hhead)
    · rw [Locale.getLast?_group]
      intro hlast
      apply hnotMem (List.mem_of_getLast? hlast)
  · intro argument spec args numbering after d world hd hn result text
    have hresult {locale : Locale} {lead body : List Char} (hargument : argument.IsBuiltin)
        (hr : argument.rendering d locale = .ok (.ofDirective d .right lead body)) :
        result locale = some (text lead body, after) := by
      simp only [result, text]
      rw [Argument.success?_formatField hargument hd hr world, ← padded_of_readDirective hd]
      rfl
    constructor
    · rintro v rfl hv
      have hbuiltin : (Argument.float v : Argument H).IsBuiltin := by
        constructor <;> rintro ⟨⟩
      constructor
      · intro hdigits
        obtain ⟨whole, fraction, exponent, hparts, hfloat⟩ :=
          Rendering.exists_ofFloat_grouped hn hdigits hv
        refine ⟨whole, fraction, exponent, hparts, ?_, hresult hbuiltin (hfloat locale)⟩
        apply hresult hbuiltin
        rw [Argument.rendering, hfloat, Locale.group_c]
        rfl
      · intro hdigits
        have hnone (locale : Locale) : result locale = none := by
          have hcut : (formatField (.float v) spec args locale numbering).CutShort world := by
            apply (formatField_cutShort_iff (by rintro _ _ ⟨⟩)).mpr
            exact ⟨v, d, after, rfl, hv, hd, hdigits⟩
          simp only [result]
          rw [Emission.success?, hcut]
        exact ⟨hnone .c, hnone locale⟩
    · intro n hargument
      rw [← signText_eq]
      apply hresult (Argument.isBuiltin_of_integer? hargument)
      rw [Argument.rendering_of_integer? hargument, Rendering.ofInteger_grouped hn]
      rfl

/-- The numbers -1234567 and 1234567.5 in groups of three between commas. -/
theorem formatField_grouped_million :
  let locale : Locale := .enUS
  let digits := ['1', '2', '3', '4', '5', '6', '7']
  let args : Arguments ⟨Unit, Unit⟩ := .empty
  let world : World ⟨Unit, Unit⟩ := ⟨none, ()⟩
  let spec := ['0', '1', '2', 'n']
  let integer : Argument ⟨Unit, Unit⟩ := .int64 (-1234567)
  let v : Binary64 := ⟨0x4132D68780000000⟩
  let d : Directive :=
    { fill := '0', align := some .numeric, zeroPad := true, width := 12,
      presentation := some .locale, zeroWritten := true,
      places := { precision := 3, presentation := 3 } }
  locale.separator = some ',' ∧ IsDigits digits ∧
    AreGroups 3 digits ((locale.group digits).splitOn ',') ∧
    readDirective integer.kind spec args .undecided = .ok (d, .undecided) ∧
    readDirective .float spec args .undecided = .ok (d, .undecided) ∧
    v.isFinite = true ∧ d.digitsAsked ≤ digitLimit ∧
    (formatField integer spec args locale .undecided world).success? =
      some (['-', '0', '0', '1', ',', '2', '3', '4', ',', '5', '6', '7'], .undecided) ∧
    ∃ whole fraction exponent, ArePartsOfNumeral whole fraction exponent ∧
      let body := locale.group whole ++ fractionText '.' fraction ++ exponent
      (formatField (.float v) spec args locale .undecided world).success? =
        some (List.replicate (12 - body.length) '0' ++ body, .undecided)
  := by
  intro locale digits args world spec integer v d
  have hdigits : IsDigits digits := ⟨List.cons_ne_nil _ _, List.all_eq_true.mp rfl⟩
  have hinteger : readDirective integer.kind spec args .undecided = .ok (d, .undecided) := rfl
  have hfloat : readDirective .float spec args .undecided = .ok (d, .undecided) := rfl
  obtain ⟨hgroups, hfields⟩ := formatField_grouped (H := ⟨Unit, Unit⟩) locale
  obtain ⟨_, htext⟩ := hfields integer spec args .undecided .undecided d world hinteger rfl
  obtain ⟨hparts, _⟩ := hfields (.float v) spec args .undecided .undecided d world hfloat rfl
  obtain ⟨whole, fraction, exponent, hwell, _, hput⟩ := (hparts v rfl rfl).1 (by decide)
  refine ⟨rfl, hdigits, ?_, hinteger, hfloat, rfl, by decide, ?_,
    whole, fraction, exponent, hwell, hput⟩
  · exact (hgroups ',' rfl rfl (by decide) digits hdigits).1
  · apply (htext (-1234567) rfl).trans
    decide +kernel

end BraceFormat
