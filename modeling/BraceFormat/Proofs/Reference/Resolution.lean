import BraceFormat.Proofs.Formatter
import BraceFormat.Proofs.Substitution.Tracing
import BraceFormat.Proofs.Substitution.Unpasting

/-!
# References that resolve

A reference resolves if there is an argument at its position, or at the first position that
carries its name. That of a count has to be an integer which can be a width or precision.

A value of the host replaces the references of its specifier from left to right, any other
argument looks up those of the width and the precision once the whole specifier is read. Either
fails at the first reference that does not resolve, in the same way (`Specifier.map_resolve`).
-/

namespace BraceFormat

open Guarded

variable {H : Host} {args : Arguments H} {reference : Reference}

/-! ### Arguments -/

namespace Arguments

/-- A reference is to an argument: to the one at its position, or at the first position that
carries its name. -/
inductive Refers (args : Arguments H) : Reference → Argument H → Prop
  | index {n : Nat} {argument : Argument H} (hvalue : args.values[n]? = some argument) :
      Refers args (.index n) argument
  | name {text : List Char} {n : Nat} {argument : Argument H}
      (hname : args.names[n]? = some (some text))
      (hfirst : ∀ m < n, args.names[m]? ≠ some (some text))
      (hvalue : args.values[n]? = some argument) : Refers args (.name text) argument

/-- A reference is to an argument that is supplied. -/
def Resolves (args : Arguments H) (reference : Reference) : Prop :=
  ∃ argument, args.Refers reference argument ∧ argument.isNone = false

/-- A reference is to an integer that can be a width or precision. -/
def ResolvesToCount (args : Arguments H) (reference : Reference) : Prop :=
  ∃ argument n, args.Refers reference argument ∧ argument.integer? = some n ∧ 0 ≤ n ∧
    n ≤ 2147483647

theorem find?_eq_some_iff {text : List Char} {n : Nat} :
  args.find? text = some n ↔
    args.names[n]? = some (some text) ∧ ∀ m < n, args.names[m]? ≠ some (some text)
  := by
  rw [find?, List.findIdx?_eq_some_iff_getElem]
  constructor
  · rintro ⟨hn, hname, hfirst⟩
    refine ⟨?_, fun m hm => ?_⟩
    · rw [List.getElem?_eq_getElem hn, beq_iff_eq.mp hname]
    · rw [List.getElem?_eq_getElem (Nat.lt_trans hm hn)]
      intro heq
      apply hfirst m hm
      rw [Option.some.inj heq, beq_self_eq_true]
  · rintro ⟨hname, hfirst⟩
    obtain ⟨hn, hname⟩ := List.getElem?_eq_some_iff.mp hname
    refine ⟨hn, ?_, fun m hm heq => ?_⟩
    · rw [hname, beq_self_eq_true]
    · apply hfirst m hm
      rw [List.getElem?_eq_getElem (Nat.lt_trans hm hn), beq_iff_eq.mp heq]

/-- What is referred to is looked up. -/
theorem Refers.lookup_eq {argument : Argument H} (h : args.Refers reference argument) :
  args.lookup reference = argument
  := by
  cases h with
  | index hvalue =>
    rw [lookup, get, hvalue]
    rfl
  | name hname hfirst hvalue =>
    have hfind := find?_eq_some_iff.mpr ⟨hname, hfirst⟩
    rw [lookup, getNamed, hfind]
    change args.get _ = _
    rw [get, hvalue]
    rfl

theorem exists_of_get {n : Nat} (h : (args.get n).isNone = false) :
  args.values[n]? = some (args.get n)
  := by
  rw [get] at h ⊢
  rcases hvalue : args.values[n]? with _ | argument
  · rw [hvalue] at h
    cases h
  · rfl

/-- What is looked up is referred to, if it is there. -/
theorem refers_lookup (h : (args.lookup reference).isNone = false) :
  args.Refers reference (args.lookup reference)
  := by
  cases reference with
  | index n =>
    rw [lookup] at h ⊢
    exact .index (exists_of_get h)
  | name text =>
    rw [lookup, getNamed] at h ⊢
    split at h
    · next n hfind =>
      obtain ⟨hname, hfirst⟩ := find?_eq_some_iff.mp hfind
      exact .name hname hfirst (exists_of_get h)
    · cases h

theorem resolves_iff :
  args.Resolves reference ↔ (args.lookup reference).isNone = false
  := by
  constructor
  · rintro ⟨argument, hrefers, hargument⟩
    rwa [hrefers.lookup_eq]
  · intro h
    exact ⟨_, refers_lookup h, h⟩

theorem resolvesToCount_iff :
  args.ResolvesToCount reference ↔ ∃ n, args.Supplies reference n
  := by
  constructor
  · rintro ⟨argument, n, hrefers, hn, hnonneg, hle⟩
    refine ⟨n.toNat, ?_, ?_⟩
    · rw [hrefers.lookup_eq, hn, Int.toNat_of_nonneg hnonneg]
    · omega
  · rintro ⟨n, hn, hle⟩
    have hsome : (args.lookup reference).isNone = false := by
      cases hargument : args.lookup reference
      case none =>
        rw [hargument] at hn
        cases hn
      all_goals rfl
    exact ⟨_, n, refers_lookup hsome, hn, by omega, by omega⟩

/-- The references of a specifier are numbered in turn, and each of them resolves to a count. -/
inductive CountsResolve (args : Arguments H) : Numbering → List Char → Numbering → Prop
  | nil {numbering : Numbering} : CountsResolve args numbering [] numbering
  | char {c : Char} {spec : List Char} {numbering after : Numbering} (hc : c ≠ '{')
      (h : CountsResolve args numbering spec after) :
      CountsResolve args numbering (c :: spec) after
  | count {id : ArgId} {reference : Reference} {spec : List Char}
      {numbering next after : Numbering} (hid : id.WellFormed)
      (hresolve : numbering.resolve id = .ok (reference, next))
      (hcount : args.ResolvesToCount reference) (h : CountsResolve args next spec after) :
      CountsResolve args numbering ('{' :: id.source ++ '}' :: spec) after

/-- Behind counts that resolve, the reference at byte `place` of a specifier is in no conflict
with the numbering, but it does not resolve to a count. -/
inductive CountUnresolved (args : Arguments H) (numbering : Numbering) :
    List Char → Nat → Prop
  | intro {front rest : List Char} {id : ArgId} {reference : Reference} {next after : Numbering}
      (hfront : CountsResolve args numbering front next) (hid : id.WellFormed)
      (hresolve : next.resolve id = .ok (reference, after))
      (hcount : ¬args.ResolvesToCount reference) :
      CountUnresolved args numbering (front ++ '{' :: id.source ++ '}' :: rest)
        (byteLength front)

/-- Counts resolve if there are numerals to paste for them. -/
theorem countsResolve_iff {spec : List Char} {numbering after : Numbering} :
  args.CountsResolve numbering spec after ↔ ∃ text, Pastes args numbering spec text after
  := by
  constructor
  · intro h
    induction h with
    | nil => exact ⟨_, .nil⟩
    | char hc _ ih =>
      obtain ⟨text, htext⟩ := ih
      exact ⟨_, .char hc htext⟩
    | count hid hresolve hcount _ ih =>
      obtain ⟨text, htext⟩ := ih
      obtain ⟨n, hn⟩ := resolvesToCount_iff.mp hcount
      exact ⟨_, .count hid hresolve (count?_eq_some_iff.mpr hn) htext⟩
  · rintro ⟨text, h⟩
    induction h with
    | nil => exact .nil
    | char hc _ ih => exact .char hc ih
    | count hid hresolve hcount _ ih =>
      exact .count hid hresolve (resolvesToCount_iff.mpr ⟨_, count?_eq_some_iff.mp hcount⟩) ih

end Arguments

/-! ### Replacing the counts -/

namespace Substitution

variable {numbering next after : Numbering}

/-- Behind references that are replaced, one that cannot be is an error. -/
theorem read_of_refused {front text behind : List Char} {e : FormatError}
    (h : Pastes args numbering front text next)
    (hrefused : Refused args next (byteLength front) behind e) :
  (read args (front ++ '{' :: behind) numbering).1 = .error e
  := by
  obtain ⟨parts, hread, _⟩ := exists_read_iff.mpr h
  obtain rfl := source_of_read hread
  rw [← readAt_zero] at hread ⊢
  rw [← Nat.zero_add (byteLength _)] at hrefused
  apply readAt_of_supplied (supplied_of_readAt hread) hrefused

/-- Behind counts that are replaced, a reference without a number is an error at its opening
brace. -/
theorem read_of_count?_eq_none {front text : List Char} {id : ArgId}
    (h : Pastes args numbering front text next) (hid : id.WellFormed)
    (hresolve : next.resolve id = .ok (reference, after)) (hcount : args.count? reference = none)
    (rest : List Char) :
  (read args (front ++ '{' :: id.source ++ '}' :: rest) numbering).1 =
    .error (.located .invalidSpecifier (byteLength front))
  := by
  have hprefix : id.source ++ ['}'] <+: id.source ++ '}' :: rest :=
    (prefix_iff_readClosed hid).mpr ⟨rest, ArgId.readClosed_source hid rest⟩
  rw [List.append_assoc]
  apply read_of_refused h
  apply Refused.unusable hid hprefix hresolve
  intro n hn
  rw [Arguments.count?_eq_some_iff.mpr hn] at hcount
  cases hcount

/-- The first count that does not resolve is an error at its opening brace. -/
theorem read_of_countUnresolved {spec : List Char} {place : Nat}
    (h : args.CountUnresolved numbering spec place) :
  (read args spec numbering).1 = .error (.located .invalidSpecifier place)
  := by
  obtain ⟨hfront, hid, hresolve, hcount⟩ := h
  obtain ⟨text, htext⟩ := Arguments.countsResolve_iff.mp hfront
  apply read_of_count?_eq_none htext hid hresolve
  apply Option.eq_none_iff_forall_ne_some.mpr
  intro n hn
  apply hcount
  exact Arguments.resolvesToCount_iff.mpr ⟨n, Arguments.count?_eq_some_iff.mp hn⟩

end Substitution

/-! ### Looking up the counts -/

/-- A count that is read and cannot be looked up is a reference without a number. -/
theorem WrittenCount.exists_of_resolve_error {written : Option WrittenCount}
    {count : Option Count} {place : Nat} {numbering after : Numbering} {e : FormatError}
    (hnumber : number? place numbering written = .ok (count, after))
    (h : Count.resolve? args count = .error e) :
  ∃ id reference, written = some (.reference id) ∧
    numbering.resolve id = .ok (reference, after) ∧ args.count? reference = none ∧
    e = .located .invalidSpecifier place
  := by
  rcases written with _ | (text | id)
  · cases hnumber
    cases h
  · cases hnumber
    cases h
  · rcases hid : numbering.resolve id with kind | ⟨reference, next⟩
    · rw [number?, number, hid] at hnumber
      cases hnumber
    · rw [number?, number, hid] at hnumber
      cases hnumber
      rw [Count.resolve?, Count.resolve] at h
      rcases hcount : args.count? reference with _ | n
      · rw [hcount] at h
        cases h
        exact ⟨id, reference, rfl, hid, hcount, rfl⟩
      · rw [hcount] at h
        cases h

namespace WrittenSpecifier

variable {s : WrittenSpecifier} {numbering after : Numbering}

/-- The width is looked up first, and then the precision. -/
theorem resolve_specifier_error {width precision : Option Count} {e : FormatError}
    (h : (s.specifier width precision).resolve args = .error e) :
  Count.resolve? args width = .error e ∨
    ∃ n, Count.resolve? args width = .ok n ∧ Count.resolve? args precision = .error e
  := by
  rw [Specifier.resolve] at h
  change (do
    let m ← Count.resolve? args width
    let n ← Count.resolve? args precision
    Except.ok (s.directive m n)) = Except.error e at h
  rcases bind_eq_error_iff.mp h with hwidth | ⟨m, hwidth, h⟩
  · exact .inl hwidth
  · rcases bind_eq_error_iff.mp h with hprecision | ⟨_, _, ⟨⟩⟩
    exact .inr ⟨m, hwidth, hprecision⟩

/-- A reference that cannot be looked up in a specifier that is read cannot be replaced in it
either. -/
theorem read_of_resolve_error (hs : s.WellFormed) {spec : Specifier} {e : FormatError}
    (hread : Specifier.read s.source numbering = (.ok spec, after))
    (h : spec.resolve args = .error e) :
  (Substitution.read args s.source numbering).1 = .error e
  := by
  rw [read_source hs] at hread
  obtain ⟨width, precision, next, hwidth, hprecision, rfl⟩ := numbered_iff.mp hread
  have hfront : Pastes args numbering s.frontSource s.frontSource numbering :=
    .literal (ne_opening_of_mem_frontSource hs)
  rcases resolve_specifier_error h with h | ⟨n, hn, h⟩
  · obtain ⟨id, reference, hid, hresolve, hcount, rfl⟩ :=
      WrittenCount.exists_of_resolve_error hwidth h
    have hsource : s.source = s.frontSource ++ '{' :: id.source ++
        '}' :: (s.precisionSource ++ s.typeSource) := by
      rw [source_eq_frontSource, widthSource, hid]
      simp [WrittenCount.source?, WrittenCount.source]
    rw [hsource]
    apply Substitution.read_of_count?_eq_none hfront (hs.width _ hid) hresolve hcount
  · obtain ⟨id, reference, hid, hresolve, hcount, rfl⟩ :=
      WrittenCount.exists_of_resolve_error hprecision h
    obtain ⟨supplied, hsupplied, rfl⟩ := WrittenCount.exists_number_iff.mp ⟨_, hwidth, hn⟩
    have hpoint : Pastes args next ['.'] ['.'] next := .char (by decide) .nil
    have hpastes := (hfront.append (hsupplied.pastes hs.width)).append hpoint
    have hsource : s.source = (s.frontSource ++ s.widthSource) ++ ['.'] ++ '{' :: id.source ++
        '}' :: s.typeSource := by
      rw [source_eq_frontSource, precisionSource, hid]
      simp [WrittenCount.source]
    have hplace : s.precisionPlace + 1 =
        byteLength ((s.frontSource ++ s.widthSource) ++ ['.']) := by
      rw [byteLength_append, byteLength_append]
      rfl
    rw [hsource, hplace]
    apply Substitution.read_of_count?_eq_none hpastes (hs.precision _ hid) hresolve hcount

end WrittenSpecifier

/-- The references of a specifier that is read are looked up just if they can be replaced, and
else either fails with the same error. -/
theorem Specifier.map_resolve {text : List Char} {spec : Specifier}
    {numbering after : Numbering} (hread : read text numbering = (.ok spec, after))
    (args : Arguments H) :
  (spec.resolve args).map (fun _ => ()) =
    (Substitution.read args text numbering).1.map fun _ => ()
  := by
  obtain ⟨s, hs, rfl⟩ := source_of_read hread
  rcases hresolve : spec.resolve args with e | d
  · rw [s.read_of_resolve_error hs hread hresolve]
    rfl
  · obtain ⟨v, hsupplied, _⟩ := (WrittenSpecifier.resolve_iff hs).mp ⟨spec, hread, hresolve⟩
    obtain ⟨parts, hparts, _⟩ := Substitution.exists_read_iff.mpr (hsupplied.pastes hs)
    rw [hparts]
    rfl

/-- The first count of a specifier that is read and does not resolve is an error at its opening
brace. -/
theorem Specifier.resolve_of_countUnresolved {text : List Char} {spec : Specifier}
    {numbering after : Numbering} {place : Nat}
    (hread : read text numbering = (.ok spec, after))
    (h : args.CountUnresolved numbering text place) :
  spec.resolve args = .error (.located .invalidSpecifier place)
  := by
  have hmap := map_resolve hread args
  rw [Substitution.read_of_countUnresolved h] at hmap
  exact map_eq_error_iff.mp hmap

/-! ### Fields -/

section Fields

variable {argument : Argument H} {spec : List Char} {locale : Locale}
  {numbering after : Numbering} {world : World H}

theorem pastes_of_readDirective {kind : Kind} {d : Directive}
    (h : readDirective kind spec args numbering = .ok (d, after)) :
  ∃ text, Pastes args numbering spec text after
  := by
  obtain ⟨read, hread, hresolve, _⟩ := readDirective_iff.mp h
  obtain ⟨s, hs, rfl⟩ := Specifier.source_of_read hread
  obtain ⟨v, hsupplied, _⟩ := (WrittenSpecifier.resolve_iff hs).mp ⟨read, hread, hresolve⟩
  exact ⟨_, hsupplied.pastes hs⟩

theorem pastes_of_formatBuiltin
    (h : (formatBuiltin argument spec args locale numbering world).result = .ok after) :
  ∃ text, Pastes args numbering spec text after
  := by
  rcases hd : readDirective argument.kind spec args numbering with e | ⟨d, next⟩
  · rw [formatBuiltin, hd] at h
    cases h
  · rw [formatBuiltin_of_ok hd] at h
    obtain ⟨_, _, ⟨⟩⟩ := Formatter.result_bind_iff.mp h
    apply pastes_of_readDirective hd

theorem pastes_of_formatCustom {value : H.Value} {handler : Handler H}
    (h : (formatCustom value handler spec args numbering world).result = .ok after) :
  ∃ text, Pastes args numbering spec text after
  := by
  rcases hread : Substitution.read args spec numbering with ⟨e | parts, next⟩
  · rw [formatCustom, hread] at h
    cases h
  · rw [formatCustom_of_ok hread] at h
    obtain ⟨_, _, ⟨⟩⟩ := Formatter.result_bind_iff.mp h
    exact ⟨_, Substitution.exists_read_iff.mp ⟨parts, hread, rfl⟩⟩

/-- A field that is put out has numerals for the references in its specifier. -/
theorem pastes_of_formatField
    (h : (formatField argument spec args locale numbering world).result = .ok after) :
  ∃ text, Pastes args numbering spec text after
  := by
  cases argument
  case none => cases h
  case custom value handler => apply pastes_of_formatCustom h
  all_goals apply pastes_of_formatBuiltin h

/-- An argument is not put out if a count of its specifier does not resolve. A value of the host
looks for counts in any specifier, other arguments do in those that can be read. -/
theorem formatField_of_countUnresolved {place : Nat} (hargument : argument.isNone = false)
    (hread : argument.IsBuiltin → ∃ read, (Specifier.read spec numbering).1 = .ok read)
    (h : args.CountUnresolved numbering spec place) :
  formatField argument spec args locale numbering =
    Formatter.raise (.located .invalidSpecifier place)
  := by
  rcases argument.eq_none_or_custom_or_isBuiltin with rfl | ⟨value, handler, rfl⟩ | hbuiltin
  · cases hargument
  · rcases hparts : Substitution.read args spec numbering with ⟨outcome, next⟩
    obtain rfl : outcome = .error (.located .invalidSpecifier place) := by
      rw [← Substitution.read_of_countUnresolved h, hparts]
    rw [formatField, formatCustom, hparts]
    rfl
  · obtain ⟨read, hread⟩ := hread hbuiltin
    have hspec : Specifier.read spec numbering =
        (.ok read, (Specifier.read spec numbering).2) := Prod.ext hread rfl
    rw [formatField_of_isBuiltin hbuiltin, formatBuiltin, readDirective, hspec]
    change Formatter.ofChecked (read.resolve args >>= _) >>= _ = _
    rw [Specifier.resolve_of_countUnresolved hspec h]
    rfl

end Fields

end BraceFormat
