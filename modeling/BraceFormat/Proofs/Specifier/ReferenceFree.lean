import BraceFormat.Proofs.Field
import BraceFormat.Proofs.Guarded.Substitution
import BraceFormat.Proofs.Specifier.Supplied

/-!
# Specifiers without references

Without an opening brace a specifier has no references. Reading it has nothing to do with the
numbering, and its counts need no arguments: its directive is that of a specifier that belongs to
no template (`readDirective_of_referenceFree`), and a handler sees it as it is written
(`formatCustom_of_referenceFree`).
-/

namespace BraceFormat

variable {H : Host} {text : List Char}

theorem ReferenceFree.of_append {front rest : List Char} (h : ReferenceFree (front ++ rest)) :
  ReferenceFree rest
  := fun c hc => h c (List.mem_append_right front hc)

/-! ### Reading a specifier -/

namespace Specifier

theorem exists_readCount_of_referenceFree (h : ReferenceFree text) (place : Nat) :
  ∃ outcome, ∀ numbering, readCount place text numbering = (outcome, numbering)
  := by
  cases text with
  | nil => exact ⟨_, fun _ => rfl⟩
  | cons c text =>
    have hread (numbering : Numbering) : readCount place (c :: text) numbering =
        if c.isDigit then
          let n := Nat.ofDigitChars 10 (c :: text.takeWhile Char.isDigit) 0
          if n ≤ countLimit then (.ok (some (.literal n), text.dropWhile Char.isDigit), numbering)
          else (.error (.located .invalidSpecifier place), numbering)
        else (.ok (none, c :: text), numbering) := by
      rw [readCount.eq_def]
      split
      · next heq => cases heq
      · next heq =>
        cases heq
        cases h '{' (.head _) rfl
      · next heq =>
        cases heq
        rfl
    simp only [hread]
    split
    · split
      · exact ⟨_, fun _ => rfl⟩
      · exact ⟨_, fun _ => rfl⟩
    · exact ⟨_, fun _ => rfl⟩

theorem exists_readPrecision_of_referenceFree (h : ReferenceFree text) (place : Nat) :
  ∃ outcome, ∀ numbering, readPrecision place text numbering = (outcome, numbering)
  := by
  by_cases hpoint : ∃ rest, text = '.' :: rest
  · obtain ⟨rest, rfl⟩ := hpoint
    have hrest : ReferenceFree rest := fun c hc => h c (.tail _ hc)
    obtain ⟨outcome, hread⟩ := exists_readCount_of_referenceFree hrest (place + 1)
    simp only [readPrecision, hread]
    rcases outcome with e | ⟨_ | count, after⟩
    · exact ⟨_, fun _ => rfl⟩
    · exact ⟨_, fun _ => rfl⟩
    · exact ⟨_, fun _ => rfl⟩
  · refine ⟨.ok (none, text), fun numbering => ?_⟩
    rw [readPrecision.eq_def]
    split
    · cases hpoint ⟨_, rfl⟩
    · rfl

/-- Reading a text without references neither asks for the numbering nor moves it on. -/
theorem exists_read_of_referenceFree (h : ReferenceFree text) :
  ∃ outcome, ∀ numbering, read text numbering = (outcome, numbering)
  := by
  rcases halign : readAlign text with e | ⟨⟨fill, align⟩, atSign⟩
  · simp only [read, halign]
    exact ⟨_, fun _ => rfl⟩
  rcases hsign : readSign atSign with ⟨sign, atAlternate⟩
  rcases halternate : readFlag '#' atAlternate with ⟨alternate, atZero⟩
  rcases hzero : readFlag '0' atZero with ⟨zero, atWidth⟩
  have hatWidth : ReferenceFree atWidth := by
    rw [(source_of_readAlign halign).1, source_of_readSign hsign,
      (source_of_readFlag halternate).1, (source_of_readFlag hzero).1] at h
    apply h.of_append.of_append.of_append.of_append
  obtain ⟨width, hwidth⟩ := exists_readCount_of_referenceFree hatWidth
    (byteLength text - byteLength atWidth)
  simp only [read, halign, hsign, halternate, hzero, hwidth]
  split
  · exact ⟨_, fun _ => rfl⟩
  rcases width with e | ⟨width, atPoint⟩
  · exact ⟨_, fun _ => rfl⟩
  have hatPoint : ReferenceFree atPoint := by
    obtain ⟨_, _, htext, _⟩ := source_of_readCount (hwidth .undecided)
    rw [htext] at hatWidth
    apply hatWidth.of_append
  obtain ⟨precision, hprecision⟩ := exists_readPrecision_of_referenceFree hatPoint
    (byteLength text - byteLength atPoint)
  simp only [hprecision]
  rcases precision with e | ⟨precision, atType⟩
  · exact ⟨_, fun _ => rfl⟩
  dsimp only
  split
  · exact ⟨_, fun _ => rfl⟩
  · exact ⟨_, fun _ => rfl⟩

end Specifier

/-! ### Directives -/

namespace WrittenSpecifier

variable {s : WrittenSpecifier}

/-- The directive of a specifier whose counts are written in digits. -/
def ownDirective (s : WrittenSpecifier) : Directive :=
  s.directive (WrittenCount.numeral? s.width) (WrittenCount.numeral? s.precision)

theorem withoutReferences_of_referenceFree (h : ReferenceFree s.source) :
  s.WithoutReferences
  := by
  constructor
  · intro id hid
    apply h '{'
    · simp [source, widthSource, hid, WrittenCount.source?, WrittenCount.source]
    · rfl
  · intro id hid
    apply h '{'
    · simp [source, precisionSource, hid, WrittenCount.source]
    · rfl

/-- A specifier without references has its own directive, whatever the arguments are. -/
theorem exists_read_source (hs : s.WellFormed) (hreferences : s.WithoutReferences)
    (args : Arguments H) (numbering : Numbering) :
  ∃ spec, Specifier.read s.source numbering = (.ok spec, numbering) ∧
    spec.resolve args = .ok s.ownDirective
  := by
  apply (resolve_iff hs).mpr
  exact ⟨s, ⟨s.width, s.precision, numbering, .of_ne_reference hreferences.width,
    .of_ne_reference hreferences.precision, rfl⟩, rfl⟩

theorem readDirective_source (hs : s.WellFormed) (hreferences : s.WithoutReferences) (kind : Kind)
    (args : Arguments H) (numbering : Numbering) :
  readDirective kind s.source args numbering =
    (s.ownDirective.check kind).map fun _ => (s.ownDirective, numbering)
  := by
  obtain ⟨spec, hread, hresolve⟩ := exists_read_source hs hreferences args numbering
  rw [readDirective, hread]
  change (spec.resolve args >>= fun d => d.check kind >>= fun _ => pure (d, numbering)) = _
  rw [hresolve]
  change (s.ownDirective.check kind >>= fun _ => pure (s.ownDirective, numbering)) = _
  cases s.ownDirective.check kind <;> rfl

theorem readStandalone_source (hs : s.WellFormed) (hreferences : s.WithoutReferences) :
  Directive.readStandalone s.source = .ok s.ownDirective
  := by
  obtain ⟨spec, hread, hresolve⟩ :=
    exists_read_source hs hreferences (Arguments.empty (H := ⟨Empty, Unit⟩)) .undecided
  rw [Directive.readStandalone, hread]
  apply hresolve

end WrittenSpecifier

/-- A text without references is ill-formed in whatever numbering, or the source of parts without
references. -/
theorem ReferenceFree.read_error_or_source (h : ReferenceFree text) :
  (∃ e, ∀ numbering, Specifier.read text numbering = (.error e, numbering)) ∨
    ∃ s : WrittenSpecifier, s.WellFormed ∧ s.WithoutReferences ∧ text = s.source
  := by
  obtain ⟨outcome, hread⟩ := Specifier.exists_read_of_referenceFree h
  rcases outcome with e | spec
  · exact .inl ⟨e, hread⟩
  · obtain ⟨s, hs, rfl⟩ := Specifier.source_of_read (hread .undecided)
    exact .inr ⟨s, hs, WrittenSpecifier.withoutReferences_of_referenceFree h, rfl⟩

theorem readDirective_of_read_error {e : FormatError} {numbering after : Numbering}
    (h : Specifier.read text numbering = (.error e, after)) (kind : Kind) (args : Arguments H) :
  readDirective kind text args numbering = .error e
  := by
  rw [readDirective, h]
  rfl

/-- The directive of a specifier without references is the one that it has on its own, and the
numbering stays. -/
theorem readDirective_of_referenceFree (h : ReferenceFree text) (kind : Kind) (args : Arguments H)
    (numbering : Numbering) :
  readDirective kind text args numbering = do
    let d ← Directive.readStandalone text
    d.check kind
    return (d, numbering)
  := by
  rcases h.read_error_or_source with ⟨e, hread⟩ | ⟨s, hs, hreferences, rfl⟩
  · rw [readDirective_of_read_error (hread numbering), Directive.readStandalone, hread]
    rfl
  · rw [WrittenSpecifier.readDirective_source hs hreferences,
      WrittenSpecifier.readStandalone_source hs hreferences]
    change _ = s.ownDirective.check kind >>= fun _ => pure (s.ownDirective, numbering)
    cases s.ownDirective.check kind <;> rfl

/-! ### Values of the host -/

/-- Nothing is replaced in a specifier without references. -/
theorem Substitution.read_of_referenceFree (h : ReferenceFree text) (args : Arguments H)
    (numbering : Numbering) :
  read args text numbering = (.ok [.literal text], numbering)
  := by
  rw [← Guarded.readAt_zero, Guarded.readAt_literal h]

theorem Substitution.trace_literal (text : List Char) :
  trace [.literal text] = id
  := by
  funext e
  have hoffset : writtenOffset [.literal text] = id := by
    funext offset
    rw [writtenOffset, id]
    split
    · rfl
    · next h => exact Nat.add_sub_of_le (Nat.le_of_not_lt h)
  rw [trace, hoffset, Option.map_id]
  rfl

/-- A handler sees a specifier without references as it is written. -/
theorem formatCustom_of_referenceFree (h : ReferenceFree text) (value : H.Value)
    (handler : Handler H) (args : Arguments H) (numbering : Numbering) :
  formatCustom value handler text args numbering =
    handler.format value text >>= fun _ => return numbering
  := by
  have hmap (f : Formatter H Unit) : f.mapError id = f := by
    funext world
    simp only [Formatter.mapError]
    rcases f world with ⟨spans, events, after, (e | _) | a⟩ <;> rfl
  rw [formatCustom_of_ok (Substitution.read_of_referenceFree h args numbering),
    Substitution.trace_literal, hmap]
  simp [Substitution.text, Replaced.text]

/-! ### Fields -/

/-- A specifier without references has the same directive among other arguments and in another
numbering, and the numbering stays. -/
theorem readDirective_eq_map_of_referenceFree (h : ReferenceFree text) (kind : Kind)
    (args args' : Arguments H) (numbering numbering' : Numbering) :
  readDirective kind text args numbering =
    (readDirective kind text args' numbering').map fun (d, _) => (d, numbering)
  := by
  rw [readDirective_of_referenceFree h, readDirective_of_referenceFree h]
  rcases Directive.readStandalone text with e | d
  · rfl
  · change (d.check kind >>= fun _ => pure (d, numbering)) =
      (d.check kind >>= fun _ => pure (d, numbering')).map fun (d, _) => (d, numbering)
    cases d.check kind <;> rfl

/-- A field whose specifier has no references asks neither for the other arguments nor for the
numbering, which stays as it is. -/
theorem formatField_of_referenceFree (h : ReferenceFree text) (argument : Argument H)
    (args args' : Arguments H) (locale : Locale) (numbering numbering' : Numbering) :
  formatField argument text args locale numbering =
    formatField argument text args' locale numbering' >>= fun _ => return numbering
  := by
  have hbuiltin : formatBuiltin argument text args locale numbering =
      formatBuiltin argument text args' locale numbering' >>= fun _ => return numbering := by
    have hargs :=
      readDirective_eq_map_of_referenceFree h argument.kind args args' numbering numbering'
    rcases hargs' : readDirective argument.kind text args' numbering' with e | ⟨d, after⟩
    · rw [hargs'] at hargs
      rw [formatBuiltin, formatBuiltin, hargs, hargs']
      rfl
    · rw [hargs'] at hargs
      rw [formatBuiltin_of_ok hargs, formatBuiltin_of_ok hargs', bind_assoc]
      rfl
  cases argument
  case none => rfl
  case custom value handler =>
    simp only [formatField, formatCustom_of_referenceFree h, bind_assoc, pure_bind]
  all_goals exact hbuiltin

end BraceFormat
