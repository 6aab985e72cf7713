import BraceFormat.Proofs.Specifier.Presentation
import BraceFormat.Proofs.Specifier.ReferenceFree
import BraceFormat.Proofs.Specifier.Uniqueness
import BraceFormat.Proofs.Template.Concatenation
import Mathlib.Data.List.Forall2

/-!
# Arguments that stand for one another

A field takes two things from the arguments of its call: the argument that it puts out, and the
counts for the references of its specifier. So arguments can be exchanged for others that are put
out alike, if these supply the same counts or none are asked for, and the call is the same
(`run_of_exchangeable`).

Being put out alike may be asked of specifiers of some sort only, such as those with a certain
presentation. Then the call is the same if its template has no others.
-/

namespace BraceFormat

variable {H : Host}

/-! ### Fields of two arguments -/

/-- Whatever specifier a text is, its presentation is of some sort. -/
def Presents (sort : Option Presentation → Prop) (spec : List Char) : Prop :=
  ∀ s : WrittenSpecifier, s.WellFormed → spec = s.source → sort s.presentation

section

variable {sort : Option Presentation → Prop} {spec : List Char} {args : Arguments H}
  {numbering : Numbering}

theorem presents_source {s : WrittenSpecifier} (hs : s.WellFormed) (hsort : sort s.presentation) :
  Presents sort s.source
  := by
  intro s' hs' hsource
  rw [← WrittenSpecifier.eq_of_source_eq hs hs' hsource]
  exact hsort

theorem Presents.of_resolve (h : Presents sort spec) {after : Numbering} {read : Specifier}
    {d : Directive} (hread : Specifier.read spec numbering = (.ok read, after))
    (hresolve : read.resolve args = .ok d) :
  sort d.presentation
  := by
  obtain ⟨s, hs, rfl⟩ := Specifier.source_of_read hread
  obtain ⟨v, hsupplied, rfl⟩ := (WrittenSpecifier.resolve_iff hs).mp ⟨read, hread, hresolve⟩
  obtain ⟨_, _, _, _, _, rfl⟩ := hsupplied
  apply h s hs rfl

/-- Two arguments have the same field if the directives with a presentation of its sort are legal
for both alike, and render both alike. -/
theorem Presents.formatBuiltin_eq (h : Presents sort spec) {argument argument' : Argument H}
    {locale : Locale}
    (hcheck : ∀ d : Directive, sort d.presentation →
      d.check argument.kind = d.check argument'.kind)
    (hrendering : ∀ d : Directive, sort d.presentation →
      argument.rendering d locale = argument'.rendering d locale) :
  formatBuiltin argument spec args locale numbering =
    formatBuiltin argument' spec args locale numbering
  := by
  rcases hread : Specifier.read spec numbering with ⟨e | read, after⟩
  · rw [formatBuiltin, formatBuiltin, readDirective_of_read_error hread,
      readDirective_of_read_error hread]
    rfl
  · rcases hresolve : read.resolve args with e | d
    · have hfails (kind : Kind) : readDirective kind spec args numbering = .error e := by
        rw [readDirective, hread]
        change (read.resolve args >>= fun d => d.check kind >>= fun _ => _) = _
        rw [hresolve]
        rfl
      rw [formatBuiltin, formatBuiltin, hfails, hfails]
      rfl
    · have hsort := h.of_resolve hread hresolve
      rw [formatBuiltin_of_resolve hread hresolve, formatBuiltin_of_resolve hread hresolve,
        hcheck d hsort, Argument.put, Argument.put, hrendering d hsort]

end

/-! ### Fields among two collections of arguments -/

/-- Two collections of arguments supply the same counts. -/
def Arguments.SameCounts (args args' : Arguments H) : Prop :=
  ∀ reference, args.count? reference = args'.count? reference

namespace Arguments.SameCounts

variable {args args' : Arguments H} (h : args.SameCounts args')

include h

theorem resolve_count (count : Option Count) :
  Count.resolve? args count = Count.resolve? args' count
  := by
  rcases count with _ | (n | ⟨reference, place⟩)
  · rfl
  · rfl
  · rw [Count.resolve?, Count.resolve?, Count.resolve, Count.resolve, h]

theorem readDirective_eq (kind : Kind) (spec : List Char) (numbering : Numbering) :
  readDirective kind spec args numbering = readDirective kind spec args' numbering
  := by
  have hresolve (read : Specifier) : read.resolve args = read.resolve args' := by
    rw [Specifier.resolve, Specifier.resolve, h.resolve_count, h.resolve_count]
  simp only [readDirective, hresolve]

theorem ofParts_eq (place : Nat) (parts : List SpecPart) (numbering : Numbering) :
  Substitution.ofParts args place parts numbering = Substitution.ofParts args' place parts numbering
  := by
  induction parts generalizing place numbering with
  | nil => rfl
  | cons part parts ih =>
    cases part with
    | literal text => rw [Substitution.ofParts, Substitution.ofParts, ih]
    | reference id => simp only [Substitution.ofParts, h _, ih]

/-- An argument is put out alike among arguments that supply the same counts. -/
theorem formatField_eq (argument : Argument H) (spec : List Char) (locale : Locale)
    (numbering : Numbering) :
  formatField argument spec args locale numbering = formatField argument spec args' locale numbering
  := by
  have hread (spec : List Char) :
      Substitution.read args spec numbering = Substitution.read args' spec numbering := by
    simp only [Substitution.read, h.ofParts_eq]
  cases argument
  case none => rfl
  case custom value handler => simp only [formatField, formatCustom, hread]
  all_goals simp only [formatField, formatBuiltin, h.readDirective_eq]

end Arguments.SameCounts

/-- Fields with a specifier of some sort are the same among two collections of arguments. -/
def Arguments.SameFields (sort : List Char → Prop) (args args' : Arguments H) : Prop :=
  ∀ spec, sort spec → ∀ (argument : Argument H) (locale : Locale) (numbering : Numbering),
    formatField argument spec args locale numbering =
      formatField argument spec args' locale numbering

theorem Arguments.SameCounts.sameFields {args args' : Arguments H} (h : args.SameCounts args')
    (sort : List Char → Prop) :
  args.SameFields sort args'
  := by
  intro spec _ argument locale numbering
  apply h.formatField_eq

/-- Without references, no arguments but those that are put out are asked for. -/
theorem Arguments.sameFields_of_referenceFree {sort : List Char → Prop}
    (h : ∀ spec, sort spec → ReferenceFree spec) (args args' : Arguments H) :
  args.SameFields sort args'
  := by
  intro spec hspec argument locale numbering
  rw [formatField_of_referenceFree (h spec hspec) argument args .empty locale numbering .undecided,
    formatField_of_referenceFree (h spec hspec) argument args' .empty locale numbering .undecided]

/-! ### Exchanging arguments -/

/-- Two arguments are put out alike by all specifiers of some sort. -/
structure Argument.Exchangeable (sort : List Char → Prop) (argument argument' : Argument H) :
    Prop where
  isNone : argument.isNone = argument'.isNone
  formatField : ∀ spec, sort spec →
    ∀ (args : Arguments H) (locale : Locale) (numbering : Numbering),
      formatField argument spec args locale numbering =
        formatField argument' spec args locale numbering

theorem Argument.Exchangeable.refl (sort : List Char → Prop) (argument : Argument H) :
  argument.Exchangeable sort argument
  := ⟨rfl, fun _ _ _ _ _ => rfl⟩

theorem Argument.IsBuiltin.isNone_eq {argument : Argument H} (h : argument.IsBuiltin) :
  argument.isNone = false
  := by
  cases argument
  case none => cases h.1 rfl
  all_goals rfl

/-- Two arguments are put out alike by the specifiers with a presentation of some sort, if the
directives with such a presentation are legal for both alike, and render both alike. -/
theorem Argument.IsBuiltin.exchangeable {argument argument' : Argument H}
    (h : argument.IsBuiltin) (h' : argument'.IsBuiltin) {sort : Option Presentation → Prop}
    (hcheck : ∀ d : Directive, sort d.presentation →
      d.check argument.kind = d.check argument'.kind)
    (hrendering : ∀ d : Directive, sort d.presentation →
      ∀ locale : Locale, argument.rendering d locale = argument'.rendering d locale) :
  argument.Exchangeable (Presents sort) argument'
  := by
  constructor
  · rw [h.isNone_eq, h'.isNone_eq]
  · intro spec hspec args locale numbering
    rw [formatField_of_isBuiltin h, formatField_of_isBuiltin h']
    apply hspec.formatBuiltin_eq hcheck
    intro d hd
    exact hrendering d hd locale

/-- Two collections of arguments have the same names, and arguments at the same position are in a
relation. -/
structure Arguments.Pointwise (R : Argument H → Argument H → Prop) (args args' : Arguments H) :
    Prop where
  values : List.Forall₂ R args.values args'.values
  names : args.names = args'.names

namespace Arguments.Pointwise

variable {R : Argument H → Argument H → Prop} {args args' : Arguments H}

/-- Arguments are the same or in a relation, and so are in every reflexive relation that this one
implies. -/
theorem of_eq_or {S : Argument H → Argument H → Prop}
    (h : args.Pointwise
      (fun argument argument' => argument = argument' ∨ R argument argument') args')
    (hrefl : ∀ argument, S argument argument)
    (hRS : ∀ argument argument', R argument argument' → S argument argument') :
  args.Pointwise S args'
  := by
  refine ⟨h.values.imp ?_, h.names⟩
  rintro argument argument' (rfl | hR)
  · apply hrefl
  · apply hRS argument argument' hR

theorem length_eq (h : args.Pointwise R args') :
  args.length = args'.length
  := h.values.length_eq

/-- The same references are to arguments that are in the relation. -/
theorem lookup (h : args.Pointwise R args') (hnone : R .none .none) (reference : Reference) :
  R (args.lookup reference) (args'.lookup reference)
  := by
  have hget (n : Nat) : R (args.get n) (args'.get n) := by
    rw [get, get]
    rcases Nat.lt_or_ge n args.values.length with hn | hn
    · have hn' : n < args'.values.length := h.values.length_eq ▸ hn
      rw [List.getElem?_eq_getElem hn, List.getElem?_eq_getElem hn']
      apply h.values.get
    · have hn' : args'.values.length ≤ n := h.values.length_eq ▸ hn
      rw [List.getElem?_eq_none hn, List.getElem?_eq_none hn']
      exact hnone
  cases reference with
  | index n => apply hget
  | name text =>
    have hfind : args.find? text = args'.find? text := by
      rw [find?, find?, h.names]
    rw [Arguments.lookup, Arguments.lookup, getNamed, getNamed, hfind]
    cases args'.find? text with
    | none => exact hnone
    | some n => apply hget

end Arguments.Pointwise

/-- The specifiers of all fields of a template are of some sort. -/
def Template.SpecifiersAre (sort : List Char → Prop) (template : Template) : Prop :=
  ∀ id spec, .field id spec ∈ template.pieces → sort (spec.getD [])

/-- Arguments that supply the same count at each position supply the same counts. -/
theorem Arguments.Pointwise.sameCounts {args args' : Arguments H}
    (h : args.Pointwise (fun argument argument' => argument.count? = argument'.count?) args') :
  args.SameCounts args'
  := by
  intro reference
  rw [count?, count?, h.lookup rfl reference]

section Calls

variable {sort : List Char → Prop} {args args' : Arguments H}
  (h : args.Pointwise (Argument.Exchangeable sort) args') (hfields : args.SameFields sort args')

include h hfields

theorem Field.run_of_exchangeable {field : Field} (hspec : sort field.spec) (locale : Locale)
    (numbering : Numbering) :
  field.run args locale numbering = field.run args' locale numbering
  := by
  have hargument := h.lookup (.refl sort .none) field.argument
  rw [run_eq, run_eq, hargument.isNone, hargument.formatField _ hspec, hfields _ hspec]

theorem Piece.run_of_exchangeable {piece : Piece}
    (hspec : ∀ id spec, piece = .field id spec → sort (spec.getD [])) (locale : Locale)
    (start : Nat) (numbering : Numbering) :
  piece.run args locale start numbering = piece.run args' locale start numbering
  := by
  cases piece with
  | literal text => rfl
  | brace c => rfl
  | field id spec =>
    rcases hresolve : numbering.resolve id with kind | ⟨reference, next⟩
    · rw [run, run, step, hresolve]
      rfl
    · rw [run_field hresolve, run_field hresolve]
      apply Field.run_of_exchangeable h hfields (hspec id spec rfl)

theorem runPieces_of_exchangeable {pieces : List Piece}
    (hspecs : ∀ id spec, .field id spec ∈ pieces → sort (spec.getD [])) (locale : Locale)
    (start : Nat) (numbering : Numbering) :
  runPieces args locale start pieces numbering = runPieces args' locale start pieces numbering
  := by
  induction pieces generalizing start numbering with
  | nil => rfl
  | cons piece pieces ih =>
    have hpiece := piece.run_of_exchangeable h hfields
      (fun id spec hpiece => hspecs id spec (hpiece ▸ .head _)) locale start
    have hpieces := ih fun id spec hmem => hspecs id spec (.tail _ hmem)
    simp only [runPieces_cons, hpiece, hpieces]

/-- A call is the same when arguments are exchanged for others that are put out alike by the
specifiers of its template. -/
theorem run_of_exchangeable {template : List Char}
    (hspecs : (Template.read template).SpecifiersAre sort) (locale : Option Locale) :
  run template args locale = run template args' locale
  := by
  have hruns (locale : Locale) : (Template.read template).runFrom args locale .undecided =
      (Template.read template).runFrom args' locale .undecided := by
    rw [Template.runFrom, Template.runFrom, runPieces_of_exchangeable h hfields hspecs]
  simp only [run, h.length_eq, hruns]

end Calls

end BraceFormat
