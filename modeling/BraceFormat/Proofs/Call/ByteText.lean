import BraceFormat.Proofs.Call.Exchange
import BraceFormat.Proofs.Guarded.Sink
import BraceFormat.Proofs.Output.Requests
import BraceFormat.Proofs.Utf8.Lossy

/-!
# Text that is given by bytes

Bytes stand for the text to which they are converted, and unless their address is asked for they
are put out as this text is: with the same errors, and cut to the same precision, which counts the
bytes of the text and not those that were given. So a call is the same if its texts are given by
bytes (`run_of_byteText`).
-/

namespace BraceFormat

variable {H : Host}

/-- A presentation is not that of an address. -/
def NoAddress (presentation : Option Presentation) : Prop := presentation ≠ some .pointer

/-- Text that is given by bytes is read as the text to which the bytes are converted. -/
inductive Argument.ReadsAs : Argument H → Argument H → Prop where
  | intro {value : ByteText} {text : List Char} (h : Utf8.Converts value.bytes text) :
    ReadsAs (.byteText value) (.text text)

section

variable {d : Directive} (h : NoAddress d.presentation)

include h

theorem Directive.check_byteText :
  d.check .byteText = d.check .text
  := by
  rw [check, check]
  rcases hp : d.presentation with _ | p
  · rfl
  · cases p
    case pointer => cases h hp
    all_goals rfl

/-- The precision is one of the text to which the bytes are converted. -/
theorem Argument.rendering_byteText {value : ByteText} {text : List Char}
    (hvalue : Utf8.Converts value.bytes text) (locale : Locale) :
  (Argument.byteText value : Argument H).rendering d locale = .ok (Rendering.ofText d text)
  := by
  rw [rendering, Rendering.ofByteText, Utf8.converts_iff.mp hvalue]
  split
  · next hp => cases h hp
  · rfl

end

theorem Argument.ReadsAs.count?_eq {argument argument' : Argument H}
    (h : argument.ReadsAs argument') :
  argument.count? = argument'.count?
  := by
  obtain ⟨_⟩ := h
  rfl

theorem Argument.ReadsAs.exchangeable {argument argument' : Argument H}
    (h : argument.ReadsAs argument') :
  argument.Exchangeable (Presents NoAddress) argument'
  := by
  obtain @⟨value, text, hvalue⟩ := h
  have hbytes : (Argument.byteText value : Argument H).IsBuiltin := by
    constructor <;> rintro ⟨⟩
  have htext : (Argument.text text : Argument H).IsBuiltin := by
    constructor <;> rintro ⟨⟩
  apply hbytes.exchangeable htext
  · intro d hd
    exact Directive.check_byteText hd
  · intro d hd locale
    rw [rendering_byteText hd hvalue]
    rfl

/-- Any bytes are converted to exactly one text, and the bytes of a text to this text. Where no
address is asked for, they are put out as this text, of which the precision leaves the longest
beginning that it has room for, and a call is the same if texts are given by bytes. Whatever the
bytes are, what a call writes into a buffer are the bytes of a text. -/
theorem run_of_byteText :
  (∀ bytes : List UInt8, ∃! text, Utf8.Converts bytes text) ∧
  (∀ text : List Char, Utf8.Converts (Utf8.encode text) text) ∧
  (∀ (value : ByteText) (text : List Char), Utf8.Converts value.bytes text →
    (∀ spec : List Char, Presents NoAddress spec →
      ∀ (args : Arguments H) (locale : Locale) (numbering : Numbering),
        formatField (.byteText value) spec args locale numbering =
          formatField (.text text) spec args locale numbering) ∧
    ∀ d : Directive, NoAddress d.presentation → ∀ locale : Locale,
      ∃ body, IsLongestWithin d.precision text body ∧
        (Argument.byteText value : Argument H).rendering d locale =
          .ok (Rendering.ofDirective d .left [] body)) ∧
  (∀ args args' : Arguments H,
    args.Pointwise
      (fun argument argument' => argument = argument' ∨ argument.ReadsAs argument') args' →
    ∀ template : List Char, (Template.read template).SpecifiersAre (Presents NoAddress) →
    ∀ locale : Option Locale, run template args locale = run template args' locale) ∧
  ∀ (old : List UInt8) (template : List Char) (args : Arguments H) (world : World H),
    let buffer := (formatBuffer old template args world).1
    buffer.contents.take buffer.written = Utf8.encode buffer.stored
  := by
  refine ⟨?_, Utf8.Converts.encode, ?_, ?_, ?_⟩
  · intro bytes
    exact ⟨Utf8.decodeLossy bytes, Utf8.converts_iff.mpr rfl,
      fun text h => (Utf8.converts_iff.mp h).symm⟩
  · intro value text hvalue
    constructor
    · intro spec hspec
      exact (Argument.ReadsAs.intro hvalue).exchangeable.formatField spec hspec
    · intro d hd locale
      refine ⟨truncated d.precision text, isLongestWithin_truncated d.precision text, ?_⟩
      rw [Argument.rendering_byteText hd hvalue, Rendering.ofText]
  · intro args args' h template hspecs locale
    have hexchange := h.of_eq_or (Argument.Exchangeable.refl _)
      fun _ _ hreads => hreads.exchangeable
    have hcounts : args.Pointwise
        (fun argument argument' => argument.count? = argument'.count?) args' :=
      h.of_eq_or (fun _ => rfl) fun _ _ hreads => hreads.count?_eq
    apply run_of_exchangeable hexchange (hcounts.sameCounts.sameFields _) hspecs
  · intro old template args world
    apply Guarded.take_contents

/-- The first two of three bytes of a character, and a byte that is in none, between letters. The
precision leaves the first letter and one replacement character. -/
theorem run_of_byteText_truncated :
  let value : ByteText := ⟨[0x61, 0xE2, 0x82, 0xFF, 0x62], 0⟩
  let text := ['a', Utf8.replacement, Utf8.replacement, 'b']
  let args : Arguments ⟨Empty, Unit⟩ := .ofList [.byteText value]
  let args' : Arguments ⟨Empty, Unit⟩ := .ofList [.text text]
  let template := ['{', ':', '.', '5', '}']
  Utf8.Converts value.bytes text ∧ Presents NoAddress ['.', '5'] ∧
    truncated (some 5) text = ['a', Utf8.replacement] ∧
    formatField (.byteText value) ['.', '5'] args .c .undecided =
      formatField (.text text) ['.', '5'] args .c .undecided ∧
    run template args none = run template args' none
  := by
  intro value text args args' template
  have hvalue : Utf8.Converts value.bytes text := Utf8.converts_iff.mpr (by decide)
  have hspec : Presents NoAddress ['.', '5'] := by
    change Presents NoAddress
      (⟨none, none, none, false, false, none, some (.digits ['5']), none⟩ :
        WrittenSpecifier).source
    apply presents_source
    · constructor
      · rintro _ ⟨⟩
      · rintro _ ⟨⟩
      · intro _
        apply Stops.nil
      · rintro _ ⟨⟩
        exact ⟨List.cons_ne_nil _ _, List.forall_mem_singleton.mpr rfl, by decide⟩
    · rintro ⟨⟩
  have hread : Template.read template = ⟨[.field .auto (some ['.', '5'])], none⟩ :=
    Template.read_of_last (List.cons_ne_nil _ _) rfl
  have hspecs : (Template.read template).SpecifiersAre (Presents NoAddress) := by
    rw [hread]
    intro id spec hmem
    cases List.mem_singleton.mp hmem
    exact hspec
  have hargs : args.Pointwise
      (fun argument argument' => argument = argument' ∨ argument.ReadsAs argument') args' := by
    constructor
    · exact .cons (.inr ⟨hvalue⟩) .nil
    · rfl
  obtain ⟨_, _, hfield, hrun, _⟩ := run_of_byteText (H := ⟨Empty, Unit⟩)
  exact ⟨hvalue, hspec, rfl, (hfield value text hvalue).1 _ hspec args .c .undecided,
    hrun args args' hargs template hspecs none⟩

end BraceFormat
