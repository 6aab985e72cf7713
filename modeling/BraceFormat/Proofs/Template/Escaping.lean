import BraceFormat.Proofs.Handler.Display
import BraceFormat.Proofs.Template.Concatenation
import BraceFormat.Proofs.Template.Partition

/-!
# Escaped braces

A text with its braces doubled is a template without fields, and puts the text out whatever the
arguments are. There are no other templates without fields: where a cursor only copies, the
template is what it copies with the braces doubled (`run_doubleBraces`).
-/

namespace BraceFormat

/-- A text with each of its braces doubled. -/
def doubleBraces (text : List Char) : List Char :=
  text.flatMap fun c => if Piece.isBrace c then [c, c] else [c]

theorem doubleBraces_nil :
  doubleBraces [] = []
  := rfl

theorem doubleBraces_char {c : Char} (hc : Piece.isBrace c = false) (text : List Char) :
  doubleBraces (c :: text) = c :: doubleBraces text
  := by
  rw [doubleBraces, List.flatMap_cons, hc]
  rfl

theorem doubleBraces_brace {c : Char} (hc : Piece.isBrace c = true) (text : List Char) :
  doubleBraces (c :: text) = c :: c :: doubleBraces text
  := by
  rw [doubleBraces, List.flatMap_cons, hc]
  rfl

theorem doubleBraces_append (s t : List Char) :
  doubleBraces (s ++ t) = doubleBraces s ++ doubleBraces t
  := List.flatMap_append

/-- Text without braces has none to double. -/
theorem doubleBraces_of_literal {text : List Char} (h : ∀ c ∈ text, Piece.isBrace c = false) :
  doubleBraces text = text
  := by
  induction text with
  | nil => rfl
  | cons c text ih =>
    rw [doubleBraces_char (h c (.head _)), ih fun d hd => h d (.tail _ hd)]

/-- Both texts go on without braces equally far. -/
theorem dropWhile_doubleBraces (text : List Char) :
  (doubleBraces text).dropWhile (!Piece.isBrace ·) =
    doubleBraces (text.dropWhile (!Piece.isBrace ·))
  := by
  induction text with
  | nil => rfl
  | cons c text ih =>
    by_cases hc : Piece.isBrace c = true
    · rw [List.dropWhile_cons_of_neg (by simp [hc]), doubleBraces_brace hc,
        List.dropWhile_cons_of_neg (by simp [hc])]
    · rw [Bool.not_eq_true] at hc
      rw [List.dropWhile_cons_of_pos (by simp [hc]), doubleBraces_char hc,
        List.dropWhile_cons_of_pos (by simp [hc]), ih]

/-! ### Pieces that are copied -/

/-- The text that a piece is copied as, if it is no field. -/
def Piece.copied? : Piece → Option (List Char)
  | .literal text => some text
  | .brace c => some [c]
  | .field .. => none

/-- Every piece of a template is copied. -/
def Template.IsCopied (template : Template) : Prop :=
  template.fault = none ∧ ∀ piece ∈ template.pieces, piece.copied?.isSome

/-- A piece that is copied is written as the text with its braces doubled. -/
theorem Piece.source_of_copied {piece : Piece} {text : List Char} (hpiece : piece.WellFormed)
    (h : piece.copied? = some text) :
  piece.source = doubleBraces text
  := by
  cases piece with
  | literal s =>
    cases h
    exact (doubleBraces_of_literal hpiece.2).symm
  | brace c =>
    cases h
    exact (doubleBraces_brace hpiece []).symm
  | field id spec => cases h

/-- Pieces that are copied are written as some text with its braces doubled. -/
theorem exists_doubleBraces {pieces : List Piece} (hpieces : ∀ piece ∈ pieces, piece.WellFormed)
    (hcopied : ∀ piece ∈ pieces, piece.copied?.isSome) :
  ∃ text, doubleBraces text = pieces.flatMap Piece.source
  := by
  induction pieces with
  | nil => exact ⟨[], rfl⟩
  | cons piece pieces ih =>
    obtain ⟨hpiece, hpieces⟩ := List.forall_mem_cons.mp hpieces
    obtain ⟨hhead, htail⟩ := List.forall_mem_cons.mp hcopied
    obtain ⟨front, hfront⟩ := Option.isSome_iff_exists.mp hhead
    obtain ⟨text, htext⟩ := ih hpieces htail
    use front ++ text
    rw [doubleBraces_append, htext, ← Piece.source_of_copied hpiece hfront, List.flatMap_cons]

/-- The first piece of a text with its braces doubled is copied, and such a text follows. -/
theorem Piece.exists_read_doubleBraces {text : List Char} (hne : doubleBraces text ≠ []) :
  ∃ piece rest, read (doubleBraces text) = .ok (piece, doubleBraces rest) ∧
    piece.copied?.isSome
  := by
  cases text with
  | nil => cases hne rfl
  | cons c text =>
    by_cases hc : isBrace c = true
    · rw [doubleBraces_brace hc]
      exact ⟨_, text, read_brace hc _, rfl⟩
    · rw [Bool.not_eq_true] at hc
      rw [doubleBraces_char hc, read_char hc, dropWhile_doubleBraces]
      exact ⟨_, _, rfl, rfl⟩

/-- A text with its braces doubled is read as pieces that are copied. -/
theorem isCopied_doubleBraces (text : List Char) :
  (Template.read (doubleBraces text)).IsCopied
  := by
  induction hdoubled : doubleBraces text using Template.induction generalizing text with
  | nil =>
    rw [Template.read_nil]
    exact ⟨rfl, by rintro _ ⟨⟩⟩
  | fault doubled place hne hread =>
    subst hdoubled
    obtain ⟨piece, rest, hok, -⟩ := Piece.exists_read_doubleBraces hne
    rw [hread] at hok
    cases hok
  | piece doubled piece behind hne hread ih =>
    subst hdoubled
    obtain ⟨piece, rest, hok, hpiece⟩ := Piece.exists_read_doubleBraces hne
    rw [hread] at hok
    cases hok
    obtain ⟨hfault, hpieces⟩ := ih rest rfl
    rw [Template.read_of_ok hne hread]
    exact ⟨Option.map_eq_none_iff.mpr hfault, List.forall_mem_cons.mpr ⟨hpiece, hpieces⟩⟩

/-- A template without fields is a text with its braces doubled. -/
theorem exists_doubleBraces_of_isCopied {template : List Char}
    (h : (Template.read template).IsCopied) :
  ∃ text, doubleBraces text = template
  := by
  obtain ⟨hpieces, rest, htemplate, hrest⟩ := Template.read_pieces template
  obtain ⟨text, htext⟩ := exists_doubleBraces hpieces h.2
  use text
  rw [htemplate, hrest h.1, List.append_nil, htext]

/-! ### Cursors that copy -/

/-- A cursor over a text comes to the end, and only copies on its way. -/
def CopiesOnly (text : List Char) : Prop :=
  let run := (Cursor.ofTemplate (Template.read text)).drive .undecided
  (∃ after, run.2 = .ok after) ∧ ∀ visit ∈ run.1, ∃ s, visit.step = .copy s

/-- The step at a piece copies just if the piece is no field, and leaves the numbering as it
is. -/
theorem Piece.step_eq_copy_iff {piece : Piece} {start : Nat} {numbering after : Numbering}
    {s : List Char} :
  piece.step start numbering = .ok (.copy s, after) ↔
    piece.copied? = some s ∧ numbering = after
  := by
  cases piece with
  | literal text => simp [step, copied?]
  | brace c => simp [step, copied?]
  | field id spec =>
    rw [step]
    split <;> simp [copied?]

/-- A cursor only copies just if there are no fields ahead, and no fault. -/
theorem copies_drive_iff (pieces : List Piece) (fault : Option Nat) (position : Nat)
    (numbering : Numbering) :
  let run := Cursor.drive ⟨pieces, fault, position⟩ numbering
  ((∃ after, run.2 = .ok after) ∧ ∀ visit ∈ run.1, ∃ s, visit.step = .copy s) ↔
    (⟨pieces, fault⟩ : Template).IsCopied
  := by
  induction pieces generalizing position numbering with
  | nil =>
    cases fault with
    | none =>
      rw [Cursor.drive_end]
      exact ⟨fun _ => ⟨rfl, by rintro _ ⟨⟩⟩, fun _ => ⟨⟨numbering, rfl⟩, by rintro _ ⟨⟩⟩⟩
    | some place =>
      rw [Cursor.drive_fault]
      constructor
      · rintro ⟨⟨_, ⟨⟩⟩, _⟩
      · rintro ⟨⟨⟩, _⟩
  | cons piece pieces ih =>
    rcases hstep : piece.step position numbering with e | ⟨step, next⟩
    · rw [Cursor.drive_of_error hstep]
      constructor
      · rintro ⟨⟨_, ⟨⟩⟩, _⟩
      · rintro ⟨_, hpieces⟩
        obtain ⟨s, hs⟩ := Option.isSome_iff_exists.mp (hpieces piece (.head _))
        cases hstep.symm.trans (Piece.step_eq_copy_iff.mpr ⟨hs, rfl⟩)
    · have ih := ih (position + byteLength piece.source) next
      rw [Cursor.drive_of_step hstep]
      revert ih
      rcases Cursor.drive ⟨pieces, fault, position + byteLength piece.source⟩ next with
        ⟨visits, outcome⟩
      intro ih
      dsimp only at ih ⊢
      constructor
      · rintro ⟨hend, hvisits⟩
        obtain ⟨⟨s, hs⟩, hrest⟩ := List.forall_mem_cons.mp hvisits
        obtain ⟨hfault, hpieces⟩ := ih.mp ⟨hend, hrest⟩
        rw [show step = .copy s from hs] at hstep
        have hpiece := (Piece.step_eq_copy_iff.mp hstep).1
        exact ⟨hfault, List.forall_mem_cons.mpr ⟨Option.isSome_of_eq_some hpiece, hpieces⟩⟩
      · rintro ⟨hfault, hpieces⟩
        obtain ⟨hpiece, hpieces⟩ := List.forall_mem_cons.mp hpieces
        obtain ⟨s, hs⟩ := Option.isSome_iff_exists.mp hpiece
        cases hstep.symm.trans (Piece.step_eq_copy_iff.mpr ⟨hs, rfl⟩)
        obtain ⟨hend, hvisits⟩ := ih.mpr ⟨hfault, hpieces⟩
        exact ⟨hend, List.forall_mem_cons.mpr ⟨⟨s, rfl⟩, hvisits⟩⟩

theorem copiesOnly_iff {text : List Char} :
  CopiesOnly text ↔ (Template.read text).IsCopied
  := copies_drive_iff _ _ 0 .undecided

/-! ### Calls -/

/-- A template puts out a text, whatever the arguments, the locale and the world are. -/
def PutsOut (template text : List Char) : Prop :=
  ∀ (H : Host) (args : Arguments H) (locale : Option Locale) (world : World H),
    (run template args locale world).success? = some (text, ())

/-- A text with its braces doubled is copied. -/
theorem sameOutput_doubleBraces {H : Host} (args : Arguments H) (locale : Locale)
    (text : List Char) (numbering : Numbering) :
  Formatter.SameOutput (runText args locale (doubleBraces text) numbering) (do
    Formatter.write [.text text]
    return numbering)
  := by
  induction text generalizing numbering with
  | nil =>
    rw [doubleBraces_nil, runText_nil]
    exact fun _ => ⟨rfl, rfl, rfl, rfl⟩
  | cons c text ih =>
    -- The head is copied by itself, and the rest behind it.
    have hcopied {source : List Char} (h : RunsBy args locale source fun numbering => do
        Formatter.write [.text [c]]
        return numbering) :
        Formatter.SameOutput (runText args locale (source ++ doubleBraces text) numbering) (do
          Formatter.write [.text (c :: text)]
          return numbering) := by
      apply (h (doubleBraces text) numbering).trans
      rw [bind_assoc]
      apply (Formatter.SameOutput.bind (Formatter.SameOutput.refl _)
        fun _ => (ih numbering).mapError _).trans
      exact fun _ => ⟨rfl, rfl, rfl, rfl⟩
    by_cases hc : Piece.isBrace c = true
    · have hpiece : RunsBy args locale (Piece.brace c).source
          ((Piece.brace c).run args locale 0) :=
        runsBy_piece (List.cons_ne_nil _ _) (Piece.read_brace hc)
      rw [doubleBraces_brace hc]
      exact hcopied hpiece
    · rw [Bool.not_eq_true] at hc
      rw [doubleBraces_char hc]
      exact hcopied (runsBy_char hc)

theorem putsOut_doubleBraces (text : List Char) :
  PutsOut (doubleBraces text) text
  := by
  intro H args locale world
  obtain ⟨hspans, _, hresult⟩ := run_eq (doubleBraces text) args locale world
  obtain ⟨htext, _, _, hok⟩ := sameOutput_doubleBraces args (locale.getD world.globalLocale) text
    .undecided world
  rw [runText] at htext hok
  rw [Emission.success?, hresult, hspans, hok, htext]
  change some (outputText ([.text text] ++ []), ()) = _
  rw [List.append_nil, outputText_cons, outputText_nil, List.append_nil, Span.toList]

/-- A text with its braces doubled is a template without fields, and puts out the text, whatever
the arguments are. Every template without fields is such a text: it puts something out that does
not depend on the arguments, and with the braces of that doubled. -/
theorem run_doubleBraces :
  (∀ text, CopiesOnly (doubleBraces text) ∧ PutsOut (doubleBraces text) text) ∧
  ∀ template, CopiesOnly template →
    ∃ text, PutsOut template text ∧ doubleBraces text = template
  := by
  constructor
  · intro text
    exact ⟨copiesOnly_iff.mpr (isCopied_doubleBraces text), putsOut_doubleBraces text⟩
  · intro template h
    obtain ⟨text, rfl⟩ := exists_doubleBraces_of_isCopied (copiesOnly_iff.mp h)
    exact ⟨text, putsOut_doubleBraces text, rfl⟩

/-- Three braces in a row, of both kinds, and one behind a character of two bytes. -/
theorem run_doubleBraces_row :
  let template := ['{', '{', '}', '}', '}', '}', 'é', '{', '{']
  CopiesOnly template ∧ ∃ text, PutsOut template text ∧ doubleBraces text = template
  := by
  intro template
  have hdoubled : doubleBraces ['{', '}', '}', 'é', '{'] = template := by decide
  have hcopies : CopiesOnly template := by
    rw [← hdoubled, copiesOnly_iff]
    apply isCopied_doubleBraces
  exact ⟨hcopies, run_doubleBraces.2 template hcopies⟩

end BraceFormat
