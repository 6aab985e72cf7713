import BraceFormat.Proofs.Formatter
import BraceFormat.Proofs.Template.Grammar

/-!
# Templates one after another

Running a template written behind another one is running the first one, and then, if it
succeeds, the second one from the numbering that the first one leaves (`into_runFrom_append`). The
errors of the second one lie further on by the length of the first one.

The pieces of the whole need not be those of the parts, as text at the end of the first one
and at the beginning of the second one is one literal of the whole. So the two runs are
compared by the text they write.
-/

namespace BraceFormat

variable {H : Host}

/-- The error as seen from a text in which the text being read starts at byte `base`; an error
of unknown place remains so. -/
def FormatError.shift (base : Nat) (e : FormatError) : FormatError :=
  ⟨e.kind, e.offset.map (base + ·)⟩

theorem FormatError.shift_rebase (base place : Nat) (e : FormatError) :
  (e.rebase place).shift base = e.rebase (base + place)
  := by
  rw [shift, rebase, Option.map_some, ← Nat.add_assoc]
  rfl

/-! ### Pieces -/

/-- A field fails at its opening brace if its argument is missing. -/
theorem Field.run_eq (field : Field) (args : Arguments H) (locale : Locale)
    (numbering : Numbering) :
  field.run args locale numbering =
    if (args.lookup field.argument).isNone then
      Formatter.raise (.located .missingArgument field.start)
    else
      (formatField (args.lookup field.argument) field.spec args locale numbering).mapError
        (·.rebase field.specStart)
  := by
  rw [Field.run]
  cases args.lookup field.argument <;> rfl

/-- Takes the step at a piece that starts at byte `start`. -/
def Piece.run (args : Arguments H) (locale : Locale) (start : Nat) (piece : Piece)
    (numbering : Numbering) : Formatter H Numbering := do
  let (step, numbering) ← Formatter.ofChecked (piece.step start numbering)
  step.run args locale numbering

/-- A field whose id is numbered is put out. -/
theorem Piece.run_field {args : Arguments H} {locale : Locale} {numbering next : Numbering}
    {id : ArgId} {reference : Reference} (hresolve : numbering.resolve id = .ok (reference, next))
    (start : Nat) (spec : Option (List Char)) :
  (field id spec).run args locale start numbering =
    Field.run ⟨reference, spec.getD [], start, start + specOffset id spec⟩ args locale next
  := by
  rw [run, step, hresolve]
  rfl

theorem runPieces_cons (args : Arguments H) (locale : Locale) (start : Nat) (piece : Piece)
    (pieces : List Piece) (numbering : Numbering) :
  runPieces args locale start (piece :: pieces) numbering = (do
    let numbering ← piece.run args locale start numbering
    runPieces args locale (start + byteLength piece.source) pieces numbering)
  := by
  rw [runPieces, Piece.run, bind_assoc]

/-- A piece that starts further on has its errors further on. -/
theorem Piece.run_add (args : Arguments H) (locale : Locale) (base start : Nat) (piece : Piece)
    (numbering : Numbering) :
  piece.run args locale (base + start) numbering =
    (piece.run args locale start numbering).mapError (·.rebase base)
  := by
  cases piece with
  | literal text => rfl
  | brace c => rfl
  | field id spec =>
    simp only [run, step]
    cases numbering.resolve id with
    | error kind => rfl
    | ok resolved =>
      obtain ⟨reference, numbering⟩ := resolved
      change Field.run ⟨reference, spec.getD [], _, _⟩ args locale numbering =
        (Field.run ⟨reference, spec.getD [], start, start + specOffset id spec⟩ args locale
          numbering).mapError (·.rebase base)
      simp only [Field.run_eq]
      split
      · rfl
      · simp only [Formatter.mapError_mapError, FormatError.rebase_rebase, Nat.add_assoc]

/-- Pieces that start further on have their errors further on. -/
theorem runPieces_add (args : Arguments H) (locale : Locale) (base start : Nat)
    (pieces : List Piece) (numbering : Numbering) :
  runPieces args locale (base + start) pieces numbering =
    (runPieces args locale start pieces numbering).mapError (·.rebase base)
  := by
  induction pieces generalizing start numbering with
  | nil => rfl
  | cons piece pieces ih =>
    simp only [runPieces_cons, Formatter.mapError_bind, Piece.run_add, Nat.add_assoc, ih]

namespace Template

/-- Running a template with a piece in front is running the piece, and then the template with
its errors moved behind the piece. -/
theorem runFrom_cons (args : Arguments H) (locale : Locale) (piece : Piece)
    (template : Template) (numbering : Numbering) :
  (template.cons piece).runFrom args locale numbering = (do
    let numbering ← piece.run args locale 0 numbering
    (template.runFrom args locale numbering).mapError (·.rebase (byteLength piece.source)))
  := by
  obtain ⟨pieces, fault⟩ := template
  simp only [runFrom, cons, runPieces_cons, bind_assoc, Formatter.mapError_bind,
    ← runPieces_add, Nat.add_zero, Nat.zero_add]
  cases fault <;> rfl

/-- Every error of a run has a place. -/
theorem mapError_rebase_zero (args : Arguments H) (locale : Locale) (template : Template)
    (numbering : Numbering) :
  (template.runFrom args locale numbering).mapError (·.rebase 0) =
    template.runFrom args locale numbering
  := by
  obtain ⟨pieces, fault⟩ := template
  simp only [runFrom, Formatter.mapError_bind, ← runPieces_add, Nat.zero_add]
  cases fault with
  | none => rfl
  | some place =>
    simp only [Formatter.mapError_raise, FormatError.rebase_located, Nat.zero_add]

/-- A change of place moves the errors of a run, as all of them have a place. -/
theorem mapError_shift (args : Arguments H) (locale : Locale) (template : Template)
    (numbering : Numbering) (base : Nat) :
  (template.runFrom args locale numbering).mapError (·.shift base) =
    (template.runFrom args locale numbering).mapError (·.rebase base)
  := by
  rw [← mapError_rebase_zero, Formatter.mapError_mapError, Formatter.mapError_mapError]
  simp only [FormatError.shift_rebase, FormatError.rebase_rebase]

end Template

/-! ### Texts -/

variable (args : Arguments H) (locale : Locale)

/-- Runs a text as a template. -/
def runText (text : List Char) (numbering : Numbering) : Formatter H Numbering :=
  (Template.read text).runFrom args locale numbering

/-- A text whose run does not depend on what follows it: in front of any text it is run by
`f`, and then that text is run, with its errors behind it. -/
def RunsBy (text : List Char) (f : Numbering → Formatter H Numbering) : Prop :=
  ∀ rest numbering, Formatter.SameOutput (runText args locale (text ++ rest) numbering) (do
    let numbering ← f numbering
    (runText args locale rest numbering).mapError (·.rebase (byteLength text)))

variable {args locale}

/-- A text that is read as a piece is run as the piece. -/
theorem runText_of_read {text rest : List Char} {piece : Piece} (hne : text ≠ [])
    (h : Piece.read text = .ok (piece, rest)) (numbering : Numbering) :
  runText args locale text numbering = (do
    let numbering ← piece.run args locale 0 numbering
    (runText args locale rest numbering).mapError (·.rebase (byteLength piece.source)))
  := by
  rw [runText, Template.read_of_ok hne h, Template.runFrom_cons]
  rfl

theorem runText_nil (numbering : Numbering) :
  runText args locale [] numbering = pure numbering
  := by
  rw [runText, Template.read_nil]
  rfl

/-- The source of a piece that is read whatever follows it is run as the piece. -/
theorem runsBy_piece {piece : Piece} (hne : piece.source ≠ [])
    (h : ∀ rest, Piece.read (piece.source ++ rest) = .ok (piece, rest)) :
  RunsBy args locale piece.source (piece.run args locale 0)
  := by
  intro rest numbering
  apply Formatter.SameOutput.of_eq
  apply runText_of_read
  · intro hnil
    apply hne (List.append_eq_nil_iff.mp hnil).1
  · apply h

/-- A text that begins with a character that is no brace is copied up to the next brace. -/
theorem runText_char {c : Char} (hc : Piece.isBrace c = false) (rest : List Char)
    (numbering : Numbering) :
  runText args locale (c :: rest) numbering = (do
    Formatter.write [.text (c :: rest.takeWhile (!Piece.isBrace ·))]
    (runText args locale (rest.dropWhile (!Piece.isBrace ·)) numbering).mapError
      (·.rebase (byteLength (c :: rest.takeWhile (!Piece.isBrace ·)))))
  := by
  rw [runText_of_read (List.cons_ne_nil _ _) (Piece.read_char hc rest)]
  rfl

/-- Writing a text is writing a character and then the others. -/
theorem sameOutput_write_cons (c : Char) (text : List Char) :
  Formatter.SameOutput (Formatter.write [.text (c :: text)] : Formatter H Unit) (do
    Formatter.write [.text [c]]
    Formatter.write [.text text])
  := fun _ => ⟨rfl, rfl, rfl, rfl⟩

/-- A character that is no brace is copied, whatever follows it. -/
theorem runsBy_char {c : Char} (hc : Piece.isBrace c = false) :
  RunsBy args locale [c] fun numbering => do
    Formatter.write [.text [c]]
    return numbering
  := by
  intro rest numbering
  rw [List.singleton_append, runText_char hc, bind_assoc]
  simp only [pure_bind]
  cases rest with
  | nil => apply Formatter.SameOutput.refl
  | cons d rest =>
    by_cases hd : Piece.isBrace d = true
    · rw [List.takeWhile_cons_of_neg (by simp [hd]), List.dropWhile_cons_of_neg (by simp [hd])]
      apply Formatter.SameOutput.refl
    · -- The literal goes on: it is written in one go, the character and the rest in two.
      rw [Bool.not_eq_true] at hd
      rw [runText_char hd, List.takeWhile_cons_of_pos (by simp [hd]),
        List.dropWhile_cons_of_pos (by simp [hd]), Formatter.mapError_bind,
        Formatter.mapError_mapError, Formatter.mapError_write, ← bind_assoc]
      simp only [FormatError.rebase_rebase, byteLength_cons, byteLength_nil, Nat.add_zero]
      apply Formatter.SameOutput.bind
      · apply sameOutput_write_cons
      · intro _
        apply Formatter.SameOutput.refl

/-- The empty text does nothing. -/
theorem runsBy_nil :
  RunsBy args locale [] pure
  := by
  intro rest numbering
  apply Formatter.SameOutput.of_eq
  rw [pure_bind]
  symm
  apply Template.mapError_rebase_zero

/-- One text after another is run by one formatter after the other. -/
theorem RunsBy.append {s t : List Char} {f g : Numbering → Formatter H Numbering}
    (hs : RunsBy args locale s f) (ht : RunsBy args locale t g) :
  RunsBy args locale (s ++ t) (fun numbering => do
    let numbering ← f numbering
    (g numbering).mapError (·.rebase (byteLength s)))
  := by
  intro rest numbering
  rw [List.append_assoc]
  apply (hs (t ++ rest) numbering).trans
  rw [bind_assoc]
  apply Formatter.SameOutput.bind (Formatter.SameOutput.refl _)
  intro numbering
  apply ((ht rest numbering).mapError _).trans
  apply Formatter.SameOutput.of_eq
  simp only [Formatter.mapError_bind, Formatter.mapError_mapError, FormatError.rebase_rebase,
    byteLength_append]

/-- A text is run as its formatter says. -/
theorem RunsBy.runText {text : List Char} {f : Numbering → Formatter H Numbering}
    (h : RunsBy args locale text f) (numbering : Numbering) :
  Formatter.SameOutput (runText args locale text numbering) (f numbering)
  := by
  have := h [] numbering
  simp only [List.append_nil, runText_nil, Formatter.mapError_pure, bind_pure] at this
  apply this

/-- Every template is run in the same way whatever follows it. -/
theorem exists_runsBy {text : List Char} (h : IsTemplate text) :
  ∃ f, RunsBy args locale text f
  := by
  induction h with
  | nil => exact ⟨_, runsBy_nil⟩
  | char hc _ ih =>
    obtain ⟨g, hg⟩ := ih
    exact ⟨_, (runsBy_char hc).append hg⟩
  | @brace c text hc _ ih =>
    obtain ⟨g, hg⟩ := ih
    have hpiece : RunsBy args locale [c, c] ((Piece.brace c).run args locale 0) := by
      change RunsBy args locale (Piece.brace c).source _
      apply runsBy_piece
      · apply List.cons_ne_nil
      · apply Piece.read_brace hc
    exact ⟨_, hpiece.append hg⟩
  | @field id spec text hid hspec _ ih =>
    obtain ⟨g, hg⟩ := ih
    have hpiece : RunsBy args locale (Piece.field id spec).source
        ((Piece.field id spec).run args locale 0) := by
      apply runsBy_piece _ (Piece.read_field hid hspec)
      cases spec <;> apply List.cons_ne_nil
    exact ⟨_, hpiece.append hg⟩

/-- A template in front of any text: the whole is run, as far as any sink can tell, like the
template and then, if this succeeds, the text, from the numbering that the template leaves and
with its errors moved by the length of the template. -/
theorem into_runFrom_append {t₁ : List Char} (h : IsTemplate t₁) (t₂ : List Char)
    (args : Arguments H) (locale : Locale) (numbering : Numbering) (sink : Sink)
    (world : World H) :
  ((Template.read (t₁ ++ t₂)).runFrom args locale numbering).into sink world =
    Formatter.into (do
      let after ← (Template.read t₁).runFrom args locale numbering
      ((Template.read t₂).runFrom args locale after).mapError (·.shift (byteLength t₁)))
    sink world
  := by
  obtain ⟨f, hf⟩ : ∃ f, RunsBy args locale t₁ f := exists_runsBy h
  apply Formatter.SameOutput.into_eq
  simp only [Template.mapError_shift]
  apply (hf t₂ numbering).trans
  apply Formatter.SameOutput.bind (hf.runText numbering).symm
  intro after
  apply Formatter.SameOutput.refl

end BraceFormat
