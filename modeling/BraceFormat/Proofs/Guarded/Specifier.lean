import BraceFormat.Proofs.Guarded.ArgId
import BraceFormat.Proofs.Specifier.Reading

/-!
# Guarded reading of specifiers

A specifier is read by a place that moves over its text. Whatever the text is, the place stays
between two characters, so no guard is breached, and the specifier is the one that
`Specifier.read` gives (`specifier?_eq`).
-/

namespace BraceFormat.Guarded

open Utf8

/-- The character at a place of a text, if the text goes so far. -/
def next? (text : List Char) (place : Nat) : Option (Option Char) := do
  let rest ← textFrom? text place
  return rest.head?

/-- Passes a character if it is the one at a place of a text. -/
def eat? (c : Char) (text : List Char) (place : Nat) : Option (Bool × Nat) := do
  let next ← next? text place
  if next = some c then return (true, place + c.utf8Size) else return (false, place)

/-- Reads the width or precision at a place of a text, if there is one. -/
def count? (text : List Char) (place : Nat) (numbering : Numbering) :
    Option (Except FormatError (Option Count × Nat) × Numbering) :=
  if (peek text place).any Char.isDigit then do
    match ← number? (countLimit + 1) 0 ((encode text).drop place) with
    | some (n, size) => return (.ok (some (.literal n), place + size), numbering)
    | none => return (.error (.located .invalidSpecifier place), numbering)
  else if peek text place = some '{' then do
    match ← closedId? text (place + 1) with
    | .error inner => return (.error (.located .invalidSpecifier inner), numbering)
    | .ok (id, stop) =>
      match numbering.resolve id with
      | .error kind => return (.error (.located kind place), numbering)
      | .ok (reference, numbering) =>
        return (.ok (some (.argument reference place), stop), numbering)
  else return (.ok (none, place), numbering)

/-- Reads the point and the precision at a place of a text, if there is a point. -/
def precision? (text : List Char) (place : Nat) (numbering : Numbering) :
    Option (Except FormatError (Option Count × Nat) × Numbering) := do
  let (point, stop) ← eat? '.' text place
  if point then
    match ← count? text stop numbering with
    | (.ok (none, _), numbering) => return (.error (.located .invalidSpecifier place), numbering)
    | outcome => return outcome
  else return (.ok (none, place), numbering)

/-- Reads the type at a place of a text, after which nothing may follow. -/
def presentation? (text : List Char) (place : Nat) :
    Option (Except FormatError (Option Presentation)) := do
  match ← next? text place with
  | none => return .ok none
  | some c =>
    if ¬(c.isAlpha || c = '%') then return .error (.located .invalidSpecifier place)
    else if place + 1 ≠ byteLength text then
      return .error (.located .invalidSpecifier (place + 1))
    else
      match Presentation.ofChar? c with
      | some presentation => return .ok (some presentation)
      | none => return .error (.located .unsupportedPresentation place)

/-- The place behind a fill and an alignment. -/
def alignStop (fill : Option Char) (align : Option Align) : Nat :=
  match fill, align with
  | some fill, _ => fill.utf8Size + 1
  | none, some _ => 1
  | none, none => 0

/-- Reads a text as a specifier. The fill and the alignment are its first characters, which
no guard is needed for. -/
def specifier? (text : List Char) (numbering : Numbering) :
    Option (Except FormatError Specifier × Numbering) :=
  match Specifier.readAlign text with
  | .error e => some (.error e, numbering)
  | .ok ((fill, align), _) => do
    let atSign := alignStop fill align
    let sign := (← next? text atSign).bind Sign.ofChar?
    let atAlternate := if sign.isSome then atSign + 1 else atSign
    let (alternate, atZero) ← eat? '#' text atAlternate
    let (zero, atWidth) ← eat? '0' text atZero
    if zero ∧ fill.isSome then return (.error (.located .invalidSpecifier atZero), numbering)
    else
      match ← count? text atWidth numbering with
      | (.error e, numbering) => return (.error e, numbering)
      | (.ok (width, atPoint), numbering) =>
        match ← precision? text atPoint numbering with
        | (.error e, numbering) => return (.error e, numbering)
        | (.ok (precision, atType), numbering) =>
          match ← presentation? text atType with
          | .error e => return (.error e, numbering)
          | .ok presentation =>
            let places : Places := {
              align := match fill with | some c => c.utf8Size | none => 0
              sign := if sign.isSome then atSign else 0
              alternate := atAlternate
              zero := atZero
              precision := atPoint
              presentation := atType }
            let spec : Specifier :=
              { fill, align, sign, alternate, zero, width, precision, presentation, places }
            return (.ok spec, numbering)

/-! ### Parts of a specifier -/

variable {text rest after : List Char} {place : Nat}

/-- The place of what follows in a text is told by its length. -/
theorem At.place_eq (h : At text place rest) :
  byteLength text - byteLength rest = place
  := by
  rw [← h.add_byteLength, Nat.add_sub_cancel]

/-- What follows a part of a text has a place between characters. -/
theorem At.of_append {part : List Char} (h : At text place (part ++ rest)) :
  At text (byteLength text - byteLength rest) rest
  := by
  rw [h.advance.place_eq]
  apply h.advance

theorem next?_eq (h : At text place rest) :
  next? text place = some rest.head?
  := by
  rw [next?, h.textFrom?_eq]
  rfl

/-- A flag is passed at a place as from there on. -/
theorem eat?_eq {c : Char} {set : Bool} (h : At text place rest)
    (hread : Specifier.readFlag c rest = (set, after)) :
  eat? c text place = some (set, byteLength text - byteLength after) ∧
    At text (byteLength text - byteLength after) after
  := by
  obtain ⟨rfl, hstops⟩ := Specifier.source_of_readFlag hread
  have hafter := h.of_append
  refine ⟨?_, hafter⟩
  rw [h.advance.place_eq, eat?, next?_eq h]
  cases set with
  | true => exact if_pos rfl
  | false =>
    have hne : after.head? ≠ some c := by
      intro hhead
      have hc := hstops rfl c hhead
      simp at hc
    exact if_neg hne

/-- What reading a part of a text gives, with the place of what follows it. -/
def placed {α : Type} (text : List Char) (outcome : Except FormatError (α × List Char)) :
    Except FormatError (α × Nat) :=
  outcome.map fun (a, rest) => (a, byteLength text - byteLength rest)

/-- A width or precision is read at a place as from there on. -/
theorem count?_eq {numbering : Numbering} (h : At text place rest) :
  count? text place numbering =
    some ((Specifier.readCount place rest numbering).map (placed text) id)
  := by
  have hdigit := h.any_peek bytewise_isDigit
  have hbrace := h.peek_eq_some_iff (c := '{') (by decide)
  simp only [count?, hdigit, hbrace]
  cases rest with
  | nil =>
    simp only [Specifier.readCount, placed, Prod.map, Except.map, h.place_eq]
    rfl
  | cons c rest =>
    simp only [List.head?_cons, Option.any_some, Option.some_inj]
    by_cases hc : c = '{'
    · obtain rfl := hc
      have hid : At text (place + 1) rest := h.advance_char
      rw [if_neg (by decide), if_pos rfl, closedId?_eq hid, Specifier.readCount]
      rcases hread : ArgId.readClosed rest with inner | ⟨id, after⟩
      · rfl
      · obtain ⟨rfl, _⟩ := ArgId.source_of_readClosed hread
        have hplace := hid.advance.advance_char.place_eq
        simp only [Option.bind_eq_bind, Option.bind_some, closedOutcome]
        rcases numbering.resolve id with kind | ⟨reference, numbering⟩
        · rfl
        · simp only [placed, Prod.map, Except.map, hplace]
          rfl
    · rw [Specifier.readCount.eq_3 _ _ _ _ hc]
      by_cases hc' : c.isDigit = true
      · have hrun : At text place
            ((c :: rest.takeWhile Char.isDigit) ++ rest.dropWhile Char.isDigit) := h.run_cons
        have hplace := hrun.advance.place_eq
        rw [if_pos hc', if_pos hc', number?_eq (by decide) h, List.takeWhile_cons_of_pos hc']
        simp only [Option.bind_eq_bind, Option.bind_some, Nat.lt_succ_iff]
        by_cases hlimit :
            Nat.ofDigitChars 10 (c :: rest.takeWhile Char.isDigit) 0 ≤ countLimit
        · simp only [if_pos hlimit, placed, Prod.map, Except.map, hplace]
          rfl
        · simp only [if_neg hlimit]
          rfl
      · rw [if_neg hc', if_neg hc, if_neg hc']
        simp only [placed, Prod.map, Except.map, h.place_eq]
        rfl

/-- A precision is read at a place as from there on. -/
theorem precision?_eq {numbering : Numbering} (h : At text place rest) :
  precision? text place numbering =
    some ((Specifier.readPrecision place rest numbering).map (placed text) id)
  := by
  have hnone (hstops : Stops (· = '.') rest) : precision? text place numbering =
      some (.ok (none, byteLength text - byteLength rest), numbering) := by
    obtain ⟨heat, _⟩ := eat?_eq h (Specifier.readFlag_of_stops hstops)
    rw [precision?, heat, h.place_eq]
    rfl
  cases rest with
  | nil => apply hnone Stops.nil
  | cons c rest =>
    by_cases hc : c = '.'
    · obtain rfl := hc
      obtain ⟨heat, hafter⟩ := eat?_eq h (Specifier.readFlag_self '.' rest)
      have hplace : byteLength text - byteLength rest = place + 1 := h.advance_char.place_eq
      rw [hplace] at heat hafter
      rw [precision?, heat, Specifier.readPrecision]
      simp only [Option.bind_eq_bind, Option.bind_some, if_true, count?_eq hafter]
      rcases Specifier.readCount (place + 1) rest numbering with ⟨e | ⟨_ | count, after⟩, numbering⟩
      · rfl
      · rfl
      · rfl
    · rw [hnone (Stops.cons (by simpa using hc)), Specifier.readPrecision.eq_2]
      · rfl
      · intro rest heq
        cases heq
        exact hc rfl

/-- The characters that may stand for a type take one byte. -/
theorem utf8Size_of_isAlpha_or_percent {c : Char} (h : (c.isAlpha || c = '%') = true) :
  c.utf8Size = 1
  := by
  apply utf8Size_of_ascii
  rw [Bool.or_eq_true, decide_eq_true_eq] at h
  rcases h with h | rfl
  · apply toNat_lt_of_isNameRest
    simp only [ArgId.isNameRest, Char.isAlphanum, h, Bool.true_or]
  · decide

/-- A type is read at a place as from there on. -/
theorem presentation?_eq (h : At text place rest) :
  presentation? text place = some (Specifier.readPresentation place rest)
  := by
  rw [presentation?, next?_eq h]
  cases rest with
  | nil => rfl
  | cons c rest =>
    rw [Specifier.readPresentation]
    simp only [Option.bind_eq_bind, Option.bind_some, List.head?_cons]
    by_cases hc : (c.isAlpha || c = '%') = true
    · have hend : place + 1 ≠ byteLength text ↔ rest ≠ [] := by
        have hbytes := h.advance_char.add_byteLength
        rw [utf8Size_of_isAlpha_or_percent hc] at hbytes
        cases rest with
        | nil => simpa using hbytes
        | cons d rest =>
          have hpos := d.utf8Size_pos
          rw [byteLength_cons] at hbytes
          simp only [ne_eq, reduceCtorEq, not_false_eq_true, iff_true]
          omega
      rw [if_neg (not_not_intro hc), if_neg (not_not_intro hc)]
      simp only [hend]
      split
      · rfl
      · rcases Presentation.ofChar? c with _ | presentation
        · rfl
        · rfl
    · rw [if_pos hc, if_pos hc]
      rfl

/-- Behind a fill and an alignment is their place. -/
theorem at_alignStop {fill : Option Char} {align : Option Align}
    (h : Specifier.readAlign text = .ok ((fill, align), rest)) :
  At text (alignStop fill align) rest
  := by
  obtain ⟨htext, hfill⟩ := Specifier.source_of_readAlign h
  refine ⟨_, htext, ?_⟩
  have hletter (align : Align) : align.letter.utf8Size = 1 := by
    cases align <;> rfl
  rcases fill with _ | c <;> rcases align with _ | align
  · rfl
  · exact hletter align
  · cases (hfill c rfl).2.2 rfl
  · exact congrArg (c.utf8Size + ·) (hletter align)

/-- A sign is read at a place as from there on. -/
theorem sign_eq {sign : Option Sign} (h : At text place rest)
    (hread : Specifier.readSign rest = (sign, after)) :
  rest.head?.bind Sign.ofChar? = sign ∧
    At text (if sign.isSome then place + 1 else place) after
  := by
  cases rest with
  | nil =>
    cases hread
    exact ⟨rfl, h⟩
  | cons c rest =>
    rw [Specifier.readSign] at hread
    split at hread <;> cases hread
    · next sign hc =>
      refine ⟨hc, ?_⟩
      have hletter : c.utf8Size = 1 := by
        rw [Sign.ofChar?_eq_some_iff.mp hc]
        cases sign <;> rfl
      rw [← hletter]
      exact h.advance_char
    · next hc => exact ⟨hc, h⟩

/-! ### Specifiers -/

/-- No guard is breached in reading a text as a specifier. -/
theorem specifier?_eq (text : List Char) (numbering : Numbering) :
  specifier? text numbering = some (Specifier.read text numbering)
  := by
  rw [specifier?, Specifier.read]
  rcases hAlign : Specifier.readAlign text with e | ⟨⟨fill, align⟩, atSign⟩
  · rfl
  have hatSign := at_alignStop hAlign
  rcases hSign : Specifier.readSign atSign with ⟨sign, atAlternate⟩
  obtain ⟨hsign, hatAlternate⟩ := sign_eq hatSign hSign
  rcases hAlternate : Specifier.readFlag '#' atAlternate with ⟨alternate, atZero⟩
  obtain ⟨hsharp, hatZero⟩ := eat?_eq hatAlternate hAlternate
  rcases hZero : Specifier.readFlag '0' atZero with ⟨zero, atWidth⟩
  obtain ⟨hzero, hatWidth⟩ := eat?_eq hatZero hZero
  simp only [Option.bind_eq_bind, Option.bind_some, next?_eq hatSign, hsign, hsharp, hSign,
    hAlternate, hZero, hzero, count?_eq hatWidth, hatSign.place_eq, hatAlternate.place_eq]
  split
  · rfl
  rcases hWidth : Specifier.readCount _ atWidth numbering with ⟨e | ⟨width, atPoint⟩, numbering⟩
  · rfl
  obtain ⟨written, _, rfl, _⟩ := Specifier.source_of_readCount hWidth
  have hatPoint := hatWidth.of_append
  simp only [Prod.map, placed, Except.map, id, precision?_eq hatPoint, Option.bind_some]
  rcases hPrecision : Specifier.readPrecision _ atPoint numbering with
    ⟨e | ⟨precision, atType⟩, numbering⟩
  · rfl
  obtain ⟨written, _, rfl⟩ := Specifier.source_of_readPrecision hPrecision
  have hatType := hatPoint.of_append
  simp only [presentation?_eq hatType, Option.bind_some]
  rcases Specifier.readPresentation _ atType with e | presentation
  · rfl
  · rfl

end BraceFormat.Guarded
