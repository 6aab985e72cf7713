import BraceFormat.Proofs.Guarded.ArgId
import BraceFormat.Proofs.Template.Grammar

/-!
# Guarded reading of templates

A template is read by a place that moves from piece to piece. Whatever the text is, no guard
is breached, and the template is the one that `Template.read` gives (`template?_eq`).
-/

namespace BraceFormat.Guarded

open Utf8

/-- Searches bytes for the brace that closes what is open, with `depth` pairs opened within
it, and counts the bytes in front of it. -/
def closing? : Nat → List UInt8 → Option (Option Nat)
  | _, [] => some none
  | depth, b :: bytes =>
    if byteChar b = '{' then do
      let outcome ← closing? (depth + 1) bytes
      return outcome.map (1 + ·)
    else if byteChar b = '}' then
      if depth = 0 then some (some 0)
      else do
        let depth ← minus? depth 1
        let outcome ← closing? depth bytes
        return outcome.map (1 + ·)
    else do
      let outcome ← closing? depth bytes
      return outcome.map (1 + ·)

/-- Reads the field whose opening brace is at a place of a text, and gives the place behind
it. Fails with the place at which the field is ill-formed. -/
def field? (text : List Char) (start : Nat) : Option (Except Nat (Piece × Nat)) := do
  match ← argId? text (start + 1) with
  | .error place => return .error place
  | .ok (id, stop) =>
    if peek text stop = some '}' then do
      let _ ← slice? text stop stop
      return .ok (.field id none, stop + 1)
    else if peek text stop = some ':' then do
      let bytes ← bytesFrom? text (stop + 1)
      match ← closing? 0 bytes with
      | some size => do
        let spec ← slice? text (stop + 1) (stop + 1 + size)
        return .ok (.field id (some spec), stop + 1 + size + 1)
      | none => return .error start
    else if (peek text stop).isSome then return .error stop
    else return .error start

/-- Reads the piece at a place of a text, and gives the place behind it. -/
def piece? (text : List Char) (start : Nat) : Option (Except Nat (Piece × Nat)) :=
  if peek text start = some '{' then
    if peek text (start + 1) = some '{' then do
      let _ ← slice? text start (start + 1)
      return .ok (.brace '{', start + 2)
    else field? text start
  else if peek text start = some '}' then
    if peek text (start + 1) = some '}' then do
      let _ ← slice? text start (start + 1)
      return .ok (.brace '}', start + 2)
    else return .error start
  else do
    let stop ← stopFrom? Piece.isBrace text start
    let literal ← slice? text start stop
    return .ok (.literal literal, stop)

/-- Reads a text from a place on, within `fuel` pieces. -/
def templateFrom? (text : List Char) : Nat → Nat → Option Template
  | 0, _ => none
  | fuel + 1, start =>
    if peek text start = none then some ⟨[], none⟩
    else do
      match ← piece? text start with
      | .error place => return ⟨[], some place⟩
      | .ok (piece, stop) => do
        let template ← templateFrom? text fuel stop
        return ⟨piece :: template.pieces, template.fault⟩

/-- Reads a text as a template. Every piece takes a byte at least. -/
def template? (text : List Char) : Option Template :=
  templateFrom? text (byteLength text + 1) 0

/-! ### Pieces -/

variable {text rest : List Char} {start : Nat}

theorem bytewise_isBrace :
  Bytewise Piece.isBrace
  := by
  apply Bytewise.of_ascii
  intro c hc
  obtain rfl | rfl := Piece.isBrace_iff.mp hc
  · decide
  · decide

/-- Bytes that are no braces are passed over. -/
theorem closing?_append {bytes : List UInt8}
    (hbytes : ∀ b ∈ bytes, Piece.isBrace (byteChar b) = false) (depth : Nat)
    (more : List UInt8) :
  closing? depth (bytes ++ more) = (closing? depth more).map (·.map (bytes.length + ·))
  := by
  induction bytes with
  | nil =>
    rw [List.nil_append]
    rcases closing? depth more with _ | _ | size
    · rfl
    · rfl
    · exact congrArg (some ∘ some) (Nat.zero_add size).symm
  | cons b bytes ih =>
    obtain ⟨hopen, hclose⟩ := Piece.not_isBrace_iff.mp (hbytes b (.head _))
    rw [List.cons_append, closing?, if_neg hopen, if_neg hclose,
      ih fun b hb => hbytes b (.tail _ hb)]
    rcases closing? depth more with _ | _ | size
    · rfl
    · rfl
    · have hsize : 1 + (bytes.length + size) = (b :: bytes).length + size := by
        rw [List.length_cons]
        omega
      exact congrArg (some ∘ some) hsize

/-- The closing brace is found where the text is split. -/
theorem closing?_encode (depth : Nat) (text : List Char) :
  closing? depth (encode text) =
    some ((Piece.splitClosing depth text).map fun (spec, _) => byteLength spec)
  := by
  -- A character that is passed over is part of the specifier.
  have hmap (c : Char) (split : Option (List Char × List Char)) :
      (split.map fun (spec, _) => byteLength spec).map (c.utf8Size + ·) =
        (split.map fun (spec, after) => (c :: spec, after)).map fun (spec, _) =>
          byteLength spec := by
    rw [Option.map_map, Option.map_map]
    rfl
  induction text generalizing depth with
  | nil => rfl
  | cons c text ih =>
    rw [encode_cons, Piece.splitClosing]
    by_cases hbrace : Piece.isBrace c = true
    · obtain rfl | rfl := Piece.isBrace_iff.mp hbrace
      · have hbytes : String.utf8EncodeChar '{' = [0x7B] := rfl
        rw [hbytes, List.singleton_append, closing?, if_pos (by rfl), ih, if_neg (by simp), ← hmap]
        rfl
      · have hbytes : String.utf8EncodeChar '}' = [0x7D] := rfl
        rw [hbytes, List.singleton_append, closing?, if_neg (by decide), if_pos (by rfl)]
        by_cases hdepth : depth = 0
        · rw [if_pos hdepth, if_pos ⟨rfl, hdepth⟩]
          rfl
        · rw [if_neg hdepth, if_neg (fun h => hdepth h.2), minus?_eq (Nat.pos_of_ne_zero hdepth),
            ← hmap]
          simp only [Option.bind_eq_bind, Option.bind_some, ih]
          rfl
    · rw [Bool.not_eq_true] at hbrace
      obtain ⟨hopen, hclose⟩ := Piece.not_isBrace_iff.mp hbrace
      rw [closing?_append, ih, String.length_utf8EncodeChar, if_neg (fun h => hclose h.1), ← hmap,
        Piece.nesting, if_neg hopen, if_neg hclose]
      · rfl
      · intro b hb
        rw [bytewise_isBrace.byteChar_eq hb, hbrace]

/-- What reading a piece at a place gives, if reading the text from there on gives an outcome. -/
def pieceOutcome (start : Nat) : Except Nat (Piece × List Char) → Except Nat (Piece × Nat)
  | .error inner => .error (start + inner)
  | .ok (piece, _) => .ok (piece, start + byteLength piece.source)

theorem byteLength_field_none (id : ArgId) :
  byteLength (Piece.field id none).source = 1 + byteLength id.source + 1
  := by
  rw [Piece.source, byteLength_append, byteLength_cons]
  rfl

theorem byteLength_field_some (id : ArgId) (spec : List Char) :
  byteLength (Piece.field id (some spec)).source =
    1 + byteLength id.source + (1 + byteLength spec) + 1
  := by
  simp only [Piece.source, byteLength_append, byteLength_cons]
  rfl

/-- A field is read at a place as from there on. -/
theorem field?_eq (h : At text start ('{' :: rest)) :
  field? text start = some (pieceOutcome start (Piece.readField rest))
  := by
  have hid : At text (start + 1) rest := h.advance_char
  rw [field?, argId?_eq hid, Piece.readField]
  rcases hread : ArgId.read rest with inner | ⟨id, after⟩
  · simp only [Option.bind_eq_bind, Option.bind_some, idOutcome, pieceOutcome, Nat.add_assoc]
    rfl
  · obtain ⟨rfl, _⟩ := ArgId.source_of_read hread
    have hafter := hid.advance
    have hclose := hafter.peek_eq_some_iff (c := '}') (by decide)
    have hcolon := hafter.peek_eq_some_iff (c := ':') (by decide)
    simp only [Option.bind_eq_bind, Option.bind_some, idOutcome, hclose, hcolon]
    rcases after with _ | ⟨c, after⟩
    · rw [hafter.peek_nil]
      rfl
    · have hstop : start + 1 + byteLength id.source + 1 =
          start + byteLength (Piece.field id none).source := by
        rw [byteLength_field_none]
        omega
      simp only [List.head?_cons, Option.some_inj]
      by_cases hc : c = '}'
      · obtain rfl := hc
        simp only [if_true, hafter.slice?_nil, Option.bind_some, hstop]
        rfl
      · rw [if_neg hc]
        by_cases hc' : c = ':'
        · obtain rfl := hc'
          have hspec : At text (start + 1 + byteLength id.source + 1) after := hafter.advance_char
          simp only [if_true, hspec.bytesFrom?_eq, Option.bind_some, closing?_encode]
          rcases hsplit : Piece.splitClosing 0 after with _ | ⟨spec, behind⟩
          · rfl
          · obtain rfl := Piece.source_of_splitClosing hsplit
            have hstop : start + 1 + byteLength id.source + 1 + byteLength spec + 1 =
                start + byteLength (Piece.field id (some spec)).source := by
              rw [byteLength_field_some]
              omega
            simp only [Option.map_some, hspec.slice?_eq, Option.bind_some, hstop]
            rfl
        · rw [if_neg hc', if_pos hafter.isSome_peek_cons]
          split
          · next heq => cases heq
          · next heq => cases heq
          · next heq =>
            cases heq
            contradiction
          · next heq =>
            cases heq
            contradiction
          · next heq =>
            cases heq
            rw [pieceOutcome, Nat.add_assoc]
            rfl

/-- A piece is read at a place as from there on. -/
theorem piece?_eq (hne : rest ≠ []) (h : At text start rest) :
  piece? text start = some (pieceOutcome start (Piece.read rest))
  := by
  obtain ⟨c, rest, rfl⟩ := List.exists_cons_of_ne_nil hne
  have hopen := h.peek_eq_some_iff (c := '{') (by decide)
  have hclose := h.peek_eq_some_iff (c := '}') (by decide)
  rw [List.head?_cons, Option.some_inj] at hopen hclose
  simp only [piece?, hopen, hclose]
  by_cases hbrace : Piece.isBrace c = true
  · obtain rfl | rfl := Piece.isBrace_iff.mp hbrace
    · have hnext : At text (start + 1) rest := h.advance_char
      have hopen' := hnext.peek_eq_some_iff (c := '{') (by decide)
      have hone : slice? text start (start + 1) = some ['{'] := by
        change At text start (['{'] ++ rest) at h
        exact h.slice?_eq
      simp only [if_true, hopen', hone]
      by_cases hhead : rest.head? = some '{'
      · obtain ⟨rest, rfl⟩ := List.head?_eq_some_iff.mp hhead
        rfl
      · rw [if_neg hhead, field?_eq h, Piece.read]
        rintro rest rfl
        exact hhead rfl
    · have hnext : At text (start + 1) rest := h.advance_char
      have hclose' := hnext.peek_eq_some_iff (c := '}') (by decide)
      have hone : slice? text start (start + 1) = some ['}'] := by
        change At text start (['}'] ++ rest) at h
        exact h.slice?_eq
      simp only [hclose', hone]
      by_cases hhead : rest.head? = some '}'
      · obtain ⟨rest, rfl⟩ := List.head?_eq_some_iff.mp hhead
        rfl
      · rw [if_neg (by decide), if_pos trivial, if_neg hhead, Piece.read]
        · rfl
        · rintro rest rfl
          exact hhead rfl
  · rw [Bool.not_eq_true] at hbrace
    obtain ⟨hopen', hclose'⟩ := Piece.not_isBrace_iff.mp hbrace
    have hrun : (c :: rest).takeWhile (!Piece.isBrace ·) =
        c :: rest.takeWhile (!Piece.isBrace ·) := by
      apply List.takeWhile_cons_of_pos
      rw [hbrace]
      rfl
    have hliteral : At text start
        ((c :: rest.takeWhile (!Piece.isBrace ·)) ++ rest.dropWhile (!Piece.isBrace ·)) :=
      h.run_cons
    rw [if_neg hopen', if_neg hclose', h.stopFrom?_eq bytewise_isBrace, hrun,
      Piece.read_char hbrace]
    simp only [Option.bind_eq_bind, Option.bind_some, hliteral.slice?_eq]
    rfl

/-! ### Templates -/

/-- A template is read from a place on as the text from there on, if there is fuel for each of
its characters. -/
theorem templateFrom?_eq {fuel : Nat} (hfuel : rest.length < fuel) (h : At text start rest) :
  templateFrom? text fuel start =
    some ⟨(Template.read rest).pieces, (Template.read rest).fault.map (start + ·)⟩
  := by
  induction fuel generalizing start rest with
  | zero => cases hfuel
  | succ fuel ih =>
    rw [templateFrom?]
    by_cases hne : rest = []
    · obtain rfl := hne
      rw [h.peek_nil, if_pos rfl, Template.read_nil]
      rfl
    · have hpeek : peek text start ≠ none := by
        obtain ⟨c, rest, rfl⟩ := List.exists_cons_of_ne_nil hne
        have hsome := h.isSome_peek_cons
        rw [← Option.isSome_iff_ne_none]
        apply hsome
      rw [if_neg hpeek, piece?_eq hne h]
      rcases hread : Piece.read rest with inner | ⟨piece, after⟩
      · rw [Template.read_of_error hne hread]
        rfl
      · obtain rfl := Piece.source_of_read hread
        have hlength := Template.length_lt_of_read hne hread
        rw [Template.read_of_ok hne hread]
        simp only [Option.bind_eq_bind, Option.bind_some, pieceOutcome]
        rw [ih (by omega) h.advance]
        simp only [Option.bind_some, Template.cons, Option.map_map, Function.comp_def,
          Nat.add_assoc]
        rfl

/-- No guard is breached in reading a text as a template. -/
theorem template?_eq (text : List Char) :
  template? text = some (Template.read text)
  := by
  have hlength : text.length < byteLength text + 1 := by
    apply Nat.lt_succ_of_le
    apply length_le_byteLength
  rw [template?, templateFrom?_eq hlength (At.zero text)]
  simp only [Nat.zero_add, Option.map_id']

end BraceFormat.Guarded
