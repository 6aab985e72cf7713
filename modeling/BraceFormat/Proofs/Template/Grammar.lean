import BraceFormat.Proofs.ArgId
import BraceFormat.Template

/-!
# The grammar of templates

`IsTemplate` derives the texts in which every brace belongs to a doubled brace or to a
complete field. A piece at the head of such a text is read whatever follows it: brackets that
are `Balanced` never close what encloses them, so no text behind a field can change where its
specifier ends. What holds of all texts is proved piece by piece (`Template.induction`).
-/

namespace BraceFormat

/-- Texts in which braces come in pairs, one within or after another. -/
inductive Balanced : List Char → Prop where
  | nil : Balanced []
  | char {c : Char} {s : List Char} (hc : Piece.isBrace c = false) (hs : Balanced s) :
    Balanced (c :: s)
  | pair {s t : List Char} (hs : Balanced s) (ht : Balanced t) :
    Balanced ('{' :: s ++ '}' :: t)

/-- Texts that are templates: text without braces, doubled braces, and fields with a
well-formed id and a specifier, if any, whose braces come in pairs. -/
inductive IsTemplate : List Char → Prop where
  | nil : IsTemplate []
  | char {c : Char} {text : List Char} (hc : Piece.isBrace c = false) (ht : IsTemplate text) :
    IsTemplate (c :: text)
  | brace {c : Char} {text : List Char} (hc : Piece.isBrace c = true) (ht : IsTemplate text) :
    IsTemplate (c :: c :: text)
  | field {id : ArgId} {spec : Option (List Char)} {text : List Char} (hid : id.WellFormed)
    (hspec : ∀ s ∈ spec, Balanced s) (ht : IsTemplate text) :
    IsTemplate ((Piece.field id spec).source ++ text)

namespace Piece

theorem isBrace_iff {c : Char} :
  isBrace c = true ↔ c = '{' ∨ c = '}'
  := by
  simp [isBrace]

theorem not_isBrace_iff {c : Char} :
  isBrace c = false ↔ c ≠ '{' ∧ c ≠ '}'
  := by
  simp [isBrace]

/-- Balanced text is passed over in search of the closing brace. -/
theorem splitClosing_append {s : List Char} (hs : Balanced s) (depth : Nat) (rest : List Char) :
  splitClosing depth (s ++ rest) =
    (splitClosing depth rest).map fun (spec, after) => (s ++ spec, after)
  := by
  induction hs generalizing depth rest with
  | nil =>
    rw [List.nil_append]
    cases splitClosing depth rest <;> rfl
  | @char c s hc _ ih =>
    obtain ⟨hopen, hclose⟩ := not_isBrace_iff.mp hc
    rw [List.cons_append, splitClosing, if_neg (fun h => hclose h.1), ih, nesting, if_neg hopen,
      if_neg hclose]
    cases splitClosing depth rest <;> rfl
  | @pair s t _ _ ihs iht =>
    have hinner : nesting depth '{' = depth + 1 := rfl
    have houter : nesting (depth + 1) '}' = depth := rfl
    rw [List.append_assoc, List.cons_append, splitClosing, if_neg (by simp), hinner, ihs,
      List.cons_append, splitClosing, if_neg (by simp), houter, iht]
    cases splitClosing depth rest with
    | none => rfl
    | some split => simp

/-- A specifier whose braces come in pairs ends at the closing brace after it. -/
theorem splitClosing_closed {spec : List Char} (hs : Balanced spec) (rest : List Char) :
  splitClosing 0 (spec ++ '}' :: rest) = some (spec, rest)
  := by
  rw [splitClosing_append hs, splitClosing, if_pos ⟨rfl, rfl⟩, Option.map_some]
  simp only [List.append_nil]

/-- A specifier that ends at a closing brace stands in front of it. -/
theorem source_of_splitClosing {depth : Nat} {text spec rest : List Char}
    (h : splitClosing depth text = some (spec, rest)) :
  text = spec ++ '}' :: rest
  := by
  induction text generalizing depth spec with
  | nil => cases h
  | cons c text ih =>
    rw [splitClosing] at h
    split at h
    · next hc =>
      cases h
      rw [hc.1, List.nil_append]
    · obtain ⟨⟨spec, rest⟩, hsplit, heq⟩ := Option.map_eq_some_iff.mp h
      cases heq
      rw [ih hsplit, List.cons_append]

/-- A doubled brace is read whatever follows it. -/
theorem read_brace {c : Char} (hc : isBrace c = true) (rest : List Char) :
  read (c :: c :: rest) = .ok (.brace c, rest)
  := by
  obtain rfl | rfl := isBrace_iff.mp hc
  · rfl
  · rfl

/-- A field is read whatever follows it. -/
theorem read_field {id : ArgId} {spec : Option (List Char)} (hid : id.WellFormed)
    (hspec : ∀ s ∈ spec, Balanced s) (rest : List Char) :
  read ((field id spec).source ++ rest) = .ok (.field id spec, rest)
  := by
  -- What follows the opening brace is not another one, so the brace is not a doubled one.
  have hopen : ∀ after, readField (id.source ++ after) = .ok (.field id spec, rest) →
      Stops ArgId.isNameRest after → (∀ t, after ≠ '{' :: t) →
      read ('{' :: (id.source ++ after)) = .ok (.field id spec, rest) := by
    intro after hread hstops hne
    rw [read]
    · apply hread
    · intro t h
      have hid' := ArgId.read_source hid hstops
      rw [h, ArgId.read_of_stops (Stops.cons (by decide))] at hid'
      cases hid'
      exact hne t rfl
  cases spec with
  | none =>
    have hstops : Stops ArgId.isNameRest ('}' :: rest) := Stops.cons (by decide)
    simp only [source, List.cons_append, List.append_assoc, List.nil_append]
    apply hopen _ _ hstops (by simp)
    simp only [readField, ArgId.read_source hid hstops]
  | some s =>
    have hstops : Stops ArgId.isNameRest (':' :: (s ++ '}' :: rest)) := Stops.cons (by decide)
    simp only [source, List.cons_append, List.append_assoc, List.nil_append]
    apply hopen _ _ hstops (by simp)
    simp only [readField, ArgId.read_source hid hstops, splitClosing_closed (hspec s rfl)]

/-- A field that is read stands in front of what follows. -/
theorem source_of_readField {text rest : List Char} {piece : Piece}
    (h : readField text = .ok (piece, rest)) :
  '{' :: text = piece.source ++ rest
  := by
  rw [readField] at h
  split at h
  · cases h
  · cases h
  · next hid =>
    cases h
    rw [(ArgId.source_of_read hid).1, source]
    simp only [List.cons_append, List.append_assoc, List.nil_append]
  · next hid =>
    split at h <;> cases h
    next hsplit =>
    rw [(ArgId.source_of_read hid).1, source_of_splitClosing hsplit, source]
    simp only [List.cons_append, List.append_assoc, List.nil_append]
  · cases h

/-- A piece that is read stands in front of what follows. -/
theorem source_of_read {text rest : List Char} {piece : Piece}
    (h : read text = .ok (piece, rest)) :
  text = piece.source ++ rest
  := by
  rw [read.eq_def] at h
  split at h
  · cases h
    rfl
  · cases h
    rfl
  · cases h
  · apply source_of_readField h
  · cases h
    rw [source, List.takeWhile_append_dropWhile]

/-- A character that is no brace begins a literal that goes on as far as there is no brace. -/
theorem read_char {c : Char} (hc : isBrace c = false) (rest : List Char) :
  read (c :: rest) =
    .ok (.literal (c :: rest.takeWhile (!isBrace ·)), rest.dropWhile (!isBrace ·))
  := by
  obtain ⟨hopen, hclose⟩ := not_isBrace_iff.mp hc
  have hc' : (fun c => !isBrace c) c = true := by
    change (!isBrace c) = true
    rw [hc]
    rfl
  rw [read]
  · rw [List.takeWhile_cons_of_pos (p := fun c => !isBrace c) hc',
      List.dropWhile_cons_of_pos (p := fun c => !isBrace c) hc']
  all_goals
    intro t h
    cases h
    contradiction

end Piece

namespace Template

theorem read_nil :
  read [] = ⟨[], none⟩
  := by
  rw [read]
  rfl

/-- The template that a text with a piece at its head is. -/
theorem read_of_ok {text rest : List Char} {piece : Piece} (hne : text ≠ [])
    (h : Piece.read text = .ok (piece, rest)) :
  read text = (read rest).cons piece
  := by
  rw [read, dif_neg hne]
  split
  · next h' =>
    rw [h] at h'
    cases h'
  · next h' =>
    rw [h] at h'
    cases h'
    rfl

/-- A text that is one piece is a template of it. -/
theorem read_of_last {text : List Char} {piece : Piece} (hne : text ≠ [])
    (h : Piece.read text = .ok (piece, [])) :
  read text = ⟨[piece], none⟩
  := by
  rw [read_of_ok hne h, read_nil]
  rfl

/-- A text with a fault at its head is no template. -/
theorem read_of_error {text : List Char} {place : Nat} (hne : text ≠ [])
    (h : Piece.read text = .error place) :
  read text = ⟨[], some place⟩
  := by
  rw [read, dif_neg hne]
  split
  · next h' =>
    rw [h] at h'
    cases h'
    rfl
  · next h' =>
    rw [h] at h'
    cases h'

/-- A property of texts holds of all of them if it holds of the empty one, of those with a fault
at their head, and of those with a piece at their head if it holds of what follows. -/
@[elab_as_elim]
theorem induction {motive : List Char → Prop} (nil : motive [])
    (fault : ∀ (text : List Char) (place : Nat), text ≠ [] → Piece.read text = .error place →
      motive text)
    (piece : ∀ (text : List Char) (piece : Piece) (rest : List Char), text ≠ [] →
      Piece.read text = .ok (piece, rest) → motive rest → motive text)
    (text : List Char) :
  motive text
  := by
  -- What follows a piece is shorter, however many characters the piece takes.
  induction hlength : text.length using Nat.strongRecOn generalizing text with
  | _ length ih =>
  by_cases hne : text = []
  · rw [hne]
    apply nil
  · rcases hread : Piece.read text with place | ⟨_, rest⟩
    · apply fault text place hne hread
    · have hshort := length_lt_of_read hne hread
      rw [hlength] at hshort
      apply piece text _ rest hne hread (ih _ hshort rest rfl)

end Template

end BraceFormat
