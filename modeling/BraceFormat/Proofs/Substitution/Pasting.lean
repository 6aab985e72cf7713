import BraceFormat.Proofs.ArgId
import BraceFormat.Substitution
import Mathlib.Data.List.TakeWhile
import Mathlib.Tactic.Use

/-!
# Pasting numerals into a specifier

`Pastes` relates a specifier to the text in which the numerals of the arguments have taken the
place of its references, character by character from left to right. This is what
`Substitution.read` finds (`Substitution.exists_read_iff`), however the text between the
references is cut into parts. What holds of all specifiers is proved reference by reference
(`SpecParts.induction`).
-/

namespace BraceFormat

variable {H : Host}

/-- A text has no opening brace. -/
def ReferenceFree (text : List Char) : Prop := ∀ c ∈ text, c ≠ '{'

theorem referenceFree_nil :
  ReferenceFree []
  := List.forall_mem_nil _

/-- A specifier, read from one numbering, becomes a text when numerals are put in the place of
its references, and leaves another numbering. -/
inductive Pastes (args : Arguments H) :
    Numbering → List Char → List Char → Numbering → Prop
  | nil {numbering : Numbering} : Pastes args numbering [] [] numbering
  | char {c : Char} {spec text : List Char} {numbering after : Numbering} (hc : c ≠ '{')
      (h : Pastes args numbering spec text after) :
      Pastes args numbering (c :: spec) (c :: text) after
  | count {id : ArgId} {reference : Reference} {n : Nat} {spec text : List Char}
      {numbering next after : Numbering} (hid : id.WellFormed)
      (hresolve : numbering.resolve id = .ok (reference, next))
      (hcount : args.count? reference = some n) (h : Pastes args next spec text after) :
      Pastes args numbering ('{' :: id.source ++ '}' :: spec) (Nat.toDigits 10 n ++ text) after

namespace Pastes

variable {args : Arguments H} {numbering next after : Numbering}

/-- Text without references stays. -/
theorem literal {text : List Char} (h : ReferenceFree text) :
  Pastes args numbering text text numbering
  := by
  induction text with
  | nil => apply nil
  | cons c text ih =>
    apply char (h c (.head _))
    apply ih fun d hd => h d (.tail _ hd)

/-- One specifier after another. -/
theorem append {spec text spec' text' : List Char} (h : Pastes args numbering spec text next)
    (h' : Pastes args next spec' text' after) :
  Pastes args numbering (spec ++ spec') (text ++ text') after
  := by
  induction h with
  | nil => apply h'
  | char hc _ ih =>
    apply char hc
    apply ih h'
  | count hid hresolve hcount _ ih =>
    rw [List.append_assoc, List.append_assoc]
    apply count hid hresolve hcount
    apply ih h'

end Pastes

/-! ### The parts of a specifier -/

namespace SpecParts

/-- The parts with a character put in front of the first one, which is text. -/
def prepend (c : Char) : SpecParts → SpecParts
  | ⟨.literal text :: parts, fault⟩ =>
    ⟨.literal (c :: text) :: parts, fault.map (c.utf8Size + ·)⟩
  | spec => spec

/-- A text without references is one part. -/
theorem read_literal {text : List Char} (h : ReferenceFree text) :
  read text = ⟨[.literal text], none⟩
  := by
  have hdrop : text.dropWhile (· ≠ '{') = [] :=
    List.dropWhile_eq_nil_iff.mpr fun c hc => decide_eq_true (h c hc)
  rw [read]
  split
  · rfl
  · next h' =>
    rw [hdrop] at h'
    cases h'

theorem read_nil :
  read [] = ⟨[.literal []], none⟩
  := read_literal nofun

/-- A text with an opening brace is what is in front of it and a reference. -/
theorem read_brace {front : List Char} (hfront : ReferenceFree front) (rest : List Char) :
  read (front ++ '{' :: rest) = cons (.literal front)
    (match ArgId.readClosed rest with
      | .error place => ⟨[], some (1 + place)⟩
      | .ok (id, after) => (read after).cons (.reference id))
  := by
  have hpass : ∀ c ∈ front, decide (c ≠ '{') = true := fun c hc => decide_eq_true (hfront c hc)
  have hstops : Stops (· ≠ '{') ('{' :: rest) := Stops.cons rfl
  have htake := takeWhile_append_of_stops hpass hstops
  have hdrop := dropWhile_append_of_stops hpass hstops
  rw [read]
  split
  · next h' =>
    rw [hdrop] at h'
    cases h'
  · next h' =>
    rw [hdrop] at h'
    cases h'
    rw [htake]
    congr 1
    split
    · next hid => rw [hid]
    · next hid => rw [hid]

/-- The first reference is at fault if it is ill-formed. -/
theorem read_fault {front rest : List Char} {inner : Nat} (hfront : ReferenceFree front)
    (h : ArgId.readClosed rest = .error inner) :
  read (front ++ '{' :: rest) = cons (.literal front) ⟨[], some (1 + inner)⟩
  := by
  rw [read_brace hfront, h]

/-- The first reference is a part of its own. -/
theorem read_append_reference {front : List Char} {id : ArgId} (hfront : ReferenceFree front)
    (hid : id.WellFormed) (rest : List Char) :
  read (front ++ '{' :: (id.source ++ '}' :: rest)) =
    ((read rest).cons (.reference id)).cons (.literal front)
  := by
  rw [read_brace hfront, ArgId.readClosed_source hid]

/-- A reference at the head stands behind text that is empty. -/
theorem read_reference {id : ArgId} (hid : id.WellFormed) (text : List Char) :
  read ('{' :: id.source ++ '}' :: text) =
    ((read text).cons (.reference id)).cons (.literal [])
  := read_append_reference referenceFree_nil hid text

/-- A property of texts holds of all of them if it holds of those without references, of those
whose first reference is ill-formed, and of those with a first reference if it holds of what
follows. -/
@[elab_as_elim]
theorem induction {motive : List Char → Prop}
    (literal : ∀ text : List Char, ReferenceFree text → motive text)
    (fault : ∀ (front rest : List Char) (inner : Nat), ReferenceFree front →
      ArgId.readClosed rest = .error inner → motive (front ++ '{' :: rest))
    (reference : ∀ (front : List Char) (id : ArgId) (rest : List Char), ReferenceFree front →
      id.WellFormed → motive rest → motive (front ++ '{' :: (id.source ++ '}' :: rest)))
    (text : List Char) :
  motive text
  := by
  -- What follows a reference is shorter, however many characters the reference takes.
  induction hlength : text.length using Nat.strongRecOn generalizing text with
  | _ length ih =>
  have htext := List.takeWhile_append_dropWhile (p := (· ≠ '{')) (l := text)
  have hfront : ReferenceFree (text.takeWhile (· ≠ '{')) :=
    fun _ hc => of_decide_eq_true (mem_takeWhile hc)
  have hstops := stops_dropWhile (· ≠ '{') text
  rcases hdrop : text.dropWhile (· ≠ '{') with _ | ⟨c, rest⟩
  · rw [hdrop, List.append_nil] at htext
    rw [htext] at hfront
    apply literal text hfront
  · rw [hdrop] at htext hstops
    obtain rfl : c = '{' := by simpa using hstops c rfl
    rw [← htext] at hlength ⊢
    rcases hid : ArgId.readClosed rest with inner | ⟨id, behind⟩
    · apply fault _ rest inner hfront hid
    · obtain ⟨rfl, hwf⟩ := ArgId.source_of_readClosed hid
      have hshort : behind.length < length := by
        rw [← hlength]
        simp only [List.length_append, List.length_cons]
        omega
      apply reference _ id behind hfront hwf (ih _ hshort behind rfl)

/-- The first part is text. -/
theorem read_eq_literal (text : List Char) :
  ∃ first parts fault, read text = ⟨.literal first :: parts, fault⟩
  := by
  induction text using SpecParts.induction with
  | literal text h => exact ⟨_, _, _, read_literal h⟩
  | fault front rest inner hfront hid => exact ⟨_, _, _, read_fault hfront hid⟩
  | reference front id rest hfront hid => exact ⟨_, _, _, read_append_reference hfront hid rest⟩

/-- A character that is no opening brace belongs to the text in front. -/
theorem read_char {c : Char} (hc : c ≠ '{') (text : List Char) :
  read (c :: text) = (read text).prepend c
  := by
  have hcons {front : List Char} (hfront : ReferenceFree front) : ReferenceFree (c :: front) :=
    List.forall_mem_cons.mpr ⟨hc, hfront⟩
  have hprepend (front : List Char) (spec : SpecParts) :
      spec.cons (.literal (c :: front)) = (spec.cons (.literal front)).prepend c := by
    rw [cons, cons, prepend, Option.map_map]
    congr 2
    funext place
    simp only [SpecPart.source, byteLength_cons, Nat.add_assoc, Function.comp_apply]
  induction text using SpecParts.induction with
  | literal text h =>
    rw [read_literal h, read_literal (hcons h)]
    rfl
  | fault front rest inner hfront hid =>
    rw [← List.cons_append, read_fault hfront hid, read_fault (hcons hfront) hid, hprepend]
  | reference front id rest hfront hid =>
    rw [← List.cons_append, read_append_reference hfront hid,
      read_append_reference (hcons hfront) hid, hprepend]

end SpecParts

/-! ### Replacing the parts -/

namespace Substitution

variable {args : Arguments H} {numbering after : Numbering} {parts : Substitution}

/-- Text is kept, and what follows it is replaced. -/
theorem ofParts_literal_iff {place : Nat} {text : List Char} {spec : List SpecPart} :
  ofParts args place (.literal text :: spec) numbering = (.ok parts, after) ↔
    ∃ rest, parts = .literal text :: rest ∧
      ofParts args (place + byteLength text) spec numbering = (.ok rest, after)
  := by
  rw [ofParts]
  rcases ofParts args (place + byteLength text) spec numbering with ⟨e | rest, next⟩
  · constructor
    · rintro ⟨⟩
    · rintro ⟨rest, _, ⟨⟩⟩
  · constructor
    · rintro ⟨⟩
      exact ⟨rest, rfl, rfl⟩
    · rintro ⟨_, rfl, ⟨⟩⟩
      rfl

/-- A reference is replaced if its argument supplies a number, and then what follows it is. -/
theorem ofParts_reference_iff {place : Nat} {id : ArgId} {spec : List SpecPart} :
  ofParts args place (.reference id :: spec) numbering = (.ok parts, after) ↔
    ∃ reference next n rest, numbering.resolve id = .ok (reference, next) ∧
      args.count? reference = some n ∧ parts = .count id n :: rest ∧
      ofParts args (place + byteLength (SpecPart.reference id).source) spec next =
        (.ok rest, after)
  := by
  rw [ofParts]
  constructor
  · intro h
    split at h
    · cases h
    · next reference next hresolve =>
      split at h
      · cases h
      · next n hcount =>
        dsimp only at h
        rcases hrest : ofParts args (place + byteLength (SpecPart.reference id).source) spec next
          with ⟨e | rest, last⟩
        · rw [hrest] at h
          cases h
        · rw [hrest] at h
          cases h
          exact ⟨reference, next, n, rest, hresolve, hcount, rfl, hrest⟩
  · rintro ⟨reference, next, n, rest, hresolve, hcount, rfl, hrest⟩
    simp only [hresolve, hcount, hrest]
    rfl

/-- Where some parts start does not matter unless a replacement fails. -/
theorem ofParts_of_place {spec : List SpecPart} {place : Nat} (place' : Nat)
    (h : ofParts args place spec numbering = (.ok parts, after)) :
  ofParts args place' spec numbering = (.ok parts, after)
  := by
  induction spec generalizing place place' numbering parts with
  | nil => apply h
  | cons part spec ih =>
    cases part with
    | literal text =>
      obtain ⟨rest, rfl, hrest⟩ := ofParts_literal_iff.mp h
      apply ofParts_literal_iff.mpr
      exact ⟨rest, rfl, ih _ hrest⟩
    | reference id =>
      obtain ⟨reference, next, n, rest, hresolve, hcount, rfl, hrest⟩ :=
        ofParts_reference_iff.mp h
      apply ofParts_reference_iff.mpr
      exact ⟨reference, next, n, rest, hresolve, hcount, rfl, ih _ hrest⟩

/-- The references of a specifier are replaced if there is no fault and each part is. -/
theorem read_iff {spec : List Char} :
  read args spec numbering = (.ok parts, after) ↔
    (SpecParts.read spec).fault = none ∧
      ofParts args 0 (SpecParts.read spec).parts numbering = (.ok parts, after)
  := by
  rw [read]
  rcases SpecParts.read spec with ⟨spec, fault⟩
  dsimp only
  rcases ofParts args 0 spec numbering with ⟨e | rest, next⟩
  · cases fault <;> simp
  · cases fault <;> simp

/-- A character that is no opening brace is kept in front of the others. -/
theorem exists_read_char_iff {c : Char} (hc : c ≠ '{') {spec text : List Char} :
  (∃ parts, read args (c :: spec) numbering = (.ok parts, after) ∧ Substitution.text parts = text) ↔
    ∃ rest parts, text = c :: rest ∧ read args spec numbering = (.ok parts, after) ∧
      Substitution.text parts = rest
  := by
  obtain ⟨first, parts, fault, h⟩ := SpecParts.read_eq_literal spec
  simp only [read_iff, SpecParts.read_char hc, h, SpecParts.prepend, Option.map_eq_none_iff,
    ofParts_literal_iff]
  constructor
  · rintro ⟨_, ⟨hfault, rest, rfl, hrest⟩, rfl⟩
    refine ⟨_, .literal first :: rest, ?_, ⟨hfault, rest, rfl, ofParts_of_place _ hrest⟩, rfl⟩
    rfl
  · rintro ⟨_, _, rfl, ⟨hfault, rest, rfl, hrest⟩, rfl⟩
    exact ⟨.literal (c :: first) :: rest, ⟨hfault, rest, rfl, ofParts_of_place _ hrest⟩, rfl⟩

/-- A reference is replaced in front of what follows it. -/
theorem exists_read_reference_iff {id : ArgId} (hid : id.WellFormed) {spec text : List Char} :
  (∃ parts, read args ('{' :: id.source ++ '}' :: spec) numbering = (.ok parts, after) ∧
      Substitution.text parts = text) ↔
    ∃ reference next n rest parts, numbering.resolve id = .ok (reference, next) ∧
      args.count? reference = some n ∧ text = Nat.toDigits 10 n ++ rest ∧
      read args spec next = (.ok parts, after) ∧ Substitution.text parts = rest
  := by
  simp only [read_iff, SpecParts.read_reference hid, SpecParts.cons, Option.map_eq_none_iff,
    ofParts_literal_iff, ofParts_reference_iff]
  constructor
  · rintro ⟨_, ⟨hfault, _, rfl, reference, next, n, rest, hresolve, hcount, rfl, hrest⟩, rfl⟩
    exact ⟨reference, next, n, _, rest, hresolve, hcount, rfl,
      ⟨hfault, ofParts_of_place _ hrest⟩, rfl⟩
  · rintro ⟨reference, next, n, _, rest, hresolve, hcount, rfl, ⟨hfault, hrest⟩, rfl⟩
    exact ⟨.literal [] :: .count id n :: rest, ⟨hfault, _, rfl, reference, next, n, rest,
      hresolve, hcount, rfl, ofParts_of_place _ hrest⟩, rfl⟩

/-- The references of a specifier can be replaced just if numerals can be pasted for them, and
the text is then the pasted one. -/
theorem exists_read_iff {spec text : List Char} :
  (∃ parts, read args spec numbering = (.ok parts, after) ∧ Substitution.text parts = text) ↔
    Pastes args numbering spec text after
  := by
  constructor
  · induction spec using SpecParts.induction generalizing text numbering with
    | literal spec hspec =>
      rintro ⟨parts, hread, rfl⟩
      rw [read_iff, SpecParts.read_literal hspec, ofParts_literal_iff] at hread
      obtain ⟨_, rest, rfl, hrest⟩ := hread
      cases hrest
      rw [show Substitution.text [.literal spec] = spec from List.flatMap_singleton ..]
      apply Pastes.literal hspec
    | fault front rest inner hfront hid =>
      rintro ⟨parts, hread, rfl⟩
      rw [read_iff, SpecParts.read_fault hfront hid] at hread
      cases hread.1
    | reference front id rest hfront hid ih =>
      rintro ⟨parts, hread, rfl⟩
      rw [read_iff, SpecParts.read_append_reference hfront hid, SpecParts.cons, SpecParts.cons,
        Option.map_eq_none_iff, Option.map_eq_none_iff, ofParts_literal_iff] at hread
      obtain ⟨hfault, _, rfl, hread⟩ := hread
      obtain ⟨reference, next, n, behind, hresolve, hcount, rfl, hbehind⟩ :=
        ofParts_reference_iff.mp hread
      have hrest := ih ⟨behind, read_iff.mpr ⟨hfault, ofParts_of_place 0 hbehind⟩, rfl⟩
      exact (Pastes.literal hfront).append (.count hid hresolve hcount hrest)
  · intro h
    induction h with
    | nil =>
      use [.literal []]
      rw [read_iff, SpecParts.read_nil]
      exact ⟨⟨rfl, rfl⟩, rfl⟩
    | char hc _ ih =>
      obtain ⟨parts, hread, rfl⟩ := ih
      apply (exists_read_char_iff hc).mpr
      exact ⟨_, parts, rfl, hread, rfl⟩
    | count hid hresolve hcount _ ih =>
      obtain ⟨parts, hread, rfl⟩ := ih
      apply (exists_read_reference_iff hid).mpr
      exact ⟨_, _, _, _, parts, hresolve, hcount, rfl, hread, rfl⟩

end Substitution

/-- A specifier becomes one text only, and leaves one numbering. -/
theorem Pastes.iff {args : Arguments H} {numbering after next : Numbering}
    {spec text other : List Char} (h : Pastes args numbering spec text after) :
  Pastes args numbering spec other next ↔ other = text ∧ next = after
  := by
  constructor
  · intro hother
    obtain ⟨parts, hread, rfl⟩ := Substitution.exists_read_iff.mpr h
    obtain ⟨parts', hread', rfl⟩ := Substitution.exists_read_iff.mpr hother
    rw [hread] at hread'
    cases hread'
    exact ⟨rfl, rfl⟩
  · rintro ⟨rfl, rfl⟩
    exact h

end BraceFormat
