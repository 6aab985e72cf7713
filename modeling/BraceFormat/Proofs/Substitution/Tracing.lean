import BraceFormat.Proofs.Except
import BraceFormat.Proofs.Number.Radix
import BraceFormat.Proofs.Numbering
import BraceFormat.Proofs.Specifier.ReferenceFree
import Mathlib.Order.Monotone.Basic

/-!
# Replacing references and tracing places back

The references of a specifier are replaced from left to right, each by the decimal numeral of the
number that its argument supplies; the first one for which this cannot be done is reported. A
place in the replaced text comes from the reference in whose numeral it lies, or from the same
place of the same character (`Substitution.read_traces`).
-/

namespace BraceFormat

open Guarded

variable {H : Host}

/-- An argument supplies a number as a width or precision: it is an integer in their range. -/
def Arguments.Supplies (args : Arguments H) (reference : Reference) (n : Nat) : Prop :=
  (args.lookup reference).integer? = some (n : Int) ∧ n ≤ 2147483647

theorem Arguments.count?_eq_some_iff {args : Arguments H} {reference : Reference} {n : Nat} :
  args.count? reference = some n ↔ args.Supplies reference n
  := by
  rw [count?, Option.filter_eq_some_iff, Argument.count?, decide_eq_true_iff, Supplies]
  apply and_congr_left'
  rcases (args.lookup reference).integer? with _ | m
  · simp
  · simp only [Option.bind_some, Option.some.injEq]
    split
    · rw [Option.some.injEq]
      omega
    · constructor
      · rintro ⟨⟩
      · rintro rfl
        omega

namespace Substitution

/-! ### Replaced references -/

/-- Each reference among some parts is numbered in turn, and its argument supplies the number that
takes its place. -/
inductive Supplied (args : Arguments H) : Numbering → Substitution → Numbering → Prop
  | nil {numbering : Numbering} : Supplied args numbering [] numbering
  | literal {text : List Char} {parts : Substitution} {numbering after : Numbering}
      (htext : ReferenceFree text) (h : Supplied args numbering parts after) :
      Supplied args numbering (.literal text :: parts) after
  | count {id : ArgId} {reference : Reference} {n : Nat} {parts : Substitution}
      {numbering next after : Numbering} (hid : id.WellFormed)
      (hresolve : numbering.resolve id = .ok (reference, next))
      (hcount : args.Supplies reference n) (h : Supplied args next parts after) :
      Supplied args numbering (.count id n :: parts) after

/-- What follows an opening brace at byte `place` cannot be replaced: it is no reference, or one
that is in conflict with the numbering, or its argument supplies no number. -/
inductive Refused (args : Arguments H) (numbering : Numbering) (place : Nat) (rest : List Char) :
    FormatError → Prop
  | malformed {inner : Nat} (hrest : ∀ id : ArgId, id.WellFormed → ¬id.source ++ ['}'] <+: rest)
      (hinner : ArgId.readClosed rest = .error inner) :
      Refused args numbering place rest (.located .invalidSpecifier (place + 1 + inner))
  | conflict {id : ArgId} (hid : id.WellFormed) (hrest : id.source ++ ['}'] <+: rest)
      (hresolve : numbering.resolve id = .error .indexingConflict) :
      Refused args numbering place rest (.located .indexingConflict place)
  | unusable {id : ArgId} {reference : Reference} {next : Numbering} (hid : id.WellFormed)
      (hrest : id.source ++ ['}'] <+: rest)
      (hresolve : numbering.resolve id = .ok (reference, next))
      (hcount : ∀ n, ¬args.Supplies reference n) :
      Refused args numbering place rest (.located .invalidSpecifier place)

/-- An offset of the replaced text comes from an offset of the written one: within a numeral, from
the opening brace of its reference, and within a character, from the same place of this
character. -/
inductive Origin : Substitution → Nat → Nat → Prop
  | numeral (front : Substitution) (id : ArgId) (n : Nat) (back : Substitution) {k : Nat}
      (hk : k < byteLength (Replaced.count id n).text) :
      Origin (front ++ .count id n :: back) (byteLength front.text + k) (byteLength front.source)
  | character (front : Substitution) (s : List Char) (c : Char) (t : List Char)
      (back : Substitution) {k : Nat} (hk : k < c.utf8Size) :
      Origin (front ++ .literal (s ++ c :: t) :: back) (byteLength (front.text ++ s) + k)
        (byteLength (front.source ++ s) + k)

/-! ### Texts of parts -/

@[simp] theorem text_cons (part : Replaced) (parts : Substitution) :
  text (part :: parts) = part.text ++ text parts
  := List.flatMap_cons

@[simp] theorem text_append (front back : Substitution) :
  text (front ++ back) = text front ++ text back
  := List.flatMap_append

@[simp] theorem source_cons (part : Replaced) (parts : Substitution) :
  source (part :: parts) = part.source ++ source parts
  := List.flatMap_cons

/-- Without an opening brace there is nothing to replace. -/
theorem Supplied.text_eq {args : Arguments H} {numbering after : Numbering} {parts : Substitution}
    (h : Supplied args numbering parts after) (hbrace : ReferenceFree parts.source) :
  parts.text = parts.source
  := by
  induction h with
  | nil => rfl
  | literal _ _ ih =>
    rw [source_cons] at hbrace
    rw [text_cons, source_cons, ih fun c hc => hbrace c (List.mem_append_right _ hc)]
    rfl
  | count => cases hbrace '{' (.head _) rfl

end Substitution

/-! ### Tracing offsets back -/

/-- The offset within the source of a part that an offset within its text comes from. -/
def Replaced.origin : Replaced → Nat → Nat
  | .literal _, offset => offset
  | .count _ _, _ => 0

theorem Replaced.origin_mono (part : Replaced) :
  Monotone part.origin
  := by
  intro a b hab
  cases part with
  | literal text => exact hab
  | count id n => exact Nat.le_refl 0

theorem Replaced.origin_le (part : Replaced) {offset : Nat} (h : offset < byteLength part.text) :
  part.origin offset ≤ byteLength part.source
  := by
  cases part with
  | literal text => exact Nat.le_of_lt h
  | count id n => exact Nat.zero_le _

namespace Substitution

theorem writtenOffset_cons (part : Replaced) (parts : Substitution) (offset : Nat) :
  writtenOffset (part :: parts) offset =
    if offset < byteLength part.text then part.origin offset
    else byteLength part.source + writtenOffset parts (offset - byteLength part.text)
  := by
  cases part <;> rfl

theorem writtenOffset_mono (parts : Substitution) :
  Monotone parts.writtenOffset
  := by
  induction parts with
  | nil => exact monotone_id
  | cons part parts ih =>
    intro a b hab
    rw [writtenOffset_cons, writtenOffset_cons]
    split
    · next ha =>
      split
      · apply part.origin_mono hab
      · exact (part.origin_le ha).trans (Nat.le_add_right _ _)
    · next ha =>
      rw [if_neg (by omega)]
      apply Nat.add_le_add_left (ih (Nat.sub_le_sub_right hab _)) _

/-- An offset behind some parts comes from behind their source. -/
theorem writtenOffset_append (front back : Substitution) (k : Nat) :
  writtenOffset (front ++ back) (byteLength front.text + k) =
    byteLength front.source + back.writtenOffset k
  := by
  induction front with
  | nil =>
    simp only [List.nil_append, text, source, List.flatMap_nil, byteLength_nil, Nat.zero_add]
  | cons part front ih =>
    have hsub : byteLength part.text + byteLength (text front) + k - byteLength part.text =
        byteLength (text front) + k := by omega
    rw [List.cons_append, writtenOffset_cons, text_cons, source_cons, byteLength_append,
      byteLength_append, if_neg (by omega), hsub, ih, Nat.add_assoc]

theorem writtenOffset_length (parts : Substitution) :
  parts.writtenOffset (byteLength parts.text) = byteLength parts.source
  := by
  have h := writtenOffset_append parts [] 0
  rwa [List.append_nil] at h

/-- What comes from some parts comes from behind a part in front of them. -/
theorem Origin.cons {parts : Substitution} {offset origin : Nat} (h : Origin parts offset origin)
    (part : Replaced) :
  Origin (part :: parts) (byteLength part.text + offset) (byteLength part.source + origin)
  := by
  cases h with
  | numeral front id n back hk =>
    have h := Origin.numeral (part :: front) id n back hk
    simpa [Nat.add_assoc] using h
  | character front s c t back hk =>
    have h := Origin.character (part :: front) s c t back hk
    simpa [Nat.add_assoc] using h

/-- Every offset within a text is within one of its characters. -/
theorem exists_char_of_lt {text : List Char} {offset : Nat} (h : offset < byteLength text) :
  ∃ s c t k, text = s ++ c :: t ∧ offset = byteLength s + k ∧ k < c.utf8Size
  := by
  induction text generalizing offset with
  | nil => cases h
  | cons c text ih =>
    by_cases hc : offset < c.utf8Size
    · exact ⟨[], c, text, offset, rfl, (Nat.zero_add _).symm, hc⟩
    · rw [byteLength_cons] at h
      have hrest : offset - c.utf8Size < byteLength text := by omega
      obtain ⟨s, d, t, k, rfl, hk, hd⟩ := ih hrest
      refine ⟨c :: s, d, t, k, rfl, ?_, hd⟩
      rw [byteLength_cons]
      omega

/-- An offset within the replaced text comes from the one that it is traced back to. -/
theorem origin_iff {parts : Substitution} {offset origin : Nat} :
  Origin parts offset origin ↔
    offset < byteLength parts.text ∧ parts.writtenOffset offset = origin
  := by
  constructor
  · intro h
    cases h with
    | @numeral front id n back k hk =>
      constructor
      · simp only [text_append, text_cons, byteLength_append]
        omega
      · rw [writtenOffset_append, writtenOffset_cons, if_pos hk]
        rfl
    | @character front s c t back k hk =>
      have hk' : byteLength s + k < byteLength (Replaced.literal (s ++ c :: t)).text := by
        simp only [Replaced.text, byteLength_append, byteLength_cons]
        omega
      rw [byteLength_append, byteLength_append, Nat.add_assoc, Nat.add_assoc]
      constructor
      · simp only [text_append, text_cons, byteLength_append]
        omega
      · rw [writtenOffset_append, writtenOffset_cons, if_pos hk']
        rfl
  · rintro ⟨hlt, rfl⟩
    induction parts generalizing offset with
    | nil => cases hlt
    | cons part parts ih =>
      rw [text_cons, byteLength_append] at hlt
      rw [writtenOffset_cons]
      split
      · next hpart =>
        cases part with
        | literal text =>
          obtain ⟨s, c, t, k, rfl, rfl, hk⟩ := exists_char_of_lt hpart
          apply Origin.character [] s c t parts hk
        | count id n =>
          have h := Origin.numeral [] id n parts hpart
          rwa [← Nat.zero_add offset]
      · next hpart =>
        have hrest : offset - byteLength part.text < byteLength (text parts) := by omega
        have h := (ih hrest).cons part
        rwa [Nat.add_sub_cancel' (by omega)] at h

/-! ### Reading a specifier -/

variable {args : Arguments H} {numbering after : Numbering} {rest : List Char} {place : Nat}

/-- Whatever is read has its references replaced in turn. -/
theorem supplied_of_readAt {parts : Substitution}
    (h : readAt args place rest numbering = (.ok parts, after)) :
  Supplied args numbering parts after
  := by
  induction rest using SpecParts.induction generalizing place numbering parts with
  | literal rest hrest =>
    rw [readAt_literal hrest] at h
    cases h
    exact .literal hrest .nil
  | fault front rest inner hfront hid =>
    rw [readAt_fault hfront hid] at h
    cases h
  | reference front id rest hfront hid ih =>
    rw [readAt_reference hfront hid] at h
    dsimp only at h
    split at h
    · cases h
    next reference next hresolve =>
    split at h
    · cases h
    next n hcount =>
    rcases hrest : readAt args _ rest next with ⟨e | back, last⟩
    · rw [hrest] at h
      cases h
    · rw [hrest] at h
      cases h
      exact .literal hfront
        (.count hid hresolve (Arguments.count?_eq_some_iff.mp hcount) (ih hrest))

/-- A reference that can be written is read from the text that begins with it. -/
theorem prefix_iff_readClosed {id : ArgId} (hid : id.WellFormed) :
  id.source ++ ['}'] <+: rest ↔ ∃ behind, ArgId.readClosed rest = .ok (id, behind)
  := by
  constructor
  · rintro ⟨behind, rfl⟩
    rw [List.append_assoc]
    exact ⟨behind, ArgId.readClosed_source hid behind⟩
  · rintro ⟨behind, h⟩
    obtain ⟨rfl, _⟩ := ArgId.source_of_readClosed h
    exact ⟨behind, List.append_assoc _ _ _⟩

theorem refused_of_error {inner : Nat} (h : ArgId.readClosed rest = .error inner) :
  Refused args numbering place rest (.located .invalidSpecifier (place + 1 + inner))
  := by
  apply Refused.malformed _ h
  intro id hid hprefix
  obtain ⟨_, hok⟩ := (prefix_iff_readClosed hid).mp hprefix
  rw [h] at hok
  cases hok

/-- What is not read fails at the first reference that cannot be replaced. -/
theorem exists_refused_of_readAt {e : FormatError}
    (h : (readAt args place rest numbering).1 = .error e) :
  ∃ parts next behind, rest = source parts ++ '{' :: behind ∧
    Supplied args numbering parts next ∧
    Refused args next (place + byteLength (source parts)) behind e
  := by
  have hhere {front rest : List Char} {e : FormatError} {place : Nat} {numbering : Numbering}
      (hfront : ReferenceFree front)
      (h : Refused args numbering (place + byteLength front) rest e) :
      ∃ parts next behind, front ++ '{' :: rest = source parts ++ '{' :: behind ∧
        Supplied args numbering parts next ∧
        Refused args next (place + byteLength (source parts)) behind e := by
    have hsource : source [.literal front] = front := List.flatMap_singleton ..
    refine ⟨[.literal front], numbering, rest, by rw [hsource], .literal hfront .nil, ?_⟩
    rwa [hsource]
  induction rest using SpecParts.induction generalizing place numbering with
  | literal rest hrest =>
    rw [readAt_literal hrest] at h
    cases h
  | fault front rest inner hfront hid =>
    rw [readAt_fault hfront hid] at h
    cases h
    apply hhere hfront (refused_of_error hid)
  | reference front id rest hfront hid ih =>
    have hprefix : id.source ++ ['}'] <+: id.source ++ '}' :: rest :=
      (prefix_iff_readClosed hid).mpr ⟨rest, ArgId.readClosed_source hid rest⟩
    rw [readAt_reference hfront hid] at h
    dsimp only at h
    split at h
    · next kind hresolve =>
      cases h
      obtain rfl := Numbering.eq_indexingConflict_of_resolve hresolve
      apply hhere hfront (.conflict hid hprefix hresolve)
    next reference next hresolve =>
    split at h
    · next hcount =>
      cases h
      apply hhere hfront (.unusable hid hprefix hresolve _)
      intro n hn
      rw [Arguments.count?_eq_some_iff.mpr hn] at hcount
      cases hcount
    next n hcount =>
    obtain ⟨parts, last, behind, rfl, hparts, hrefused⟩ := ih (map_eq_error_iff.mp h)
    refine ⟨.literal front :: .count id n :: parts, last, behind, ?_,
      .literal hfront (.count hid hresolve (Arguments.count?_eq_some_iff.mp hcount) hparts), ?_⟩
    · simp [Replaced.source, SpecPart.source]
    · rw [source_cons, source_cons, byteLength_append, byteLength_append, ← Nat.add_assoc,
        ← Nat.add_assoc]
      apply hrefused

/-- Text in front of a specifier moves its errors. -/
theorem readAt_append_error_iff {front : List Char} (hfront : ReferenceFree front)
    {e : FormatError} :
  (readAt args place (front ++ rest) numbering).1 = .error e ↔
    (readAt args (place + byteLength front) rest numbering).1 = .error e
  := by
  have happend {inner : List Char} (hinner : ReferenceFree inner) :
      ReferenceFree (front ++ inner) := List.forall_mem_append.mpr ⟨hfront, hinner⟩
  induction rest using SpecParts.induction with
  | literal rest hrest =>
    rw [readAt_literal hrest, readAt_literal (happend hrest)]
    constructor <;> rintro ⟨⟩
  | fault inner rest fault hinner hid =>
    rw [← List.append_assoc, readAt_fault hinner hid, readAt_fault (happend hinner) hid,
      byteLength_append, ← Nat.add_assoc]
  | reference inner id rest hinner hid =>
    rw [← List.append_assoc, readAt_reference hinner hid, readAt_reference (happend hinner) hid,
      byteLength_append, ← Nat.add_assoc]
    dsimp only
    rcases numbering.resolve id with kind | ⟨reference, next⟩
    · apply Iff.rfl
    · dsimp only
      rcases args.count? reference with _ | n
      · apply Iff.rfl
      · apply map_eq_error_iff.trans map_eq_error_iff.symm

/-- What cannot be replaced is an error. -/
theorem readAt_of_refused {behind : List Char} {e : FormatError}
    (h : Refused args numbering place behind e) :
  (readAt args place ('{' :: behind) numbering).1 = .error e
  := by
  cases h with
  | malformed _ hinner =>
    rw [← List.nil_append ('{' :: behind), readAt_fault referenceFree_nil hinner]
    rfl
  | @conflict id hid hprefix hresolve =>
    obtain ⟨rest, rfl⟩ := hprefix
    rw [List.append_assoc]
    change (readAt args place ([] ++ '{' :: (id.source ++ '}' :: rest)) numbering).1 = _
    rw [readAt_reference referenceFree_nil hid, hresolve]
    rfl
  | @unusable id reference next hid hprefix hresolve hcount =>
    obtain ⟨rest, rfl⟩ := hprefix
    have hnone : args.count? reference = none := by
      apply Option.eq_none_iff_forall_ne_some.mpr
      intro n hn
      apply hcount n (Arguments.count?_eq_some_iff.mp hn)
    rw [List.append_assoc]
    change (readAt args place ([] ++ '{' :: (id.source ++ '}' :: rest)) numbering).1 = _
    rw [readAt_reference referenceFree_nil hid, hresolve]
    simp only [hnone]
    rfl

/-- The first reference that cannot be replaced is an error, behind those that are replaced. -/
theorem readAt_of_supplied {parts : Substitution} {behind : List Char} {e : FormatError}
    (h : Supplied args numbering parts after)
    (hrefused : Refused args after (place + byteLength parts.source) behind e) :
  (readAt args place (parts.source ++ '{' :: behind) numbering).1 = .error e
  := by
  induction h generalizing place with
  | nil => exact readAt_of_refused hrefused
  | @literal text parts numbering after htext h ih =>
    rw [source_cons, byteLength_append, ← Nat.add_assoc] at hrefused
    rw [source_cons, List.append_assoc]
    exact (readAt_append_error_iff htext).mpr (ih hrefused)
  | @count id reference n parts numbering next after hid hresolve hcount h ih =>
    rw [source_cons, byteLength_append, ← Nat.add_assoc] at hrefused
    have hcons : source (.count id n :: parts) ++ '{' :: behind =
        [] ++ '{' :: (id.source ++ '}' :: (parts.source ++ '{' :: behind)) := by
      simp [Replaced.source, SpecPart.source]
    rw [hcons, readAt_reference referenceFree_nil hid, hresolve]
    simp only [Arguments.count?_eq_some_iff.mpr hcount]
    apply map_eq_error_iff.mpr (ih hrefused)

/-- Replacing the references of a specifier gives parts of it, where a reference becomes the
numeral of the number that its argument supplies. Their text is the one that pasting these
numerals gives, and no other one; a specifier without references is the replaced text. Offsets in
this text are traced back in their order, its end to the end of the specifier and every other one
to the offset that it comes from. References are not replaced just if one of them cannot be, and
the error is that of the first one. -/
theorem read_traces (args : Arguments H) (spec : List Char) (numbering : Numbering) :
  (∀ parts after, read args spec numbering = (.ok parts, after) →
    parts.source = spec ∧ Supplied args numbering parts after ∧
    (∀ text next, Pastes args numbering spec text next ↔ text = parts.text ∧ next = after) ∧
    (∀ id n, .count id n ∈ parts → Radix.decimal.IsNumeral n (Replaced.count id n).text) ∧
    (ReferenceFree spec → parts.text = spec) ∧
    Monotone parts.writtenOffset ∧
    parts.writtenOffset (byteLength parts.text) = byteLength spec ∧
    ∀ offset origin, Origin parts offset origin ↔
      offset < byteLength parts.text ∧ parts.writtenOffset offset = origin) ∧
  ∀ e, (read args spec numbering).1 = .error e ↔
    ∃ parts next behind, spec = source parts ++ '{' :: behind ∧
      Supplied args numbering parts next ∧
      Refused args next (byteLength (source parts)) behind e
  := by
  constructor
  · intro parts after h
    have hsource := source_of_read h
    have hsupplied : Supplied args numbering parts after := by
      rw [← readAt_zero] at h
      apply supplied_of_readAt h
    have hpastes : Pastes args numbering spec parts.text after :=
      exists_read_iff.mp ⟨parts, h, rfl⟩
    refine ⟨hsource, hsupplied, fun _ _ => hpastes.iff, ?_, ?_, parts.writtenOffset_mono, ?_, ?_⟩
    · intro id n _
      apply Radix.isNumeral_decimal n
    · intro hspec
      rw [← hsource] at hspec ⊢
      apply hsupplied.text_eq hspec
    · rw [writtenOffset_length, hsource]
    · intro offset origin
      apply origin_iff
  · intro e
    rw [← readAt_zero]
    constructor
    · intro h
      obtain ⟨parts, next, behind, hspec, hsupplied, hrefused⟩ := exists_refused_of_readAt h
      rw [Nat.zero_add] at hrefused
      exact ⟨parts, next, behind, hspec, hsupplied, hrefused⟩
    · rintro ⟨parts, next, behind, rfl, hsupplied, hrefused⟩
      rw [← Nat.zero_add (byteLength _)] at hrefused
      apply readAt_of_supplied hsupplied hrefused

/-- One numeral is longer than its reference, the next one is shorter. In another specifier the
second reference is in conflict with the first one. -/
theorem read_traces_adjacent :
  let args : Arguments ⟨Unit, Unit⟩ := .ofList [.int32 123, .int32 4]
  let spec := ['{', '}', '{', '}', 'x']
  let parts : Substitution :=
    [.literal [], .count .auto 123, .literal [], .count .auto 4, .literal ['x']]
  let conflicting := ['{', '}', '{', '0', '}']
  read args spec .undecided = (.ok parts, .automatic 2) ∧
    Pastes args .undecided spec ['1', '2', '3', '4', 'x'] (.automatic 2) ∧
    (List.range 6).map parts.writtenOffset = [0, 0, 0, 2, 4, 5] ∧ Origin parts 3 2 ∧
    (read args conflicting .undecided).1 = .error (.located .indexingConflict 2) ∧
    ∃ front next behind, conflicting = source front ++ '{' :: behind ∧
      Supplied args .undecided front next ∧
      Refused args next (byteLength (source front)) behind (.located .indexingConflict 2)
  := by
  intro args spec parts conflicting
  have hauto : ArgId.auto.WellFormed := trivial
  have hliteral : readAt args 4 ['x'] (.automatic 2) = (.ok [.literal ['x']], .automatic 2) :=
    readAt_literal (by simp [ReferenceFree])
  have hsecond : readAt args 2 ['{', '}', 'x'] (.automatic 1) =
      (.ok [.literal [], .count .auto 4, .literal ['x']], .automatic 2) := by
    apply (readAt_reference referenceFree_nil hauto).trans
    change mapOutcome _ (readAt args 4 ['x'] (.automatic 2)) = _
    rw [hliteral]
    rfl
  have hread : read args spec .undecided = (.ok parts, .automatic 2) := by
    rw [← readAt_zero]
    apply (readAt_reference referenceFree_nil hauto).trans
    change mapOutcome _ (readAt args 2 ['{', '}', 'x'] (.automatic 1)) = _
    rw [hsecond]
    rfl
  have hconflict : readAt args 2 ['{', '0', '}'] (.automatic 1) =
      (.error (.located .indexingConflict 2), .automatic 1) := by
    have hid : (ArgId.index 0).WellFormed := Nat.zero_lt_succ _
    apply (readAt_reference referenceFree_nil hid).trans
    rfl
  have herror : (read args conflicting .undecided).1 = .error (.located .indexingConflict 2) := by
    rw [← readAt_zero]
    change (readAt args 0 ([] ++ '{' :: (ArgId.auto.source ++ '}' :: ['{', '0', '}']))
      .undecided).1 = _
    rw [readAt_reference referenceFree_nil hauto]
    change (mapOutcome _ (readAt args 2 ['{', '0', '}'] (.automatic 1))).1 = _
    rw [hconflict]
    rfl
  obtain ⟨_, _, hpastes, _, _, _, _, horigin⟩ :=
    (read_traces args spec .undecided).1 parts _ hread
  exact ⟨hread, (hpastes _ _).mpr ⟨rfl, rfl⟩, by decide, (horigin 3 2).mpr (by decide), herror,
    ((read_traces args conflicting .undecided).2 _).mp herror⟩

end Substitution

end BraceFormat
