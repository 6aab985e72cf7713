import BraceFormat.Proofs.Guarded.Digits
import BraceFormat.Proofs.Substitution.Pasting

/-!
# Guarded replacement of references

The references of a specifier are replaced while its text is copied, and it is recorded where
each of them was written and where its numeral stands. Whatever the specifier is, no guard is
breached: the text and the records are those of the parts that `Substitution.read` gives
(`rewrite?_eq`), and every offset is traced back by the records as by the parts
(`writtenOffset?_eq`).
-/

namespace BraceFormat.Guarded

open Utf8

variable {H : Host}

/-- Where a reference was written, and where the numeral that replaces it stands. -/
structure Replacement where
  /-- The opening brace. -/
  brace : Nat
  /-- The end of the reference. -/
  writtenStop : Nat
  /-- The first digit of the numeral. -/
  start : Nat
  /-- The end of the numeral. -/
  stop : Nat
  deriving DecidableEq, Repr

/-- A specifier whose references are replaced. Without references there is no text. -/
structure Rewriting where
  text : List Char
  replaced : List Replacement
  deriving DecidableEq, Repr

/-- Replaces the references of a specifier from a place on, within `fuel` references. What
lies in front of the place is done. -/
def rewriteFrom? (args : Arguments H) (spec : List Char) :
    Nat → Nat → Rewriting → Numbering → Option (Except FormatError Rewriting × Numbering)
  | 0, _, _, _ => none
  | fuel + 1, copied, done, numbering => do
    let bytes ← bytesFrom? spec copied
    match find? (· = '{') bytes with
    | none =>
      if done.replaced = [] then return (.ok done, numbering)
      else
        let rest ← textFrom? spec copied
        return (.ok ⟨done.text ++ rest, done.replaced⟩, numbering)
    | some offset =>
      let brace := copied + offset
      match ← closedId? spec (brace + 1) with
      | .error place => return (.error (.located .invalidSpecifier place), numbering)
      | .ok (id, stop) =>
        match numbering.resolve id with
        | .error kind => return (.error (.located kind brace), numbering)
        | .ok (reference, numbering) =>
          match args.count? reference with
          | none => return (.error (.located .invalidSpecifier brace), numbering)
          | some n =>
            let front ← slice? spec copied brace
            let digits ← digits? 10 false digitSlots n
            let start := byteLength (done.text ++ front)
            let text := done.text ++ front ++ digits
            let replacement : Replacement := ⟨brace, stop, start, byteLength text⟩
            rewriteFrom? args spec fuel stop ⟨text, done.replaced ++ [replacement]⟩ numbering

/-- Replaces the references of a specifier. -/
def rewrite? (args : Arguments H) (spec : List Char) (numbering : Numbering) :
    Option (Except FormatError Rewriting × Numbering) :=
  rewriteFrom? args spec (byteLength spec + 1) 0 ⟨[], []⟩ numbering

/-- The text that a handler sees. -/
def Rewriting.seen (rewriting : Rewriting) (spec : List Char) : List Char :=
  if rewriting.replaced = [] then spec else rewriting.text

/-- Traces an offset back by the replacements that are ahead, behind one that ends at two
places. -/
def writtenOffset? (offset : Nat) : Nat → Nat → List Replacement → Option Nat
  | written, rewritten, [] => do
    let behind ← minus? offset rewritten
    return written + behind
  | written, rewritten, r :: replaced =>
    if offset < r.start then do
      let behind ← minus? offset rewritten
      return written + behind
    else if offset < r.stop then some r.brace
    else writtenOffset? offset r.writtenStop r.stop replaced

/-! ### Reading a specifier from a place on -/

/-- Changes what a reading gives, and not the numbering behind it. -/
def mapOutcome {α β : Type} (f : α → β) (outcome : Except FormatError α × Numbering) :
    Except FormatError β × Numbering :=
  (outcome.1.map f, outcome.2)

/-- Replaces the references of the rest of a specifier, which starts at byte `place`. -/
def readAt (args : Arguments H) (place : Nat) (rest : List Char) (numbering : Numbering) :
    Except FormatError Substitution × Numbering :=
  match Substitution.ofParts args place (SpecParts.read rest).parts numbering,
    (SpecParts.read rest).fault with
  | (.ok _, numbering), some inner =>
    (.error (.located .invalidSpecifier (place + inner)), numbering)
  | outcome, _ => outcome

variable {args : Arguments H} {spec rest : List Char} {place : Nat} {numbering : Numbering}

theorem readAt_zero (args : Arguments H) (spec : List Char) (numbering : Numbering) :
  readAt args 0 spec numbering = Substitution.read args spec numbering
  := by
  rw [readAt, Substitution.read]
  rcases SpecParts.read spec with ⟨parts, fault⟩
  dsimp only
  rcases Substitution.ofParts args 0 parts numbering with ⟨e | replaced, after⟩
  · cases fault <;> rfl
  · cases fault with
    | none => rfl
    | some inner => simp only [Nat.zero_add]

theorem readAt_literal (h : ReferenceFree rest) :
  readAt args place rest numbering = (.ok [.literal rest], numbering)
  := by
  rw [readAt, SpecParts.read_literal h]
  rfl

/-- An ill-formed reference fails at its fault. -/
theorem readAt_fault {front : List Char} {inner : Nat} (hfront : ReferenceFree front)
    (hid : ArgId.readClosed rest = .error inner) :
  readAt args place (front ++ '{' :: rest) numbering =
    (.error (.located .invalidSpecifier (place + byteLength front + 1 + inner)), numbering)
  := by
  rw [readAt, SpecParts.read_fault hfront hid]
  simp only [SpecParts.cons, SpecPart.source, Option.map_some, Nat.add_assoc]
  rfl

/-- A reference is replaced in front of what follows it. -/
theorem readAt_reference {front : List Char} {id : ArgId} (hfront : ReferenceFree front)
    (hid : id.WellFormed) :
  readAt args place (front ++ '{' :: (id.source ++ '}' :: rest)) numbering =
    let brace := place + byteLength front
    match numbering.resolve id with
    | .error kind => (.error (.located kind brace), numbering)
    | .ok (reference, numbering) =>
      match args.count? reference with
      | none => (.error (.located .invalidSpecifier brace), numbering)
      | some n =>
        let stop := brace + byteLength (SpecPart.reference id).source
        mapOutcome (fun parts => .literal front :: .count id n :: parts)
          (readAt args stop rest numbering)
  := by
  rw [readAt, SpecParts.read_append_reference hfront hid]
  simp only [SpecParts.cons, Substitution.ofParts]
  rcases numbering.resolve id with kind | ⟨reference, next⟩
  · cases (SpecParts.read rest).fault <;> rfl
  · dsimp only
    rcases args.count? reference with _ | n
    · cases (SpecParts.read rest).fault <;> rfl
    · dsimp only
      rw [readAt]
      rcases Substitution.ofParts args _ (SpecParts.read rest).parts next with
        ⟨e | parts, last⟩
      · cases (SpecParts.read rest).fault <;> rfl
      · cases (SpecParts.read rest).fault with
        | none => rfl
        | some inner =>
          simp only [Except.map, mapOutcome, Option.map_some, Nat.add_assoc]
          rfl

/-! ### Replacing the references -/

/-- The records of the replacements among some parts, from the places on at which the parts
start in the written text and in the replaced one. -/
def replacements : Nat → Nat → Substitution → List Replacement
  | _, _, [] => []
  | written, rewritten, .literal text :: parts =>
    replacements (written + byteLength text) (rewritten + byteLength text) parts
  | written, rewritten, .count id n :: parts =>
    let stop := written + byteLength (SpecPart.reference id).source
    let rewrittenStop := rewritten + byteLength (Nat.toDigits 10 n)
    ⟨written, stop, rewritten, rewrittenStop⟩ :: replacements stop rewrittenStop parts

/-- The rewriting with some parts behind it, which start at byte `written`. -/
def Rewriting.extend (done : Rewriting) (written : Nat) (parts : Substitution) : Rewriting :=
  let replaced := done.replaced ++ replacements written (byteLength done.text) parts
  if replaced = [] then done else ⟨done.text ++ parts.text, replaced⟩

/-- The rewriting that some parts make. -/
def rewriting (parts : Substitution) : Rewriting := Rewriting.extend ⟨[], []⟩ 0 parts

/-- A replaced reference is recorded in front of the others. -/
theorem Rewriting.extend_count (done : Rewriting) {written stop : Nat} {front : List Char}
    {id : ArgId} {n : Nat}
    (hstop : stop = written + byteLength front + byteLength (SpecPart.reference id).source)
    (parts : Substitution) :
  done.extend written (.literal front :: .count id n :: parts) =
    Rewriting.extend
      ⟨done.text ++ front ++ Nat.toDigits 10 n,
        done.replaced ++ [⟨written + byteLength front, stop, byteLength (done.text ++ front),
          byteLength (done.text ++ front ++ Nat.toDigits 10 n)⟩]⟩
      stop parts
  := by
  rw [extend, extend, if_neg, if_neg, hstop]
  · simp only [replacements, Substitution.text, List.flatMap_cons, Replaced.text,
      byteLength_append, List.append_assoc, List.singleton_append, Nat.add_assoc]
  · simp
  · simp [replacements]

theorem mapOutcome_mapOutcome {α β γ : Type} (g : β → γ) (f : α → β)
    (outcome : Except FormatError α × Numbering) :
  mapOutcome g (mapOutcome f outcome) = mapOutcome (g ∘ f) outcome
  := by
  rcases outcome with ⟨e | a, numbering⟩
  · rfl
  · rfl

/-- The digits of what an argument supplies never overrun the buffer. -/
theorem digits?_of_count? {reference : Reference} {n : Nat}
    (h : args.count? reference = some n) :
  digits? 10 false digitSlots n = some (Nat.toDigits 10 n)
  := by
  rw [Arguments.count?, Option.filter_eq_some_iff] at h
  have hle : n ≤ countLimit := of_decide_eq_true h.2
  apply digits?_lower (by decide) (by decide)
  apply Nat.lt_of_le_of_lt hle
  decide

/-- Characters are searched for an opening brace as bytes are. -/
theorem bytewise_opening :
  Bytewise (· = '{')
  := by
  apply Bytewise.of_ascii
  intro c hc
  rw [of_decide_eq_true hc]
  decide

theorem find?_of_referenceFree {text : List Char} (h : ReferenceFree text) :
  find? (· = '{') (encode text) = none
  := by
  have hdrop : text.dropWhile (· ≠ '{') = [] :=
    List.dropWhile_eq_nil_iff.mpr fun c hc => decide_eq_true (h c hc)
  rw [find?_encode bytewise_opening]
  simp only [← decide_not, hdrop]

theorem find?_append_opening {front : List Char} (hfront : ReferenceFree front)
    (rest : List Char) :
  find? (· = '{') (encode (front ++ '{' :: rest)) = some (byteLength front)
  := by
  have hpass : ∀ c ∈ front, decide (c ≠ '{') = true := fun c hc => decide_eq_true (hfront c hc)
  have hstops : Stops (· ≠ '{') ('{' :: rest) := Stops.cons rfl
  rw [find?_encode bytewise_opening]
  simp only [← decide_not, takeWhile_append_of_stops hpass hstops,
    dropWhile_append_of_stops hpass hstops]

/-- The references are replaced from a place on as in the text from there on. -/
theorem rewriteFrom?_eq {fuel : Nat} {done : Rewriting} (hfuel : rest.length < fuel)
    (h : At spec place rest) :
  rewriteFrom? args spec fuel place done numbering =
    some (mapOutcome (done.extend place) (readAt args place rest numbering))
  := by
  induction rest using SpecParts.induction generalizing fuel place done numbering with
  | literal rest hrest =>
    obtain _ | fuel := fuel
    · cases hfuel
    rw [rewriteFrom?, h.bytesFrom?_eq, readAt_literal hrest, mapOutcome, Except.map,
      Rewriting.extend, replacements, replacements, List.append_nil]
    simp only [Option.bind_eq_bind, Option.bind_some, find?_of_referenceFree hrest]
    by_cases hnone : done.replaced = []
    · rw [if_pos hnone, if_pos hnone]
      rfl
    · rw [if_neg hnone, if_neg hnone, h.textFrom?_eq]
      simp only [Option.bind_some, Substitution.text, List.flatMap_cons, List.flatMap_nil,
        Replaced.text, List.append_nil]
      rfl
  | fault front rest inner hfront hid =>
    obtain _ | fuel := fuel
    · cases hfuel
    have htext : At spec (place + byteLength front + 1) rest := h.advance.advance_char
    rw [rewriteFrom?, h.bytesFrom?_eq, readAt_fault hfront hid]
    simp only [Option.bind_eq_bind, Option.bind_some, find?_append_opening hfront,
      closedId?_eq htext, hid]
    rfl
  | reference front id rest hfront hid ih =>
    obtain _ | fuel := fuel
    · cases hfuel
    have htext : At spec (place + byteLength front + 1) (id.source ++ '}' :: rest) :=
      h.advance.advance_char
    rw [rewriteFrom?, h.bytesFrom?_eq, readAt_reference hfront hid]
    simp only [Option.bind_eq_bind, Option.bind_some, find?_append_opening hfront,
      closedId?_eq htext, ArgId.readClosed_source hid, closedOutcome]
    rcases numbering.resolve id with kind | ⟨reference, next⟩
    · rfl
    · dsimp only
      rcases hcount : args.count? reference with _ | n
      · rfl
      · have hrest : At spec (place + byteLength front + 1 + byteLength id.source + 1) rest :=
          htext.advance.advance_char
        have hstop : place + byteLength front + 1 + byteLength id.source + 1 =
            place + byteLength front + byteLength (SpecPart.reference id).source := by
          rw [SpecPart.source, byteLength_append, byteLength_cons]
          change _ = _ + (1 + byteLength id.source + 1)
          omega
        have hlength : rest.length < fuel := by
          simp only [List.length_append, List.length_cons] at hfuel
          omega
        have hextend :
            done.extend place ∘ (fun parts => .literal front :: .count id n :: parts) =
              Rewriting.extend _ _ := funext (done.extend_count hstop)
        simp only [h.slice?_eq, digits?_of_count? hcount, Option.bind_some]
        rw [ih hlength hrest, mapOutcome_mapOutcome, hextend, ← hstop]

/-- No guard is breached in replacing the references of a specifier. -/
theorem rewrite?_eq (args : Arguments H) (spec : List Char) (numbering : Numbering) :
  rewrite? args spec numbering =
    some (mapOutcome rewriting (Substitution.read args spec numbering))
  := by
  have hfuel : spec.length < byteLength spec + 1 := by
    apply Nat.lt_succ_of_le
    apply length_le_byteLength
  rw [rewrite?, rewriteFrom?_eq hfuel (At.zero spec), readAt_zero]
  rfl

/-! ### What a handler sees -/

theorem replaced_rewriting (parts : Substitution) :
  (rewriting parts).replaced = replacements 0 0 parts
  := by
  rw [rewriting, Rewriting.extend]
  split
  · next h => exact h.symm
  · rfl

/-- Parts that are all text stay as they are written. -/
theorem text_eq_source {parts : Substitution} {written rewritten : Nat}
    (h : replacements written rewritten parts = []) :
  parts.text = parts.source
  := by
  induction parts generalizing written rewritten with
  | nil => rfl
  | cons part parts ih =>
    cases part with
    | literal text => exact congrArg (text ++ ·) (ih h)
    | count id n => cases h

/-- The source of a part is kept when it is replaced. -/
theorem source_of_ofParts {spec : List SpecPart} {parts : Substitution} {after : Numbering}
    (h : Substitution.ofParts args place spec numbering = (.ok parts, after)) :
  parts.source = spec.flatMap SpecPart.source
  := by
  induction spec generalizing place numbering parts with
  | nil =>
    cases h
    rfl
  | cons part spec ih =>
    cases part with
    | literal text =>
      obtain ⟨rest, rfl, hrest⟩ := Substitution.ofParts_literal_iff.mp h
      exact congrArg (text ++ ·) (ih hrest)
    | reference id =>
      obtain ⟨_, _, n, rest, _, _, rfl, hrest⟩ := Substitution.ofParts_reference_iff.mp h
      exact congrArg ((SpecPart.reference id).source ++ ·) (ih hrest)

/-- A specifier without a fault is the text of its parts. -/
theorem source_of_fault {rest : List Char} (h : (SpecParts.read rest).fault = none) :
  (SpecParts.read rest).parts.flatMap SpecPart.source = rest
  := by
  induction rest using SpecParts.induction with
  | literal text htext =>
    rw [SpecParts.read_literal htext, List.flatMap_singleton]
    rfl
  | fault front rest inner hfront hid =>
    rw [SpecParts.read_fault hfront hid] at h
    cases h
  | reference front id rest hfront hid ih =>
    rw [SpecParts.read_append_reference hfront hid] at h ⊢
    have hrest : (SpecParts.read rest).fault = none := by
      simpa only [SpecParts.cons, Option.map_eq_none_iff] using h
    simp only [SpecParts.cons, List.flatMap_cons, SpecPart.source, ih hrest, List.cons_append,
      List.append_assoc, List.nil_append]

/-- The replaced parts are those of the specifier. -/
theorem source_of_read {parts : Substitution} {after : Numbering}
    (h : Substitution.read args spec numbering = (.ok parts, after)) :
  parts.source = spec
  := by
  obtain ⟨hfault, hparts⟩ := Substitution.read_iff.mp h
  rw [source_of_ofParts hparts, source_of_fault hfault]

/-- A handler sees the text of the replaced parts. -/
theorem seen_rewriting {parts : Substitution} {after : Numbering}
    (h : Substitution.read args spec numbering = (.ok parts, after)) :
  (rewriting parts).seen spec = parts.text
  := by
  rw [Rewriting.seen, replaced_rewriting]
  split
  · next hnone => rw [text_eq_source hnone, source_of_read h]
  · next hsome =>
    rw [rewriting, Rewriting.extend]
    exact congrArg Rewriting.text (if_neg hsome)

/-- In front of the first replacement ahead, an offset is as far behind the last one as in the
written text. -/
theorem writtenOffset?_before {offset written rewritten ahead aheadWritten : Nat}
    (hrewritten : rewritten ≤ offset) (hahead : offset < ahead) (parts : Substitution) :
  writtenOffset? offset written rewritten (replacements aheadWritten ahead parts) =
    some (written + (offset - rewritten))
  := by
  induction parts generalizing ahead aheadWritten with
  | nil =>
    rw [replacements, writtenOffset?, minus?_eq hrewritten]
    rfl
  | cons part parts ih =>
    cases part with
    | literal text =>
      rw [replacements]
      apply ih
      omega
    | count id n =>
      rw [replacements, writtenOffset?, if_pos hahead, minus?_eq hrewritten]
      rfl

/-- An offset is traced back by the replacements as by the parts, which start `since` bytes
behind the last replacement. -/
theorem writtenOffset?_replacements {offset : Nat} (written rewritten since : Nat)
    (h : rewritten + since ≤ offset) (parts : Substitution) :
  writtenOffset? offset written rewritten
      (replacements (written + since) (rewritten + since) parts) =
    some (written + since + parts.writtenOffset (offset - (rewritten + since)))
  := by
  induction parts generalizing written rewritten since with
  | nil =>
    rw [replacements, writtenOffset?, minus?_eq (by omega), Substitution.writtenOffset]
    exact congrArg some (by omega)
  | cons part parts ih =>
    cases part with
    | literal text =>
      rw [replacements, Substitution.writtenOffset, Nat.add_assoc, Nat.add_assoc]
      split
      · next hlt =>
        rw [writtenOffset?_before (by omega) (by omega)]
        exact congrArg some (by omega)
      · next hge =>
        rw [ih _ _ _ (by omega), Nat.sub_sub, ← Nat.add_assoc rewritten]
        exact congrArg some (by omega)
    | count id n =>
      let size := byteLength (Nat.toDigits 10 n)
      let sourceSize := byteLength (SpecPart.reference id).source
      have hmodel :
          Substitution.writtenOffset (.count id n :: parts) (offset - (rewritten + since)) =
            if offset - (rewritten + since) < size then 0
            else sourceSize +
              Substitution.writtenOffset parts (offset - (rewritten + since) - size) := rfl
      rw [hmodel]
      simp only [replacements, writtenOffset?]
      rw [if_neg (by omega)]
      by_cases hlt : offset < rewritten + since + size
      · rw [if_pos hlt, if_pos (by omega)]
        rfl
      · have hnext := ih (written + since + sourceSize) (rewritten + since + size) 0 (by omega)
        rw [Nat.add_zero, Nat.add_zero] at hnext
        rw [if_neg hlt, if_neg (by omega), hnext, Nat.sub_sub, Nat.add_assoc _ sourceSize]

/-- Every offset is traced back by the records as by the parts. -/
theorem writtenOffset?_eq (parts : Substitution) (offset : Nat) :
  writtenOffset? offset 0 0 (rewriting parts).replaced = some (parts.writtenOffset offset)
  := by
  have h := writtenOffset?_replacements 0 0 0 (Nat.zero_le offset) parts
  rw [Nat.zero_add, Nat.sub_zero, Nat.zero_add] at h
  rw [replaced_rewriting, h]

end BraceFormat.Guarded
