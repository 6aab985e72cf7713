import BraceFormat.Proofs.Guarded.Sink
import BraceFormat.Proofs.Output.Requests

/-!
# Guarded requests to sinks

What a sink is asked to append is added to its counts under guards. Whenever none is breached, the
sink is left as the requests leave it with counts that have no bound (`Target.of_serveAll?`), and
none is breached as long as the counts stay below `2 ^ 64` (`Target.serveAll?_eq`). A counter
breaches one just if its counts do not (`Target.serveAll?_counting`).

A limit appends nothing itself. It hands a beginning of the text on, in texts that do not depend
on what is behind it (`foldlM_handOn?`), so nothing is breached but by the sink there.
-/

namespace BraceFormat.Guarded

/-- Hands on, to what is behind a limit, as much of a text as passes. -/
def handOn? {σ : Type} (append? : σ → List Char → Option σ) (sink : Limit × σ)
    (text : List Char) : Option (Limit × σ) := do
  let (passed, rest) ← passText? sink.1 text
  let inner ← append? sink.2 passed
  return (rest, inner)

/-- What a counter is after a text, if its counts are of 64 bits then. -/
def counted? (bytes chars : Nat) (text : List Char) : Option Target :=
  if bytes + byteLength text < UInt64.size ∧ chars + text.length < UInt64.size then
    some (.counting (bytes + byteLength text) (chars + text.length))
  else none

namespace Target

/-- Does what a destination is asked for. -/
def serve? (target : Target) : Request → Option Target
  | .append chars => target.append? chars
  | .char c => target.append? [c]
  | .fill c count => target.appendFill? c count
  | .formatted chunks _ => chunks.foldlM append? target

/-- Serves one request after another. -/
def serveAll? (target : Target) (requests : List Request) : Option Target :=
  requests.foldlM serve? target

/-- The number of bytes a destination says it was given. -/
def position : Target → Nat
  | .text chars => byteLength chars
  | .counting bytes _ => bytes
  | .window w => w.total
  | .borrowed inner => inner.position
  | .limited _ inner => inner.position

theorem position_ofSink (sink : Sink) :
  (ofSink sink).position = sink.position
  := by
  induction sink with
  | text | counting | buffer => rfl
  | borrowed inner ih | limited limit inner ih => exact ih

/-- Copies are given one by one. -/
theorem repeat?_eq_foldlM (target : Target) (c : Char) (count : Nat) :
  target.repeat? c count = (List.replicate count [c]).foldlM append? target
  := by
  induction count generalizing target with
  | zero => rfl
  | succ count ih =>
    rw [repeat?, List.replicate_succ, List.foldlM_cons]
    congr 1
    funext target
    apply ih

end Target

/-! ### Steps in sequence -/

/-- What is wrapped up takes step after step as it does without, if it takes one step so. -/
theorem foldlM_wrap {σ τ α : Type} {f : σ → α → Option σ} {g : τ → α → Option τ} {wrap : σ → τ}
    (hstep : ∀ s a, g (wrap s) a = (f s a).map wrap) (items : List α) (s : σ) :
  items.foldlM g (wrap s) = (items.foldlM f s).map wrap
  := by
  induction items generalizing s with
  | nil => rfl
  | cons a items ih =>
    rw [List.foldlM_cons, List.foldlM_cons, hstep]
    cases f s a with
    | none => rfl
    | some s => apply ih

section Steps

variable {α : Type} {step? : Target → α → Option Target} {step : Sink → α → Sink}

/-- Steps that are taken without a breach are those of the sink, if a single one is. -/
theorem of_foldlM
    (hstep : ∀ {sink a target}, step? (.ofSink sink) a = some target →
      target = .ofSink (step sink a))
    {items : List α} {sink : Sink} {target : Target}
    (h : items.foldlM step? (.ofSink sink) = some target) :
  target = .ofSink (items.foldl step sink)
  := by
  induction items generalizing sink with
  | nil => exact (Option.some.inj h).symm
  | cons a items ih =>
    rw [List.foldlM_cons] at h
    obtain ⟨next, hnext, hrest⟩ := Option.bind_eq_some_iff.mp h
    obtain rfl := hstep hnext
    apply ih hrest

/-- Steps that come down to texts are taken without a breach where the texts fit, if a single
one is. -/
theorem foldlM_eq_of_fits {textOf : α → List Char}
    (hstep : ∀ {sink a}, Fits sink (byteLength (textOf a)) →
      step? (.ofSink sink) a = some (.ofSink (step sink a)))
    (happend : ∀ sink a, step sink a = sink.append (textOf a))
    {items : List α} {sink : Sink} (h : Fits sink (byteLength (items.flatMap textOf))) :
  items.foldlM step? (.ofSink sink) = some (.ofSink (items.foldl step sink))
  := by
  induction items generalizing sink with
  | nil => rfl
  | cons a items ih =>
    rw [List.flatMap_cons, byteLength_append] at h
    have hrest : Fits (step sink a) (byteLength (items.flatMap textOf)) := by
      rw [happend]
      apply h.append
    rw [List.foldlM_cons, hstep (h.mono (Nat.le_add_right _ _))]
    apply ih hrest

end Steps

/-- Texts that a step comes down to are taken one by one. -/
theorem foldlM_flatMap {σ α β : Type} (f : σ → β → Option σ) (texts : α → List β)
    (items : List α) (s : σ) :
  (items.flatMap texts).foldlM f s = items.foldlM (fun s a => (texts a).foldlM f s) s
  := by
  induction items generalizing s with
  | nil => rfl
  | cons a items ih =>
    rw [List.flatMap_cons, List.foldlM_append, List.foldlM_cons]
    congr 1
    funext s
    apply ih

/-! ### Counters -/

theorem of_counted? {bytes chars : Nat} {text : List Char} {target : Target}
    (h : counted? bytes chars text = some target) :
  target = .ofSink ((Sink.counting bytes chars).append text)
  := by
  rw [counted?] at h
  split at h
  · exact (Option.some.inj h).symm
  · cases h

/-- Two texts are counted one after the other as they are counted at once. -/
theorem counted?_append {bytes chars : Nat} (s t : List Char) :
  counted? bytes chars (s ++ t) =
    if bytes + byteLength s < UInt64.size ∧ chars + s.length < UInt64.size then
      counted? (bytes + byteLength s) (chars + s.length) t
    else none
  := by
  rw [counted?, byteLength_append, List.length_append, ← Nat.add_assoc, ← Nat.add_assoc]
  split
  · next h => rw [if_pos (by omega), counted?, if_pos h]
  · next h =>
    split
    · rw [counted?, if_neg h]
    · rfl

namespace Target

variable {bytes chars : Nat}

theorem append?_counting (text : List Char) :
  (counting bytes chars).append? text = counted? bytes chars text
  := by
  simp only [append?, counted?, plus?, Option.bind_eq_bind]
  by_cases hbytes : bytes + byteLength text < UInt64.size
  · by_cases hchars : chars + text.length < UInt64.size
    · simp [hbytes, hchars]
    · simp [hbytes, hchars]
  · simp [hbytes]

/-- Copies of a character are counted at once, as the text they make. The number of their bytes
is a product of 64 bits just if it can be counted by a number of 64 bits. -/
theorem appendFill?_counting (c : Char) (count : Nat) :
  (counting bytes chars).appendFill? c count = counted? bytes chars (List.replicate count c)
  := by
  by_cases h : c.utf8Size * count < UInt64.size
  · rw [← append?_counting, append?, appendFill?, times?_eq h, byteLength_replicate,
      List.length_replicate, Nat.mul_comm]
    rfl
  · have hmore : ¬bytes + byteLength (List.replicate count c) < UInt64.size := by
      rw [byteLength_replicate, Nat.mul_comm]
      omega
    rw [appendFill?, times?, if_neg h, counted?, if_neg fun hfits => hmore hfits.1]
    rfl

/-- A counter that counts the text of every step counts that of all steps. -/
theorem foldlM_counting {α : Type} {step? : Target → α → Option Target} {textOf : α → List Char}
    (hstep : ∀ {bytes chars}, bytes < UInt64.size → chars < UInt64.size →
      ∀ a, step? (counting bytes chars) a = counted? bytes chars (textOf a))
    (hbytes : bytes < UInt64.size) (hchars : chars < UInt64.size) (items : List α) :
  items.foldlM step? (counting bytes chars) = counted? bytes chars (items.flatMap textOf)
  := by
  induction items generalizing bytes chars with
  | nil =>
    rw [List.flatMap_nil, counted?, if_pos ⟨hbytes, hchars⟩]
    rfl
  | cons a items ih =>
    rw [List.foldlM_cons, hstep hbytes hchars, List.flatMap_cons, counted?_append, counted?]
    split
    · next h => exact ih h.1 h.2
    · rfl

theorem serve?_counting (hbytes : bytes < UInt64.size) (hchars : chars < UInt64.size)
    (request : Request) :
  (counting bytes chars).serve? request = counted? bytes chars request.text
  := by
  cases request with
  | append text =>
    rw [serve?, append?_counting, Request.text, Request.texts, List.flatten_singleton]
  | char c => apply append?_counting
  | fill c count => rw [serve?, appendFill?_counting, Request.text_fill]
  | formatted chunks failed =>
    rw [serve?, Request.text, ← List.flatMap_id]
    apply foldlM_counting (fun _ _ => append?_counting) hbytes hchars

/-- A counter counts the text of the requests, and breaches a guard just if the counts are no
longer of 64 bits. -/
theorem serveAll?_counting (hbytes : bytes < UInt64.size) (hchars : chars < UInt64.size)
    (requests : List Request) :
  (counting bytes chars).serveAll? requests = counted? bytes chars (requestedText requests)
  := foldlM_counting serve?_counting hbytes hchars requests

end Target

/-! ### Limits -/

/-- No guard is breached at a limit itself. -/
theorem handOn?_eq {σ : Type} (append? : σ → List Char → Option σ) (sink : Limit × σ)
    (text : List Char) :
  handOn? append? sink text =
    (append? sink.2 (sink.1.passText text).1).map ((sink.1.passText text).2, ·)
  := by
  rw [handOn?, passText?_eq]
  exact Option.map_eq_bind.symm

/-- Of texts that come one by one, a limit hands on what passes of their concatenation, in texts
that are the same whatever is behind it. -/
theorem foldlM_handOn? (limit : Limit) (texts : List (List Char)) :
  ∃ passed : List (List Char), passed.flatten = truncated limit texts.flatten ∧
    ∀ (σ : Type) (append? : σ → List Char → Option σ) (inner : σ),
      texts.foldlM (handOn? append?) (limit, inner) =
        (passed.foldlM append? inner).map ((limit.passText texts.flatten).2, ·)
  := by
  induction texts generalizing limit with
  | nil =>
    refine ⟨[], ?_, fun σ append? inner => ?_⟩
    · rw [← Limit.passText_eq_truncated, List.flatten_nil, Limit.passText_nil]
    · rw [List.flatten_nil, Limit.passText_nil]
      rfl
  | cons text texts ih =>
    obtain ⟨passed, hpassed, hfold⟩ := ih (limit.passText text).2
    refine ⟨(limit.passText text).1 :: passed, ?_, fun σ append? inner => ?_⟩
    · rw [List.flatten_cons, List.flatten_cons, hpassed, ← Limit.passText_eq_truncated,
        ← Limit.passText_eq_truncated limit, Limit.passText_append]
    · rw [List.foldlM_cons, List.foldlM_cons, handOn?_eq, List.flatten_cons,
        Limit.passText_append]
      cases append? inner (limit.passText text).1 with
      | none => rfl
      | some inner => apply hfold

namespace Target

/-- A limit appends a text by handing it on. -/
theorem append?_limited (sink : Limit × Target) (text : List Char) :
  (limited sink.1 sink.2).append? text =
    (handOn? append? sink text).map fun sink => limited sink.1 sink.2
  := by
  rw [append?, passText?_eq, handOn?_eq, Option.map_map]
  exact Option.map_eq_bind.symm

/-- A limit serves a request by handing on the texts that this comes down to. -/
theorem serve?_limited (sink : Limit × Target) (request : Request) :
  (limited sink.1 sink.2).serve? request =
    (request.texts.foldlM (handOn? append?) sink).map fun sink => limited sink.1 sink.2
  := by
  rw [← foldlM_wrap append?_limited]
  cases request with
  | append chars | char c => exact (Option.bind_fun_some _).symm
  | fill c count => exact repeat?_eq_foldlM _ c count
  | formatted chunks failed => rfl

/-- A limit serves requests by handing on, in texts that are the same whatever is behind it, what
passes of the text of the requests. -/
theorem exists_serveAll?_limited (limit : Limit) (requests : List Request) :
  ∃ (rest : Limit) (passed : List (List Char)),
    passed.flatten = truncated limit (requestedText requests) ∧
    (∀ inner, (limited limit inner).serveAll? requests =
      (passed.foldlM append? inner).map (limited rest)) ∧
    ∀ (σ : Type) (append? : σ → List Char → Option σ) (inner : σ),
      (requests.flatMap Request.texts).foldlM (handOn? append?) (limit, inner) =
        (passed.foldlM append? inner).map (rest, ·)
  := by
  obtain ⟨passed, hpassed, hfold⟩ := foldlM_handOn? limit (requests.flatMap Request.texts)
  refine ⟨_, passed, ?_, fun inner => ?_, hfold⟩
  · rw [hpassed, flatten_flatMap_texts]
  · rw [serveAll?, foldlM_wrap serve?_limited requests (limit, inner), ← foldlM_flatMap, hfold,
      Option.map_map]
    rfl

/-! ### Sinks -/

/-- A text is appended without a breach as it is appended to the sink. -/
theorem of_append? {sink : Sink} {text : List Char} {target : Target}
    (h : (ofSink sink).append? text = some target) :
  target = ofSink (sink.append text)
  := by
  induction sink generalizing text target with
  | text chars => exact (Option.some.inj h).symm
  | counting bytes chars =>
    rw [ofSink, append?_counting] at h
    apply of_counted? h
  | buffer b =>
    by_cases hfits : b.total + byteLength text < UInt64.size
    · have happend := append?_eq (show Fits (.buffer b) (byteLength text) from hfits)
      rw [happend] at h
      exact (Option.some.inj h).symm
    · rw [ofSink, append?, Window.append?, Window.ofBuffer, plus?, if_neg hfits] at h
      cases h
  | borrowed inner ih =>
    obtain ⟨next, hnext, rfl⟩ := Option.map_eq_some_iff.mp h
    rw [ih hnext]
    rfl
  | limited limit inner ih =>
    rw [ofSink, append?_limited (limit, ofSink inner), handOn?_eq, Option.map_map] at h
    obtain ⟨next, hnext, rfl⟩ := Option.map_eq_some_iff.mp h
    rw [ih hnext]
    rfl

theorem of_repeat? {sink : Sink} {c : Char} {count : Nat} {target : Target}
    (h : (ofSink sink).repeat? c count = some target) :
  target = ofSink (sink.append (List.replicate count c))
  := by
  rw [repeat?_eq_foldlM] at h
  rw [of_foldlM of_append? h, Sink.foldl_append, List.flatten_replicate_singleton]

/-- Copies of a character are appended without a breach as they are appended to the sink. -/
theorem of_appendFill? {sink : Sink} {c : Char} {count : Nat} {target : Target}
    (h : (ofSink sink).appendFill? c count = some target) :
  target = ofSink (sink.appendFill c count)
  := by
  rw [Sink.appendFill_eq_append]
  induction sink generalizing target with
  | text chars =>
    obtain ⟨_, _, hchars⟩ := Option.bind_eq_some_iff.mp h
    exact (Option.some.inj hchars).symm
  | counting bytes chars =>
    rw [ofSink, appendFill?_counting] at h
    apply of_counted? h
  | buffer b => apply of_repeat? h
  | borrowed inner ih =>
    obtain ⟨next, hnext, rfl⟩ := Option.map_eq_some_iff.mp h
    rw [ih hnext]
    rfl
  | limited limit inner _ => apply of_repeat? h

/-- A request is served without a breach as the sink serves it. -/
theorem of_serve? {sink : Sink} {request : Request} {target : Target}
    (h : (ofSink sink).serve? request = some target) :
  target = ofSink (sink.serve request)
  := by
  cases request with
  | append chars => apply of_append? h
  | char c => apply of_append? h
  | fill c count => apply of_appendFill? h
  | formatted chunks failed => apply of_foldlM of_append? h

/-- Requests are served without a breach as the sink serves them. -/
theorem of_serveAll? {sink : Sink} {requests : List Request} {target : Target}
    (h : (ofSink sink).serveAll? requests = some target) :
  target = ofSink (sink.serveAll requests)
  := of_foldlM of_serve? h

theorem serve?_eq {sink : Sink} {request : Request} (h : Fits sink (byteLength request.text)) :
  (ofSink sink).serve? request = some (ofSink (sink.serve request))
  := by
  cases request with
  | append chars =>
    rw [Request.text, Request.texts, List.flatten_singleton] at h
    apply append?_eq h
  | char c => apply append?_eq h
  | fill c count =>
    rw [Request.text_fill, byteLength_replicate] at h
    apply appendFill?_eq h
  | formatted chunks failed =>
    rw [Request.text, ← List.flatMap_id] at h
    apply foldlM_eq_of_fits append?_eq (fun _ _ => rfl) h

/-- No guard is breached by requests that leave the counts of a sink below `2 ^ 64`. -/
theorem serveAll?_eq {sink : Sink} {requests : List Request}
    (h : Fits sink (byteLength (requestedText requests))) :
  (ofSink sink).serveAll? requests = some (ofSink (sink.serveAll requests))
  := foldlM_eq_of_fits serve?_eq Sink.serve_eq_append h

theorem serve?_borrowed (inner : Target) (request : Request) :
  (borrowed inner).serve? request = (inner.serve? request).map borrowed
  := by
  cases request with
  | append chars | char c | fill c count => rfl
  | formatted chunks failed => exact foldlM_wrap (fun _ _ => rfl) chunks inner

/-- No guard is breached either by requests of which less passes the limits of a sink. -/
theorem exists_serveAll?_eq {sink : Sink} {requests : List Request}
    (h : Fits sink (byteLength (truncated sink.room (requestedText requests)))) :
  ∃ target, (ofSink sink).serveAll? requests = some target
  := by
  induction sink generalizing requests with
  | text | counting | buffer => exact ⟨_, serveAll?_eq h⟩
  | borrowed inner ih =>
    obtain ⟨target, htarget⟩ := ih h
    use borrowed target
    rw [ofSink, serveAll?, foldlM_wrap serve?_borrowed, ← serveAll?, htarget]
    rfl
  | limited limit inner ih =>
    obtain ⟨rest, passed, hpassed, hlimited, _⟩ := exists_serveAll?_limited limit requests
    -- The texts that are handed on are requests to the sink behind the limit.
    rw [Sink.room, ← truncated_truncated, ← hpassed, ← requestedText_map_append] at h
    obtain ⟨target, htarget⟩ := ih h
    rw [serveAll?, List.foldlM_map] at htarget
    use limited rest target
    rw [ofSink, hlimited, Option.map_eq_some_iff]
    exact ⟨target, htarget, rfl⟩

end Target

end BraceFormat.Guarded
