import BraceFormat.Proofs.Guarded.Requests

/-!
# Positions of sinks

A text, a counter and a buffer count every byte they are given, a buffer also those it drops.
A limit does not: its position is that of the sink behind it, which is never given the bytes that
do not pass. So a sink with limits counts all it is given just if all of it keeps within the
least of them, and otherwise the bytes that pass (`Sink.position_serveAll`).
-/

namespace BraceFormat

open Guarded

/-- A text is truncated just if it does not keep within the limit. -/
theorem byteLength_truncated_eq_iff (limit : Limit) (text : List Char) :
  byteLength (truncated limit text) = byteLength text ↔ ∀ room ∈ limit, byteLength text ≤ room
  := by
  cases limit with
  | none => simp [truncated]
  | some room =>
    have hroom := byteLength_fitting_le room text
    simp only [truncated, Option.mem_def, Option.some.injEq, forall_eq']
    constructor
    · intro h
      omega
    · intro h
      rw [fitting_of_byteLength_le h]

namespace Sink

/-- A sink counts the bytes that pass its limits. -/
theorem position_append (sink : Sink) (text : List Char) :
  (sink.append text).position = sink.position + byteLength (truncated sink.room text)
  := by
  induction sink generalizing text with
  | text chars => apply byteLength_append
  | counting bytes chars => rfl
  | buffer b => rfl
  | borrowed inner ih => apply ih
  | limited limit inner ih =>
    rw [append, position, ih, Limit.passText_eq_truncated, truncated_truncated]
    rfl

/-- After some requests, none of which breaches a guard, the position of a sink has moved on by
the bytes that pass its limits. These are all the bytes of the requests just if all of them keep
within the limits; so a sink without limits counts everything that it is given, whatever it drops.
No guard is breached if the counts stay below `2 ^ 64`. -/
theorem position_serveAll (sink : Sink) (requests : List Request) :
  let text := requestedText requests
  let passed := truncated sink.room text
  (∀ target, (Target.ofSink sink).serveAll? requests = some target →
    target = .ofSink (sink.serveAll requests) ∧
    target.position = sink.position + byteLength passed ∧
    (target.position = sink.position + byteLength text ↔
      ∀ room ∈ sink.room, byteLength text ≤ room)) ∧
  (Fits sink (byteLength passed) → ∃ target, (Target.ofSink sink).serveAll? requests = some target)
  := by
  intro text passed
  refine ⟨fun target htarget => ?_, Target.exists_serveAll?_eq⟩
  obtain rfl := Target.of_serveAll? htarget
  have hposition : (Target.ofSink (sink.serveAll requests)).position =
      sink.position + byteLength passed := by
    rw [Target.position_ofSink, serveAll_eq_append, position_append]
  refine ⟨rfl, hposition, ?_⟩
  rw [hposition, Nat.add_left_cancel_iff, byteLength_truncated_eq_iff]

/-- Copies of a character are given to a counter behind a limit, two of which pass. -/
theorem position_serveAll_copies :
  ∃ target,
    (Target.ofSink (limited (some 5) (counting 7 7))).serveAll? [.fill 'é' 3] = some target ∧
    target.position = 11
  := by
  obtain ⟨hmoved, hserved⟩ := position_serveAll (limited (some 5) (counting 7 7)) [.fill 'é' 3]
  obtain ⟨target, htarget⟩ := hserved ⟨by decide, by decide⟩
  exact ⟨target, htarget, (hmoved target htarget).2.1⟩

/-- Behind a limit of two bytes the third one is not counted. -/
theorem position_limited_ne :
  let sink := limited (some 2) (text [])
  let requests := [Request.append ['a', 'b', 'c']]
  (sink.serveAll requests).position = 2 ∧
    (sink.serveAll requests).position ≠ sink.position + byteLength (requestedText requests)
  := by
  decide

end Sink

end BraceFormat
