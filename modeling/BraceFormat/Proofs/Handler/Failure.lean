import BraceFormat.Proofs.Except
import BraceFormat.Proofs.Formatter

/-!
# How writers fail

A writer that puts its text out, or has it measured, fails just if its code does, and then with
an error of unknown place. Nothing else fails in putting it out to a width.
-/

namespace BraceFormat.Writer

variable {H : Host} {writer : Writer H} {limit : Limit} {world : World H} {failure : Failure}

theorem stream_fails_iff :
  (writer.stream limit world).result = .error failure ↔
    (writer world).failed = true ∧ failure = .error (.unplaced .formatterFailed)
  := by
  rw [stream]
  cases (writer world).failed with
  | true => exact ⟨fun h => ⟨rfl, (Except.error.inj h).symm⟩, fun h => h.2 ▸ rfl⟩
  | false =>
    constructor
    · rintro ⟨⟩
    · rintro ⟨⟨⟩, _⟩

theorem measure_fails_iff :
  (writer.measure limit world).result = .error failure ↔
    (writer world).failed = true ∧ failure = .error (.unplaced .formatterFailed)
  := by
  have hmeasure : (writer.measure limit world).result = .error failure ↔
      (writer.stream limit world).result = .error failure := map_eq_error_iff
  rw [hmeasure, stream_fails_iff]

/-- Only the code of a value fails in putting it out as a directive says. -/
theorem failure_of_format {d : Directive} (h : (writer.format d world).result = .error failure) :
  failure = .error (.unplaced .formatterFailed)
  := by
  rw [format] at h
  split at h
  · exact (stream_fails_iff.mp h).2
  · simp only [Formatter.result_bind_error_iff] at h
    rcases h with h | ⟨_, _, ⟨⟨⟩⟩ | ⟨_, _, h | ⟨_, _, ⟨⟨⟩⟩⟩⟩⟩
    · exact (measure_fails_iff.mp h).2
    · exact (stream_fails_iff.mp h).2

end BraceFormat.Writer
