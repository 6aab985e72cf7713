import BraceFormat.Proofs.Output.Appending
import BraceFormat.Proofs.Utf8
import BraceFormat.Rendering.Text

/-!
# Requests to a sink

A sink is asked to append texts, single characters, copies of a character, and the chunks of
some formatting code. Where its counts stay below `2 ^ 64`, what it holds afterwards depends on
the text of the requests alone, and not on how this is cut into them
(`Sink.serveAll_eq_append`). What reaches the sink behind all limits is the text truncated to the
least of them (`Sink.room`).
-/

namespace BraceFormat

/-- What a sink can be asked to append. -/
inductive Request where
  /-- A text. -/
  | append (chars : List Char)
  /-- A single character. -/
  | char (c : Char)
  /-- Copies of a character. -/
  | fill (c : Char) (count : Nat)
  /-- The chunks that some formatting code writes, and whether it fails after them. -/
  | formatted (chunks : List (List Char)) (failed : Bool)

namespace Request

/-- The texts that a request comes down to for a sink that can append nothing but texts. -/
def texts : Request → List (List Char)
  | .append chars => [chars]
  | .char c => [[c]]
  | .fill c count => List.replicate count [c]
  | .formatted chunks _ => chunks

/-- The text of a request, also if the formatting code fails behind it. -/
def text (request : Request) : List Char := request.texts.flatten

end Request

/-- The text of some requests, one behind the other. -/
def requestedText (requests : List Request) : List Char := requests.flatMap Request.text

/-- Copies of a character are the text they make. -/
theorem Request.text_fill (c : Char) (count : Nat) :
  (Request.fill c count).text = List.replicate count c
  := by
  rw [text, texts, List.flatten_replicate_singleton]

/-- The text of some requests is that of the texts they come down to. -/
theorem flatten_flatMap_texts (requests : List Request) :
  (requests.flatMap Request.texts).flatten = requestedText requests
  := by
  rw [List.flatMap_def, List.flatten_flatten, List.map_map]
  rfl

/-- The text of texts to be appended is their concatenation. -/
theorem requestedText_map_append (texts : List (List Char)) :
  requestedText (texts.map .append) = texts.flatten
  := by
  rw [← flatten_flatMap_texts, List.flatMap_map]
  exact congrArg List.flatten (List.flatMap_singleton' texts)

namespace Sink

/-- Does what a sink is asked for. -/
def serve (sink : Sink) : Request → Sink
  | .append chars => sink.append chars
  | .char c => sink.appendChar c
  | .fill c count => sink.appendFill c count
  | .formatted chunks failed => (sink.appendChunks chunks failed).2

/-- Serves one request after another. -/
def serveAll (sink : Sink) (requests : List Request) : Sink := requests.foldl serve sink

/-- Texts that are appended one by one are appended as one text. -/
theorem foldl_append (sink : Sink) (texts : List (List Char)) :
  texts.foldl append sink = sink.append texts.flatten
  := by
  induction texts generalizing sink with
  | nil => exact (append_nil sink).symm
  | cons text texts ih => rw [List.foldl_cons, ih, append_append, List.flatten_cons]

/-- A sink serves a request as it appends the texts that this comes down to. -/
theorem serve_eq_foldl (sink : Sink) (request : Request) :
  sink.serve request = request.texts.foldl append sink
  := by
  cases request with
  | append chars => rfl
  | char c => rfl
  | fill c count =>
    rw [foldl_append, ← Request.text, Request.text_fill, serve, appendFill_eq_append]
  | formatted chunks failed => rfl

/-- A sink serves a request as it appends its text. -/
theorem serve_eq_append (sink : Sink) (request : Request) :
  sink.serve request = sink.append request.text
  := by
  rw [serve_eq_foldl, foldl_append, Request.text]

/-- A sink serves requests as it appends their text at once. -/
theorem serveAll_eq_append (sink : Sink) (requests : List Request) :
  sink.serveAll requests = sink.append (requestedText requests)
  := by
  induction requests generalizing sink with
  | nil => exact (append_nil sink).symm
  | cons request requests ih =>
    rw [requestedText, List.flatMap_cons, ← append_append, ← serve_eq_append]
    apply ih

end Sink

/-! ### Rooms -/

/-- What passes is what the text is truncated to. -/
theorem Limit.passText_eq_truncated (limit : Limit) (text : List Char) :
  (limit.passText text).1 = truncated limit text
  := by
  cases limit with
  | none => rfl
  | some room =>
    rw [passText, truncated]
    split
    · next h => exact (fitting_of_byteLength_le h).symm
    · rfl

/-- A text is the longest beginning of another one that takes no more than some bytes, or all of
it if there is no limit. -/
def IsLongestWithin : Limit → List Char → List Char → Prop
  | none, text, s => s = text
  | some room, text, s =>
    (s <+: text ∧ byteLength s ≤ room) ∧
      ∀ t, t <+: text → byteLength t ≤ room → byteLength t ≤ byteLength s

/-- The longest beginning within a limit is what the text is truncated to. -/
theorem isLongestWithin_truncated (limit : Limit) (text : List Char) :
  IsLongestWithin limit text (truncated limit text)
  := by
  cases limit with
  | none => rfl
  | some room =>
    exact ⟨⟨fitting_prefix_self room text, byteLength_fitting_le room text⟩,
      fun _ ht hroom => byteLength_le_fitting ht hroom⟩

/-- As much as both of two limits let through. -/
def Limit.least : Limit → Limit → Limit
  | none, limit => limit
  | some room, none => some room
  | some room, some room' => some (min room room')

/-- What fits within two rooms, one in the other. -/
theorem fitting_fitting (room room' : Nat) (text : List Char) :
  fitting room' (fitting room text) = fitting (min room room') text
  := by
  induction text generalizing room room' with
  | nil => rfl
  | cons c text ih =>
    by_cases hc : c.utf8Size ≤ room
    · by_cases hc' : c.utf8Size ≤ room'
      · rw [fitting, if_pos hc, fitting, if_pos hc', ih, fitting, if_pos (Nat.le_min.mpr ⟨hc, hc'⟩),
          Nat.sub_min_sub_right]
      · have hmin : ¬c.utf8Size ≤ min room room' := fun h => hc' (Nat.le_min.mp h).2
        rw [fitting, if_pos hc, fitting, if_neg hc', fitting, if_neg hmin]
    · have hmin : ¬c.utf8Size ≤ min room room' := fun h => hc (Nat.le_min.mp h).1
      rw [fitting, if_neg hc, fitting, fitting, if_neg hmin]

theorem truncated_truncated (limit limit' : Limit) (text : List Char) :
  truncated limit' (truncated limit text) = truncated (limit.least limit') text
  := by
  cases limit with
  | none => rfl
  | some room =>
    cases limit' with
    | none => rfl
    | some room' => apply fitting_fitting

/-- What all limits of a sink let through. -/
def Sink.room : Sink → Limit
  | .text _ | .counting .. | .buffer _ => none
  | .borrowed inner => inner.room
  | .limited limit inner => limit.least inner.room

end BraceFormat
