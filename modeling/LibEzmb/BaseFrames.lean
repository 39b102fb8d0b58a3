import Mathlib.Data.List.Basic
import Mathlib.Tactic.Common

/-! Multipart messages as streams of frames: every frame says whether more frames of its message
follow, and a stream of whole messages can be cut up again in one way. -/

namespace Multipart

variable {β : Type}

/-- One part of a message, with its more-frames flag. -/
structure Frame (β : Type) where
  body : β
  more : Bool
  deriving DecidableEq, Repr

/-- The frames of one message: all but the last announce another one. -/
def frames : List β → List (Frame β)
  | [] => []
  | [b] => [⟨b, false⟩]
  | b :: c :: m => ⟨b, true⟩ :: frames (c :: m)

/-- The frames of messages sent one after another. -/
def stream (msgs : List (List β)) : List (Frame β) := msgs.flatMap frames

/-- Cut a stream into messages, after the frames of an unfinished one. The second component is what
is unfinished at the end. -/
def assemble : List β → List (Frame β) → List (List β) × List β
  | part, [] => ([], part)
  | part, f :: fs =>
      if f.more then assemble (part ++ [f.body]) fs
      else ((part ++ [f.body]) :: (assemble [] fs).1, (assemble [] fs).2)

@[simp] theorem frames_pair (a b : β) : frames [a, b] = [⟨a, true⟩, ⟨b, false⟩] := rfl

theorem eq_pair_of_length {m : List β} (hm : m.length = 2) : ∃ a b, m = [a, b] := by
  match m, hm with
  | [a, b], _ => exact ⟨a, b, rfl⟩

@[simp] theorem stream_nil : stream ([] : List (List β)) = [] := rfl

@[simp] theorem stream_cons (m : List β) (msgs : List (List β)) :
    stream (m :: msgs) = frames m ++ stream msgs := List.flatMap_cons

@[simp] theorem stream_append (msgs msgs' : List (List β)) :
    stream (msgs ++ msgs') = stream msgs ++ stream msgs' := List.flatMap_append

theorem assemble_frames_append (part : List β) {m : List β} (hne : m ≠ []) (fs : List (Frame β)) :
    assemble part (frames m ++ fs) = ((part ++ m) :: (assemble [] fs).1, (assemble [] fs).2) := by
  induction m generalizing part with
  | nil => exact absurd rfl hne
  | cons b m ih =>
      cases m with
      | nil => simp [frames, assemble]
      | cons c m =>
          have htail := ih (part ++ [b]) (List.cons_ne_nil _ _)
          simpa [frames, assemble] using htail

/-- The cut of a stream of non-empty messages gives the messages back. -/
theorem assemble_stream {msgs : List (List β)} (hne : ∀ m ∈ msgs, m ≠ []) :
    assemble [] (stream msgs) = (msgs, []) := by
  induction msgs with
  | nil => rfl
  | cons m msgs ih =>
      have hrest := ih fun m' hm' => hne m' (List.mem_cons_of_mem _ hm')
      rw [stream_cons, assemble_frames_append [] (hne m List.mem_cons_self), hrest, List.nil_append]

end Multipart
