import Mathlib.Data.List.Basic

/-!
# Framed streams

A stream carries one message behind another, each closed by a mark. `readFrame` is one read: what
is up to the first mark, with the mark, or all that is left where there is none. `frames` are the
reads up to the end of the stream.

Nothing of a stream is lost (`flatten_frames`), and messages that do not hold the mark are read
back one by one, whatever comes behind them (`frames_flatMap_append`).
-/

namespace Framing

variable {α : Type*} [DecidableEq α] (mark : α)

/-- One read, and what it leaves. -/
def readFrame : List α → List α × List α
  | [] => ([], [])
  | a :: rest =>
      if a = mark then ([a], rest) else (a :: (readFrame rest).1, (readFrame rest).2)

/-- The reads up to the end of the stream. -/
def frames : List α → List (List α)
  | [] => []
  | a :: rest =>
      if a = mark then [a] :: frames rest
      else
        match frames rest with
        | [] => [[a]]
        | frame :: others => (a :: frame) :: others

/-- A message, closed by the mark. -/
def close (message : List α) : List α := message ++ [mark]

variable {mark} {a : α} {message rest stream : List α} {messages : List (List α)}

@[simp] theorem frames_nil : frames mark [] = [] := rfl

theorem frames_cons : frames mark (a :: rest) =
    if a = mark then [a] :: frames mark rest
    else
      match frames mark rest with
      | [] => [[a]]
      | frame :: others => (a :: frame) :: others := rfl

/-- `frames` is what reading again and again yields. -/
theorem frames_eq_readFrame (h : stream ≠ []) :
    frames mark stream = (readFrame mark stream).1 :: frames mark (readFrame mark stream).2 := by
  induction stream with
  | nil => exact absurd rfl h
  | cons a rest ih =>
      rw [frames_cons, readFrame]
      split_ifs with ha
      · rfl
      · cases rest with
        | nil => rfl
        | cons b rest => rw [ih (List.cons_ne_nil b rest)]

theorem readFrame_close (h : mark ∉ message) :
    readFrame mark (close mark message ++ rest) = (close mark message, rest) := by
  induction message with
  | nil => simp [close, readFrame]
  | cons a message ih =>
      obtain ⟨ha, hmessage⟩ : ¬mark = a ∧ mark ∉ message := by simpa using h
      have htail : readFrame mark (close mark message ++ rest) = (close mark message, rest) :=
        ih hmessage
      show readFrame mark (a :: (close mark message ++ rest)) = _
      rw [readFrame, if_neg (Ne.symm ha), htail]
      rfl

theorem frames_close_append (h : mark ∉ message) :
    frames mark (close mark message ++ rest) = close mark message :: frames mark rest := by
  have hne : close mark message ++ rest ≠ [] := by simp [close]
  rw [frames_eq_readFrame hne, readFrame_close h]

/-- Messages without the mark are read back one by one. -/
theorem frames_flatMap_append (h : ∀ message ∈ messages, mark ∉ message) :
    frames mark (messages.flatMap (close mark) ++ rest) =
      messages.map (close mark) ++ frames mark rest := by
  induction messages with
  | nil => rfl
  | cons message messages ih =>
      obtain ⟨hmessage, hmessages⟩ := List.forall_mem_cons.mp h
      rw [List.flatMap_cons, List.append_assoc, frames_close_append hmessage, ih hmessages]
      rfl

theorem frames_flatMap (h : ∀ message ∈ messages, mark ∉ message) :
    frames mark (messages.flatMap (close mark)) = messages.map (close mark) := by
  have hframes := @frames_flatMap_append α _ mark [] messages h
  simpa using hframes

/-- Nothing of a stream is lost. -/
@[simp] theorem flatten_frames : (frames mark stream).flatten = stream := by
  induction stream with
  | nil => rfl
  | cons a rest ih =>
      unfold frames
      split_ifs with ha
      · rw [List.flatten_cons, ih]
        rfl
      · cases hrest : frames mark rest with
        | nil =>
            rw [hrest] at ih
            simpa using ih
        | cons frame others =>
            rw [hrest] at ih
            show a :: (frame ++ others.flatten) = a :: rest
            rw [← ih, List.flatten_cons]

end Framing
