import XChaty.ProofKit.Machine

/-! A queue of events, to which events are posted at one end while the receiver takes them from the
other, in any interleaving.  What has been delivered and what is still queued are together what was
posted, in the order of the posts, and the receiver has handled what was delivered. -/

namespace XChaty.ProofKit

universe u v w x

inductive Turn (α : Type u) (τ : Type v)
  | post (event : α)
  | deliver (now : τ)
deriving DecidableEq, Repr

structure EventLoop (σ : Type w) (α : Type u) where
  queue : List α
  receiver : σ
deriving DecidableEq, Repr

variable {σ : Type w} {α : Type u} {τ : Type v} {β : Type x}

def Turn.map (f : α → β) : Turn α τ → Turn β τ
  | post event => post (f event)
  | deliver now => deliver now

def Turn.event : Turn α τ → Option α
  | post event => some event
  | deliver _ => none

def posts (turns : List (Turn α τ)) : List α := turns.filterMap Turn.event

/-- The output of a delivery is the event with the time it is handled at. -/
def eventLoop (handle : σ → τ → α → σ) :
    Machine (EventLoop σ α) (Turn α τ) (Option (τ × α)) where
  step s turn :=
    match turn with
    | .post event => ({ s with queue := s.queue ++ [event] }, none)
    | .deliver now =>
      match s.queue with
      | [] => (s, none)
      | event :: queue => ({ queue, receiver := handle s.receiver now event }, some (now, event))

def deliveries (handle : σ → τ → α → σ) (s : EventLoop σ α) (turns : List (Turn α τ)) :
    List (τ × α) :=
  ((eventLoop handle).outputs s turns).filterMap id

variable (handle : σ → τ → α → σ) (s : EventLoop σ α)

@[simp] theorem posts_nil : posts ([] : List (Turn α τ)) = [] := rfl

@[simp] theorem posts_post (event : α) (turns : List (Turn α τ)) :
    posts (.post event :: turns) = event :: posts turns := rfl

@[simp] theorem posts_deliver (now : τ) (turns : List (Turn α τ)) :
    posts (.deliver now :: turns) = posts turns := rfl

theorem posts_map (f : α → β) (turns : List (Turn α τ)) :
    posts (turns.map (Turn.map f)) = (posts turns).map f := by
  induction turns with
  | nil => rfl
  | cons turn turns ih =>
    cases turn with
    | post event => exact congrArg (f event :: ·) ih
    | deliver now => exact ih

theorem deliveries_cons (turn : Turn α τ) (turns : List (Turn α τ)) :
    deliveries handle s (turn :: turns) =
      ((eventLoop handle).step s turn).2.toList ++
        deliveries handle ((eventLoop handle).step s turn).1 turns :=
  Machine.filterMap_outputs_cons (eventLoop handle) s turn turns

theorem deliveries_append (before after : List (Turn α τ)) :
    deliveries handle s (before ++ after) =
      deliveries handle s before ++ deliveries handle ((eventLoop handle).run s before) after := by
  unfold deliveries
  rw [Machine.outputs_append, List.filterMap_append]

/-- What one turn does: a post is queued, a delivery of the first event is handled, and a delivery
from an empty queue does nothing. -/
theorem eventLoop_step (turn : Turn α τ) :
    (∃ event, turn = .post event ∧
      (eventLoop handle).step s turn = ({ s with queue := s.queue ++ [event] }, none)) ∨
    (∃ now event queue, turn = .deliver now ∧ s.queue = event :: queue ∧
      (eventLoop handle).step s turn =
        ({ queue, receiver := handle s.receiver now event }, some (now, event))) ∨
    (∃ now, turn = .deliver now ∧ s.queue = [] ∧ (eventLoop handle).step s turn = (s, none)) := by
  cases turn with
  | post event => exact .inl ⟨event, rfl, rfl⟩
  | deliver now =>
    obtain ⟨queue, receiver⟩ := s
    cases queue with
    | nil => exact .inr (.inr ⟨now, rfl, rfl, rfl⟩)
    | cons event queue => exact .inr (.inl ⟨now, event, queue, rfl, rfl, rfl⟩)

theorem eventLoop_fifo (turns : List (Turn α τ)) :
    (deliveries handle s turns).map Prod.snd ++ ((eventLoop handle).run s turns).queue =
      s.queue ++ posts turns := by
  induction turns generalizing s with
  | nil => exact (List.append_nil s.queue).symm
  | cons turn turns ih =>
    rw [deliveries_cons, Machine.run_cons, List.map_append, List.append_assoc, ih]
    obtain ⟨event, rfl, hstep⟩ | ⟨now, event, queue, rfl, hqueue, hstep⟩ | ⟨now, rfl, -, hstep⟩ :=
      eventLoop_step handle s turn
    · simp [hstep]
    · simp [hstep, hqueue]
    · simp [hstep]

theorem eventLoop_receiver (turns : List (Turn α τ)) :
    ((eventLoop handle).run s turns).receiver =
      (deliveries handle s turns).foldl (fun receiver d => handle receiver d.1 d.2) s.receiver := by
  induction turns generalizing s with
  | nil => rfl
  | cons turn turns ih =>
    rw [deliveries_cons, Machine.run_cons, List.foldl_append, ih]
    obtain ⟨event, rfl, hstep⟩ | ⟨now, event, queue, rfl, -, hstep⟩ | ⟨now, rfl, -, hstep⟩ :=
      eventLoop_step handle s turn
    · simp [hstep]
    · simp [hstep]
    · simp [hstep]

end XChaty.ProofKit
