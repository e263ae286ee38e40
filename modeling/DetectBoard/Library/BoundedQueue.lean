import Mathlib.Order.Basic

/-! Queues with a fixed capacity, and the latest value that a line of messages carries. -/

set_option autoImplicit false

namespace Library

structure BoundedQueue (α : Type*) (capacity : ℕ) where
  entries : List α
  bound : entries.length ≤ capacity

namespace BoundedQueue

variable {α : Type*} {capacity : ℕ} (queue : BoundedQueue α capacity)

def empty : BoundedQueue α capacity := ⟨[], Nat.zero_le _⟩

@[simp] theorem empty_entries : (empty : BoundedQueue α capacity).entries = [] := rfl

def send (message : α) : Option (BoundedQueue α capacity) :=
  if room : queue.entries.length < capacity then
    some ⟨queue.entries ++ [message], by rw [List.length_append]; exact room⟩
  else none

def receive : Option (α × BoundedQueue α capacity) :=
  match queue with
  | ⟨[], _⟩ => none
  | ⟨oldest :: rest, bound⟩ => some (oldest, ⟨rest, Nat.le_of_succ_le bound⟩)

variable {queue}

theorem send_room (room : queue.entries.length < capacity) (message : α) :
    ∃ sent, queue.send message = some sent ∧ sent.entries = queue.entries ++ [message] :=
  ⟨_, dif_pos room, rfl⟩

theorem send_full {message : α} (full : ¬ queue.entries.length < capacity) : queue.send message = none :=
  dif_neg full

theorem send_entries {message : α} {sent : BoundedQueue α capacity} (taken : queue.send message = some sent) :
    queue.entries.length < capacity ∧ sent.entries = queue.entries ++ [message] := by
  unfold send at taken
  split at taken
  · next room =>
    cases taken
    exact ⟨room, rfl⟩
  · cases taken

theorem receive_entries {oldest : α} {rest : BoundedQueue α capacity}
    (taken : queue.receive = some (oldest, rest)) : queue.entries = oldest :: rest.entries := by
  obtain ⟨entries, bound⟩ := queue
  cases entries with
  | nil => cases taken
  | cons first others =>
    cases taken
    rfl

theorem receive_empty (refused : queue.receive = none) : queue.entries = [] := by
  obtain ⟨entries, bound⟩ := queue
  cases entries with
  | nil => rfl
  | cons oldest later => cases refused

end BoundedQueue

section Latest

variable {α β : Type*} (select : α → Option β)

/-- The value of the last message that carries one. -/
def latest (default : β) (line : List α) : β :=
  line.foldl (fun value message => (select message).getD value) default

variable {select} {default : β}

theorem latest_append (line more : List α) :
    latest select default (line ++ more) = latest select (latest select default line) more :=
  List.foldl_append

theorem latest_snoc (line : List α) (message : α) :
    latest select default (line ++ [message]) = (select message).getD (latest select default line) := by
  rw [latest_append]
  rfl

theorem latest_skip (line : List α) {more : List α} (silent : ∀ message ∈ more, select message = none) :
    latest select default (line ++ more) = latest select default line := by
  rw [latest_append]
  generalize latest select default line = value
  induction more with
  | nil => rfl
  | cons message rest ih =>
    rw [List.forall_mem_cons] at silent
    rw [latest, List.foldl_cons, silent.1, Option.getD_none]
    exact ih silent.2

end Latest
end Library
