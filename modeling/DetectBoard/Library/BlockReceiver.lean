import Mathlib.Data.List.Basic

/-! Receivers of numbered blocks that keep only the block they wait for.

A receiver answers every block, keeps it or refuses it, and waits for the block
whose number is the count of those it kept. What it refuses leaves it as it was.
-/

set_option autoImplicit false

namespace Library

structure Delivery (β : Type*) where
  number : Nat
  block : β
  kept : Bool
  deriving DecidableEq, Repr

/-- The answered blocks are those of a receiver that ends up with the given content. -/
inductive Receives {β : Type*} : List (Delivery β) → List β → Prop where
  | nil : Receives [] []
  | keep {history : List (Delivery β)} {blocks : List β} {delivery : Delivery β} :
      Receives history blocks → delivery.kept = true → delivery.number = blocks.length →
      Receives (history ++ [delivery]) (blocks ++ [delivery.block])
  | refuse {history : List (Delivery β)} {blocks : List β} {delivery : Delivery β} :
      Receives history blocks → delivery.kept = false → Receives (history ++ [delivery]) blocks

namespace Receives

variable {β : Type*} {history : List (Delivery β)} {blocks : List β}

theorem numbers (receives : Receives history blocks) :
    (history.filter Delivery.kept).map Delivery.number = List.range blocks.length := by
  induction receives with
  | nil => rfl
  | keep _ kept number ih => simp [List.filter_append, kept, ih, number, List.range_succ]
  | refuse _ refused ih => simp [List.filter_append, refused, ih]

theorem content (receives : Receives history blocks) :
    (history.filter Delivery.kept).map Delivery.block = blocks := by
  induction receives with
  | nil => rfl
  | keep _ kept _ ih => simp [List.filter_append, kept, ih]
  | refuse _ refused ih => simp [List.filter_append, refused, ih]

theorem count (receives : Receives history blocks) :
    (history.filter Delivery.kept).length = blocks.length := by
  rw [← receives.content, List.length_map]

end Receives
end Library
