import Mathlib.Data.List.Basic
import Mathlib.Logic.Function.Basic

/-! Singly linked lists in a store of nodes: the nodes that one meets on the way to a null pointer. -/

set_option autoImplicit false

namespace Library

/-- Following `next` from `head` visits these nodes and no others. -/
def Linked {ν : Type*} (next : ν → Option ν) (head : Option ν) : List ν → Prop
  | [] => head = none
  | node :: rest => head = some node ∧ Linked next (next node) rest

/-- The nodes that one meets within so many steps. -/
def walk {ν : Type*} (next : ν → Option ν) : ℕ → Option ν → List ν
  | 0, _ => []
  | _ + 1, none => []
  | steps + 1, some node => node :: walk next steps (next node)

namespace Linked

variable {ν : Type*} {next : ν → Option ν} {head : Option ν} {nodes : List ν}

theorem head_eq (linked : Linked next head nodes) : head = nodes.head? := by
  cases nodes with
  | nil => exact linked
  | cons first rest => exact linked.1

theorem of_none (linked : Linked next none nodes) : nodes = [] :=
  List.head?_eq_none_iff.mp linked.head_eq.symm

theorem of_some {node : ν} (linked : Linked next (some node) nodes) :
    ∃ rest, nodes = node :: rest ∧ Linked next (next node) rest := by
  cases nodes with
  | nil => cases linked
  | cons first rest =>
    obtain ⟨same, later⟩ := linked
    cases same
    exact ⟨rest, rfl, later⟩

theorem walk_eq (linked : Linked next head nodes) : walk next nodes.length head = nodes := by
  induction nodes generalizing head with
  | nil => rfl
  | cons first rest ih =>
    rw [linked.1, List.length_cons, walk, ih linked.2]

/-- What a node elsewhere points to does not matter. -/
theorem congr {next' : ν → Option ν} (linked : Linked next head nodes)
    (same : ∀ node ∈ nodes, next' node = next node) : Linked next' head nodes := by
  induction nodes generalizing head with
  | nil => exact linked
  | cons first rest ih =>
    refine ⟨linked.1, ?_⟩
    rw [same first (by simp)]
    exact ih linked.2 fun node member => same node (by simp [member])

variable [DecidableEq ν]

theorem update {node : ν} (linked : Linked next head nodes) (absent : node ∉ nodes) (target : Option ν) :
    Linked (Function.update next node target) head nodes :=
  linked.congr fun _ member => Function.update_of_ne (by rintro rfl; exact absent member) ..

theorem push {node : ν} (linked : Linked next head nodes) (absent : node ∉ nodes) :
    Linked (Function.update next node head) (some node) (node :: nodes) := by
  refine ⟨rfl, ?_⟩
  rw [Function.update_self]
  exact linked.update absent head

/-- A node that points to nothing is linked behind the last one. -/
theorem snoc {last node : ν} (linked : Linked next head (nodes ++ [last])) (distinct : (nodes ++ [last]).Nodup)
    (absent : node ∉ nodes ++ [last]) (ends : next node = none) :
    Linked (Function.update next last (some node)) head (nodes ++ [last] ++ [node]) := by
  induction nodes generalizing head with
  | nil =>
    obtain rfl : head = some last := linked.1
    have apart : node ≠ last := fun same => absent (by simp [same])
    refine ⟨rfl, ?_, ?_⟩
    · rw [Function.update_self]
    · rw [Function.update_of_ne apart]
      exact ends
  | cons first rest ih =>
    rw [List.cons_append, List.nodup_cons] at distinct
    rw [List.cons_append, List.mem_cons, not_or] at absent
    have apart : first ≠ last := fun same => distinct.1 (by simp [same])
    refine ⟨linked.1, ?_⟩
    rw [Function.update_of_ne apart]
    exact ih linked.2 distinct.2 absent.2

end Linked
end Library
