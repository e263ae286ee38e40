import Mathlib.Data.UInt
import Mathlib.Tactic.IntervalCases

/-! Words of 32 bits and their bytes, the lowest byte first. -/

set_option autoImplicit false

namespace Library

def wordOf (bytes : List UInt8) : UInt32 := bytes.foldr (fun byte word => word <<< 8 ||| byte.toUInt32) 0

def bytesOf (word : UInt32) : List UInt8 :=
  [word.toUInt8, (word >>> 8).toUInt8, (word >>> 16).toUInt8, (word >>> 24).toUInt8]

@[simp] theorem bytesOf_length (word : UInt32) : (bytesOf word).length = 4 := rfl

theorem bytesOf_wordOf {bytes : List UInt8} (four : bytes.length = 4) : bytesOf (wordOf bytes) = bytes := by
  match bytes, four with
  | [b₀, b₁, b₂, b₃], _ =>
    simp only [wordOf, bytesOf, List.foldr_cons, List.foldr_nil, List.cons.injEq, and_true, ← UInt8.toBitVec_inj]
    refine ⟨?_, ?_, ?_, ?_⟩
    all_goals
      -- every bit of a byte has one place in the word
      ext i bound
      interval_cases i <;> simp

end Library
