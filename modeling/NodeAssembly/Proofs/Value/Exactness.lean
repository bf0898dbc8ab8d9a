import Mathlib.Data.List.ProdSigma
import NodeAssembly.Proofs.Value.TextLimit

/-! Sums and products of texts are exact. The length of a result is checked
before the result is made, and it is worked out from the lengths of the
operands; it is the length that the result has. So a result is made exactly if
it is within the limit, and a fault gives the length that was asked for. -/

namespace NodeAssembly

open NodeAssembly.Text

namespace Text

/-- The decimal form of an integer is the usual one. -/
theorem integer_eq_toString (number : Int) : integer number = toString number := by
  cases number with
  | ofNat number => rfl
  | negSucc number =>
      have negative : Int.negSucc number < 0 := Int.negSucc_lt_zero number
      rw [integer, decimal, if_pos negative, String.ofList_cons]
      rfl

/-- A text so many times over. -/
def repeated (text : String) (count : Nat) : String :=
  String.join (List.replicate count text)

/-- All texts of one character of the first text and one of the second, in the
order of the first text and then of the second. -/
def product (first second : String) : String :=
  String.join ((first.toList ×ˢ second.toList).map fun pair => String.ofList [pair.1, pair.2])

end Text

namespace Value

/-- The text if it is within the limit, and otherwise a fault that says how long
it is. -/
def limited (text : String) : Except Fault Value :=
  if text.utf8ByteSize ≤ 2 ^ 20 then .ok (.str text)
  else .error (.outOfMemory text.utf8ByteSize (2 ^ 20))

theorem checked_eq_limited {length : Nat} {text : String} (exact : length = text.utf8ByteSize) :
    (checkLength length >>= fun _ => pure (.str text)) = limited text := by
  subst exact
  unfold limited
  by_cases within : text.utf8ByteSize ≤ 2 ^ 20
  · have passes : checkLength text.utf8ByteSize = .ok () := if_neg (Nat.not_lt.mpr within)
    rw [passes, if_pos within]
    rfl
  · have fails : checkLength text.utf8ByteSize =
        .error (.outOfMemory text.utf8ByteSize (2 ^ 20)) := if_pos (Nat.lt_of_not_le within)
    rw [fails, if_neg within]
    rfl

theorem joined_eq_limited (first second : String) :
    joined first second = limited (first ++ second) :=
  checked_eq_limited String.utf8ByteSize_append.symm

theorem ofList_copies (text : String) (count : Nat) :
    String.ofList (copies text.toList count) = repeated text count := by
  apply String.toList_inj.mp
  rw [String.toList_ofList, repeated, String.toList_join, List.flatMap_replicate, copies]
  split
  next empty => rw [List.isEmpty_iff.mp empty, List.flatten_replicate_nil]
  next => rfl

theorem ofList_pairs (first second : String) :
    String.ofList (pairs first.toList second.toList) = product first second := by
  apply String.toList_inj.mp
  rw [String.toList_ofList, product, String.toList_join, List.flatMap_map]
  simp only [String.toList_ofList, pairs, SProd.sprod, List.product, List.flatMap_assoc,
    List.flatMap_map]

/-- Of two texts, or of a text and an integer, the sum and the product are the
text that they ought to be, as long as that is within the limit. An integer is
added as its decimal form, and one below zero multiplies like zero. -/
theorem text_arithmetic_exact (first second : String) (number : Int32) :
    (Value.int number).add (.str first) = limited (toString number.toInt ++ first) ∧
    (Value.str first).add (.int number) = limited (first ++ toString number.toInt) ∧
    (Value.str first).add (.str second) = limited (first ++ second) ∧
    (Value.str first).mul (.int number) = limited (repeated first (max number.toInt 0).toNat) ∧
    (Value.str first).mul (.str second) = limited (product first second) := by
  refine ⟨?_, ?_, ?_, ?_, ?_⟩
  · rw [← integer_eq_toString]
    exact joined_eq_limited _ _
  · rw [← integer_eq_toString]
    exact joined_eq_limited _ _
  · exact joined_eq_limited _ _
  · have positive : (max number.toInt 0).toNat = number.toInt.toNat := by omega
    rw [positive, ← ofList_copies]
    apply checked_eq_limited
    rw [utf8ByteSize_ofList, size_copies, size_toList]
  · rw [← ofList_pairs]
    apply checked_eq_limited
    rw [utf8ByteSize_ofList, size_pairs, size_toList, size_toList, String.length_toList,
      String.length_toList]

/-- The first text runs slower than the second. -/
example : (Value.str "aé").mul (.str "cd") = .ok (.str "acadécéd") :=
  rfl

end Value

end NodeAssembly
