import NodeAssembly.Value.Arithmetic
import NodeAssembly.Value.Cast

/-! What the operators of the accumulator can yield: a value that is no
reference as long as their left operand is none, and only the faults of
computing. -/

namespace NodeAssembly

/-- The faults of computing: those that do not come from a channel, a stream,
a label or a run. -/
def Fault.isComputed : Fault → Bool
  | .divisionByZero => true
  | .invalidCast _ => true
  | .outOfMemory _ _ => true
  | _ => false

namespace Value

/-- An outcome with a value that is no reference, or with a fault of
computing. -/
def Computes : Except Fault Value → Prop
  | .ok value => value.isFlat
  | .error fault => fault.isComputed

/-- The operators with two operands. -/
def operators : List (Value → Value → Except Fault Value) :=
  [add, sub, mul, div, cast]

theorem computes_check {value : Value} (length : Nat) (flat : value.isFlat) :
    Computes (checkLength length >>= fun _ => pure value) := by
  unfold checkLength
  split
  · exact rfl
  · exact flat

theorem computes_joined (first second : String) : Computes (joined first second) :=
  computes_check _ rfl

theorem computes_add {left : Value} (right : Value) (flat : left.isFlat) :
    Computes (add left right) := by
  unfold add
  split
  case h_2 => exact computes_joined _ _
  case h_6 => exact computes_joined _ _
  case h_7 => cases flat
  all_goals exact rfl

theorem computes_sub {left : Value} (right : Value) (flat : left.isFlat) :
    Computes (sub left right) := by
  unfold sub
  split
  case h_7 => exact flat
  all_goals exact rfl

theorem computes_stretched (text : List Char) (factor : Float32) :
    Computes (stretched text factor) := by
  unfold stretched
  simp only
  split
  · exact rfl
  · exact computes_check _ rfl

theorem computes_mul {left : Value} (right : Value) (flat : left.isFlat) :
    Computes (mul left right) := by
  unfold mul
  split
  case h_4 => exact computes_check _ rfl
  case h_5 => exact computes_stretched _ _
  case h_7 => exact computes_check _ rfl
  case h_8 => exact flat
  all_goals exact rfl

theorem computes_div {left : Value} (right : Value) (flat : left.isFlat) :
    Computes (div left right) := by
  unfold div
  split
  case h_1 => exact rfl
  case h_2 =>
    simp only
    split <;> exact rfl
  case h_3 =>
    simp only
    split <;> exact rfl
  case h_4 => exact flat

theorem isFlat_castCharacter (value : Value) : value.castCharacter.isFlat := by
  cases value <;> rfl

theorem computes_castRadix (value : Value) (name : String) : Computes (value.castRadix name) := by
  unfold castRadix
  split
  · split <;> exact rfl
  · exact rfl

theorem computes_castNamed (value : Value) (name : String) : Computes (value.castNamed name) := by
  unfold castNamed
  split
  case h_1 => exact value.isFlat_castCharacter
  case h_5 =>
    split
    · exact value.computes_castRadix name
    · exact rfl
  all_goals exact rfl

theorem computes_cast {value : Value} (kind : Value) (flat : value.isFlat) :
    Computes (cast value kind) := by
  cases kind with
  | str name => exact value.computes_castNamed name
  | int _ => exact rfl
  | float _ => exact rfl
  | null => exact rfl
  | ref _ => exact flat

theorem computes_operator {operator : Value → Value → Except Fault Value} {left : Value}
    (member : operator ∈ operators) (right : Value) (flat : left.isFlat) :
    Computes (operator left right) := by
  simp only [operators, List.mem_cons, List.not_mem_nil, or_false] at member
  rcases member with rfl | rfl | rfl | rfl | rfl
  · exact computes_add right flat
  · exact computes_sub right flat
  · exact computes_mul right flat
  · exact computes_div right flat
  · exact computes_cast right flat

theorem isFlat_not_or_eq (value : Value) : value.not.isFlat ∨ value.not = value := by
  cases value with
  | ref _ => exact .inr rfl
  | _ => exact .inl rfl

theorem isFlat_digit_or_eq (value : Value) (index : Int32) :
    (value.digit index).isFlat ∨ value.digit index = value := by
  cases value with
  | ref _ => exact .inr rfl
  | _ => exact .inl rfl

theorem isFlat_setDigit_or_eq (value : Value) (index : Int32) (digit : Value) :
    (value.setDigit index digit).isFlat ∨ value.setDigit index digit = value := by
  unfold setDigit
  split
  · exact .inr rfl
  · cases value with
    | ref _ => exact .inr rfl
    | str text =>
        simp only
        split <;> exact .inl rfl
    | _ => exact .inl rfl

/-- References go through the operators with two operands unchanged, or fail as
other values do. -/
theorem computes_or_ref {operator : Value → Value → Except Fault Value} (member : operator ∈ operators)
    (left right : Value) :
    Computes (operator left right) ∨ operator left right = .ok left := by
  cases left with
  | ref register =>
      simp only [operators, List.mem_cons, List.not_mem_nil, or_false] at member
      rcases member with rfl | rfl | rfl | rfl | rfl
      · exact .inr rfl
      · exact .inr (by cases right <;> rfl)
      · exact .inr (by cases right <;> rfl)
      · exact .inr (by cases right <;> rfl)
      · cases right with
        | str name => exact .inl (computes_castNamed _ name)
        | int _ => exact .inl rfl
        | float _ => exact .inl rfl
        | null => exact .inl rfl
        | ref _ => exact .inr rfl
  | _ => exact .inl (computes_operator member right rfl)

end Value

end NodeAssembly
