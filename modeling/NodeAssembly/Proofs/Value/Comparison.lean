import Mathlib.Order.Compare
import NodeAssembly.Proofs.Instruction.Moments

/-! Where the order of values is one. Two integers, two texts, and nothing and
any other value compare the other way round when they are exchanged, so a test
for the greater takes the same branch as a test for the less with its operands
exchanged. Integers together with nothing are in a total order, and so are texts
that are not blank together with nothing; nothing is least in both. -/

namespace NodeAssembly

open NodeAssembly.Text

namespace Text

/-- Texts are in the lexicographic order of their characters. -/
theorem order_eq_compare (first second : List Char) :
    order first second = compare first second := by
  induction first generalizing second with
  | nil => cases second <;> rfl
  | cons head tail induction =>
      cases second with
      | nil => rfl
      | cons other rest =>
          have heads : compare head other =
              if head < other then .lt else if head = other then .eq else .gt := rfl
          rw [List.compare_cons_cons, order, induction, heads]
          by_cases same : head = other
          · subst same
            rw [if_pos rfl, if_neg (Char.lt_irrefl head), if_pos rfl]
            rfl
          · rw [if_neg same, if_neg same]
            split <;> rfl

end Text

namespace Value

/-! ## Blank texts -/

/-- Blank are the empty text, texts of white space alone, and the single NUL. -/
def IsBlank (text : String) : Prop :=
  text = "" ∨ (∀ char ∈ text.toList, isBlank char) ∨ text = "\x00"

theorem isBlankText_iff (text : String) : isBlankText text ↔ IsBlank text := by
  have nul : text.toList = ['\x00'] ↔ text = "\x00" := by
    change text.toList = "\x00".toList ↔ _
    exact String.toList_inj
  rw [isBlankText, Bool.or_eq_true, isAllBlank, List.all_eq_true, beq_iff_eq, nul]
  constructor
  · exact Or.inr
  · rintro (rfl | blank)
    · exact .inl (List.forall_mem_nil _)
    · exact blank

theorem order_null_text (text : String) :
    Value.null.order (.str text) = if isBlankText text then .eq else .lt :=
  rfl

/-- Of two integers, of two texts, and of nothing and any other value, neither is
taken as a value of another type. -/
def Comparable : Value → Value → Prop
  | .int _, .int _ => True
  | .str _, .str _ => True
  | first, second => first = .null ∨ second = .null

theorem order_null_swap (value : Value) :
    Value.null.order value = (value.order .null).swap := by
  cases value with
  | str text =>
      rw [order_null_text]
      simp only [order]
      split <;> rfl
  | _ => rfl

theorem order_swap {first second : Value} (comparable : Comparable first second) :
    first.order second = (second.order first).swap := by
  unfold Comparable at comparable
  split at comparable
  next first second => exact Std.OrientedOrd.eq_swap (a := first)
  next first second =>
    simp only [order, text, order_eq_compare]
    exact Std.OrientedOrd.eq_swap
  next =>
    rcases comparable with rfl | rfl
    · exact order_null_swap _
    · rw [order_null_swap, Ordering.swap_swap]

theorem order_null_eq_iff (value : Value) :
    Value.null.order value = .eq ↔ value = .null ∨ ∃ text, value = .str text ∧ IsBlank text := by
  cases value with
  | str text =>
      rw [order_null_text]
      by_cases blank : IsBlank text
      · simp [blank, (isBlankText_iff text).mpr blank]
      · simp [blank, mt (isBlankText_iff text).mp blank]
  | _ => simp [order]

/-! ## Tests with exchanged operands -/

end Value

theorem TestKind.branch?_swap (ordering : Ordering) :
    TestKind.greater.branch? ordering.swap = TestKind.less.branch? ordering := by
  cases ordering <;> rfl

namespace Value

/-- The operand is the value, or a register in which a machine finds it without
a change of its state. -/
def FoundAs {σ : Type} (answer : (request : Request) → σ → request.Answer × σ) (state : σ)
    (value : Value) : Value → Prop
  | .ref register => answer (.read register) state = (.ok value, state)
  | operand => operand = value

end Value

namespace Action

variable {σ α : Type} {answer : (request : Request) → σ → request.Answer × σ} {state : σ}

theorem runWith_read_bind {register : RegisterRef} {value : Value} {after : σ}
    (found : answer (.read register) state = (.ok value, after)) (next : Value → Action α) :
    (read register >>= next).run.runWith answer state = (next value).run.runWith answer after := by
  change (match answer (.read register) state with
    | (reply, state) => (ExceptT.bindCont next reply).runWith answer state) = _
  rw [found]
  rfl

theorem runWith_resolve_bind {operand value : Value} (found : value.FoundAs answer state operand)
    (next : Value → Action α) :
    (resolve operand >>= next).run.runWith answer state =
      (next value).run.runWith answer state := by
  cases operand with
  | ref register => exact runWith_read_bind found next
  | _ =>
      cases found
      rfl

end Action

namespace Value

/-! ## Total orders -/

/-- The order of the values that are members. -/
abbrev orderOn (members : Value → Prop) (first second : { value // members value }) : Ordering :=
  first.val.order second.val

/-- The members are in a total order, in which only the same value is equal to a
value, and nothing is less than the others. -/
structure TotallyOrdered (members : Value → Prop) : Prop where
  trans : Std.TransCmp (orderOn members)
  lawful : Std.LawfulEqCmp (orderOn members)
  least : ∀ value, members value → value ≠ .null → Value.null.order value = .lt

/-- Values are in the order of keys which stand for them. The key of nothing is
`none`, which is less than all other keys. -/
theorem totallyOrdered_of_key {Key : Type} [Ord Key] [Std.TransOrd Key] [Std.LawfulEqOrd Key]
    {members : Value → Prop} (key : Value → Option Key)
    (null : members .null)
    (agrees : ∀ first second, members first → members second →
      first.order second = compare (key first) (key second))
    (injective : ∀ first second, members first → members second →
      key first = key second → first = second)
    (noKey : key .null = none) :
    TotallyOrdered members where
  trans := by
    have same : orderOn members = compareOn fun value => key value.val :=
      funext fun first => funext fun second =>
        agrees first.val second.val first.property second.property
    rw [same]
    infer_instance
  lawful := {
    compare_self := fun {member} => by
      rw [orderOn, agrees _ _ member.property member.property]
      exact Std.ReflOrd.compare_self
    eq_of_compare := fun {first second} same => by
      rw [orderOn, agrees _ _ first.property second.property] at same
      exact Subtype.ext (injective _ _ first.property second.property
        (Std.LawfulEqOrd.eq_of_compare same)) }
  least := by
    intro value member other
    have other : key value ≠ none := fun same =>
      other (injective value .null member null (same.trans noKey.symm))
    rcases Option.ne_none_iff_exists'.mp other with ⟨found, isFound⟩
    rw [agrees .null value null member, noKey, isFound]
    rfl

/-- Integers and nothing. -/
def IsIntegerOrNull (value : Value) : Prop :=
  value = .null ∨ ∃ number, value = .int number

def integer? : Value → Option Int32
  | .int number => some number
  | _ => none

theorem totallyOrdered_integers : TotallyOrdered IsIntegerOrNull := by
  refine totallyOrdered_of_key integer? (.inl rfl) ?_ ?_ rfl
  · rintro _ _ (rfl | ⟨first, rfl⟩) (rfl | ⟨second, rfl⟩) <;> rfl
  · rintro _ _ (rfl | ⟨first, rfl⟩) (rfl | ⟨second, rfl⟩) same
    · rfl
    · cases same
    · cases same
    · exact congrArg Value.int (Option.some.inj same)

/-- Texts that are not blank, and nothing. -/
def IsWordsOrNull (value : Value) : Prop :=
  value = .null ∨ ∃ text, value = .str text ∧ ¬IsBlank text

def characters? : Value → Option (List Char)
  | .str text => some text.toList
  | _ => none

theorem totallyOrdered_words : TotallyOrdered IsWordsOrNull := by
  refine totallyOrdered_of_key characters? (.inl rfl) ?_ ?_ rfl
  · rintro _ _ (rfl | ⟨first, rfl, firstWords⟩) (rfl | ⟨second, rfl, secondWords⟩)
    · rfl
    · rw [order_null_text, if_neg (mt (isBlankText_iff second).mp secondWords)]
      rfl
    · rw [← Ordering.swap_inj, ← order_null_swap, order_null_text,
        if_neg (mt (isBlankText_iff first).mp firstWords)]
      rfl
    · exact order_eq_compare first.toList second.toList
  · rintro _ _ (rfl | ⟨first, rfl, _⟩) (rfl | ⟨second, rfl, _⟩) same
    · rfl
    · cases same
    · cases same
    · exact congrArg Value.str (String.toList_inj.mp (Option.some.inj same))

/-- Where neither operand is taken as a value of another type, the operands
compare the other way round when they are exchanged, and a test for the greater
does in every machine what the test for the less does with the operands
exchanged, as long as to read them changes nothing. Integers together with
nothing are totally ordered, and so are texts that are not blank together with
nothing. Equal to nothing are nothing and the blank texts, and no other value. -/
theorem comparison_consistent :
    (∀ first second : Value, Comparable first second →
      first.order second = (second.order first).swap ∧
      TestKind.greater.branch? (first.order second) =
        TestKind.less.branch? (second.order first) ∧
      ∀ {σ : Type} (answer : (request : Request) → σ → request.Answer × σ) (state : σ)
        (left right : Value) (accumulator : RegisterRef) (positive negative : Block),
        first.FoundAs answer state left → second.FoundAs answer state right →
        ((Instruction.test .greater left right positive negative).execute
            accumulator).run.runWith answer state =
          ((Instruction.test .less right left positive negative).execute
            accumulator).run.runWith answer state) ∧
    TotallyOrdered IsIntegerOrNull ∧ TotallyOrdered IsWordsOrNull ∧
    ∀ value : Value,
      (Value.null.order value = .eq ↔
        value = .null ∨ ∃ text, value = .str text ∧ IsBlank text) ∧
      (value.order .null = .eq ↔
        value = .null ∨ ∃ text, value = .str text ∧ IsBlank text) := by
  refine ⟨fun first second comparable => ?_, totallyOrdered_integers, totallyOrdered_words,
    fun value => ⟨order_null_eq_iff value, ?_⟩⟩
  · have swapped := order_swap comparable
    have branches : TestKind.greater.branch? (first.order second) =
        TestKind.less.branch? (second.order first) := by
      rw [swapped, TestKind.branch?_swap]
    refine ⟨swapped, branches, ?_⟩
    intro σ answer state left right accumulator positive negative foundLeft foundRight
    simp only [Instruction.execute, Action.order, bind_assoc, Action.runWith_resolve_bind foundLeft,
      Action.runWith_resolve_bind foundRight, pure_bind, branches]
  · rw [← order_null_eq_iff, order_null_swap]
    cases value.order .null <;> simp

/-- The accumulator, which holds zero at first, is greater than nothing, and
nothing is less than the accumulator. -/
theorem comparison_consistent_accumulator :
    let site : Site := ⟨(defaultRegisters 500).2, .ofInput [] 0⟩
    let accumulator := (defaultRegisters 500).1.accumulator
    let stops := Block.cons .stop .nil
    Comparable (.int 0) .null ∧
    site.perform ((Instruction.test .greater (.ref accumulator) .null stops .nil).execute
        accumulator) =
      site.perform ((Instruction.test .less .null (.ref accumulator) stops .nil).execute
        accumulator) := by
  intro site accumulator stops
  have comparable : Comparable (.int 0) .null := .inr rfl
  have held : (Value.int 0).FoundAs Site.answerAlone site (.ref accumulator) := rfl
  have tests := (comparison_consistent.1 (.int 0) .null comparable).2.2 Site.answerAlone site
    (.ref accumulator) .null accumulator stops .nil held rfl
  exact ⟨comparable, tests⟩

end Value

end NodeAssembly
