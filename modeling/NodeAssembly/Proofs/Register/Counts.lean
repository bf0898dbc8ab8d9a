import NodeAssembly.Proofs.Register.Stream
import NodeAssembly.Proofs.Value.Digits

/-! Input that is read by counts. A put of a number reads so many bytes, and
decodes them for themselves. So a character comes through only if no put ends
inside of it: all puts together yield the text of the stream exactly if each of
them ends between two characters. -/

namespace NodeAssembly

open NodeAssembly.Text

namespace InputStream

variable {stream : InputStream} {uses : List Use}

/-- All puts are by counts. -/
def ByCounts (uses : List Use) : Prop :=
  ∀ request, .put request ∈ uses → ∃ number, request = .int number

/-- All that was added to what waits. -/
def added (stream : InputStream) (uses : List Use) : List Char :=
  (stream.passages uses).flatMap Passage.text

/-- The stream has not ended before its last byte was read. -/
def Settled (stream : InputStream) : Prop :=
  stream.input.closed = true → stream.remaining = []

/-! ## One put -/

theorem put_count_of_settled (settled : stream.Settled) (number : Int32) :
    (stream.passage (.int number)).text = decode (stream.remaining.take number.toInt.toNat) ∧
      (stream.put (.int number)).remaining = stream.remaining.drop number.toInt.toNat ∧
      (stream.put (.int number)).Settled := by
  cases closed : stream.input.closed with
  | true =>
      have nothing := settled closed
      rw [passage_of_closed closed, put_of_closed closed, nothing, List.take_nil, List.drop_nil]
      exact ⟨rfl, rfl, settled⟩
  | false =>
      have same := put_count closed number
      by_cases few : stream.remaining.length < number.toInt.toNat
      · rw [if_pos few] at same
        have left : (stream.put (.int number)).remaining = [] := by
          rw [same, remaining_advance, Nat.add_zero, List.drop_length]
        have within := Nat.le_of_lt few
        rw [passage_of_advance same, List.take_of_length_le within, List.take_length,
          List.drop_of_length_le within]
        exact ⟨rfl, left, fun _ => left⟩
      · rw [if_neg few] at same
        rw [passage_of_advance same, same, remaining_advance]
        exact ⟨rfl, rfl, nofun⟩

/-! ## Several puts -/

theorem passages_append (stream : InputStream) (first second : List Use) :
    stream.passages (first ++ second) =
      stream.passages first ++ (stream.run first).passages second := by
  induction first generalizing stream with
  | nil => rfl
  | cons head tail induction =>
      cases head with
      | get => exact induction stream.get.2
      | put request => exact congrArg (List.cons _) (induction (stream.put request))

theorem run_append (stream : InputStream) (first second : List Use) :
    stream.run (first ++ second) = (stream.run first).run second :=
  List.foldl_append

theorem added_append (stream : InputStream) (first second : List Use) :
    stream.added (first ++ second) = stream.added first ++ (stream.run first).added second := by
  rw [added, passages_append, List.flatMap_append]
  rfl

theorem added_cons (stream : InputStream) (head : Use) (tail : List Use) :
    stream.added (head :: tail) = stream.added [head] ++ (stream.use head).added tail :=
  added_append stream [head] tail

theorem byCounts_append (first second : List Use) :
    ByCounts (first ++ second) ↔ ByCounts first ∧ ByCounts second := by
  simp only [ByCounts, List.mem_append, or_imp, forall_and]

theorem Settled.get (settled : stream.Settled) : stream.get.2.Settled := by
  by_cases ended : stream.Ended
  · rwa [get_of_ended ended]
  · rw [get_of_not_ended ended]
    exact settled

/-- A use reads some of the bytes and leaves the others. -/
theorem use_of_settled (settled : stream.Settled) {use : Use} (counts : ByCounts [use]) :
    ∃ count, stream.added [use] = decode (stream.remaining.take count) ∧
      (stream.use use).remaining = stream.remaining.drop count ∧ (stream.use use).Settled := by
  cases use with
  | get => exact ⟨0, rfl, remaining_get stream, settled.get⟩
  | put request =>
      rcases counts request List.mem_cons_self with ⟨number, rfl⟩
      rcases put_count_of_settled settled number with ⟨text, left, settledAfter⟩
      refine ⟨number.toInt.toNat, ?_, left, settledAfter⟩
      rw [← text]
      exact List.append_nil _

/-- At least one character comes of every character that starts in the bytes
that are read. -/
theorem firstBytes_le_added (settled : stream.Settled) (counts : ByCounts uses) :
    ∃ before, stream.remaining = before ++ (stream.run uses).remaining ∧
      firstBytes before ≤ (stream.added uses).length ∧ (stream.run uses).Settled := by
  induction uses generalizing stream with
  | nil => exact ⟨[], rfl, Nat.le_refl 0, settled⟩
  | cons head tail induction =>
      rcases (byCounts_append [head] tail).mp counts with ⟨first, others⟩
      rcases use_of_settled settled first with ⟨count, text, left, settledAfter⟩
      rcases induction settledAfter others with ⟨before, split, fewer, settledLast⟩
      have here := (firstBytes_le (stream.remaining.take count)).1
      refine ⟨stream.remaining.take count ++ before, ?_, ?_, settledLast⟩
      · have rest : (stream.run (head :: tail)).remaining =
            ((stream.use head).run tail).remaining := rfl
        rw [List.append_assoc, rest, ← split, left, List.take_append_drop]
      · rw [added_cons, text, firstBytes_append, List.length_append]
        omega

/-- Where the bytes go on inside a character, more characters come of them than
start in them. -/
theorem startsInside_le_added (settled : stream.Settled) (counts : ByCounts uses)
    (exhausted : (stream.run uses).remaining = []) :
    firstBytes stream.remaining + (startsInside stream.remaining).toNat ≤
      (stream.added uses).length := by
  induction uses generalizing stream with
  | nil =>
      have nothing : stream.remaining = [] := exhausted
      rw [nothing]
      exact Nat.le_refl 0
  | cons head tail induction =>
      rcases (byCounts_append [head] tail).mp counts with ⟨first, others⟩
      rcases use_of_settled settled first with ⟨count, text, left, settledAfter⟩
      have further := induction settledAfter others exhausted
      have here := (firstBytes_le (stream.remaining.take count)).1
      have whole := List.take_append_drop count stream.remaining
      have total := firstBytes_append (stream.remaining.take count) (stream.remaining.drop count)
      rw [whole] at total
      rw [left] at further
      rw [added_cons, text, List.length_append]
      by_cases empty : stream.remaining.take count = []
      · rw [empty, List.nil_append] at whole
        rw [whole] at further
        omega
      · have inside := startsInside_append empty (stream.remaining.drop count)
        rw [whole] at inside
        rw [inside]
        omega

/-! ## Puts that end between two characters -/

/-- The bytes are those of a text. -/
def IsText (bytes : List UInt8) : Prop :=
  ∃ text : String, bytes = encode text

theorem isText_utf8 (chars : List Char) : IsText (utf8 chars) :=
  ⟨String.ofList chars, by rw [encode_eq_utf8, String.toList_ofList]⟩

theorem isText_of_split {chars : List Char} {before rest : List UInt8}
    (split : utf8 chars = before ++ rest) : IsText rest ↔ startsInside rest = false := by
  constructor
  · rintro ⟨text, rfl⟩
    rw [encode_eq_utf8]
    exact startsInside_utf8 text.toList
  · intro outside
    rcases split_utf8 split outside with ⟨_, second, _, _, rfl⟩
    exact isText_utf8 second

/-- Bytes that are followed by those of a text are decoded as the rest of it. -/
theorem decode_append_of_isText {chars : List Char} {before rest : List UInt8}
    (split : utf8 chars = before ++ rest) (isText : IsText rest) (more : List UInt8) :
    decode (before ++ more) = decode before ++ decode more := by
  rcases split_utf8 split ((isText_of_split split).mp isText) with ⟨first, _, _, rfl, _⟩
  rw [decode_utf8_append, decode_utf8]

/-- Two parts of the bytes of a text are decoded one by one as they are together
if the first one ends between two characters or the second one is empty, and only
then. -/
theorem decode_append_eq_iff {chars : List Char} {before middle rest : List UInt8}
    (split : utf8 chars = before ++ (middle ++ rest)) :
    decode before ++ decode middle = decode (before ++ middle) ↔
      middle = [] ∨ IsText (middle ++ rest) := by
  constructor
  · intro same
    by_cases empty : middle = []
    · exact .inl empty
    · right
      apply (isText_of_split split).mpr
      rw [startsInside_append empty]
      have inFirst := (firstBytes_le before).1
      have inSecond := (firstBytes_le middle).1
      have inBoth : (decode (before ++ middle)).length = firstBytes (before ++ middle) := by
        apply length_decode_of_prefix
        rw [split, List.append_assoc]
      -- One character comes of each first byte, so none is left for a byte inside.
      rw [← same, List.length_append, firstBytes_append] at inBoth
      cases inside : startsInside middle with
      | false => rfl
      | true =>
          rw [inside, Bool.toNat_true] at inSecond
          omega
  · rintro (rfl | isText)
    · rw [List.append_nil]
      exact List.append_nil (decode before)
    · exact (decode_append_of_isText split isText middle).symm

theorem added_of_isText (settled : stream.Settled) (counts : ByCounts uses)
    (exhausted : (stream.run uses).remaining = [])
    (whole : ∀ first second, uses = first ++ second → IsText (stream.run first).remaining) :
    stream.added uses = decode stream.remaining := by
  induction uses generalizing stream with
  | nil =>
      have nothing : stream.remaining = [] := exhausted
      rw [nothing]
      rfl
  | cons head tail induction =>
      rcases (byCounts_append [head] tail).mp counts with ⟨first, others⟩
      rcases use_of_settled settled first with ⟨count, text, left, settledAfter⟩
      have further : ∀ early late, tail = early ++ late →
          IsText ((stream.use head).run early).remaining := fun early late split =>
        whole (head :: early) late (congrArg (List.cons head) split)
      have rest := induction settledAfter others exhausted further
      rcases whole [] (head :: tail) rfl with ⟨source, bytes⟩
      have bytes : stream.remaining = utf8 source.toList := by
        rw [← encode_eq_utf8]
        exact bytes
      have isText : IsText (stream.remaining.drop count) := by
        rw [← left]
        exact whole [head] tail rfl
      have split : utf8 source.toList =
          stream.remaining.take count ++ stream.remaining.drop count := by
        rw [List.take_append_drop, bytes]
      rw [added_cons, text, rest, left, ← decode_append_of_isText split isText, List.take_append_drop]

/-- Where the bytes are those of a text and all of them are read by counts, all
of the text comes through if every put ends between two characters, and only
then. -/
theorem added_eq_iff {source : String} (settled : stream.Settled)
    (bytes : stream.remaining = encode source) (counts : ByCounts uses)
    (exhausted : (stream.run uses).remaining = []) :
    stream.added uses = source.toList ↔
      ∀ first second, uses = first ++ second → IsText (stream.run first).remaining := by
  rw [encode_eq_utf8] at bytes
  constructor
  · rintro text first second rfl
    rcases (byCounts_append first second).mp counts with ⟨early, late⟩
    rw [run_append] at exhausted
    rcases firstBytes_le_added settled early with ⟨before, split, fewer, settledThen⟩
    have more := startsInside_le_added settledThen late exhausted
    -- There is one character for each first byte, so none is left for a byte inside.
    have length := firstBytes_utf8 source.toList
    rw [← bytes, split, firstBytes_append, ← text, added_append, List.length_append] at length
    rw [bytes] at split
    apply (isText_of_split split).mpr
    cases inside : startsInside (stream.run first).remaining with
    | false => rfl
    | true =>
        rw [inside, Bool.toNat_true] at more
        omega
  · intro whole
    rw [added_of_isText settled counts exhausted whole, bytes, decode_utf8]

/-- Two puts by counts add what one put by their sum adds if the first one ends
between two characters or the second one reads nothing, and only then. -/
theorem added_twice_iff {source : String} (settled : stream.Settled)
    (bytes : stream.remaining = encode source) {first second : Int32}
    (natural : 0 ≤ first.toInt ∧ 0 ≤ second.toInt)
    (fits : InRange (first.toInt + second.toInt)) :
    stream.added [.put (.int first), .put (.int second)] =
        stream.added [.put (.int (first + second))] ↔
      second = 0 ∨ IsText (stream.put (.int first)).remaining := by
  have sum : (first + second).toInt.toNat = first.toInt.toNat + second.toInt.toNat := by
    rcases fits with ⟨_, most⟩
    rw [Int32.toInt_add, Int.bmod_eq_of_le (by omega) (by omega)]
    omega
  rcases put_count_of_settled settled first with ⟨firstText, left, settledAfter⟩
  rcases put_count_of_settled settledAfter second with ⟨secondText, _, _⟩
  rcases put_count_of_settled settled (first + second) with ⟨onceText, _, _⟩
  have twice : stream.added [.put (.int first), .put (.int second)] =
      decode (stream.remaining.take first.toInt.toNat) ++
        decode ((stream.remaining.drop first.toInt.toNat).take second.toInt.toNat) := by
    rw [← firstText, ← left, ← secondText]
    exact congrArg (_ ++ ·) (List.append_nil _)
  have once : stream.added [.put (.int (first + second))] =
      decode (stream.remaining.take first.toInt.toNat ++
        (stream.remaining.drop first.toInt.toNat).take second.toInt.toNat) := by
    rw [← List.take_add, ← sum, ← onceText]
    exact List.append_nil _
  rw [twice, once, left]
  have split := List.take_append_drop first.toInt.toNat stream.remaining
  rw [bytes, encode_eq_utf8] at split ⊢
  generalize (utf8 source.toList).take first.toInt.toNat = before at split ⊢
  generalize (utf8 source.toList).drop first.toInt.toNat = rest at split ⊢
  have cut := List.take_append_drop second.toInt.toNat rest
  have parts : utf8 source.toList =
      before ++ (rest.take second.toInt.toNat ++ rest.drop second.toInt.toNat) := by
    rw [cut, split]
  rw [decode_append_eq_iff parts, cut, List.take_eq_nil_iff, or_assoc]
  have zero : second.toInt.toNat = 0 ↔ second = 0 := by
    rw [← Int32.toInt_inj, Int32.toInt_zero]
    omega
  have ended : rest = [] → IsText rest := by
    rintro rfl
    exact isText_utf8 []
  rw [zero, or_iff_right_of_imp ended]

/-- Counted input. A put of a number decodes so many bytes, or all if there are
fewer, and comes to the end in that case. So from the bytes of a text the puts
together yield the text if each of them ends between two characters, and
otherwise they do not; and two puts yield what one put of their sum yields unless
the first one ends inside a character and the second one reads on there. -/
theorem counted_input_yields_text (stream : InputStream) (isOpen : stream.input.closed = false) :
    (∀ number : Int32,
      (stream.put (.int number)).input.waiting.toList = stream.input.waiting.toList ++
          decode (stream.remaining.take number.toInt.toNat) ∧
        (stream.put (.int number)).remaining = stream.remaining.drop number.toInt.toNat ∧
        ((stream.put (.int number)).input.closed = true ↔
          stream.remaining.length < number.toInt.toNat)) ∧
    ∀ source : String, stream.remaining = encode source →
      (∀ uses, ByCounts uses → (stream.run uses).remaining = [] →
        (stream.added uses = source.toList ↔ ∀ first second, uses = first ++ second →
          ∃ rest : String, (stream.run first).remaining = encode rest)) ∧
      ∀ first second : Int32, 0 ≤ first.toInt ∧ 0 ≤ second.toInt →
        InRange (first.toInt + second.toInt) →
        (stream.added [.put (.int first), .put (.int second)] =
            stream.added [.put (.int (first + second))] ↔
          second = 0 ∨ ∃ rest : String, (stream.put (.int first)).remaining = encode rest) := by
  have settled : stream.Settled := by
    intro closed
    rw [isOpen] at closed
    cases closed
  refine ⟨fun number => ?_, fun source bytes => ⟨fun uses counts exhausted => ?_,
    fun first second natural fits => ?_⟩⟩
  · rcases put_count_of_settled settled number with ⟨text, left, _⟩
    rw [toList_waiting_put, text]
    refine ⟨rfl, left, ?_⟩
    rw [put_count isOpen]
    split
    next few => exact iff_of_true rfl few
    next enough => exact iff_of_false Bool.false_ne_true enough
  · exact added_eq_iff settled bytes counts exhausted
  · exact added_twice_iff settled bytes natural fits

/-- Counts that fit the characters of a text, one of one byte and one of two. -/
theorem counted_input_yields_text_fitting :
    let stream : InputStream := ⟨.ofSource (.bytes (encode "aé")), .ofInput []⟩
    stream.added [.put (.int 1), .put (.int 2)] = ['a', 'é'] ∧
      stream.added [.put (.int 1), .put (.int 2)] = stream.added [.put (.int (1 + 2))] := by
  intro stream
  have bytes : encode "aé" = [97, 195, 169] := encode_eq_utf8 _
  have counts : ByCounts [.put (.int 1), .put (.int 2)] := by
    intro request member
    rcases List.mem_cons.mp member with same | other
    · cases same
      exact ⟨1, rfl⟩
    · cases List.mem_singleton.mp other
      exact ⟨2, rfl⟩
  have afterOne : (stream.put (.int 1)).remaining = encode "é" := by
    have rest : encode "é" = [195, 169] := encode_eq_utf8 _
    change InputStream.remaining (put ⟨.ofSource (.bytes (encode "aé")), .ofInput []⟩ _) = _
    rw [bytes, rest]
    decide
  have afterBoth : (stream.run [.put (.int 1), .put (.int 2)]).remaining = [] := by
    change InputStream.remaining (run ⟨.ofSource (.bytes (encode "aé")), .ofInput []⟩ _) = _
    rw [bytes]
    decide
  have between : ∀ first second, [.put (.int 1), .put (.int 2)] = first ++ second →
      ∃ rest : String, (stream.run first).remaining = encode rest := by
    intro first second split
    rcases first with _ | ⟨one, _ | ⟨two, _ | ⟨three, more⟩⟩⟩
    · exact ⟨"aé", rfl⟩
    · cases split
      exact ⟨"é", afterOne⟩
    · cases split
      exact ⟨"", afterBoth.trans (encode_eq_utf8 "").symm⟩
    · cases split
  rcases (counted_input_yields_text stream rfl).2 "aé" rfl with ⟨every, sum⟩
  exact ⟨(every _ counts afterBoth).mpr between,
    (sum 1 2 (by decide) (by decide)).mpr (.inr ⟨"é", afterOne⟩)⟩

/-- A character of two bytes that is read in two puts comes out as two
replacements. -/
theorem split_character_is_replaced :
    let stream : InputStream := ⟨.ofSource (.bytes (encode "é")), .ofInput []⟩
    stream.input.closed = false ∧ stream.remaining = encode "é" ∧
      (stream.run [.put (.int 1), .put (.int 1)]).remaining = [] ∧
      stream.added [.put (.int 1), .put (.int 1)] = [replacement, replacement] ∧
      stream.added [.put (.int 1), .put (.int 1)] ≠ "é".toList ∧
      stream.added [.put (.int (1 + 1))] = "é".toList := by
  have bytes : encode "é" = [195, 169] := encode_eq_utf8 _
  rw [bytes]
  decide

end InputStream

end NodeAssembly
