import NodeAssembly.Instruction.Script
import NodeAssembly.Proofs.Register.Access
import NodeAssembly.Proofs.Text.Utf8

/-! Input registers as streams of bytes. A put reads up to the first occurrence
of its delimiter, or to the end of the stream, and adds what it reads to the text
that waits. Where the bytes are those of a text, no character is ever split at a
delimiter. Once a get finds nothing, all later ones find nothing. -/

namespace NodeAssembly

open NodeAssembly.Text

/-- An input register, and the console that it may read from. -/
structure InputStream where
  input : Input
  console : Console

namespace InputStream

/-- The bytes that have not been read. -/
def remaining (stream : InputStream) : List UInt8 :=
  stream.input.source.remaining stream.console

def put (stream : InputStream) (request : Value) : InputStream :=
  let (input, console) := stream.input.prepare stream.console request
  ⟨input, console⟩

def get (stream : InputStream) : Value × InputStream :=
  let (value, input) := stream.input.read
  (value, ⟨input, stream.console⟩)

/-- What may be done with an input register. Values are resolved. -/
inductive Use where
  | put (request : Value)
  | get

def use (stream : InputStream) : Use → InputStream
  | .put request => stream.put request
  | .get => stream.get.2

/-- The register after several uses, one after the other. -/
def run (stream : InputStream) (uses : List Use) : InputStream :=
  uses.foldl use stream

/-- What a put reads: the text that it adds to what waits, and the delimiter
that it came to, if it came to one. -/
structure Passage where
  text : List Char
  delimiter : List Char
deriving DecidableEq

def Passage.chars (passage : Passage) : List Char :=
  passage.text ++ passage.delimiter

/-- A delimiter was found unless the stream came to its end. -/
def found (closed : Bool) : Value → List Char
  | .str delimiter => if closed then [] else delimiter.toList
  | _ => []

def passage (stream : InputStream) (request : Value) : Passage where
  text := (stream.put request).input.waiting.toList.drop stream.input.waiting.length
  delimiter := found (stream.put request).input.closed request

/-- What the puts among some uses read. -/
def passages : InputStream → List Use → List Passage
  | _, [] => []
  | stream, .put request :: uses => stream.passage request :: (stream.put request).passages uses
  | stream, .get :: uses => stream.get.2.passages uses

end InputStream

/-! ## Reading bytes -/

theorem InputSource.remaining_consume (source : InputSource) (console : Console) (count : Nat) :
    (source.consume console count).1.remaining (source.consume console count).2 =
      (source.remaining console).drop count := by
  cases source with
  | bytes rest => rfl
  | console ahead =>
      -- As many blocks are taken from the console as the bytes need.
      have enough : count - ahead.length ≤
          (count - ahead.length + blockSize - 1) / blockSize * blockSize := by
        rw [blockSize]
        omega
      simp only [consume, remaining]
      generalize (count - ahead.length + blockSize - 1) / blockSize * blockSize = taken at enough
      have others : console.input.drop taken =
          (console.input.drop (count - ahead.length)).drop (taken - (count - ahead.length)) := by
        rw [List.drop_drop, Nat.add_sub_cancel' enough]
      rw [List.drop_append, List.drop_append, List.append_assoc, List.drop_take, others,
        List.take_append_drop]

/-! The bytes are read one by one, until those that were read end with the
delimiter. That is where it occurs first. -/

section

variable {delimiter bytes before after : List UInt8}

/-- The delimiter stands between the two parts of the bytes, and nowhere before. -/
structure FirstAt (delimiter before after bytes : List UInt8) : Prop where
  occurs : bytes = before ++ (delimiter ++ after)
  earliest : ∀ earlier later, bytes = earlier ++ (delimiter ++ later) →
    before.length ≤ earlier.length

/-- The bytes that were read end with the delimiter. The last one stands
first. -/
theorem isPrefixOf_reverse_iff {scratch : List UInt8} :
    delimiter.reverse.isPrefixOf scratch ↔ delimiter <:+ scratch.reverse := by
  rw [List.isPrefixOf_iff_prefix, ← List.reverse_suffix, List.reverse_reverse]

theorem Scratch.read_of_firstAt {scratch : List UInt8}
    (first : FirstAt delimiter before after (scratch.reverse ++ bytes))
    (early : scratch.length < before.length + delimiter.length) :
    read delimiter scratch bytes = ⟨before, before.length + delimiter.length, false⟩ := by
  induction bytes generalizing scratch with
  | nil =>
      have whole := congrArg List.length first.occurs
      simp only [List.length_append, List.length_reverse, List.length_nil] at whole
      omega
  | cons byte rest induction =>
      have split : scratch.reverse ++ byte :: rest = (byte :: scratch).reverse ++ rest := by
        rw [List.reverse_cons, List.append_assoc, List.singleton_append]
      rw [split] at first
      rw [read]
      by_cases ends : delimiter <:+ (byte :: scratch).reverse
      · rcases ends with ⟨earlier, same⟩
        have notLater : before.length ≤ earlier.length :=
          first.earliest earlier rest (by rw [← same, List.append_assoc])
        have size := congrArg List.length same
        simp only [List.length_append, List.length_reverse, List.length_cons] at size
        have here : earlier = before := by
          have occurs := first.occurs
          rw [← same, List.append_assoc] at occurs
          exact List.append_inj_left occurs (by omega)
        subst here
        rw [if_pos (isPrefixOf_reverse_iff.mpr ⟨earlier, same⟩),
          ← List.reverse_reverse (byte :: scratch), ← same]
        simp [Nat.add_comm]
      · rw [if_neg (mt isPrefixOf_reverse_iff.mp ends)]
        apply induction first
        -- The delimiter would end here otherwise.
        refine Nat.lt_of_le_of_ne early fun here => ends ⟨before, ?_⟩
        have occurs := first.occurs
        rw [← List.append_assoc] at occurs
        refine (List.append_inj_left occurs ?_).symm
        rw [List.length_append, List.length_reverse]
        exact here

theorem Scratch.read_of_absent {scratch : List UInt8}
    (absent : ¬delimiter <:+: scratch.reverse ++ bytes) :
    read delimiter scratch bytes =
      ⟨scratch.reverse ++ bytes, (scratch.reverse ++ bytes).length, true⟩ := by
  induction bytes generalizing scratch with
  | nil => rw [read, List.append_nil, List.length_reverse]
  | cons byte rest induction =>
      have split : scratch.reverse ++ byte :: rest = (byte :: scratch).reverse ++ rest := by
        rw [List.reverse_cons, List.append_assoc, List.singleton_append]
      rw [split] at absent ⊢
      have goesOn : ¬delimiter <:+ (byte :: scratch).reverse := fun ends =>
        absent (ends.isInfix.trans (List.prefix_append _ rest).isInfix)
      rw [read, if_neg (mt isPrefixOf_reverse_iff.mp goesOn), induction absent]

theorem exists_firstAt (occurs : delimiter <:+: bytes) :
    ∃ before after, FirstAt delimiter before after bytes := by
  induction bytes with
  | nil =>
      rw [List.infix_nil] at occurs
      exact ⟨[], [], by rw [occurs]; rfl, fun _ _ _ => Nat.zero_le _⟩
  | cons byte rest induction =>
      by_cases here : delimiter <+: byte :: rest
      · rcases here with ⟨after, same⟩
        exact ⟨[], after, same.symm, fun _ _ _ => Nat.zero_le _⟩
      · rcases List.infix_cons_iff.mp occurs with now | later
        · exact absurd now here
        · rcases induction later with ⟨before, after, rfl, earliest⟩
          refine ⟨byte :: before, after, rfl, fun earlier later same => ?_⟩
          cases earlier with
          | nil => exact absurd ⟨later, same.symm⟩ here
          | cons head tail =>
              exact Nat.succ_le_succ (earliest tail later (List.cons.inj same).2)

end

namespace InputStream

variable {stream : InputStream} {request : Value}

/-- Some bytes are read as text, and some more are passed over. -/
def advance (stream : InputStream) (count skipped : Nat) (closed : Bool) : InputStream :=
  let (input, console) := stream.input.accept stream.console (stream.remaining.take count)
    (count + skipped) closed
  ⟨input, console⟩

theorem toList_waiting_advance (stream : InputStream) (count skipped : Nat) (closed : Bool) :
    (stream.advance count skipped closed).input.waiting.toList =
      stream.input.waiting.toList ++ decode (stream.remaining.take count) := by
  change (stream.input.waiting ++ String.ofList (decode (stream.remaining.take count))).toList = _
  rw [String.toList_append, String.toList_ofList]

theorem remaining_advance (stream : InputStream) (count skipped : Nat) (closed : Bool) :
    (stream.advance count skipped closed).remaining = stream.remaining.drop (count + skipped) :=
  stream.input.source.remaining_consume stream.console (count + skipped)

theorem closed_advance (stream : InputStream) (count skipped : Nat) (closed : Bool) :
    (stream.advance count skipped closed).input.closed = closed :=
  rfl

/-- There is nothing left to read, and nothing but blanks waits. -/
def Ended (stream : InputStream) : Prop :=
  stream.input.closed = true ∧ isAllBlank stream.input.waiting.toList = true

theorem get_of_ended (ended : stream.Ended) : stream.get = (.null, stream) := by
  rw [get, Input.read, ended.1, ended.2]
  rfl

theorem get_of_not_ended (notEnded : ¬stream.Ended) :
    stream.get =
      (.str stream.input.waiting, ⟨{ stream.input with waiting := "" }, stream.console⟩) := by
  have more : ¬(stream.input.closed && isAllBlank stream.input.waiting.toList) = true := by
    rwa [Bool.and_eq_true]
  rw [get, Input.read, if_neg more]

theorem remaining_get (stream : InputStream) : stream.get.2.remaining = stream.remaining := by
  by_cases ended : stream.Ended
  · rw [get_of_ended ended]
  · rw [get_of_not_ended ended]
    rfl

theorem put_of_closed (closed : stream.input.closed = true) (request : Value) :
    stream.put request = stream := by
  rcases stream with ⟨⟨source, waiting, _⟩, console⟩
  cases closed
  cases request <;> rfl

theorem put_count (isOpen : stream.input.closed = false) (number : Int32) :
    stream.put (.int number) =
      if stream.remaining.length < number.toInt.toNat then
        stream.advance stream.remaining.length 0 true
      else stream.advance number.toInt.toNat 0 false := by
  have bytes : stream.put (.int number) =
      let bytes := stream.remaining.take number.toInt.toNat
      let (input, console) := stream.input.accept stream.console bytes bytes.length
        (bytes.length < number.toInt.toNat)
      ⟨input, console⟩ := by
    rcases stream with ⟨⟨source, waiting, _⟩, console⟩
    cases isOpen
    rfl
  simp only [bytes, List.length_take]
  by_cases few : stream.remaining.length < number.toInt.toNat
  · rw [if_pos few, advance, List.take_of_length_le (Nat.le_of_lt few), List.take_length,
      Nat.min_eq_right (Nat.le_of_lt few), decide_eq_true few]
    rfl
  · rw [if_neg few, advance, Nat.min_eq_left (Nat.le_of_not_lt few),
      decide_eq_false (Nat.lt_irrefl _)]
    rfl

theorem put_empty (isOpen : stream.input.closed = false) :
    stream.put (.str "") = stream.advance 0 0 false := by
  rcases stream with ⟨⟨source, waiting, _⟩, console⟩
  cases isOpen
  rfl

theorem put_delimiter (isOpen : stream.input.closed = false) {delimiter : String}
    (filled : delimiter ≠ "") :
    stream.put (.str delimiter) =
      let scratch := Scratch.read (encode delimiter) [] stream.remaining
      let (input, console) := stream.input.accept stream.console scratch.bytes scratch.count
        scratch.closed
      ⟨input, console⟩ := by
  rcases stream with ⟨⟨source, waiting, _⟩, console⟩
  cases isOpen
  have nonempty : delimiter.isEmpty = false := by
    rw [← Bool.not_eq_true, String.isEmpty_iff]
    exact filled
  simp only [put, Input.prepare, nonempty, Bool.false_eq_true, if_false, Input.readTo, remaining]

section

variable {delimiter : String} {before rest : List UInt8}

theorem put_of_firstAt (isOpen : stream.input.closed = false) (filled : delimiter ≠ "")
    (first : FirstAt (encode delimiter) before rest stream.remaining) :
    stream.put (.str delimiter) =
      stream.advance before.length (encode delimiter).length false := by
  have bytes : 0 < (encode delimiter).length := by
    rw [List.length_pos_iff, encode_eq_utf8]
    exact utf8_ne_nil (mt String.toList_eq_nil_iff.mp filled)
  have read : Scratch.read (encode delimiter) [] stream.remaining = _ :=
    Scratch.read_of_firstAt first (Nat.lt_add_left _ bytes)
  rw [put_delimiter isOpen filled, read, advance, first.occurs, List.take_left]

theorem put_of_absent (isOpen : stream.input.closed = false) (filled : delimiter ≠ "")
    (absent : ¬encode delimiter <:+: stream.remaining) :
    stream.put (.str delimiter) = stream.advance stream.remaining.length 0 true := by
  have read : Scratch.read (encode delimiter) [] stream.remaining = _ :=
    Scratch.read_of_absent absent
  rw [put_delimiter isOpen filled, read, advance, List.take_length]
  rfl

/-- The bytes before the first occurrence are added to what waits, and those
after it are left. -/
theorem put_found (isOpen : stream.input.closed = false) (filled : delimiter ≠ "")
    (first : FirstAt (encode delimiter) before rest stream.remaining) :
    (stream.put (.str delimiter)).input.waiting.toList =
        stream.input.waiting.toList ++ decode before ∧
      (stream.put (.str delimiter)).remaining = rest ∧
      (stream.put (.str delimiter)).input.closed = false := by
  rw [put_of_firstAt isOpen filled first, toList_waiting_advance, remaining_advance, first.occurs]
  refine ⟨?_, ?_, rfl⟩
  · rw [List.take_left]
  · rw [← List.append_assoc, ← List.length_append, List.drop_left]

/-- Without an occurrence everything is read, and the stream has ended. -/
theorem put_absent (isOpen : stream.input.closed = false) (filled : delimiter ≠ "")
    (absent : ¬encode delimiter <:+: stream.remaining) :
    (stream.put (.str delimiter)).input.waiting.toList =
        stream.input.waiting.toList ++ decode stream.remaining ∧
      (stream.put (.str delimiter)).remaining = [] ∧
      (stream.put (.str delimiter)).input.closed = true := by
  rw [put_of_absent isOpen filled absent, toList_waiting_advance, remaining_advance]
  refine ⟨?_, ?_, rfl⟩
  · rw [List.take_length]
  · rw [Nat.add_zero, List.drop_length]

end

/-- A request that is no text counts as the integer that stands for it. -/
theorem put_number (noText : ∀ delimiter, request ≠ .str delimiter) :
    stream.put request = stream.put (.int request.toInt) := by
  cases request with
  | str delimiter => exact absurd rfl (noText delimiter)
  | _ => rfl

theorem exists_advance (isOpen : stream.input.closed = false) (request : Value) :
    ∃ count skipped closed, stream.put request = stream.advance count skipped closed := by
  by_cases isText : ∃ delimiter, request = .str delimiter
  · rcases isText with ⟨delimiter, rfl⟩
    by_cases empty : delimiter = ""
    · rw [empty]
      exact ⟨0, 0, false, put_empty isOpen⟩
    · by_cases occurs : encode delimiter <:+: stream.remaining
      · rcases exists_firstAt occurs with ⟨before, after, first⟩
        exact ⟨_, _, false, put_of_firstAt isOpen empty first⟩
      · exact ⟨_, 0, true, put_of_absent isOpen empty occurs⟩
  · rw [put_number fun delimiter same => isText ⟨delimiter, same⟩, put_count isOpen]
    split
    · exact ⟨_, 0, true, rfl⟩
    · exact ⟨_, 0, false, rfl⟩

/-! ## What a put reads -/

theorem passage_text {text : List Char}
    (waits : (stream.put request).input.waiting.toList = stream.input.waiting.toList ++ text) :
    (stream.passage request).text = text := by
  rw [passage, waits, ← String.length_toList, List.drop_left]

/-- A put only adds to the text that waits. -/
theorem toList_waiting_put (stream : InputStream) (request : Value) :
    (stream.put request).input.waiting.toList =
      stream.input.waiting.toList ++ (stream.passage request).text := by
  have adds : ∃ text, (stream.put request).input.waiting.toList =
      stream.input.waiting.toList ++ text := by
    cases closed : stream.input.closed with
    | true =>
        rw [put_of_closed closed]
        exact ⟨[], (List.append_nil _).symm⟩
    | false =>
        rcases exists_advance closed request with ⟨count, skipped, ends, same⟩
        rw [same]
        exact ⟨_, stream.toList_waiting_advance count skipped ends⟩
  rcases adds with ⟨text, waits⟩
  rw [waits, passage_text waits]

theorem passage_of_advance {count skipped : Nat} {closed : Bool}
    (same : stream.put request = stream.advance count skipped closed) :
    (stream.passage request).text = decode (stream.remaining.take count) := by
  apply passage_text
  rw [same, toList_waiting_advance]

theorem passage_of_closed (closed : stream.input.closed = true) (request : Value) :
    stream.passage request = ⟨[], []⟩ := by
  have noText : (stream.passage request).text = [] := by
    apply passage_text
    rw [put_of_closed closed, List.append_nil]
  have noDelimiter : (stream.passage request).delimiter = [] := by
    rw [passage, put_of_closed closed, closed]
    cases request <;> rfl
  calc stream.passage request
      = ⟨(stream.passage request).text, (stream.passage request).delimiter⟩ := rfl
    _ = ⟨[], []⟩ := by rw [noText, noDelimiter]

/-- Up to a delimiter, a text is read character by character. -/
theorem passage_utf8 {chars : List Char} (source : stream.remaining = utf8 chars)
    (delimiter : String) :
    ∃ rest, (stream.put (.str delimiter)).remaining = utf8 rest ∧
      chars = (stream.passage (.str delimiter)).chars ++ rest := by
  have passed : (stream.passage (.str delimiter)).delimiter =
      if (stream.put (.str delimiter)).input.closed then [] else delimiter.toList := rfl
  rw [Passage.chars, passed]
  cases closed : stream.input.closed with
  | true =>
      rw [put_of_closed closed, passage_of_closed closed, if_pos closed]
      exact ⟨chars, source, rfl⟩
  | false =>
      by_cases empty : delimiter = ""
      · subst empty
        have same := put_empty closed
        rw [passage_of_advance same, same, remaining_advance, closed_advance]
        exact ⟨chars, source, rfl⟩
      · by_cases occurs : encode delimiter <:+: stream.remaining
        · rcases exists_firstAt occurs with ⟨before, after, first⟩
          rcases put_found closed empty first with ⟨waits, rest, isOpen⟩
          have found := first.occurs
          rw [source, encode_eq_utf8] at found
          rcases occurrence_utf8 (mt String.toList_eq_nil_iff.mp empty) found with
            ⟨early, late, rfl, rfl, rfl⟩
          refine ⟨late, rest, ?_⟩
          rw [passage_text waits, decode_utf8, isOpen, List.append_assoc]
          rfl
        · rcases put_absent closed empty occurs with ⟨waits, rest, ended⟩
          refine ⟨[], rest, ?_⟩
          rw [passage_text waits, source, decode_utf8, ended, if_pos rfl, List.append_nil,
            List.append_nil]

theorem passages_utf8 {chars : List Char} (source : stream.remaining = utf8 chars)
    {uses : List Use} (delimiters : ∀ request, .put request ∈ uses →
      ∃ delimiter, request = .str delimiter) :
    ∃ rest, (stream.run uses).remaining = utf8 rest ∧
      chars = (stream.passages uses).flatMap Passage.chars ++ rest := by
  induction uses generalizing stream chars with
  | nil => exact ⟨chars, source, rfl⟩
  | cons head tail induction =>
      have others : ∀ request, .put request ∈ tail → ∃ delimiter, request = .str delimiter :=
        fun request member => delimiters request (List.mem_cons_of_mem head member)
      cases head with
      | get =>
          have same : stream.get.2.remaining = stream.remaining := remaining_get stream
          exact induction (same.trans source) others
      | put request =>
          rcases delimiters request List.mem_cons_self with ⟨delimiter, rfl⟩
          rcases passage_utf8 source delimiter with ⟨later, left, rfl⟩
          rcases induction left others with ⟨rest, ended, rfl⟩
          refine ⟨rest, ended, ?_⟩
          rw [passages, List.flatMap_cons, List.append_assoc]

/-! ## The end of the stream -/

theorem ended_of_get (nothing : stream.get.1 = .null) : stream.Ended := by
  by_cases ended : stream.Ended
  · exact ended
  · rw [get_of_not_ended ended] at nothing
    cases nothing

theorem Ended.run (ended : stream.Ended) (uses : List Use) : stream.run uses = stream := by
  induction uses with
  | nil => rfl
  | cons head tail induction =>
      have same : stream.use head = stream := by
        cases head with
        | put request => exact put_of_closed ended.1 request
        | get => exact congrArg Prod.snd (get_of_ended ended)
      rw [InputStream.run, List.foldl_cons, same]
      exact induction

/-! ## Registers -/

/-- The register of a site is the stream. -/
def IsAt (stream : InputStream) (site : Site) (register : RegisterRef) : Prop :=
  site.file.state register = .input stream.input ∧ site.board.console = stream.console

/-- Writing to the register is a put. -/
theorem IsAt.write {site : Site} {register : RegisterRef} (isAt : stream.IsAt site register)
    (request : Value) :
    ∃ after, site.writeAlone register request = (.ok (), after) ∧
      (stream.put request).IsAt after register := by
  have made : site.file.state register ≠ .null := by
    rw [isAt.1]
    nofun
  refine ⟨(site.update register (.input (stream.put request).input)).withConsole
    (stream.put request).console, ?_, RegisterFile.state_update_self made _, rfl⟩
  simp only [Site.writeAlone, Site.write, isAt.1, isAt.2]
  rfl

/-- Reading the register is a get. -/
theorem IsAt.read {site : Site} {register : RegisterRef} (isAt : stream.IsAt site register) :
    ∃ after, site.readAlone register = (.ok stream.get.1, after) ∧
      stream.get.2.IsAt after register := by
  have made : site.file.state register ≠ .null := by
    rw [isAt.1]
    nofun
  refine ⟨site.update register (.input stream.get.2.input), ?_,
    RegisterFile.state_update_self made _, isAt.2⟩
  simp only [Site.readAlone, Site.read, isAt.1]
  rfl

/-- Delimited input. A put of a delimiter adds the bytes before its first
occurrence to the text that waits and leaves those after it, or takes all bytes
and comes to the end. So where the bytes are those of a text, what puts of
delimiters add to what waits and the delimiters that they pass over are, one
after the other, what the text starts with, and no character is replaced. Once a
get finds nothing, all later ones find nothing. -/
theorem delimited_input_splits (stream : InputStream) :
    (∀ delimiter : String, stream.input.closed = false → delimiter ≠ "" →
      (∀ before rest, FirstAt (encode delimiter) before rest stream.remaining →
        (stream.put (.str delimiter)).input.waiting.toList =
            stream.input.waiting.toList ++ decode before ∧
          (stream.put (.str delimiter)).remaining = rest ∧
          (stream.put (.str delimiter)).input.closed = false) ∧
      (¬encode delimiter <:+: stream.remaining →
        (stream.put (.str delimiter)).input.waiting.toList =
            stream.input.waiting.toList ++ decode stream.remaining ∧
          (stream.put (.str delimiter)).remaining = [] ∧
          (stream.put (.str delimiter)).input.closed = true) ∧
      (encode delimiter <:+: stream.remaining →
        ∃ before rest, FirstAt (encode delimiter) before rest stream.remaining)) ∧
    (∀ request, (stream.put request).input.waiting.toList =
      stream.input.waiting.toList ++ (stream.passage request).text) ∧
    (∀ source : String, stream.remaining = encode source → ∀ uses : List Use,
      (∀ request, .put request ∈ uses → ∃ delimiter, request = .str delimiter) →
      ∃ rest : String, (stream.run uses).remaining = encode rest ∧
        source.toList = (stream.passages uses).flatMap Passage.chars ++ rest.toList ∧
        ∀ passage ∈ stream.passages uses, replacement ∈ passage.text →
          replacement ∈ source.toList) ∧
    (stream.get.1 = .null → ∀ uses, (stream.get.2.run uses).get.1 = .null) ∧
    -- The register does the same where it stands.
    (∀ site register, stream.IsAt site register →
      (∀ request, ∃ after, site.writeAlone register request = (.ok (), after) ∧
        (stream.put request).IsAt after register) ∧
      ∃ after, site.readAlone register = (.ok stream.get.1, after) ∧
        stream.get.2.IsAt after register) := by
  refine ⟨fun delimiter isOpen filled => ?_, stream.toList_waiting_put, ?_, fun nothing uses => ?_,
    fun site register isAt => ⟨isAt.write, isAt.read⟩⟩
  · exact ⟨fun before rest => put_found isOpen filled, put_absent isOpen filled, exists_firstAt⟩
  · intro source bytes uses delimiters
    rw [encode_eq_utf8] at bytes
    rcases passages_utf8 bytes delimiters with ⟨rest, left, split⟩
    refine ⟨String.ofList rest, ?_, ?_, fun passage isPassage member => ?_⟩
    · rw [encode_eq_utf8, String.toList_ofList, left]
    · rw [String.toList_ofList, split]
    · rw [split]
      apply List.mem_append_left
      exact List.mem_flatMap.mpr ⟨passage, isPassage, List.mem_append_left _ member⟩
  · have ended := ended_of_get nothing
    rw [get_of_ended ended, ended.run uses, get_of_ended ended]

/-- A delimiter of two bytes is not found where only its first byte stands. -/
theorem delimited_input_splits_letters :
    let stream : InputStream := ⟨.ofSource (.bytes (encode "aßéb")), .ofInput []⟩
    let ended : InputStream := ⟨⟨.bytes [], " ", true⟩, .ofInput []⟩
    (stream.put (.str "é")).input.waiting.toList = ['a', 'ß'] ∧
      (stream.put (.str "é")).remaining = encode "b" ∧
      (∃ rest : String, (stream.run [.put (.str "é"), .get]).remaining = encode rest ∧
        ['a', 'ß', 'é', 'b'] =
          (stream.passages [.put (.str "é"), .get]).flatMap Passage.chars ++ rest.toList) ∧
      (ended.get.2.run [.put (.int 1)]).get.1 = .null := by
  intro stream ended
  have first : FirstAt (encode "é") [97, 195, 159] (encode "b") (encode "aßéb") := by
    have bytes : encode "aßéb" = [97, 195, 159, 195, 169, 98] := encode_eq_utf8 _
    have delimiter : encode "é" = [195, 169] := encode_eq_utf8 _
    have last : encode "b" = [98] := encode_eq_utf8 _
    rw [bytes, delimiter, last]
    refine ⟨rfl, fun earlier later same => ?_⟩
    rcases earlier with _ | ⟨one, _ | ⟨two, _ | ⟨three, rest⟩⟩⟩
    · cases same
    · cases same
    · cases same
    · simp
  have delimiters : ∀ request, .put request ∈ [Use.put (.str "é"), .get] →
      ∃ delimiter, request = .str delimiter := by
    intro request member
    rcases List.mem_cons.mp member with same | other
    · cases same
      exact ⟨"é", rfl⟩
    · cases List.mem_singleton.mp other
  have filled : "é" ≠ "" := by decide
  have blank : isAllBlank " ".toList = true := by decide
  have nothing : ended.get.1 = .null := congrArg Prod.fst (get_of_ended ⟨rfl, blank⟩)
  rcases ((delimited_input_splits stream).1 "é" rfl filled).1 _ _ first with ⟨waits, left, _⟩
  rcases (delimited_input_splits stream).2.2.1 "aßéb" rfl _ delimiters with ⟨rest, run, split, _⟩
  exact ⟨waits, left, ⟨rest, run, split⟩,
    (delimited_input_splits ended).2.2.2.1 nothing [.put (.int 1)]⟩

end InputStream

end NodeAssembly
