import NodeAssembly.Proofs.Program.Labels
import NodeAssembly.Proofs.Source.Places

/-! What the places of statements do to a program. They show only in errors and
in the sites of labels and jumps: statements that differ only in their places are
assembled alike, or fail alike at related places. -/

namespace NodeAssembly

open NodeAssembly.Text

/-- The error was found at the place. -/
structure ParseError.IsAt (error : ParseError) (place : Place) : Prop where
  line : error.line = place.1
  source : error.source = String.ofList (trim place.2)

/-- The errors say the same about related places. -/
structure ParseError.Mirrors (near : Place → Place → Prop) (first second : ParseError) : Prop where
  kind : first.kind = second.kind
  context : first.context = second.context
  places : ∃ here there, near here there ∧ first.IsAt here ∧ second.IsAt there

theorem ParseError.mirrors_ofLine {near : Place → Place → Prop} {here there : Place}
    (related : near here there) (kind : ErrorKind) :
    (ofLine here.1 here.2 kind).Mirrors near (ofLine there.1 there.2 kind) :=
  ⟨rfl, rfl, here, there, related, ⟨rfl, rfl⟩, ⟨rfl, rfl⟩⟩

theorem ParseError.Mirrors.within {near : Place → Place → Prop} {first second : ParseError}
    (mirrors : first.Mirrors near second) (context : ErrorContext) :
    (first.within context).Mirrors near (second.within context) where
  kind := mirrors.kind
  context := congrArg (List.cons context) mirrors.context
  places := by
    rcases mirrors.places with ⟨here, there, related, isHere, isThere⟩
    exact ⟨here, there, related, ⟨isHere.line, isHere.source⟩, ⟨isThere.line, isThere.source⟩⟩

/-- The sites name one label at related places. -/
structure LabelSite.Mirrors (near : Place → Place → Prop) (first second : LabelSite) : Prop where
  label : first.label = second.label
  near : near (first.line, first.raw) (second.line, second.raw)

/-- The assemblers differ only in the places of the labels and jumps that they
have seen. -/
structure Assembler.Mirrors (seen : Place → Place → Prop) (first second : Assembler) : Prop where
  registry : first.registry = second.registry
  board : first.board = second.board
  table : first.table = second.table
  file : first.file = second.file
  entries : first.entries = second.entries
  labels : List.Forall₂ (fun label other => label.1.Mirrors seen other.1 ∧ label.2 = other.2)
    first.labels second.labels
  jumps : List.Forall₂ (LabelSite.Mirrors seen) first.jumps second.jumps
  logger : first.logger = second.logger

variable {seen near : Place → Place → Prop}

namespace Assembler.Mirrors

variable {first second : Assembler}

theorem findLabel?_isSome (mirrors : first.Mirrors seen second) (label : String) :
    (first.findLabel? label).isSome = (second.findLabel? label).isSome := by
  have labels := mirrors.labels
  unfold findLabel?
  generalize first.labels = left at labels
  generalize second.labels = right at labels
  induction labels with
  | nil => rfl
  | cons head _ induction =>
      rw [List.find?_cons, List.find?_cons, head.1.label]
      split
      · rfl
      · exact induction

theorem targets_eq (mirrors : first.Mirrors seen second) : first.targets = second.targets := by
  have labels := mirrors.labels
  unfold targets
  generalize first.labels = left at labels
  generalize second.labels = right at labels
  induction labels with
  | nil => rfl
  | cons head _ induction =>
      rw [List.map_cons, List.map_cons, List.reverse_cons, List.reverse_cons, induction,
        head.1.label, head.2]

theorem create (mirrors : first.Mirrors seen second) (name : String) (state : Register) :
    (first.create name state).1 = (second.create name state).1 ∧
      (first.create name state).2.Mirrors seen (second.create name state).2 := by
  have same : (first.create name state).1 = (second.create name state).1 :=
    congrArg (fun file : RegisterFile => (file.create name state).1) mirrors.file
  refine ⟨same, ?_⟩
  exact { mirrors with
    table := congrArg₂ RegisterTable.insert mirrors.table same
    file := congrArg (fun file : RegisterFile => (file.create name state).2) mirrors.file }

theorem refl (same : ∀ place, seen place place) (assembler : Assembler) :
    assembler.Mirrors seen assembler where
  registry := rfl
  board := rfl
  table := rfl
  file := rfl
  entries := rfl
  labels := List.forall₂_same.mpr fun _ _ => ⟨⟨rfl, same _⟩, rfl⟩
  jumps := List.forall₂_same.mpr fun _ _ => ⟨rfl, same _⟩
  logger := rfl

/-- The jumps name the same labels in the same order. -/
theorem jumps_label (mirrors : first.Mirrors seen second) :
    first.jumps.map (·.label) = second.jumps.map (·.label) := by
  have jumps := mirrors.jumps
  generalize first.jumps = left at jumps
  generalize second.jumps = right at jumps
  induction jumps with
  | nil => rfl
  | cons head _ induction => rw [List.map_cons, List.map_cons, head.label, induction]

end Assembler.Mirrors

namespace Assembly

variable {α β : Type}

/-- The outcomes are alike: one result, or errors that say the same. The errors are
at places that are near each other, the sites in the assemblers at places that
were seen together. -/
inductive Reflects (seen near : Place → Place → Prop) :
    Except ParseError α × Assembler → Except ParseError α × Assembler → Prop
  | ok (result : α) {first second : Assembler} (mirrors : first.Mirrors seen second) :
      Reflects seen near (.ok result, first) (.ok result, second)
  | error {left right : ParseError} (errors : left.Mirrors near right) {first second : Assembler}
      (mirrors : first.Mirrors seen second) :
      Reflects seen near (.error left, first) (.error right, second)

/-- Both steps do the same to assemblers that mirror each other. -/
def Parallel (seen near : Place → Place → Prop) (left right : Assembly α) : Prop :=
  ∀ first second, first.Mirrors seen second →
    Reflects seen near (outcome left first) (outcome right second)

theorem parallel_pure (result : α) : Parallel seen near (pure result) (pure result) :=
  fun _ _ mirrors => .ok result mirrors

theorem parallel_throw {here there : Place} (related : near here there) (kind : ErrorKind) :
    Parallel seen near (throw (.ofLine here.1 here.2 kind) : Assembly α)
      (throw (.ofLine there.1 there.2 kind)) :=
  fun _ _ mirrors => .error (ParseError.mirrors_ofLine related kind) mirrors

theorem parallel_fail {line other : Line} (here : near line.place other.place)
    (kind : ErrorKind) : Parallel seen near (fail line kind : Assembly α) (fail other kind) :=
  parallel_throw here kind

theorem Parallel.bind {left right : Assembly α} {next other : α → Assembly β}
    (start : Parallel seen near left right) (rest : ∀ result, Parallel seen near (next result) (other result)) :
    Parallel seen near (left >>= next) (right >>= other) := by
  intro first second mirrors
  have reflects := start first second mirrors
  rw [outcome_bind, outcome_bind]
  generalize outcome left first = here at reflects
  generalize outcome right second = there at reflects
  cases reflects with
  | ok result between => exact rest result _ _ between
  | error errors between => exact .error errors between

/-- Steps may look at whatever is alike. -/
theorem parallel_get_bind {next other : Assembler → Assembly β}
    (each : ∀ first second, first.Mirrors seen second →
      Reflects seen near (outcome (next first) first) (outcome (other second) second)) :
    Parallel seen near (get >>= next) (get >>= other) := by
  intro first second mirrors
  rw [outcome_get_bind, outcome_get_bind]
  exact each first second mirrors

theorem Parallel.within {left right : Assembly α} (context : ErrorContext)
    (parallel : Parallel seen near left right) :
    Parallel seen near (within context left) (within context right) := by
  intro first second mirrors
  have reflects := parallel first second mirrors
  rw [outcome_within, outcome_within]
  generalize outcome left first = here at reflects
  generalize outcome right second = there at reflects
  cases reflects with
  | ok result after => exact .ok result after
  | error errors after => exact .error (errors.within context) after

theorem Parallel.forM {γ : Type} {relates : β → γ → Prop} {visit : β → Assembly Unit}
    {other : γ → Assembly Unit}
    (each : ∀ left right, relates left right → Parallel seen near (visit left) (other right))
    {items : List β} {others : List γ} (related : List.Forall₂ relates items others) :
    Parallel seen near (items.forM visit) (others.forM other) := by
  induction related with
  | nil => exact parallel_pure ()
  | cons head _ induction => exact (each _ _ head).bind fun _ => induction

/-! ## Declarations -/

theorem parallel_create (name : String) (state : Register) :
    Parallel seen near (create name state) (create name state) := by
  intro first second mirrors
  rcases mirrors.create name state with ⟨same, created⟩
  rw [outcome_create, outcome_create, same]
  exact .ok _ created

section

variable {line other : Line}

theorem parallel_declarePin (here : near line.place other.place) (kind : PinKind) (pin : Nat) :
    Parallel seen near (declarePin line kind pin) (declarePin other kind pin) := by
  apply parallel_get_bind
  rintro ⟨registry, board, table, file, entries, labels, jumps, logger⟩ second mirrors
  have copied := mirrors
  rcases mirrors with ⟨rfl, rfl, rfl, rfl, rfl, _, _, rfl⟩
  cases found : second.table.find? (kind.registerName pin) with
  | some register =>
      simp only [found]
      exact .ok register copied
  | none =>
      rcases asked : second.registry.channel second.board.channels pin kind with
        ⟨conflict | channel, registry, channels⟩
      · simp only [found]
        exact parallel_fail here _ _ _ copied
      · simp only [found]
        exact parallel_create _ _ _ _ { copied with registry := rfl, board := rfl }

theorem parallel_declareRegister (here : near line.place other.place) (name : String) :
    Parallel seen near (declareRegister line name) (declareRegister other name) := by
  unfold declareRegister
  split
  · exact parallel_declarePin here _ _
  · apply parallel_get_bind
    intro first second mirrors
    rw [mirrors.table]
    split
    · exact .ok _ mirrors
    · exact parallel_create name _ first second mirrors

theorem parallel_checkFree (here : near line.place other.place) (name : String) :
    Parallel seen near (checkFree line name) (checkFree other name) := by
  apply parallel_get_bind
  intro first second mirrors
  rw [mirrors.table]
  split
  · exact parallel_fail here _ first second mirrors
  · exact .ok () mirrors

theorem parallel_declareMemory (here : near line.place other.place) (name : String)
    (size : Option Nat) :
    Parallel seen near (declareMemory line name size) (declareMemory other name size) := by
  apply (parallel_checkFree here name).bind
  intro _
  apply (parallel_checkFree here _).bind
  intro _
  apply (parallel_create _ _).bind
  intro cursor
  cases size with
  | some size => exact (parallel_create name _).bind fun _ => parallel_pure ()
  | none => exact (parallel_create name _).bind fun _ => parallel_pure ()

theorem parallel_declareLabel (noted : ∀ here there, near here there → seen here there)
    (here : near line.place other.place) (label : String) :
    Parallel seen near (declareLabel line label) (declareLabel other label) := by
  apply parallel_get_bind
  intro first second mirrors
  rw [mirrors.findLabel?_isSome]
  split
  · exact parallel_fail here _ first second mirrors
  · exact .ok () { mirrors with
      labels := .cons ⟨⟨rfl, noted _ _ here⟩, congrArg List.length mirrors.entries⟩ mirrors.labels }

theorem parallel_declare (noted : ∀ here there, near here there → seen here there)
    (here : near line.place other.place) (declaration : Declaration) :
    Parallel seen near (declare line declaration) (declare other declaration) := by
  cases declaration with
  | pin kind pin => exact (parallel_declarePin here kind pin).bind fun _ => parallel_pure ()
  | register name => exact (parallel_declareRegister here name).bind fun _ => parallel_pure ()
  | memory name size => exact parallel_declareMemory here name size
  | label name => exact parallel_declareLabel noted here name

/-! ## Operands -/

theorem parallel_value (here : near line.place other.place) (token : Token) :
    Parallel seen near (value line token) (value other token) := by
  cases token with
  | int number => exact parallel_pure _
  | float number => exact parallel_pure _
  | str text => exact parallel_pure _
  | register name => exact (parallel_declareRegister here name).bind fun _ => parallel_pure _
  | word name =>
      apply parallel_get_bind
      intro first second mirrors
      rw [mirrors.table]
      split
      · exact .ok _ mirrors
      · exact parallel_fail here _ first second mirrors
  | positive => exact parallel_fail here _
  | negative => exact parallel_fail here _

theorem parallel_register (here : near line.place other.place) (index : Nat) (token : Token) :
    Parallel seen near (register line index token) (register other index token) := by
  apply (parallel_value here token).bind
  intro operand
  split
  · exact parallel_pure _
  · exact parallel_fail here _

theorem parallel_pinKind? (register : RegisterRef) :
    Parallel seen near (pinKind? register) (pinKind? register) := by
  apply parallel_get_bind
  intro first second mirrors
  rw [mirrors.file]
  exact .ok _ mirrors

theorem parallel_pin (here : near line.place other.place) (index : Nat) (token : Token) :
    Parallel seen near (pin line index token) (pin other index token) := by
  apply (parallel_register here index token).bind
  intro register
  apply (parallel_pinKind? register).bind
  intro kind
  split
  · exact parallel_pure _
  · exact parallel_fail here _

theorem parallel_bus (here : near line.place other.place) (index : Nat) (token : Token) :
    Parallel seen near (bus line index token) (bus other index token) := by
  apply (parallel_register here index token).bind
  intro register
  apply (parallel_pinKind? register).bind
  intro kind
  split
  · exact parallel_pure _
  · exact parallel_fail here _

theorem parallel_castType (here : near line.place other.place) (name : String) :
    Parallel seen near (castType line name) (castType other name) := by
  unfold castType
  split
  · exact parallel_pure _
  · exact parallel_fail here _

theorem parallel_castOperand (here : near line.place other.place) (token : Token) :
    Parallel seen near (castOperand line token) (castOperand other token) := by
  cases token with
  | word name =>
      apply parallel_get_bind
      intro first second mirrors
      rw [mirrors.table]
      split
      · exact parallel_value here _ first second mirrors
      · exact parallel_castType here _ first second mirrors
  | str name => exact parallel_castType here name
  | int number => exact parallel_value here (.int number)
  | float number => exact parallel_value here (.float number)
  | register name => exact parallel_value here (.register name)
  | positive => exact parallel_value here .positive
  | negative => exact parallel_value here .negative

theorem parallel_jumpLabel (noted : ∀ here there, near here there → seen here there)
    (here : near line.place other.place) (token : Token) :
    Parallel seen near (jumpLabel line token) (jumpLabel other token) := by
  cases token with
  | word label =>
      intro first second mirrors
      exact .ok label { mirrors with jumps := .cons ⟨rfl, noted _ _ here⟩ mirrors.jumps }
  | _ => exact parallel_fail here _

/-! ## Instructions -/

theorem parallel_mnemonic (here : near line.place other.place) (tokens : List Token) :
    Parallel seen near (mnemonic line tokens) (mnemonic other tokens) := by
  unfold mnemonic
  split
  · split
    · exact parallel_pure _
    · exact parallel_fail here _
  · exact parallel_fail here _
  · exact parallel_fail here _

theorem parallel_plainInstruction (noted : ∀ here there, near here there → seen here there)
    (here : near line.place other.place) (opcode : OpCode) (operands : List Token) :
    Parallel seen near (plainInstruction line opcode operands)
      (plainInstruction other opcode operands) := by
  unfold plainInstruction
  split
  case h_1 => exact parallel_pure _
  case h_2 => exact parallel_pure _
  case h_3 => exact parallel_pure _
  case h_4 source target =>
    apply (parallel_value here source).bind
    intro _
    exact (parallel_register here 1 target).bind fun _ => parallel_pure _
  case h_5 left right =>
    apply (parallel_register here 0 left).bind
    intro _
    exact (parallel_register here 1 right).bind fun _ => parallel_pure _
  case h_6 label => exact (parallel_jumpLabel noted here label).bind fun _ => parallel_pure _
  case h_8 bus => exact (parallel_bus here 0 bus).bind fun _ => parallel_pure _
  case h_9 pin on off =>
    apply (parallel_pin here 0 pin).bind
    intro _
    apply (parallel_value here on).bind
    intro _
    exact (parallel_value here off).bind fun _ => parallel_pure _
  case h_15 position replacement =>
    apply (parallel_value here position).bind
    intro _
    exact (parallel_value here replacement).bind fun _ => parallel_pure _
  case h_16 kind => exact (parallel_castOperand here kind).bind fun _ => parallel_pure _
  case h_17 target => exact (parallel_register here 0 target).bind fun _ => parallel_pure _
  case h_18 target => exact (parallel_register here 0 target).bind fun _ => parallel_pure _
  case h_19 => exact parallel_fail here _
  -- What remains has one operand, which is a value.
  all_goals exact (parallel_value here _).bind fun _ => parallel_pure _

end

end Assembly

open Assembly

mutual

theorem Statement.Mirrors.parallel (noted : ∀ here there, near here there → seen here there)
    {statement other : Statement} (mirrors : statement.Mirrors near other) :
    Parallel seen near statement.assemble other.assemble := by
  match mirrors with
  | .illegible here slice => exact parallel_fail here _
  | .stray here => exact parallel_fail here _
  | .instruction here tokens below =>
      simp only [Statement.assemble]
      refine (parallel_mnemonic here tokens).bind fun (opcode, operands) => ?_
      split
      next kind left right _ =>
        apply (parallel_value here left).bind
        intro _
        apply (parallel_value here right).bind
        intro _
        exact (Branches.Mirrors.parallel noted below).bind fun (positive, negative) => parallel_pure _
      next => exact parallel_plainInstruction noted here _ _

theorem Branches.Mirrors.parallel (noted : ∀ here there, near here there → seen here there)
    {branches others : Branches} (mirrors : branches.Mirrors near others) :
    Parallel seen near branches.assemble others.assemble := by
  match mirrors with
  | .nil => exact parallel_pure _
  | .cons sign head tail =>
      simp only [Branches.assemble]
      apply ((Statement.Mirrors.parallel noted head).within .branch).bind
      intro instruction
      refine (Branches.Mirrors.parallel noted tail).bind fun (positive, negative) => ?_
      cases sign with
      | positive => exact parallel_pure _
      | negative => exact parallel_pure _

end

namespace Assembly

theorem parallel_declarations (noted : ∀ here there, near here there → seen here there)
    {line other : Line} (here : near line.place other.place) (declarations : List Declaration) :
    Parallel seen near
      (declarations.forM fun declaration => within .declaration (declare line declaration))
      (declarations.forM fun declaration => within .declaration (declare other declaration)) := by
  induction declarations with
  | nil => exact parallel_pure ()
  | cons head _ induction => exact ((parallel_declare noted here head).within _).bind fun _ => induction

/-- Entries are noted with the number of their line, so that has to be the same. -/
theorem parallel_item (noted : ∀ here there, near here there → seen here there)
    {item other : Item} (mirrors : item.Mirrors near other)
    (number : item.line.number = other.line.number) :
    Parallel seen near (Assembly.item item) (Assembly.item other) := by
  rcases item with ⟨line, declarations, body⟩
  rcases other with ⟨otherLine, others, otherBody⟩
  rcases mirrors with ⟨here, rfl, mirrored⟩
  apply (parallel_declarations noted here declarations).bind
  intro _
  cases mirrored with
  | blank => exact parallel_pure ()
  | malformed construct => exact parallel_fail here _
  | stray => exact parallel_fail here _
  | entry once statement =>
      apply ((statement.parallel noted).within .instruction).bind
      intro instruction first second after
      have entry : Entry.mk instruction once line.number = ⟨instruction, once, otherLine.number⟩ :=
        congrArg (Entry.mk instruction once) number
      exact .ok () { after with entries := congrArg₂ List.cons entry after.entries }

/-- The labels and jumps that are noted may be what the errors are about. -/
theorem parallel_checkLabels : Parallel near near checkLabels checkLabels := by
  apply parallel_get_bind
  intro first second mirrors
  have jumps := List.forall₂_reverse_iff.mpr mirrors.jumps
  have labels := List.forall₂_reverse_iff.mpr mirrors.labels
  refine Parallel.bind (.forM ?_ jumps) (fun _ => .forM ?_ labels) first second mirrors
  · intro jump other same
    rw [← same.label, ← Option.not_isSome, ← Option.not_isSome, mirrors.findLabel?_isSome]
    split
    · exact parallel_throw same.near _
    · exact parallel_pure ()
  · rintro ⟨site, target⟩ ⟨otherSite, otherTarget⟩ ⟨same, targets⟩
    cases targets
    have label : site.label = otherSite.label := same.label
    simp only [mirrors.entries, label]
    split
    · exact parallel_throw same.near _
    · exact parallel_pure ()

variable {items others : List Item}

theorem parallel_items (noted : ∀ here there, near here there → seen here there)
    (mirrors : List.Forall₂ (Item.Mirrors near) items others)
    (numbered : ∀ here there, near here there → here.1 = there.1) :
    Parallel seen near (items.forM Assembly.item) (others.forM Assembly.item) :=
  .forM (fun _ _ same => parallel_item noted same (numbered _ _ same.line)) mirrors

theorem parallel_program (mirrors : List.Forall₂ (Item.Mirrors near) items others)
    (numbered : ∀ here there, near here there → here.1 = there.1) :
    Parallel near near (program items) (program others) := by
  apply (parallel_items (fun _ _ same => same) mirrors numbered).bind
  intro _
  apply parallel_checkLabels.bind
  intro _
  have logs : Parallel near near logProgram logProgram := by
    intro first second after
    refine .ok () { after with board := ?_ }
    simp only [after.board, after.logger, after.entries, after.labels.length_eq, after.table]
  apply logs.bind
  intro _
  apply parallel_get_bind
  intro first second after
  have same : Program.mk first.entries.reverse.toArray first.targets first.table =
      ⟨second.entries.reverse.toArray, second.targets, second.table⟩ := by
    rw [after.entries, after.targets_eq, after.table]
  exact same ▸ .ok _ after

end Assembly

/-! ## Source texts -/

/-- What assembling a program leaves behind. -/
def Parsed.ofOutcome (outcome : Except ParseError Program × Assembler) : Parsed :=
  ⟨outcome.1.map (·, outcome.2.file), outcome.2.registry, outcome.2.board⟩

theorem Program.parse_eq (registry : PinRegistry) (board : Board) (config : Config)
    (logger : Option Logger) (source : String) :
    parse registry board config logger source =
      .ofOutcome (outcome (Assembly.program (Item.ofSource source))
        (.start registry board config (logger.map (·.within "stage" "parsing")))) := rfl

/-- The same came of both source texts, up to the places of errors. -/
structure Parsed.Mirrors (near : Place → Place → Prop) (first second : Parsed) : Prop where
  registry : first.registry = second.registry
  board : first.board = second.board
  result : (∃ result, first.result = .ok result ∧ second.result = .ok result) ∨
    ∃ error other, first.result = .error error ∧ second.result = .error other ∧
      error.Mirrors near other

theorem Program.parse_mirrors (registry : PinRegistry) (board : Board) (config : Config)
    (logger : Option Logger) {source other : String}
    (numbered : ∀ here there, near here there → here.1 = there.1)
    (lines : List.Forall₂ (Line.Mirrors near) (Line.ofSource source) (Line.ofSource other)) :
    (parse registry board config logger source).Mirrors near
      (parse registry board config logger other) := by
  let start := Assembler.start registry board config (logger.map (·.within "stage" "parsing"))
  have same : start.Mirrors near start := ⟨rfl, rfl, rfl, rfl, rfl, .nil, .nil, rfl⟩
  have reflects : Reflects near near (outcome (Assembly.program (Item.ofSource source)) start)
      (outcome (Assembly.program (Item.ofSource other)) start) :=
    parallel_program (Item.mirrors_ofLines lines) numbered start start same
  rw [parse_eq, parse_eq]
  generalize outcome (Assembly.program (Item.ofSource source)) start = here at reflects ⊢
  generalize outcome (Assembly.program (Item.ofSource other)) start = there at reflects ⊢
  cases reflects with
  | @ok result first second after =>
      refine ⟨after.registry, after.board, .inl ⟨(result, first.file), rfl, ?_⟩⟩
      exact congrArg (fun file => Except.ok (result, file)) after.file.symm
  | error errors after => exact ⟨after.registry, after.board, .inr ⟨_, _, rfl, rfl, errors⟩⟩

end NodeAssembly
