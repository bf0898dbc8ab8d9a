import NodeAssembly.Proofs.Program.PinNames

/-! What is left in the registry by a source text of which no program came. Pins
are bound when they are first named and stay bound. A source text with an error
therefore leaves the pins bound that it named before the error, and nothing
else: another source text is a program afterwards exactly if it was one before
and does not need one of these pins as the other kind. -/

namespace NodeAssembly

open NodeAssembly.Assembly

namespace Assembler

variable {before after : Assembler} {declaration : Declaration}

/-- A declaration binds no pin but its own. -/
theorem Declared.kind? (declared : before.Declared declaration after) {pin : Nat} {kind : PinKind}
    (bound : after.registry.kind? pin = some kind) :
    before.registry.kind? pin = some kind ∨ declaration.pin? = some (kind, pin) := by
  cases declared with
  | @pin _ ownKind ownPin channel registry channels isPin free asked =>
      have bound : registry.kind? pin = some kind := bound
      rcases PinRegistry.channel_eq_ok asked with ⟨_, rfl, _⟩ | ⟨_, _, rfl, _⟩
      · exact .inl bound
      · rw [PinRegistry.kind?_append, Option.or_eq_some_iff] at bound
        rcases bound with old | ⟨_, new⟩
        · exact .inl old
        · split at new
          next same =>
            cases new
            exact .inr (same ▸ isPin)
          next => cases new
  | known => exact .inl bound
  | plain => exact .inl bound
  | memory => exact .inl bound
  | label => exact .inl bound

theorem Declares.kind? {declarations : List Declaration}
    (declares : before.Declares declarations after) :
    ∀ pin kind, after.registry.kind? pin = some kind →
      before.registry.kind? pin = some kind ∨
        ∃ declaration ∈ declarations, declaration.pin? = some (kind, pin) := by
  refine declares.induct (fun assembler => ∀ pin kind, assembler.registry.kind? pin = some kind →
      before.registry.kind? pin = some kind ∨
        ∃ declaration ∈ declarations, declaration.pin? = some (kind, pin)) ?_ ?_ fun _ _ => .inl
  · intro earlier later declaration member declared holds pin kind bound
    rcases declared.kind? bound with old | isPin
    · exact holds pin kind old
    · exact .inr ⟨declaration, member, isPin⟩
  · intro earlier later apart holds pin kind bound
    rw [apart.registry] at bound
    exact holds pin kind bound

/-- A pin that was declared is bound, unless its name is that of a memory. -/
theorem Declares.bound_of_mem {declarations : List Declaration} {registry : PinRegistry}
    {board : Board} {config : Config} {logger : Option Logger}
    (declares : (Assembler.start registry board config logger).Declares declarations after)
    (member : declaration ∈ declarations) {kind : PinKind} {pin : Nat}
    (isPin : declaration.pin? = some (kind, pin)) (below : pin < 0x100000000)
    (noMemory : ∀ size, .memory (kind.registerName pin) size ∉ declarations) :
    after.registry.kind? pin = some kind := by
  rcases declares.find?_of_mem member (Declaration.registerName?_of_pin isPin) with
    ⟨register, found⟩
  rcases declares.pinned.connects kind pin register below found with
    ⟨channel, _, bound⟩ | ⟨size, isMemory⟩
  · rw [PinRegistry.kind?, bound]
    rfl
  · exact absurd isMemory (noMemory size)

end Assembler

namespace Program

variable {registry : PinRegistry} {board : Board} {config : Config} {logger : Option Logger}
  {source : String} {program : Program}

theorem bindings_of_parse (registry : PinRegistry) (board : Board) (config : Config)
    (logger : Option Logger) (source : String) :
    registry.bindings <+: (parse registry board config logger source).registry.bindings :=
  (constructs_program (Item.ofSource source) (beginning registry board config logger)).bindings_grow

/-- A registry with more bindings lets exactly those source texts through that
do not need a pin as something else. -/
theorem parse_extended {larger : PinRegistry} (grows : registry.bindings <+: larger.bindings)
    (board place : Board) :
    (∃ file, (parse larger place config logger source).result = .ok (program, file)) ↔
      (∃ file, (parse registry board config logger source).result = .ok (program, file)) ∧
        ∀ pin kind other, larger.kind? pin = some kind →
          (parse registry board config logger source).registry.kind? pin = some other →
            other = kind := by
  constructor
  · rintro ⟨file, parsed⟩
    have whole : (parse larger place config logger source).registry.Within
        (parse larger place config logger source).registry.kind? := fun _ _ bound => bound
    have within := whole.restrict (bindings_of_parse larger place config logger source)
    rcases parse_replay board logger parsed whole (within.restrict grows) with
      ⟨again, parsedAgain, _, needs⟩
    refine ⟨⟨again, parsedAgain⟩, fun pin kind other bound needed => ?_⟩
    exact Option.some.inj ((needs pin other needed).symm.trans (within pin kind bound))
  · rintro ⟨⟨file, parsed⟩, agree⟩
    -- What the text needs, and beside it what is bound already.
    let kinds : Nat → Option PinKind := fun pin =>
      ((parse registry board config logger source).registry.kind? pin).or (larger.kind? pin)
    have needs : (parse registry board config logger source).registry.Within kinds := by
      intro pin kind needed
      change Option.or _ _ = _
      rw [needed]
      rfl
    have within : larger.Within kinds := by
      intro pin kind bound
      change Option.or _ _ = _
      cases needed : (parse registry board config logger source).registry.kind? pin with
      | none => exact bound
      | some other => exact congrArg some (agree pin kind other bound needed)
    rcases parse_replay place logger parsed needs within with ⟨again, parsedAgain, _⟩
    exact ⟨again, parsedAgain⟩

/-- What parsing a source text leaves in the registry, also if it ends with an
error. Pins keep their channels. Pins that are bound now and were not before
are named in the source text, as far as it was read; and all pins that are named
there are bound, those with the name of a memory aside. A later source text
then becomes the program that it was before, unless it needs one of the pins as
the other kind. -/
theorem registry_after_parse (registry : PinRegistry) (board : Board) (config : Config)
    (logger : Option Logger) (source : String) :
    let after := (parse registry board config logger source).registry
    (∀ pin binding, registry.find? pin = some binding → after.find? pin = some binding) ∧
    (∃ read unread, sourceDeclarations source = read ++ unread ∧
      (∀ pin kind, after.kind? pin = some kind → registry.kind? pin = some kind ∨
        ∃ declaration ∈ read, declaration.pin? = some (kind, pin)) ∧
      ∀ declaration ∈ read, ∀ kind pin, declaration.pin? = some (kind, pin) →
        pin < 0x100000000 → (∀ size, .memory (kind.registerName pin) size ∉ read) →
        after.kind? pin = some kind) ∧
    ∀ (board place : Board) (config : Config) (logger : Option Logger) (later : String) program,
      (∃ file, (parse after place config logger later).result = .ok (program, file)) ↔
        (∃ file, (parse registry board config logger later).result = .ok (program, file)) ∧
          ∀ pin kind other, after.kind? pin = some kind →
            (parse registry board config logger later).registry.kind? pin = some other →
              other = kind := by
  intro after
  have grows := bindings_of_parse registry board config logger source
  refine ⟨fun _ _ => PinRegistry.find?_extend grows, ?_,
    fun board place _ _ _ _ => parse_extended grows board place⟩
  rcases parse_declares registry board config logger source with
    ⟨read, unread, last, split, declares, same⟩
  have same : after = last.registry := same
  rw [same]
  refine ⟨read, unread, split, declares.kind?, ?_⟩
  intro declaration member kind pin isPin below noMemory
  exact declares.bound_of_mem member isPin below noMemory

/-- A source text with an error takes a pin, which another source text can then
no longer have as the other kind. -/
theorem failed_parse_binds_pin :
    let failed := parse .empty (Board.ofInput [] 0) .default none "$x0\nbogus"
    let error := ParseError.ofLine 2 "bogus".toList (.unknownInstruction "bogus" none)
    failed.result = .error (error.within .instruction) ∧
      PinRegistry.empty.kind? 0 = none ∧ failed.registry.kind? 0 = some .xbus ∧
      (parse .empty (Board.ofInput [] 0) .default none "mov 1 $p0").result.isOk = true ∧
      (parse failed.registry failed.board .default none "mov 1 $p0").result.isOk = false := by
  decide +kernel

end Program

end NodeAssembly
