import NodeAssembly.Channel.Bus

/-! Pins connect nodes. A pin is bound to a channel of one kind when it is first
asked for, and keeps it from then on. A power pin holds the last integer
written to it; an xbus pin is a bus. -/

namespace NodeAssembly

open NodeAssembly.Text

inductive PinKind where
  | power
  | xbus
deriving DecidableEq, Repr

namespace PinKind

/-- The letter that the names of pin registers start with. -/
def letter : PinKind → Char
  | .power => 'p'
  | .xbus => 'x'

def text : PinKind → String
  | .power => "power"
  | .xbus => "xbus"

/-- The name of the register for a pin. -/
def registerName (kind : PinKind) (pin : Nat) : String :=
  String.ofList (kind.letter :: decimalNat pin)

end PinKind

inductive Channel where
  | power (level : Int32)
  | xbus (pin : Nat) (slot : Bus.Slot)
deriving DecidableEq

namespace Channel

def kind : Channel → PinKind
  | .power _ => .power
  | .xbus _ _ => .xbus

/-- A channel that nothing was written to. -/
def fresh (pin : Nat) : PinKind → Channel
  | .power => .power 0
  | .xbus => .xbus pin .empty

end Channel

/-- All channels, those of every registry; a channel is known by its place. -/
abbrev Channels := Array Channel

structure PinBinding where
  pin : Nat
  kind : PinKind
  channel : Nat
deriving DecidableEq

/-- The pins that are bound, for all nodes that can reach each other. -/
structure PinRegistry where
  bindings : List PinBinding
deriving DecidableEq

namespace PinRegistry

def empty : PinRegistry :=
  ⟨[]⟩

def find? (registry : PinRegistry) (pin : Nat) : Option PinBinding :=
  registry.bindings.find? fun binding => binding.pin == pin

def size (registry : PinRegistry) : Nat :=
  registry.bindings.length

/-- The channel of a pin, or the kind that the pin is bound to if that is
another one. A pin that is not bound gets a fresh channel. -/
def channel (registry : PinRegistry) (channels : Channels) (pin : Nat) (kind : PinKind) :
    Except PinKind Nat × PinRegistry × Channels :=
  match registry.find? pin with
  | some binding =>
    if binding.kind = kind then (.ok binding.channel, registry, channels)
    else (.error binding.kind, registry, channels)
  | none =>
    let binding : PinBinding := ⟨pin, kind, channels.size⟩
    (.ok binding.channel, ⟨registry.bindings ++ [binding]⟩, channels.push (.fresh pin kind))

end PinRegistry

end NodeAssembly
