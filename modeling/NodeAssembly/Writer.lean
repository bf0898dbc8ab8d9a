import NodeAssembly.Text.Utf8

/-! Writers. A text is written to a writer as bytes, and then the writer is
flushed. Writing can fail after some of the bytes were accepted, and flushing
after all of them were. What a writer does is not up to the library. It may
depend on whatever the writer was given before. -/

namespace NodeAssembly

/-- The one way to compare bytes here, whatever other libraries bring along. -/
instance decidableEqBytes : DecidableEq ByteArray := fun one other =>
  decidable_of_iff (one.data = other.data) ByteArray.ext_iff.symm

/-- Where a writer puts the bytes that it accepts: on the console, as output or
as errors, or in a place of its own, which may have a limit in bytes. -/
inductive Outlet where
  | output
  | errors
  | own (accepted : ByteArray) (capacity : Option Nat)
deriving DecidableEq

/-- A writer in use, with the texts that it was given, the latest first. -/
structure Sink where
  outlet : Outlet
  given : List String
deriving DecidableEq

namespace Sink

def output : Sink :=
  ⟨.output, []⟩

def errors : Sink :=
  ⟨.errors, []⟩

/-- A writer with a place of its own, where a text is already. -/
def own (text : String) (capacity : Option Nat) : Sink :=
  ⟨.own text.toUTF8 capacity, []⟩

end Sink

/-- What a writer does with a text. -/
inductive Reception where
  /-- The text is accepted and flushed. -/
  | taken
  /-- Writing fails when so many bytes have been accepted. -/
  | cut (count : Nat) (message : String)
  /-- All bytes are accepted, but flushing fails. -/
  | unflushed (message : String)
deriving DecidableEq

/-- How writers behave. -/
abbrev Writers := Sink → String → Reception

namespace Writers

/-- Whether so many bytes more fit into a writer. -/
def hasRoom (outlet : Outlet) (count : Nat) : Bool :=
  match outlet with
  | .own accepted (some limit) => accepted.size + count ≤ limit
  | _ => true

/-- Writers that fail only for want of room, and then accept nothing. -/
def plain : Writers := fun sink text =>
  if hasRoom sink.outlet text.utf8ByteSize then .taken else .cut 0 "sink full"

end Writers

end NodeAssembly
