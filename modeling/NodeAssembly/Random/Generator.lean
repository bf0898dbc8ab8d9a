import NodeAssembly.Random.Digest
import NodeAssembly.Random.Stream

/-! The state of a random register: where its words come from, and what kind
of value it makes of them. -/

namespace NodeAssembly.Random

/-- What a random register yields. -/
inductive Kind where
  | number
  | fraction
  | text
deriving DecidableEq

/-- A register that was never seeded has no stream yet. `length` is the length
of the texts it would yield. -/
structure Generator where
  stream : Option Stream
  kind : Kind
  length : Nat
deriving DecidableEq

namespace Generator

def unseeded : Generator :=
  ⟨none, .number, 1⟩

/-- Seeds the stream with a number given as a signed word, which is extended to
64 bits by its sign. -/
def seedWord (generator : Generator) (seed : Int32) (kind : Kind) : Generator :=
  { generator with stream := some (.ofSeed seed.toInt64.toUInt64), kind := kind }

/-- Seeds the stream with a text, to yield texts of the given length. -/
def seedText (seed : String) (length : Nat) : Generator :=
  ⟨some (.ofSeed (digest seed)), .text, length⟩

/-- Seeds the stream from outside and lets it choose what to yield. -/
def reseed (generator : Generator) (entropy : UInt64) : Generator :=
  let drawn := (Stream.ofSeed entropy).drawThird
  let kind :=
    match drawn.1 with
    | 0 => .number
    | 1 => .fraction
    | _ => .text
  { generator with stream := some drawn.2, kind := kind }

end Generator

end NodeAssembly.Random
