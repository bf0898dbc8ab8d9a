/-! A 64-bit digest of bytes: SipHash with one round per word and three at the
end, under a key of zeros. A text is digested by its bytes and one byte 255
after them. -/

namespace NodeAssembly.Random

structure Digest where
  v₀ : UInt64
  v₁ : UInt64
  v₂ : UInt64
  v₃ : UInt64
deriving DecidableEq

namespace Digest

def rotate (word : UInt64) (amount : UInt64) : UInt64 :=
  (word <<< amount) ||| (word >>> (64 - amount))

def round (state : Digest) : Digest :=
  let v₀ := state.v₀ + state.v₁
  let v₁ := rotate state.v₁ 13 ^^^ v₀
  let v₀ := rotate v₀ 32
  let v₂ := state.v₂ + state.v₃
  let v₃ := rotate state.v₃ 16 ^^^ v₂
  let v₀ := v₀ + v₃
  let v₃ := rotate v₃ 21 ^^^ v₀
  let v₂ := v₂ + v₁
  let v₁ := rotate v₁ 17 ^^^ v₂
  let v₂ := rotate v₂ 32
  ⟨v₀, v₁, v₂, v₃⟩

def empty : Digest :=
  ⟨0x736f6d6570736575, 0x646f72616e646f6d, 0x6c7967656e657261, 0x7465646279746573⟩

/-- Takes in one word of eight bytes. -/
def absorb (state : Digest) (word : UInt64) : Digest :=
  let mixed := round { state with v₃ := state.v₃ ^^^ word }
  { mixed with v₀ := mixed.v₀ ^^^ word }

/-- The word whose lowest byte is the first one. -/
def littleEndian (bytes : List UInt8) : UInt64 :=
  bytes.foldr (fun byte word => (word <<< 8) ||| byte.toUInt64) 0

/-- Takes in all whole words of the bytes, and then the rest under the count of
all bytes. -/
def absorbAll (count : UInt64) : Digest → List UInt8 → Digest
  | state, b₀ :: b₁ :: b₂ :: b₃ :: b₄ :: b₅ :: b₆ :: b₇ :: rest =>
    absorbAll count (state.absorb (littleEndian [b₀, b₁, b₂, b₃, b₄, b₅, b₆, b₇])) rest
  | state, rest => state.absorb ((count <<< 56) ||| littleEndian rest)

def finish (state : Digest) : UInt64 :=
  let state := round (round (round { state with v₂ := state.v₂ ^^^ 0xFF }))
  state.v₀ ^^^ state.v₁ ^^^ state.v₂ ^^^ state.v₃

end Digest

/-- The digest of a text. -/
def digest (text : String) : UInt64 :=
  let bytes := text.toUTF8.toList ++ [0xFF]
  (Digest.absorbAll (UInt64.ofNat bytes.length) .empty bytes).finish

end NodeAssembly.Random
