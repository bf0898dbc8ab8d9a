/-! A stream of random 32-bit words: the ChaCha block function with twenty
rounds under a key of eight words, a block counter from zero and no nonce. The
words of each block are used in order. -/

namespace NodeAssembly.Random

/-- The words of one block. -/
abbrev Block := Vector UInt32 16

def rotateLeft (word : UInt32) (amount : UInt32) : UInt32 :=
  (word <<< amount) ||| (word >>> (32 - amount))

def rotateRight (word : UInt32) (amount : UInt32) : UInt32 :=
  if amount == 0 then word else (word >>> amount) ||| (word <<< (32 - amount))

/-- Mixes four words of a block. -/
def quarterRound (block : Block) (a b c d : Fin 16) : Block :=
  let a₁ := block[a] + block[b]
  let d₁ := rotateLeft (block[d] ^^^ a₁) 16
  let c₁ := block[c] + d₁
  let b₁ := rotateLeft (block[b] ^^^ c₁) 12
  let a₂ := a₁ + b₁
  let d₂ := rotateLeft (d₁ ^^^ a₂) 8
  let c₂ := c₁ + d₂
  let b₂ := rotateLeft (b₁ ^^^ c₂) 7
  (((block.set a a₂).set b b₂).set c c₂).set d d₂

/-- One round over the columns and one over the diagonals. -/
def doubleRound (block : Block) : Block :=
  let block := quarterRound block 0 4 8 12
  let block := quarterRound block 1 5 9 13
  let block := quarterRound block 2 6 10 14
  let block := quarterRound block 3 7 11 15
  let block := quarterRound block 0 5 10 15
  let block := quarterRound block 1 6 11 12
  let block := quarterRound block 2 7 8 13
  quarterRound block 3 4 9 14

/-- The block before mixing: four constants, the key, the counter in two words
and a nonce of zero. -/
def initialBlock (key : Vector UInt32 8) (counter : UInt64) : Block :=
  #v[0x61707865, 0x3320646e, 0x79622d32, 0x6b206574,
    key[0], key[1], key[2], key[3], key[4], key[5], key[6], key[7],
    counter.toUInt32, (counter >>> 32).toUInt32, 0, 0]

def block (key : Vector UInt32 8) (counter : UInt64) : Block :=
  let start := initialBlock key counter
  let mixed := (List.range 10).foldl (fun block _ => doubleRound block) start
  mixed.zipWith (· + ·) start

/-- The words of the current block that are left, and where the next block
comes from. -/
structure Stream where
  key : Vector UInt32 8
  counter : UInt64
  ready : List UInt32
deriving DecidableEq

namespace Stream

/-- The next word. -/
def next (stream : Stream) : UInt32 × Stream :=
  match stream.ready with
  | word :: ready => (word, { stream with ready := ready })
  | [] =>
    let words := (block stream.key stream.counter).toList
    (words.headD 0, ⟨stream.key, stream.counter + 1, words.tail⟩)

/-! A seed of 64 bits is widened to a key by eight steps of a linear generator,
each of which gives one word. -/

def widen (state : UInt64) : UInt64 :=
  state * 6364136223846793005 + 11634580027462260723

def widened (state : UInt64) : UInt32 :=
  rotateRight ((((state >>> 18) ^^^ state) >>> 27).toUInt32) (state >>> 59).toUInt32

def ofSeed (seed : UInt64) : Stream :=
  let s₀ := widen seed
  let s₁ := widen s₀
  let s₂ := widen s₁
  let s₃ := widen s₂
  let s₄ := widen s₃
  let s₅ := widen s₄
  let s₆ := widen s₅
  let s₇ := widen s₆
  ⟨#v[widened s₀, widened s₁, widened s₂, widened s₃, widened s₄, widened s₅, widened s₆,
    widened s₇], 0, []⟩

/-! A number below a bound is the high half of a product with a word. Words
whose low half is past the zone would make some numbers more likely than
others, so they are drawn again. Each word is accepted with a chance of more
than one half, and the number of attempts is bounded far beyond what ever
occurs. -/

def drawAttempts : Nat := 1024

def drawFrom (range zone : UInt64) : Nat → Stream → Nat × Stream
  | 0, stream => (0, stream)
  | attempts + 1, stream =>
    let (word, stream) := stream.next
    let product := word.toUInt64 * range
    if product &&& 0xFFFFFFFF ≤ zone then ((product >>> 32).toNat, stream)
    else drawFrom range zone attempts stream

/-- A number below 999. -/
def drawNumber (stream : Stream) : Nat × Stream :=
  drawFrom 999 0xF9BFFFFF drawAttempts stream

/-- A number below three. -/
def drawThird (stream : Stream) : Nat × Stream :=
  drawFrom 3 0xBFFFFFFF drawAttempts stream

/-- The zone for the 95 printable ASCII characters. -/
def characterZone : UInt64 :=
  0xFFFFFFFF - (0xFFFFFFFF - 95 + 1) % 95

/-- A printable ASCII character. -/
def drawCharacter (stream : Stream) : Char × Stream :=
  let (number, stream) := drawFrom 95 characterZone drawAttempts stream
  (Char.ofNat (32 + number), stream)

/-- A fraction from zero up to one, of 24 bits. -/
def drawFraction (stream : Stream) : Float32 × Stream :=
  let (word, stream) := stream.next
  (Float32.ofNat (word >>> 8).toNat * Float32.ofBits 0x33800000, stream)

/-- Characters drawn one after the other, in front of `drawn`. -/
def drawCharacters : Nat → List Char → Stream → List Char × Stream
  | 0, drawn, stream => (drawn.reverse, stream)
  | count + 1, drawn, stream =>
    let (char, stream) := stream.drawCharacter
    drawCharacters count (char :: drawn) stream

end Stream

end NodeAssembly.Random
