/-!
# The 32-bit twister

A twister holds 624 words of 32 bits.  A seed of any size is spread over them word by word; then the
words are drawn in turn, tempered, and when all are drawn a new generation is made of them in which
every word mixes the upper bit of its own, the lower bits of its successor and a word further on.

A number between zero and one is made of the upper bits of two words: 27 of one and 26 of the next.
-/

namespace Interlinear.Generator

structure Twister where
  words : Array UInt32
  index : Nat

namespace Twister

def wordCount : Nat := 624

def lag : Nat := 397

def wordAt (words : Array UInt32) (i : Nat) : UInt32 :=
  words.getD i 0

/-- The words that a single word is spread to. -/
def spread (seed : UInt32) : Array UInt32 :=
  (List.range (wordCount - 1)).foldl
    (fun words i =>
      let last := wordAt words i
      words.push ((1812433253 : UInt32) * (last ^^^ (last >>> 30)) + UInt32.ofNat (i + 1)))
    #[seed]

/-- The words of 32 bits of a number, lowest first; at least one. -/
def keyWords : (fuel : Nat) → Nat → List UInt32
  | 0, n => [UInt32.ofNat n]
  | fuel + 1, n =>
      if n < Nat.pow 2 32 then [UInt32.ofNat n]
      else UInt32.ofNat (n % Nat.pow 2 32) :: keyWords fuel (n / Nat.pow 2 32)

/-- The words while they are being mixed, with the place of the next one. -/
structure Mixing where
  words : Array UInt32
  next : Nat

/-- Writes a word and goes on; behind the last word comes the second, after the last is copied to
the first. -/
def Mixing.write (mixing : Mixing) (word : UInt32) : Mixing :=
  let words := mixing.words.setIfInBounds mixing.next word
  if wordCount ≤ mixing.next + 1 then
    ⟨words.setIfInBounds 0 (wordAt words (wordCount - 1)), 1⟩
  else
    ⟨words, mixing.next + 1⟩

/-- The word before the next one, with its upper bits folded in, times a factor. -/
def Mixing.previous (mixing : Mixing) (factor : UInt32) : UInt32 :=
  let word := wordAt mixing.words (mixing.next - 1)
  (word ^^^ (word >>> 30)) * factor

def Mixing.addKey (key : Array UInt32) (mixing : Mixing) (round : Nat) : Mixing :=
  let j := round % key.size
  mixing.write ((wordAt mixing.words mixing.next ^^^ mixing.previous 1664525) +
    wordAt key j + UInt32.ofNat j)

def Mixing.subtractPlace (mixing : Mixing) : Mixing :=
  mixing.write ((wordAt mixing.words mixing.next ^^^ mixing.previous 1566083941) -
    UInt32.ofNat mixing.next)

/-- The words that a key is spread to. -/
def ofKey (key : Array UInt32) : Twister :=
  let mixing := (List.range (max wordCount key.size)).foldl (Mixing.addKey key)
    ⟨spread 19650218, 1⟩
  let mixing := (List.range (wordCount - 1)).foldl (fun mixing _ => mixing.subtractPlace) mixing
  ⟨mixing.words.setIfInBounds 0 0x80000000, wordCount⟩

/-- A twister from a seed; the sign of the seed does not matter. -/
def ofSeed (seed : Int) : Twister :=
  ofKey (keyWords seed.natAbs.log2 seed.natAbs).toArray

/-- The word of the next generation at a place; the places before it are already new. -/
def regenerated (words : Array UInt32) (i : Nat) : UInt32 :=
  let y := (wordAt words i &&& 0x80000000) |||
    (wordAt words ((i + 1) % wordCount) &&& 0x7FFFFFFF)
  let twist : UInt32 := if y &&& 1 = 0 then 0 else 0x9908B0DF
  wordAt words ((i + lag) % wordCount) ^^^ (y >>> 1) ^^^ twist

def regenerate (words : Array UInt32) : Array UInt32 :=
  (List.range wordCount).foldl
    (fun words i => words.setIfInBounds i (regenerated words i)) words

def temper (word : UInt32) : UInt32 :=
  let y := word ^^^ (word >>> 11)
  let y := y ^^^ ((y <<< 7) &&& 0x9D2C5680)
  let y := y ^^^ ((y <<< 15) &&& 0xEFC60000)
  y ^^^ (y >>> 18)

def nextWord (twister : Twister) : UInt32 × Twister :=
  let twister :=
    if twister.index < wordCount then twister else ⟨regenerate twister.words, 0⟩
  (temper (wordAt twister.words twister.index), { twister with index := twister.index + 1 })

/-- A number from zero up to but not including one. -/
def nextFloat (twister : Twister) : Float × Twister :=
  let (high, twister) := twister.nextWord
  let (low, twister) := twister.nextWord
  let bits := (high >>> 5).toNat * Nat.pow 2 26 + (low >>> 6).toNat
  (Float.ofNat bits * Float.scaleB 1 (-53), twister)

end Twister

end Interlinear.Generator
