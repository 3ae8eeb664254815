/-! The generator of random bytes: a Mersenne twister of 624 words.

A seed of any size is mixed in as a list of 32-bit words, least significant first. Each byte is the
top of one tempered output word.
-/

set_option autoImplicit false

namespace Chip8

structure Random where
  words : Vector UInt32 624
  /-- How many words of the present batch are used up. -/
  used : Nat
  deriving DecidableEq

namespace Random

/-- One step of a linear recurrence over the words. -/
def mix (multiplier : UInt32) (previous : UInt32) : UInt32 :=
  (previous ^^^ (previous >>> 30)) * multiplier

/-- The words of a plain seed. -/
def ofWord (seed : UInt32) : Vector UInt32 624 :=
  ((List.finRange 624).drop 1).foldl
    (fun words (i : Fin 624) => words.set i (mix 1812433253 words[i - 1] + UInt32.ofNat i.val))
    (Vector.replicate 624 seed)

/-- Step through words 1 to 623 again and again, with word 0 following word 623. -/
def seedWord (change : UInt32 → UInt32 → UInt32)
    (state : Vector UInt32 624 × Fin 624) : Vector UInt32 624 × Fin 624 :=
  match state with
  | (words, i) =>
    let value := change words[i] words[i - 1]
    if i.val = 623 then ((words.set i value).set 0 value, 1) else (words.set i value, i + 1)

/-- A step of the second pass, which takes the place of each word away from it. -/
def seedWordLess (state : Vector UInt32 624 × Fin 624) : Vector UInt32 624 × Fin 624 :=
  let place := UInt32.ofNat state.2.val
  seedWord (fun old previous => (old ^^^ mix 1566083941 previous) - place) state

/-- Words of a key, with at least one word. -/
def keyWords (n : Nat) : List UInt32 :=
  if n < 0x100000000 then [UInt32.ofNat n]
  else UInt32.ofNat (n % 0x100000000) :: keyWords (n / 0x100000000)

/-- Mix a key into the words. -/
def ofKey (key : List UInt32) : Vector UInt32 624 :=
  let indexed := key.zipIdx.map fun (word, j) => word + UInt32.ofNat j
  let rounds := max 624 key.length
  let added := (List.replicate (rounds / key.length + 1) indexed).flatten.take rounds
  let state := added.foldl
    (fun state word => seedWord (fun old previous => (old ^^^ mix 1664525 previous) + word) state)
    (ofWord 19650218, 1)
  let state := (List.range 623).foldl (fun state _ => seedWordLess state) state
  state.1.set 0 0x80000000

/-- The generator of a seed, whose sign is ignored. -/
def ofSeed (seed : Int) : Random :=
  ⟨ofKey (keyWords seed.natAbs), 624⟩

/-- The next word of the recurrence, in place of word `i`. -/
def twist (words : Vector UInt32 624) (i : Fin 624) : Vector UInt32 624 :=
  let joined := (words[i] &&& 0x80000000) ||| (words[i + 1] &&& 0x7FFFFFFF)
  let odd : UInt32 := if joined &&& 1 = 1 then 0x9908B0DF else 0
  words.set i (words[i + 397] ^^^ (joined >>> 1) ^^^ odd)

def nextBatch (words : Vector UInt32 624) : Vector UInt32 624 :=
  (List.finRange 624).foldl twist words

/-- Spread the bits of an output word. -/
def temper (y : UInt32) : UInt32 :=
  let y := y ^^^ (y >>> 11)
  let y := y ^^^ ((y <<< 7) &&& 0x9D2C5680)
  let y := y ^^^ ((y <<< 15) &&& 0xEFC60000)
  y ^^^ (y >>> 18)

def word (r : Random) : UInt32 × Random :=
  match r with
  | ⟨words, used⟩ =>
    if inside : used < 624 then (temper words[used], ⟨words, used + 1⟩)
    else
      let words := nextBatch words
      (temper words[0], ⟨words, 1⟩)

def byte (r : Random) : UInt8 × Random :=
  let (word, r) := r.word
  ((word >>> 24).toUInt8, r)

end Random

end Chip8
