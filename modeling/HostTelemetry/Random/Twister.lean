import HostTelemetry.Double.Basic

/-!
# The twister

A generator of 32-bit words with a state of 624 words and the period `2 ^ 19937 - 1`. A seed is a
list of words that is stirred into a fixed first state. A draw joins 27 and 26 bits of two words
into a double in `[0, 1)`.
-/

set_option autoImplicit false

namespace HostTelemetry

structure Twister where
  words : Array UInt32
  used : Nat

namespace Twister

abbrev size : Nat := 624

def word (a : Array UInt32) (i : Nat) : UInt32 := a.getD i 0

def mixed (before : UInt32) : UInt32 := before ^^^ (before >>> 30)

def start (seed : UInt32) : Array UInt32 :=
  (List.range (size - 1)).foldl
    (fun a i => a.push (mixed (word a i) * 1812433253 + (i + 1).toUInt32)) #[seed]

/-- One step of stirring at place `i`; past the end the last word is copied to the front. -/
def stir (f : UInt32 → UInt32 → UInt32) (a : Array UInt32) (i : Nat) : Array UInt32 × Nat :=
  let a := a.setIfInBounds i (f (word a i) (mixed (word a (i - 1))))
  if i + 1 < size then (a, i + 1) else (a.setIfInBounds 0 (word a (size - 1)), 1)

/-- Stirs in the words of a key, as many times as the longer of key and state is long. -/
def stirKey (key : Array UInt32) : (n i j : Nat) → Array UInt32 → Array UInt32 × Nat
  | 0, i, _, a => (a, i)
  | n + 1, i, j, a =>
    let (a, i) := stir (fun w m => (w ^^^ (m * 1664525)) + word key j + j.toUInt32) a i
    stirKey key n i (if j + 1 < key.size then j + 1 else 0) a

def stirAgain : (n i : Nat) → Array UInt32 → Array UInt32
  | 0, _, a => a
  | n + 1, i, a =>
    let (a, i) := stir (fun w m => (w ^^^ (m * 1566083941)) - i.toUInt32) a i
    stirAgain n i a

def ofKey (key : Array UInt32) : Twister :=
  let (a, i) := stirKey key (max size key.size) 1 0 (start 19650218)
  let a := stirAgain (size - 1) i a
  ⟨a.setIfInBounds 0 0x80000000, size⟩

def wordsOf : (n : Nat) → Nat → List UInt32
  | 0, _ => []
  | n + 1, m => if m = 0 then [] else (m % Nat.pow 2 32).toUInt32 :: wordsOf n (m / Nat.pow 2 32)

/-- The generator of a seed; its sign does not matter. -/
def ofSeed (seed : Int) : Twister :=
  match wordsOf (seed.natAbs.log2 + 1) seed.natAbs with
  | [] => ofKey #[0]
  | ws => ofKey ws.toArray

def turned (a : Array UInt32) (i : Nat) : UInt32 :=
  let y := (word a i &&& 0x80000000) ||| (word a ((i + 1) % size) &&& 0x7FFFFFFF)
  word a ((i + 397) % size) ^^^ (y >>> 1) ^^^ (if y &&& 1 = 0 then 0 else 0x9908B0DF)

def turn (a : Array UInt32) : Array UInt32 :=
  (List.range size).foldl (fun a i => a.setIfInBounds i (turned a i)) a

def temper (y : UInt32) : UInt32 :=
  let y := y ^^^ (y >>> 11)
  let y := y ^^^ ((y <<< 7) &&& 0x9D2C5680)
  let y := y ^^^ ((y <<< 15) &&& 0xEFC60000)
  y ^^^ (y >>> 18)

def nextWord (t : Twister) : UInt32 × Twister :=
  let t := if t.used < size then t else ⟨turn t.words, 0⟩
  (temper (word t.words t.used), { t with used := t.used + 1 })

def next (t : Twister) : Double × Twister :=
  let (a, t) := t.nextWord
  let (b, t) := t.nextWord
  (Double.ofRatio false ((a >>> 5).toNat * Nat.pow 2 26 + (b >>> 6).toNat) (Nat.pow 2 53), t)

end Twister

end HostTelemetry
