import QueryResult.Bytes
import QueryResult.Hash.Mix

/-!
# The 64-bit xxHash of a byte string

Four accumulators take in the string in stripes of 32 bytes; the bytes left
over are mixed in as words of eight, then four, then one. The seed is zero.
-/

set_option autoImplicit false

namespace QueryResult.Hash

namespace Xxh64

def prime1 : UInt64 := 0x9e3779b185ebca87
def prime2 : UInt64 := 0xc2b2ae3d27d4eb4f
def prime3 : UInt64 := 0x165667b19e3779f9
def prime4 : UInt64 := 0x85ebca77c2b2ae63
def prime5 : UInt64 := 0x27d4eb2f165667c5

/-- The word whose bits are those of `word` moved left by `count`, with the bits that leave on
the left entering on the right. -/
def rotateLeft (word count : UInt64) : UInt64 :=
  (word <<< count) ||| (word >>> (64 - count))

/-- The number that bytes spell, the least significant byte first. -/
def littleEndian : Bytes → UInt64
  | [] => 0
  | byte :: rest => byte.toUInt64 ||| (littleEndian rest <<< 8)

/-- One accumulator after taking in one word. -/
def absorb (accumulator word : UInt64) : UInt64 :=
  rotateLeft (accumulator + word * prime2) 31 * prime1

structure Lanes where
  first : UInt64
  second : UInt64
  third : UInt64
  fourth : UInt64
  deriving DecidableEq, Repr

namespace Lanes

def start : Lanes :=
  ⟨prime1 + prime2, prime2, 0, 0 - prime1⟩

/-- The accumulators after one stripe of 32 bytes. -/
def stripe (lanes : Lanes) (bytes : Bytes) : Lanes :=
  ⟨absorb lanes.first (littleEndian (bytes.take 8)),
    absorb lanes.second (littleEndian ((bytes.drop 8).take 8)),
    absorb lanes.third (littleEndian ((bytes.drop 16).take 8)),
    absorb lanes.fourth (littleEndian ((bytes.drop 24).take 8))⟩

/-- The accumulators after `count` stripes, and the bytes behind them. -/
def stripes : Nat → Lanes → Bytes → Lanes × Bytes
  | 0, lanes, bytes => (lanes, bytes)
  | count + 1, lanes, bytes => stripes count (lanes.stripe (bytes.take 32)) (bytes.drop 32)

def merge (hash accumulator : UInt64) : UInt64 :=
  (hash ^^^ absorb 0 accumulator) * prime1 + prime4

def converge (lanes : Lanes) : UInt64 :=
  let sum := rotateLeft lanes.first 1 + rotateLeft lanes.second 7 +
    rotateLeft lanes.third 12 + rotateLeft lanes.fourth 18
  merge (merge (merge (merge sum lanes.first) lanes.second) lanes.third) lanes.fourth

end Lanes

def mixEight (hash word : UInt64) : UInt64 :=
  rotateLeft (hash ^^^ absorb 0 word) 27 * prime1 + prime4

def mixFour (hash word : UInt64) : UInt64 :=
  rotateLeft (hash ^^^ (word * prime1)) 23 * prime2 + prime3

def mixByte (hash : UInt64) (byte : UInt8) : UInt64 :=
  rotateLeft (hash ^^^ (byte.toUInt64 * prime5)) 11 * prime1

/-- The hash after `count` words of eight bytes, and the bytes behind them. -/
def eights : Nat → UInt64 → Bytes → UInt64 × Bytes
  | 0, hash, bytes => (hash, bytes)
  | count + 1, hash, bytes =>
      eights count (mixEight hash (littleEndian (bytes.take 8))) (bytes.drop 8)

/-- The hash after a tail of fewer than eight bytes: one word of four if there is one, then the
single bytes. -/
def smallTail (hash : UInt64) (bytes : Bytes) : UInt64 :=
  if bytes.length < 4 then bytes.foldl mixByte hash
  else (bytes.drop 4).foldl mixByte (mixFour hash (littleEndian (bytes.take 4)))

/-- The last mixing, after which every input bit has reached every bit of the hash. -/
def avalanche (hash : UInt64) : UInt64 :=
  xorShift 32 (xorShift 29 (xorShift 33 hash * prime2) * prime3)

/-- The hash and the rest of the string after all full stripes. -/
def striped (bytes : Bytes) : UInt64 × Bytes :=
  if bytes.length < 32 then (prime5, bytes)
  else
    let absorbed := Lanes.stripes (bytes.length / 32) Lanes.start bytes
    (absorbed.1.converge, absorbed.2)

end Xxh64

open Xxh64 in
def xxh64 (bytes : Bytes) : UInt64 :=
  let head := striped bytes
  let words := eights (head.2.length / 8) (head.1 + UInt64.ofNat bytes.length) head.2
  avalanche (smallTail words.1 words.2)

/-- The xxHash64 of a byte string, mixed with a seed. -/
def seededXxh64 (bytes : Bytes) (seed : UInt64) : UInt64 :=
  combine seed (xxh64 bytes)

end QueryResult.Hash
