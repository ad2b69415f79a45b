/-!
# Mixing 64-bit hashes

Two mixers of 64-bit words. `murmur` hashes one word and takes the seed in by
exclusive or at its end. `combine` joins two hashes and depends on their order.
-/

set_option autoImplicit false

namespace QueryResult.Hash

/-- The exclusive or of a word with itself shifted right. -/
def xorShift (shift word : UInt64) : UInt64 :=
  word ^^^ (word >>> shift)

/-- The Murmur finalizer of a word, without a seed. -/
def finalizer (word : UInt64) : UInt64 :=
  xorShift 33
    (xorShift 33 (xorShift 33 word * 0xff51afd7ed558ccd) * 0xc4ceb9fe1a85ec53)

/-- The Murmur hash of a word under a seed. -/
def murmur (word seed : UInt64) : UInt64 :=
  finalizer word ^^^ seed

/-- The multiplier of `combine`. -/
def combineMultiplier : UInt64 := 0x9ddfea08eb382d69

/-- Two hashes mixed into one. -/
def combine (first second : UInt64) : UInt64 :=
  let inner := xorShift 47 ((first ^^^ second) * combineMultiplier)
  xorShift 47 ((second ^^^ inner) * combineMultiplier) * combineMultiplier

end QueryResult.Hash
