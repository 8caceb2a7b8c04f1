/-
The random number generator (`hardware/rng.rs`): a KISS generator, that is a linear
congruential generator, a xorshift generator and a multiply-with-carry generator
whose words are added up.

The products and sums of the source that wrap are the operations of `UInt64`.  The
two it writes with a plain `+`, the word `t` of the multiply-with-carry step and the
increment of the carry, are checked additions.
-/
import Rucoonos.Lib.Slice

namespace Rucoonos.Rng

open Slice

structure Kiss where
  x : UInt64
  y : UInt64
  z : UInt64
  c : UInt64
  deriving DecidableEq, Repr

namespace Kiss

def new (seed y z c : UInt64) : Except Unit Kiss := .ok ⟨seed, y, z, c⟩

/-- The three lines on `self.y`. -/
def xorshift (y : UInt64) : UInt64 :=
  let y := y ^^^ (y <<< 13)
  let y := y ^^^ (y >>> 17)
  y ^^^ (y <<< 43)

def rand (k : Kiss) : Exec (UInt64 × Kiss) := do
  let x := 6906969069 * k.x + 1234567
  let y := xorshift k.y
  let t ← addU64 (k.z <<< 58) k.c
  let c := k.z >>> 6
  let z := k.z + t
  let c ← addU64 c (if z < t then 1 else 0)
  return (x + y + z, ⟨x, y, z, c⟩)

/-- One call after another: the words returned and the generator that is left. -/
def calls : Nat → Kiss → Exec (List UInt64 × Kiss)
  | 0, k => return ([], k)
  | n + 1, k => do
      let (word, k) ← rand k
      let (words, k) ← calls n k
      return (word :: words, k)

end Kiss

/-- The generator that `Hardware::init` builds. -/
def kernelRng : Except Unit Kiss := Kiss.new 239812446 1837621879 512893 123873267123

end Rucoonos.Rng
