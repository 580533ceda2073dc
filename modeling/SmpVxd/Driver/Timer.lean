import SmpVxd.Driver.Context

/-!
# The time stamp test

`tsc_ring` compares a 64-bit reading with a counter plus a number of ticks on two
32-bit halves, with the carry propagated by hand.
-/

namespace SmpVxd

def lowDword (x : BitVec 64) : Dword := x.setWidth 32
def highDword (x : BitVec 64) : Dword := (x >>> 32).setWidth 32

/-- `tsc_ring`, instruction by instruction: `add`, `adc`, and the two `jb`. -/
def tscRing (counter : BitVec 64) (extraTicks : Dword) (now : BitVec 64) : Bool :=
  let edi := lowDword counter + extraTicks
  let cf := 2 ^ 32 ≤ (lowDword counter).toNat + extraTicks.toNat
  let esi := highDword counter + (if cf then 1 else 0)
  !(highDword now < esi) && !(lowDword now < edi)

def sleepDelayMs : Dword := 250

end SmpVxd
