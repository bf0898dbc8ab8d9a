/-! The clock of a node. A speed of minus one switches it off; any other speed
switches it on and is brought into the bounds. -/

namespace NodeAssembly

structure Clock where
  speed : Int32
  active : Bool
deriving DecidableEq, Repr

namespace Clock

def least : Int32 := 1

def most : Int32 := 6000

def ofSpeed (speed : Int32) : Clock :=
  ⟨min (max speed least) most, speed != -1⟩

/-- How many microseconds so many ticks take while the clock is on. -/
def microseconds? (clock : Clock) (ticks : Int32) : Option Nat :=
  if clock.active then some (ticks.toInt.toNat * 1000000 / clock.speed.toInt.toNat) else none

end Clock

end NodeAssembly
