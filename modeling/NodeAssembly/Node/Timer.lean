/-! The time of a run. A run looks at the time when an instruction begins, when
the rest of its tick is due, and when it sleeps. How much time has passed since
the last look is not up to the run, apart from what it has slept. -/

namespace NodeAssembly

/-- What a run knows about the time, in nanoseconds. -/
structure Timer where
  now : Nat
  /-- How much time passes before each look that is still to come. -/
  laps : List Nat
  /-- When the latest instruction began. -/
  started : Nat
  /-- How long a tick was then, if the clock was on. -/
  tick : Option Nat
  /-- The end of the sleep that is going on. -/
  deadline : Option Nat
deriving DecidableEq

namespace Timer

def ofLaps (laps : List Nat) : Timer :=
  ⟨0, laps, 0, none, none⟩

def look (timer : Timer) : Timer :=
  { timer with now := timer.now + timer.laps.headD 0, laps := timer.laps.tail }

/-- An instruction begins. -/
def begin (timer : Timer) (tick : Option Nat) : Timer :=
  let timer := timer.look
  { timer with started := timer.now, tick := tick }

/-- Sleeps for what is left of the tick, if the instruction took no longer. -/
def finishTick (timer : Timer) : Timer :=
  match timer.tick with
  | none => timer
  | some tick =>
    let timer := timer.look
    let elapsed := timer.now - timer.started
    if elapsed ≤ tick then { timer with now := timer.now + (tick - elapsed) } else timer

/-- How long a run sleeps before it looks again whether it is to stop. -/
def slice : Nat := 10000000

/-- A sleep begins. -/
def lieDown (timer : Timer) (duration : Nat) : Timer :=
  let timer := timer.look
  { timer with deadline := some (timer.now + duration) }

def getUp (timer : Timer) : Timer :=
  { timer with deadline := none }

/-- Sleeps on until the deadline, but no longer than a slice. -/
def sleepOn (timer : Timer) (deadline : Nat) : Timer :=
  { timer with now := timer.now + min (deadline - timer.now) slice }

end Timer

end NodeAssembly
