import Mathlib.Algebra.Order.Ring.Int
import Ogrenet.Errors
import Ogrenet.Interleaving.Calls

/-!
# The activity clock

`transport/activity_clock.go`: goroutines that do I/O touch the clock, and the watchdog of the
session sleeps until the idle deadline or the end of the session's lifetime. A `time.Time` is the
number of nanoseconds since the zero time, on which `Add` does not wrap; a `time.Duration` is an
`Int64`, on which it does.
-/

namespace Ogrenet

open Interleaving Interleaving.Prog

/-! ### Configuration -/

structure Timeouts where
  connect : Int64
  handshake : Int64
  write : Int64
  readIdle : Int64
  connectionIdle : Int64
  maxLifetime : Int64

def defaultConnectTimeout : Int64 := 10000000000

def defaultHandshakeTimeout : Int64 := 10000000000

def defaultWriteTimeout : Int64 := 10000000000

def errInvalidTimeout : Err := .plain "transport: timeout must be positive"

def normalizeTimeouts (t : Timeouts) : Except Err Timeouts :=
  if [t.connect, t.handshake, t.write, t.readIdle, t.connectionIdle, t.maxLifetime].any (· < 0) then
    .error errInvalidTimeout
  else
    .ok { t with
      connect := if t.connect = 0 then defaultConnectTimeout else t.connect
      handshake := if t.handshake = 0 then defaultHandshakeTimeout else t.handshake
      write := if t.write = 0 then defaultWriteTimeout else t.write }

/-- A reading of `time.Now()`. The clock of the machine is past the year 293, that is, past `2^63`
nanoseconds. -/
abbrev Instant := { t : ℤ // 2 ^ 63 < t }

structure ActivityClock where
  born : Instant
  connectionIdle : Int64
  maxLifetime : Int64

/-- A difference of times as a `time.Duration`, which saturates. -/
def duration (d : ℤ) : Int64 := Int64.ofInt (max (-2 ^ 63) (min (2 ^ 63 - 1) d))

namespace ActivityClock

variable (c : ActivityClock)

/-- `nextDeadline` once it has loaded `lastActivityNS`. The zero time and `none` are what `deadline`
and `kind` are declared with. -/
def nextDeadline (last : Int64) : ℤ × Option TimeoutKind :=
  let idle : ℤ × Option TimeoutKind :=
    if 0 < c.connectionIdle then
      (c.born + (last + c.connectionIdle).toInt, some .connectionIdle)
    else (0, none)
  if 0 < c.maxLifetime then
    let lifetime : ℤ := c.born + c.maxLifetime.toInt
    if idle.1 = 0 ∨ ¬ idle.1 < lifetime then (lifetime, some .maxLifetime) else idle
  else idle

/-- The last touch and the idle time add up to a number of nanoseconds that fits 64 bits. -/
def Fits (last : ℤ) : Prop :=
  c.connectionIdle = 0 ∨ last + c.connectionIdle.toInt < 2 ^ 63

end ActivityClock

/-! ### Goroutines -/

/-- What ends the `select` of the watchdog. -/
inductive ClockWoken where
  | closing
  | wake
  | timer
  deriving DecidableEq, Repr

inductive AInstr where
  /-- `time.Since(c.born)`. -/
  | sinceBorn
  | store (ns : Int64)
  | load
  /-- The send on `wake`, or its default. -/
  | signal
  | timeNow
  | resetActivityTimer (delay : Int64)
  /-- The `select` on `closing`, `wake` and the timer. -/
  | select
  | expire (kind : Option TimeoutKind)
  deriving DecidableEq, Repr

@[reducible] def AInstr.Resp : AInstr → Type
  | .sinceBorn | .load => Int64
  | .timeNow => ℤ
  | .select => ClockWoken
  | .store _ | .signal | .resetActivityTimer _ | .expire _ => Unit

abbrev AProg := Prog AInstr AInstr.Resp

inductive ALabel where
  | touch
  | run
  deriving DecidableEq, Repr

abbrev ANext := Next ALabel Unit

namespace Clock

def sinceBorn : AProg Int64 := perform AInstr.sinceBorn

def store (ns : Int64) : AProg Unit := perform (AInstr.store ns)

def load : AProg Int64 := perform AInstr.load

def signal : AProg Unit := perform AInstr.signal

def timeNow : AProg ℤ := perform AInstr.timeNow

def resetActivityTimer (delay : Int64) : AProg Unit := perform (AInstr.resetActivityTimer delay)

def select : AProg ClockWoken := perform AInstr.select

def expire (kind : Option TimeoutKind) : AProg Unit := perform (AInstr.expire kind)

def touch : AProg ANext := do
  let elapsed ← sinceBorn
  store elapsed
  signal
  return .ret ()

variable (c : ActivityClock)

def nextDeadline : AProg (ℤ × Option TimeoutKind) := do
  if 0 < c.connectionIdle then
    let last ← load
    return c.nextDeadline last
  else return c.nextDeadline 0

/-- One round of the loop of `run`. -/
def run : AProg ANext := do
  let next ← nextDeadline c
  if next.2.isNone then return .ret ()
  else
    let now ← timeNow
    let delay := duration (next.1 - now)
    resetActivityTimer (if delay < 0 then 0 else delay)
    match ← select with
    | .closing => return .ret ()
    | .wake => return .goto .run
    | .timer =>
      let current ← nextDeadline c
      let now ← timeNow
      if current.1 ≤ now then
        expire current.2
        return .ret ()
      else return .goto .run

end Clock

def ALabel.body (c : ActivityClock) : ALabel → AProg ANext
  | .touch => Clock.touch
  | .run => Clock.run c

/-! ### The machine -/

/-- What the goroutines share, with the time. `timer` says when the timer fires, if it is set. -/
structure ClockState where
  now : ℤ
  lastActivityNS : Int64 := 0
  wake : Bool := false
  timer : Option ℤ := none
  closing : Bool := false

/-- Time passes, and the session closes. -/
inductive AEnv where
  | advance (n : ℕ)
  | close

namespace ClockState

def exec (c : ActivityClock) (s : ClockState) (x : ClockWoken) :
    (i : AInstr) → Option (ClockState × i.Resp)
  | .sinceBorn => some (s, duration (s.now - c.born))
  | .store ns => some ({ s with lastActivityNS := ns }, ())
  | .load => some (s, s.lastActivityNS)
  | .signal => some ({ s with wake := true }, ())
  | .timeNow => some (s, s.now)
  | .resetActivityTimer delay => some ({ s with timer := some (s.now + delay.toInt) }, ())
  | .select =>
    match x with
    | .closing => if s.closing then some (s, .closing) else none
    | .wake => if s.wake then some ({ s with wake := false }, .wake) else none
    | .timer =>
      if s.timer.any (· ≤ s.now) then some ({ s with timer := none }, .timer) else none
  | .expire _ => some (s, ())

def env (s : ClockState) : AEnv → Option ClockState
  | .advance n => some { s with now := s.now + n }
  | .close => some { s with closing := true }

end ClockState

/-- Any goroutine may touch the clock at any time; the watchdog is started once. -/
def clockMachine (c : ActivityClock) :
    Machine AInstr AInstr.Resp ALabel Unit ClockState ClockWoken AEnv where
  body := ALabel.body c
  exec s i x := s.exec c x i
  spawn s
    | .touch => some s
    | .run => none
  env := ClockState.env

abbrev AProcess := Process AInstr AInstr.Resp ALabel Unit ClockState

abbrev AEvent := Event ALabel ClockWoken AEnv

def AProcess.init (c : ActivityClock) : AProcess where
  shared := { now := c.born }
  threads := [⟨.run, ALabel.body c .run, []⟩]

end Ogrenet
