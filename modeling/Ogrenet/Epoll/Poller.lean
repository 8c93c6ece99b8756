import Mathlib.Algebra.Order.Ring.Int
import Ogrenet.Errors
import Ogrenet.Interleaving.Calls
import Ogrenet.Interleaving.Guard

/-!
# The epoll poller

`epoll/epoll_linux.go`: any number of goroutines call `Add`, `Mod`, `Del`, `Wake`, `Wait` and
`Close` of a `Poller`. `mu`, `closed` and the descriptors are a `Guard`, which is released with the
first of the two descriptors that `Close` closes. The kernel answers a call with any error that the
call may have; the eventfd is level-triggered and counts.
-/

namespace Ogrenet.Epoll

open Interleaving Interleaving.Prog

abbrev Errno := ℕ

def eintr : Errno := 4

def ebadf : Errno := 9

def eagain : Errno := 11

def etimedout : Errno := 110

/-- An error number as a Go error. -/
def Errno.err (e : Errno) : Err :=
  .foreign { id := e, netError := some (e == eagain || e == etimedout) }

structure Event where
  events : UInt32
  data : UInt64
  deriving DecidableEq, Repr

/-- `math.MaxUint64`. -/
def wakeData : UInt64 := ~~~0

def errClosed : Err := .plain "epoll: poller is closed"

def errConcurrentWait : Err := .plain "epoll: concurrent Wait calls are not supported"

def errNoEvents : Err := .plain "epoll: destination event slice is empty"

def errReservedData : Err := .plain "epoll: data value is reserved for internal use"

def timeoutMillis (timeout elapsed : Int64) : ℤ :=
  if timeout < 0 then -1
  else
    let remaining := timeout - elapsed
    if remaining ≤ 0 then 0
    else
      let ms := remaining.toInt / 1000000 + if remaining.toInt % 1000000 = 0 then 0 else 1
      if 2 ^ 31 - 1 < ms then 2 ^ 31 - 1 else ms

inductive Descriptor where
  | epoll
  | wake
  deriving DecidableEq, Repr

inductive CtlOp where
  | add
  | mod
  | del
  deriving DecidableEq, Repr

/-- The greatest value that an eventfd counts to. -/
def maxCounter : ℕ := 2 ^ 64 - 2

structure Poller where
  /-- `mu`, `closed`, and whether no descriptor has been closed. -/
  guard : Guard := {}
  waiting : Bool := false
  /-- The counter of the eventfd. -/
  counter : ℕ := 0
  /-- What is registered besides the eventfd. -/
  interest : List (ℤ × Event) := []

inductive EInstr where
  | loadClosed
  | casClosed
  | casWaiting
  /-- `p.waiting.Store(false)`. -/
  | storeWaiting
  /-- `time.Since(started)`. -/
  | since
  | rlock
  | runlock
  | lock
  | unlock
  | epollCtl (op : CtlOp) (fd : ℤ) (ev : Option Event)
  | epollWait (n : ℕ) (ms : ℤ)
  | write
  | read
  | close (d : Descriptor)

@[reducible] def EInstr.Resp : EInstr → Type
  | .loadClosed | .casClosed | .casWaiting => Bool
  | .since => Int64
  | .epollCtl _ _ _ | .write | .read | .close _ => Option Errno
  | .epollWait _ _ => Except Errno (List Event)
  | .storeWaiting | .rlock | .runlock | .lock | .unlock => Unit

abbrev EProg := Prog EInstr EInstr.Resp

/-- The calls, with the length of `dst` for its elements; the loops of `Wait`, `drainWake` and
`signalWake`. -/
inductive ELabel where
  | add (fd : ℤ) (events : UInt32) (data : UInt64)
  | mod (fd : ℤ) (events : UInt32) (data : UInt64)
  | del (fd : ℤ)
  | wait (n : ℕ) (timeout : Int64)
  | wake
  | close
  | polling (n : ℕ) (timeout : Int64)
  | draining (rest out : List Event) (n : ℕ) (timeout : Int64)
  | waking
  | closing

/-- The error of a call; `Wait` also returns what it has put into `dst`. -/
inductive EVal where
  | done (err : Option Err)
  | waited (out : List Event) (err : Option Err)

def EVal.err : EVal → Option Err
  | .done err | .waited _ err => err

abbrev ENext := Next ELabel EVal

/-! ### The calls -/

def loadClosed : EProg Bool := perform EInstr.loadClosed

def casClosed : EProg Bool := perform EInstr.casClosed

def casWaiting : EProg Bool := perform EInstr.casWaiting

def storeWaiting : EProg Unit := perform EInstr.storeWaiting

def since : EProg Int64 := perform EInstr.since

def rlock : EProg Unit := perform EInstr.rlock

def runlock : EProg Unit := perform EInstr.runlock

def lock : EProg Unit := perform EInstr.lock

def unlock : EProg Unit := perform EInstr.unlock

def epollCtl (op : CtlOp) (fd : ℤ) (ev : Option Event) : EProg (Option Errno) :=
  perform (EInstr.epollCtl op fd ev)

def epollWait (n : ℕ) (ms : ℤ) : EProg (Except Errno (List Event)) :=
  perform (EInstr.epollWait n ms)

def write : EProg (Option Errno) := perform EInstr.write

def read : EProg (Option Errno) := perform EInstr.read

def closeDescriptor (d : Descriptor) : EProg (Option Errno) := perform (EInstr.close d)

/-- The deferred `RUnlock`. -/
def unlocked (err : Option Err) : EProg ENext := do
  runlock
  return .ret (.done err)

def ctl (op : CtlOp) (fd : ℤ) (events : UInt32) (data : UInt64) : EProg ENext := do
  if data = wakeData then return .ret (.done errReservedData)
  else
    rlock
    match ← loadClosed with
    | true => unlocked errClosed
    | false =>
      match ← epollCtl op fd (some ⟨events, data⟩) with
      | some e => unlocked (some (.wrap s!"epoll: control fd {fd}" e.err))
      | none => unlocked none

def add (fd : ℤ) (events : UInt32) (data : UInt64) : EProg ENext := ctl .add fd events data

def mod (fd : ℤ) (events : UInt32) (data : UInt64) : EProg ENext := ctl .mod fd events data

def del (fd : ℤ) : EProg ENext := do
  rlock
  match ← loadClosed with
  | true => unlocked errClosed
  | false =>
    match ← epollCtl .del fd none with
    | some e => unlocked (some (.wrap s!"epoll: delete fd {fd}" e.err))
    | none => unlocked none

/-- The deferred `waiting.Store(false)`. -/
def left (out : List Event) (err : Option Err) : EProg ENext := do
  storeWaiting
  return .ret (.waited out err)

def wait (n : ℕ) (timeout : Int64) : EProg ENext := do
  if n = 0 then return .ret (.waited [] errNoEvents)
  else
    match ← loadClosed with
    | true => return .ret (.waited [] errClosed)
    | false =>
      match ← casWaiting with
      | false => return .ret (.waited [] errConcurrentWait)
      | true => return .goto (.polling n timeout)

/-- What a round of `Wait` does after the events of `EpollWait` were gone through. -/
def waited (n : ℕ) (timeout : Int64) (r : Except Errno (List Event)) : EProg ENext := do
  runlock
  match ← loadClosed with
  | true => left [] errClosed
  | false =>
    match r with
    | .ok out => left out none
    | .error e =>
      if e = eintr then
        if 0 ≤ timeout then
          if timeout ≤ (← since) then left [] none
          else return .goto (.polling n timeout)
        else return .goto (.polling n timeout)
      else left [] (some (.wrap "epoll: wait" e.err))

/-- The loop over the events, up to the next that is the eventfd's. -/
def received (n : ℕ) (timeout : Int64) : List Event → List Event → EProg ENext
  | [], out => waited n timeout (.ok out)
  | ev :: rest, out =>
    if ev.data = wakeData then return .goto (.draining rest out n timeout)
    else received n timeout rest (out ++ [ev])

/-- One round of the loop of `Wait`. -/
def polling (n : ℕ) (timeout : Int64) : EProg ENext := do
  rlock
  match ← loadClosed with
  | true =>
    runlock
    left [] errClosed
  | false =>
    let elapsed ← since
    match ← epollWait n (timeoutMillis timeout elapsed) with
    | .ok batch => received n timeout batch []
    | .error e => waited n timeout (.error e)

/-- One round of the loop of `drainWake`. -/
def draining (rest out : List Event) (n : ℕ) (timeout : Int64) : EProg ENext := do
  match ← read with
  | none => received n timeout rest out
  | some e =>
    if e = eintr then return .goto (.draining rest out n timeout)
    else received n timeout rest out

/-- One round of the loop of `signalWake`, with what follows the loop. -/
def signalWake (again : ELabel) (k : Option Errno → EProg ENext) : EProg ENext := do
  match ← write with
  | none => k none
  | some e =>
    if e = eagain then k none
    else if e = eintr then return .goto again
    else k (some e)

def waking : EProg ENext :=
  signalWake .waking fun
    | some e => unlocked (some (.wrap "epoll: wake" e.err))
    | none => unlocked none

def wake : EProg ENext := do
  rlock
  match ← loadClosed with
  | true => unlocked errClosed
  | false => return .goto .waking

/-- The errors of `Close` other than `EBADF`. -/
def closeErr (e : Option Errno) : Option Err := (e.filter (· ≠ ebadf)).map Errno.err

/-- `errors.Join`; of one error it is that error. -/
def joined : Option Err → Option Err → Option Err
  | some a, some b => some (.join a b)
  | some a, none => some a
  | none, b => b

def closing : EProg ENext :=
  signalWake .closing fun _ => do
    lock
    let epollErr ← closeDescriptor .epoll
    let wakeErr ← closeDescriptor .wake
    unlock
    return .ret (.done (joined (closeErr epollErr) (closeErr wakeErr)))

def close : EProg ENext := do
  match ← casClosed with
  | false => return .ret (.done none)
  | true => return .goto .closing

def ELabel.body : ELabel → EProg ENext
  | .add fd events data => Epoll.add fd events data
  | .mod fd events data => Epoll.mod fd events data
  | .del fd => Epoll.del fd
  | .wait n timeout => Epoll.wait n timeout
  | .wake => Epoll.wake
  | .close => Epoll.close
  | .polling n timeout => Epoll.polling n timeout
  | .draining rest out n timeout => Epoll.draining rest out n timeout
  | .waking => Epoll.waking
  | .closing => Epoll.closing

/-! ### The machine -/

/-- What an instruction is to the guard, given its answer. -/
def EInstr.act : (i : EInstr) → i.Resp → Guard.Act
  | .loadClosed, closed => .check closed
  | .casClosed, won => .claim won
  | .rlock, _ => .rlock
  | .runlock, _ => .runlock
  | .lock, _ => .lock
  | .unlock, _ => .unlock
  | .epollCtl _ _ _, _ | .epollWait _ _, _ | .write, _ | .read, _ => .use
  | .close .epoll, _ => .release
  | .close .wake, _ | .casWaiting, _ | .storeWaiting, _ | .since, _ => .skip

/-- How a system call goes: its error, the events that `epoll_wait` reports, and the time that has
passed. -/
structure EChoice where
  err : Option Errno := none
  batch : List Event := []
  elapsed : Int64 := 0

namespace Poller

/-- The effect of a successful `epoll_ctl`. -/
def control (s : Poller) (fd : ℤ) (ev : Option Event) : Poller :=
  { s with interest :=
      (ev.map fun ev => (fd, ev)).toList ++ s.interest.filter fun entry => entry.1 ≠ fd }

/-- What `epoll_wait` may report: registered events, the eventfd while its counter is not zero, and
nothing only after a timeout with the counter at zero. -/
def Reports (s : Poller) (n : ℕ) (ms : ℤ) (batch : List Event) : Prop :=
  batch.length ≤ n ∧
    (∀ ev ∈ batch, if ev.data = wakeData then 0 < s.counter
      else ev.data ∈ s.interest.map fun entry => entry.2.data) ∧
    (batch = [] → s.counter = 0 ∧ ms ≠ -1)

instance (s : Poller) (n : ℕ) (ms : ℤ) (batch : List Event) : Decidable (s.Reports n ms batch) :=
  inferInstanceAs (Decidable (_ ∧ _ ∧ _))

/-- The answer of an instruction, with its effect on all but the guard. An eventfd answers `EAGAIN`
exactly when it would have to wait. -/
def native (s : Poller) (x : EChoice) : (i : EInstr) → Option (Poller × i.Resp)
  | .loadClosed => some (s, s.guard.closed)
  | .casClosed => some (s, !s.guard.closed)
  | .casWaiting => some ({ s with waiting := true }, !s.waiting)
  | .storeWaiting => some ({ s with waiting := false }, ())
  | .since => some (s, x.elapsed)
  | .rlock | .runlock | .lock | .unlock => some (s, ())
  | .epollCtl _ fd ev =>
    match x.err with
    | some e => some (s, some e)
    | none => some (s.control fd ev, none)
  | .epollWait n ms =>
    match x.err with
    | some e => some (s, .error e)
    | none => if s.Reports n ms x.batch then some (s, .ok x.batch) else none
  | .write =>
    match x.err with
    | some e => if e = eagain then none else some (s, some e)
    | none =>
      if s.counter < maxCounter then some ({ s with counter := s.counter + 1 }, none)
      else some (s, some eagain)
  | .read =>
    match x.err with
    | some e => if e = eagain then none else some (s, some e)
    | none => if s.counter = 0 then some (s, some eagain) else some ({ s with counter := 0 }, none)
  | .close _ => some (s, x.err)

def exec (s : Poller) (x : EChoice) (i : EInstr) : Option (Poller × i.Resp) :=
  s.guard.exec i.act (fun s g => { s with guard := g }) (s.native x i)

/-- Only the calls are started; the loops belong to them. -/
def spawn (s : Poller) : ELabel → Option Poller
  | .polling _ _ | .draining _ _ _ _ | .waking | .closing => none
  | _ => some s

end Poller

def pollerMachine : Machine EInstr EInstr.Resp ELabel EVal Poller EChoice Empty where
  body := ELabel.body
  exec s i x := s.exec x i
  spawn := Poller.spawn
  env _ e := e.elim

abbrev EProcess := Process EInstr EInstr.Resp ELabel EVal Poller

abbrev EThread := Thread EInstr EInstr.Resp ELabel EVal

abbrev EEvent := Interleaving.Event ELabel EChoice Empty

/-- A poller that was just opened. -/
def EProcess.init : EProcess := ⟨{}, []⟩

end Ogrenet.Epoll
