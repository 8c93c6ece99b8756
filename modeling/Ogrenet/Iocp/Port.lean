import Mathlib.Algebra.Order.Ring.Int
import Ogrenet.Errors
import Ogrenet.Interleaving.Calls
import Ogrenet.Interleaving.Guard

/-!
# The completion port

`iocp/iocp_windows.go`: any number of goroutines call `Associate`, `Post`, `Get` and `Close` of a
`Port`. `mu`, `closed` and the native handle are a `Guard`. A packet that an I/O operation completes
with arrives as a step of the environment, with the key of a handle that was associated.
-/

namespace Ogrenet.Iocp

open Interleaving Interleaving.Prog

structure Completion where
  bytes : UInt32 := 0
  key : UInt64 := 0
  overlapped : Option ℕ := none
  deriving DecidableEq, Repr

/-- `^uintptr(0)`. -/
def reservedKey : UInt64 := ~~~0

def Completion.reserved (c : Completion) : Bool := c.key == reservedKey && c.overlapped == none

def errClosed : Err := .plain "iocp: completion port is closed"

def errTimeout : Err := .plain "iocp: wait timed out"

def errReservedKey : Err := .plain "iocp: completion key is reserved for internal use"

/-- `windows.INFINITE`. -/
def infinite : ℕ := 2 ^ 32 - 1

def timeoutMillis (timeout : Int64) : ℕ :=
  if timeout.toInt < 0 then infinite
  else if timeout.toInt = 0 then 0
  else
    let ms := timeout.toInt.toNat / 1000000 + if timeout.toInt.toNat % 1000000 = 0 then 0 else 1
    if 2 ^ 32 - 1 ≤ ms then 2 ^ 32 - 2 else ms

/-- The error of `GetQueuedCompletionStatus`. -/
inductive GetError where
  | waitTimeout
  | other (err : Err)

structure Port where
  /-- `mu`, `closed`, and whether `CloseHandle` has not been called. -/
  guard : Guard := {}
  waiters : ℤ := 0
  packets : List Completion := []
  /-- The keys of the handles that were associated. -/
  keys : List UInt64 := []

inductive PInstr where
  | loadClosed
  | casClosed
  | addWaiters (n : ℤ)
  | loadWaiters
  | rlock
  | runlock
  | lock
  | unlock
  /-- `CreateIoCompletionPort` with the port's handle; whether it answers that handle. -/
  | createIoCompletionPort (key : UInt64)
  | postQueuedCompletionStatus (c : Completion)
  | getQueuedCompletionStatus (ms : ℕ)
  | closeHandle

@[reducible] def PInstr.Resp : PInstr → Type
  | .loadClosed | .casClosed => Bool
  | .loadWaiters => ℤ
  | .createIoCompletionPort _ => Except Err Bool
  | .postQueuedCompletionStatus _ | .closeHandle => Option Err
  | .getQueuedCompletionStatus _ => Completion × Option GetError
  | .addWaiters _ | .rlock | .runlock | .lock | .unlock => Unit

abbrev PProg := Prog PInstr PInstr.Resp

/-- The calls, and the loop of `Close` with its bound and its counter. -/
inductive PLabel where
  | associate (key : UInt64)
  | post (c : Completion)
  | get (timeout : Int64)
  | close
  | posting (waiters i : ℤ)

/-- A call returns its error; `Get` also a completion. -/
inductive PVal where
  | done (err : Option Err)
  | got (c : Completion) (err : Option Err)

abbrev PNext := Next PLabel PVal

/-! ### The calls -/

def loadClosed : PProg Bool := perform PInstr.loadClosed

def casClosed : PProg Bool := perform PInstr.casClosed

def addWaiters (n : ℤ) : PProg Unit := perform (PInstr.addWaiters n)

def loadWaiters : PProg ℤ := perform PInstr.loadWaiters

def rlock : PProg Unit := perform PInstr.rlock

def runlock : PProg Unit := perform PInstr.runlock

def lock : PProg Unit := perform PInstr.lock

def unlock : PProg Unit := perform PInstr.unlock

def createIoCompletionPort (key : UInt64) : PProg (Except Err Bool) :=
  perform (PInstr.createIoCompletionPort key)

def postQueuedCompletionStatus (c : Completion) : PProg (Option Err) :=
  perform (PInstr.postQueuedCompletionStatus c)

def getQueuedCompletionStatus (ms : ℕ) : PProg (Completion × Option GetError) :=
  perform (PInstr.getQueuedCompletionStatus ms)

def closeHandle : PProg (Option Err) := perform PInstr.closeHandle

/-- The deferred `RUnlock` of `Associate` and `Post`. -/
def unlocked (err : Option Err) : PProg PNext := do
  runlock
  return .ret (.done err)

def associate (key : UInt64) : PProg PNext := do
  if key = reservedKey then return .ret (.done errReservedKey)
  else
    rlock
    match ← loadClosed with
    | true => unlocked errClosed
    | false =>
      match ← createIoCompletionPort key with
      | .error err => unlocked (some (.wrap "iocp: associate handle" err))
      | .ok false =>
        unlocked (some (.plain "iocp: associate returned unexpected completion port handle"))
      | .ok true => unlocked none

def post (c : Completion) : PProg PNext := do
  if c.key = reservedKey then return .ret (.done errReservedKey)
  else
    rlock
    match ← loadClosed with
    | true => unlocked errClosed
    | false =>
      match ← postQueuedCompletionStatus c with
      | some err => unlocked (some (.wrap "iocp: post completion" err))
      | none => unlocked none

/-- The deferred functions of `Get`. -/
def left (c : Completion) (err : Option Err) : PProg PNext := do
  runlock
  addWaiters (-1)
  return .ret (.got c err)

def get (timeout : Int64) : PProg PNext := do
  match ← loadClosed with
  | true => return .ret (.got {} errClosed)
  | false =>
    addWaiters 1
    rlock
    match ← loadClosed with
    | true => left {} errClosed
    | false =>
      let r ← getQueuedCompletionStatus (timeoutMillis timeout)
      if r.1.reserved then left {} errClosed
      else
        match r.2 with
        | none => left r.1 none
        | some .waitTimeout => left {} errTimeout
        | some (.other err) =>
          match ← loadClosed with
          | true => left {} errClosed
          | false => left r.1 (some (.wrap "iocp: get completion" err))

/-- One round of the loop of `Close`, and what follows the loop. -/
def posting (waiters i : ℤ) : PProg PNext := do
  if i < waiters then
    let _ ← postQueuedCompletionStatus { key := reservedKey }
    return .goto (.posting waiters (i + 1))
  else
    lock
    let err ← closeHandle
    unlock
    return .ret (.done (err.map (.wrap "iocp: close")))

def close : PProg PNext := do
  match ← casClosed with
  | false => return .ret (.done none)
  | true =>
    let waiters ← loadWaiters
    return .goto (.posting waiters 0)

def PLabel.body : PLabel → PProg PNext
  | .associate key => Iocp.associate key
  | .post c => Iocp.post c
  | .get timeout => Iocp.get timeout
  | .close => Iocp.close
  | .posting waiters i => Iocp.posting waiters i

/-! ### The machine -/

/-- What an instruction is to the guard, given its answer. -/
def PInstr.act : (i : PInstr) → i.Resp → Guard.Act
  | .loadClosed, closed => .check closed
  | .casClosed, won => .claim won
  | .rlock, _ => .rlock
  | .runlock, _ => .runlock
  | .lock, _ => .lock
  | .unlock, _ => .unlock
  | .createIoCompletionPort _, _ | .postQueuedCompletionStatus _, _
  | .getQueuedCompletionStatus _, _ => .use
  | .closeHandle, _ => .release
  | .addWaiters _, _ | .loadWaiters, _ => .skip

/-- How native calls go: which packet a `GetQueuedCompletionStatus` dequeues, if any, and the errors
of the calls. -/
structure PChoice where
  pick : Option ℕ := none
  err : Option Err := none
  postErr : Option Err := none
  same : Bool := true

namespace Port

/-- The answer of an instruction, with its effect on all but the guard. -/
def native (s : Port) (x : PChoice) : (i : PInstr) → Option (Port × i.Resp)
  | .loadClosed => some (s, s.guard.closed)
  | .casClosed => some (s, !s.guard.closed)
  | .addWaiters n => some ({ s with waiters := s.waiters + n }, ())
  | .loadWaiters => some (s, s.waiters)
  | .rlock | .runlock | .lock | .unlock => some (s, ())
  | .createIoCompletionPort key =>
    match x.err with
    | some err => some (s, .error err)
    | none => some ({ s with keys := key :: s.keys }, .ok x.same)
  | .postQueuedCompletionStatus c =>
    match x.postErr with
    | some err => some (s, some err)
    | none => some ({ s with packets := s.packets ++ [c] }, none)
  | .getQueuedCompletionStatus ms =>
    match x.pick with
    | some k => (s.packets[k]?).map fun c =>
        ({ s with packets := s.packets.eraseIdx k }, (c, x.err.map .other))
    | none =>
      match x.err with
      | some err => some (s, ({}, some (.other err)))
      | none => if ms = infinite then none else some (s, ({}, some .waitTimeout))
  | .closeHandle => some (s, x.err)

def exec (s : Port) (x : PChoice) (i : PInstr) : Option (Port × i.Resp) :=
  s.guard.exec i.act (fun s g => { s with guard := g }) (s.native x i)

/-- Only `Close` itself starts its loop. -/
def spawn (s : Port) : PLabel → Option Port
  | .posting _ _ => none
  | _ => some s

/-- An I/O operation on an associated handle completes. -/
def env (s : Port) (c : Completion) : Option Port :=
  if c.key ∈ s.keys then some { s with packets := s.packets ++ [c] } else none

end Port

def portMachine : Machine PInstr PInstr.Resp PLabel PVal Port PChoice Completion where
  body := PLabel.body
  exec s i x := s.exec x i
  spawn := Port.spawn
  env := Port.env

abbrev PProcess := Process PInstr PInstr.Resp PLabel PVal Port

abbrev PThread := Thread PInstr PInstr.Resp PLabel PVal

abbrev PEvent := Event PLabel PChoice Completion

/-- A port that was just opened. -/
def PProcess.init : PProcess := ⟨{}, []⟩

end Ogrenet.Iocp
