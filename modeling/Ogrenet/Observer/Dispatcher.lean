import Ogrenet.Interleaving.Prog
import Ogrenet.Session.State

/-!
# The observer dispatcher

`transport/observer.go`: whoever has something to report emits an event into a bounded queue, and
one goroutine hands the events to the observer of the user. `emit` never waits. It counts an event
that finds the queue full and drops it. A panic of the observer is recovered and counted.

A call of the observer is one instruction, answered by whether it panicked. One that never returns
is an instruction that is never run.
-/

namespace Ogrenet.Observer

open Interleaving Interleaving.Prog

variable {α : Type}

/-- Which case of the `select` in `run` was taken. -/
inductive Woken (α : Type) where
  | stopped
  | event (e : α)
  deriving DecidableEq, Repr

inductive OInstr (α : Type) where
  | loadStopped
  /-- The `select` of `emit`: whether the queue had room. -/
  | offer (e : α)
  | addDropped
  | storeStopped
  | onceEnter
  | closeStop
  | onceExit
  | select
  /-- `observer.Observe(event)`: whether it panicked. -/
  | observe (e : α)
  | addPanics
  deriving DecidableEq, Repr

def OInstr.Resp : OInstr α → Type
  | .loadStopped | .offer _ | .onceEnter | .observe _ => Bool
  | .select => Woken α
  | .addDropped | .storeStopped | .closeStop | .onceExit | .addPanics => Unit

abbrev OProg (α : Type) := Prog (OInstr α) OInstr.Resp

inductive OLabel (α : Type) where
  | emit (e : α)
  | stop
  | run
  deriving DecidableEq, Repr

inductive OVal where
  | emitted (ok : Bool)
  | unit
  deriving DecidableEq, Repr

abbrev ONext (α : Type) := Next (OLabel α) OVal

/-! ### The calls -/

def loadStopped : OProg α Bool := perform OInstr.loadStopped

def offer (e : α) : OProg α Bool := perform (OInstr.offer e)

def addDropped : OProg α Unit := perform OInstr.addDropped

def storeStopped : OProg α Unit := perform OInstr.storeStopped

def onceEnter : OProg α Bool := perform OInstr.onceEnter

def closeStop : OProg α Unit := perform OInstr.closeStop

def onceExit : OProg α Unit := perform OInstr.onceExit

def select : OProg α (Woken α) := perform OInstr.select

def callObserver (e : α) : OProg α Bool := perform (OInstr.observe e)

def addPanics : OProg α Unit := perform OInstr.addPanics

def emit (e : α) : OProg α (ONext α) := do
  match ← loadStopped with
  | true => return .ret (.emitted false)
  | false =>
    match ← offer e with
    | true => return .ret (.emitted true)
    | false =>
      addDropped
      return .ret (.emitted false)

def stop : OProg α (ONext α) := do
  storeStopped
  match ← onceEnter with
  | true =>
    closeStop
    onceExit
    return .ret .unit
  | false => return .ret .unit

/-- `observe`, with its deferred `recover`. -/
def observe (e : α) : OProg α Unit := do
  match ← callObserver e with
  | true => addPanics
  | false => return ()

def run : OProg α (ONext α) := do
  match ← select with
  | .stopped => return .ret .unit
  | .event e =>
    observe e
    return .goto .run

def OLabel.body : OLabel α → OProg α (ONext α)
  | .emit e => Observer.emit e
  | .stop => Observer.stop
  | .run => Observer.run

/-! ### The state -/

/-- The fields of `observerDispatcher`, whether the process has panicked, and what has happened so
far: the events that found room in the queue, those that did not, and the calls of the observer with
whether each of them panicked. The options refuse a queue without room. -/
structure Dispatcher (α : Type) where
  size : ℕ
  size_pos : 0 < size
  queue : List α := []
  stopCh : Bool := false
  stopped : Bool := false
  stopOnce : OnceState := .idle
  dropped : ℕ := 0
  panics : ℕ := 0
  panicked : Bool := false
  queued : List α := []
  refused : List α := []
  observed : List (α × Bool) := []

/-- The answer of an instruction where no panic has ended the process. The choice is between the
cases of a `select`, and of whether the observer panics. -/
def Dispatcher.act (d : Dispatcher α) : (i : OInstr α) → Bool → Option (Dispatcher α × i.Resp)
  | .loadStopped, _ => some (d, d.stopped)
  | .offer e, _ =>
    if d.queue.length < d.size then
      some ({ d with queue := d.queue ++ [e], queued := d.queued ++ [e] }, true)
    else some ({ d with refused := d.refused ++ [e] }, false)
  | .addDropped, _ => some ({ d with dropped := d.dropped + 1 }, ())
  | .storeStopped, _ => some ({ d with stopped := true }, ())
  | .onceEnter, _ =>
    match d.stopOnce with
    | .idle => some ({ d with stopOnce := .running }, true)
    | .running => none
    | .finished => some (d, false)
  | .closeStop, _ =>
    -- closing a channel a second time panics
    some (if d.stopCh then { d with panicked := true } else { d with stopCh := true }, ())
  | .onceExit, _ => some ({ d with stopOnce := .finished }, ())
  | .select, true => if d.stopCh then some (d, .stopped) else none
  | .select, false =>
    match d.queue with
    | [] => none
    | e :: es => some ({ d with queue := es }, .event e)
  | .observe e, x => some ({ d with observed := d.observed ++ [(e, x)] }, x)
  | .addPanics, _ => some ({ d with panics := d.panics + 1 }, ())

def Dispatcher.exec (d : Dispatcher α) (i : OInstr α) (x : Bool) :
    Option (Dispatcher α × i.Resp) :=
  if d.panicked then none else d.act i x

/-- `newObserverDispatcher` alone starts `run`. -/
def Dispatcher.spawn (d : Dispatcher α) : OLabel α → Option (Dispatcher α)
  | .run => none
  | .emit _ | .stop => some d

def dispatcherMachine :
    Machine (OInstr α) OInstr.Resp (OLabel α) OVal (Dispatcher α) Bool Empty where
  body := OLabel.body
  exec := Dispatcher.exec
  spawn := Dispatcher.spawn
  env _ e := e.elim

abbrev OThread (α : Type) := Thread (OInstr α) OInstr.Resp (OLabel α) OVal

abbrev OProcess (α : Type) := Process (OInstr α) OInstr.Resp (OLabel α) OVal (Dispatcher α)

abbrev OEvent (α : Type) := Event (OLabel α) Bool Empty

/-- The dispatcher that `newObserverDispatcher` returns, with the goroutine it starts. -/
def OProcess.init (size : ℕ) (h : 0 < size) : OProcess α :=
  ⟨{ size := size, size_pos := h }, [⟨.run, OLabel.run.body, []⟩]⟩

end Ogrenet.Observer
