import Ogrenet.Session.Resources.Conserved

/-!
# The life of a stream session

The outline of how a TCP or TLS session ends. A `Life` says what a goroutine knows of the session's
lifecycle and, for the writer and the reader, how far it is with the connection: the writer is
between two frames, inside one, or has stopped for good; the reader still delivers messages or does
not.
-/

namespace Ogrenet

open Interleaving Interleaving.Prog

/-- Where the writer is on the wire. Inside a frame, `rest` is left to write of it. -/
inductive WirePhase where
  | between
  | inside (rest : Bytes)
  | stopped
  deriving DecidableEq, Repr

/-- The phase after a request was taken off the queue. -/
def WirePhase.take (frame : Bytes) : WirePhase → WirePhase
  | .between => .inside frame
  | ph => ph

structure Life where
  entry : SLabel
  loop : Bool := false
  /-- The reader may still deliver messages. -/
  reading : Bool := false
  waited : Bool := false
  phase : WirePhase := .between
  /-- A write on the connection has failed. -/
  broken : Bool := false
  sawDrained : Bool := false
  sawEmpty : Bool := false
  /-- It has aborted the session. -/
  aborted : Bool := false
  /-- It knows that the session was aborted or its write side is done. -/
  isOver : Bool := false
  sawReadDone : Bool := false
  /-- It has aborted the session and closed `ReadClosed`. -/
  marked : Bool := false
  /-- It knows that the write side was closed after everything was sent. -/
  clean : Bool := false
  deriving DecidableEq, Repr

namespace Life

def start (l : SLabel) : Life := { entry := l, loop := l.isLoop, reading := l == .readerLoop }

def fired (cases : List Case) : Fired → Life → Life
  | .closed .writeDone, c => { c with isOver := true }
  | .closed .aborted, c => { c with isOver := true }
  | .closed .closing, c => { c with isOver := true, phase := .stopped }
  | .closed .readDone, c => { c with sawReadDone := true }
  | .drained, c => { c with sawDrained := true }
  | .popped _ req, c => { c with phase := c.phase.take req.frame }
  | .default, c => { c with sawEmpty := c.sawEmpty || (c.sawDrained && offersPop cases) }
  | _, c => c

def upd : (i : SInstr) → i.Resp → Life → Life
  | .select cases _, r, c => c.fired cases r
  | .abortSection _ _, won, c =>
    { c with aborted := c.aborted || won, isOver := true, phase := .stopped }
  | .signal .readDone, _, c => { c with marked := c.marked || c.aborted, reading := false }
  | .reason, .none, c => { c with clean := c.clean || c.isOver }
  | .rawWrite p, (n, e), c =>
    { c with phase := .inside (p.drop n), broken := c.broken || (e.isSome || n == 0) }
  | .wrote ok, _, c => { c with phase := if ok then .between else .stopped }
  | .rawCloseWrite, _, c => { c with phase := .stopped, clean := true }
  | .loopDone, _, c => { c with loop := false, reading := false }
  | .waitLoops, _, c => { c with waited := true }
  | _, _, c => c

def caseReq (c : Life) : Case → Prop
  | .pop => c.entry = .writerLoop ∧ ∀ rest, c.phase ≠ .inside rest
  | _ => True

def req : SInstr → Life → Prop
  | .select cases _, c => ∀ x ∈ cases, c.caseReq x
  | .abortSection reason _, _ => reason ≠ .none
  | .request goal, _ => goal ≠ .abort
  | .signal .writeDone, c => c.isOver = true ∨ c.clean = true
  | .signal .closing, c => c.isOver = true
  | .signal .aborted, c => c.aborted = true
  | .signal .readDone, c =>
    c.aborted = true ∨ c.reading = true ∨ c.sawReadDone = true ∨ c.waited = true
  | .tryTerminal, c | .setTerminal, c => c.isOver = true
  | .rawWrite p, c => c.entry = .writerLoop ∧ c.phase = .inside p ∧ c.broken = false
  | .wrote ok, c => c.entry = .writerLoop ∧ ∃ rest, c.phase = .inside rest ∧ (ok = true → rest = [])
  | .rawCloseWrite, c =>
    c.entry = .writerLoop ∧ c.phase = .between ∧ c.broken = false ∧ c.sawEmpty = true
  | .wsWrite _, _ | .wsClose, _ | .packetWrite _, _ => False
  | .loopDone, c => c.loop = true
  | .callBegin (.onMessage _), c => c.reading = true
  | _, _ => True

def ans : (i : SInstr) → i.Resp → Life → Prop
  | .select cases dflt, r, _ => Fired.From cases dflt r
  | _, _, _ => True

/-- The goroutine was started to do something else than to close the write side. -/
def Other (c : Life) : Prop :=
  match c.entry with
  | .closeWrite _ | .shutdown _ => False
  | _ => True

/-- The writer, at some phase. -/
structure Writes (at_ : WriterAt) (phase : WirePhase) (c : Life) : Prop where
  entry : c.entry = .writerLoop
  loop : c.loop = true
  phase_eq : c.phase = phase
  sawDrained : at_ = .drain → c.sawDrained = true

def pre : SLabel → Life → Prop
  | .writer at_, c => c.Writes at_ .between ∧ c.broken = false
  | .writing at_ _ _ rest, c => c.Writes at_ (.inside rest) ∧ c.broken = false
  | .writerExit, c | .failPending _, c =>
    c.entry = .writerLoop ∧ c.loop = true ∧ c.phase = .stopped
  | .reader _, c | .decoding _ _ _, c => c.Other ∧ c.loop = true ∧ c.reading = true
  | .acquireLocal _, c | .acquireGlobal _, c => c.Other
  | l, c => c = start l

/-- `CloseWrite` and `Shutdown` return nil only after a clean end of the write side. -/
def post (v : SVal) (c : Life) : Prop :=
  match c.entry, v with
  | .closeWrite _, .result none | .shutdown _, .result none => c.clean = true
  | _, _ => True

end Life

/-- The outline of the lifecycle of a stream session. -/
def lifeOutline : Outline SInstr SInstr.Resp SLabel SVal Life where
  start := Life.start
  upd i r c := c.upd i r
  req i c := c.req i
  ans i r c := c.ans i r
  pre := Life.pre
  post _ v c := c.post v

/-! ### What is on the wire -/

/-- The bytes that have been put on the connection. -/
def outBytes (out : List Output) : Bytes :=
  out.flatMap fun
    | .bytes p => p
    | _ => []

/-- The frames of the requests, one after the other. -/
def framesOf (reqs : List Request) : Bytes := (reqs.map Request.frame).flatten

/-- Whole frames in queue order, and at most one proper prefix of the next frame. -/
def WholeFrames (sent : List Request) (bytes : Bytes) : Prop :=
  ∃ n part, n ≤ sent.length ∧ bytes = framesOf (sent.take n) ++ part ∧
    (part = [] ∨ ∃ req, sent[n]? = some req ∧ part <+: req.frame ∧ part.length < req.frame.length)

/-- What is on the wire in each phase of the writer. -/
def OnWire (sent : List Request) (received : ℕ) (results : List Bool) (out : List Output) :
    WirePhase → Prop
  | .between => outBytes out = framesOf (sent.take received) ∧
      results = List.replicate received true
  | .inside rest => ∃ n req part, received = n + 1 ∧ sent[n]? = some req ∧
      part ++ rest = req.frame ∧ outBytes out = framesOf (sent.take n) ++ part ∧
        results = List.replicate n true
  | .stopped => WholeFrames sent (outBytes out)

/-- The write side was closed after everything that was ever queued had been written. -/
structure Shut (s : Session) : Prop where
  drained : s.gate.drained = true
  received : s.received = s.sent.length
  results : s.results = List.replicate s.sent.length true
  out : ∃ before, s.out = before ++ [Output.closeWrite] ∧ Output.closeWrite ∉ before ∧
    outBytes before = framesOf s.sent

/-! ### The invariant -/

/-- The session was aborted, or its write side is done. -/
def Session.Over (s : Session) : Prop := s.why ≠ .none ∨ s.closed .writeDone = true

structure Life.Knows (s : Session) (c : Life) : Prop where
  aborted : c.aborted = true → s.why ≠ .none
  isOver : c.isOver = true → s.Over
  sawReadDone : c.sawReadDone = true → s.closed .readDone = true
  marked : c.marked = true → s.closed .readDone = true
  clean : c.clean = true → .closeWrite ∈ s.out
  waited : c.waited = true → s.loops = 0
  sawDrained : c.sawDrained = true → s.gate.drained = true
  reading : c.reading = true → c.loop = true
  broken : c.broken = true → c.entry = .writerLoop

/-- How the channels of the lifecycle depend on each other. -/
structure Signals (s : Session) : Prop where
  goal : s.goal = .abort → s.why ≠ .none
  aborted : s.closed .aborted = true → s.why ≠ .none
  terminal : s.terminal = true → s.Over
  closing : s.closed .closing = true → s.Over
  writeDone : s.closed .writeDone = true → s.why ≠ .none ∨ .closeWrite ∈ s.out

/-- Some goroutine has closed `ReadClosed` in an abort. -/
def Marked (cs : List Life) : Prop := ∃ c ∈ cs, c.marked = true

/-- `ReadClosed` is closed by an abort, or after the reader has stopped delivering. -/
structure Reading (s : Session) (cs : List Life) : Prop where
  one : total (fun c => c.reading.toNat) cs ≤ 1
  loops : s.loops = total (fun c => c.loop.toNat) cs
  readDone : s.closed .readDone = true → Marked cs ∨ ∀ c ∈ cs, c.reading = false

def Life.writers (c : Life) : ℕ := if c.entry = .writerLoop then 1 else 0

/-- What the writer has put on the wire. -/
structure Writing (s : Session) (cs : List Life) : Prop where
  one : total Life.writers cs = 1
  wire : ∀ c ∈ cs, c.entry = .writerLoop →
    OnWire s.sent s.received s.results s.out c.phase ∧
      (c.sawEmpty = true → s.gate.drained = true ∧ s.sent.length ≤ s.received)
  shut : .closeWrite ∈ s.out → Shut s ∧ ∀ c ∈ cs, c.entry = .writerLoop → c.phase = .stopped

structure Lifecycle (s : Session) (cs : List Life) : Prop where
  knows : ∀ c ∈ cs, c.Knows s
  signals : Signals s
  reading : Reading s cs
  writing : Writing s cs

end Ogrenet
