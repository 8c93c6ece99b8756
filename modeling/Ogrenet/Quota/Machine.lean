import Ogrenet.Errors
import Ogrenet.Interleaving.Outline
import Ogrenet.Quota.Basic

/-!
# Sessions that share a byte budget

The calls `acquire`, `tryAcquire` and `release` on any number of `byteQuota`s that have the same
`globalByteQuota` as parent. A goroutine acquires a number of bytes and, when it has got them,
releases them at some later time, so that releases match reservations. The scheduler decides when
contexts end and when the channels `closing` are closed.
-/

namespace Ogrenet

open Interleaving Interleaving.Prog

/-- The limits of the session budgets and of the one they share. -/
structure QuotaConfig where
  limits : List ℕ
  globalLimit : ℕ

/-- The budget of a session, by its number, or the one that all share. -/
inductive Budget where
  | session (k : ℕ)
  | shared
  deriving DecidableEq, Repr

/-- What ends a `select` on `ctx.Done()`, `closing` and `changed`. -/
inductive Woken where
  | ctxDone (err : Err)
  | closing
  | changed

inductive QInstr where
  /-- The locked sections of `acquire`, `tryAcquire` and `release` of a budget. -/
  | acquireSection (b : Budget) (n : ℕ)
  | tryAcquire (b : Budget) (n : ℕ)
  | release (b : Budget) (n : ℕ)
  /-- The `select` on the channel `g` of a budget. -/
  | await (b : Budget) (g : ℕ)

@[reducible] def QInstr.Resp : QInstr → Type
  | .acquireSection _ _ => Option ℕ
  | .tryAcquire _ _ => Bool
  | .release _ _ => Unit
  | .await _ _ => Woken

abbrev QProg := Prog QInstr QInstr.Resp

/-- The calls with their budget and their number of bytes, and the loops of `acquireLocal` and of
the global `acquire`. -/
inductive QLabel where
  | acquire (k n : ℕ)
  | tryAcquire (k n : ℕ)
  | acquireLocal (k n : ℕ)
  | acquireGlobal (k n : ℕ)
  | release (k n : ℕ)

/-- A call returns its error; one that has released what it had returns none. -/
abbrev QNext := Next QLabel (Option Err)

namespace Quota

def acquireSection (b : Budget) (n : ℕ) : QProg (Option ℕ) := perform (QInstr.acquireSection b n)

def trySection (b : Budget) (n : ℕ) : QProg Bool := perform (QInstr.tryAcquire b n)

def releaseSection (b : Budget) (n : ℕ) : QProg Unit := perform (QInstr.release b n)

def await (b : Budget) (g : ℕ) : QProg Woken := perform (QInstr.await b g)

def errFrameExceedsQueueBudget : Err := .sentinel .frameExceedsQueueBudget

variable (cfg : QuotaConfig)

def limitError : Err := .limitError ⟨.queuedBytes, cfg.globalLimit⟩

def releaseLocal (k n : ℕ) : QProg Unit :=
  if n = 0 then return () else releaseSection (.session k) n

/-- The test `q.limit == 0 || n == 0` of the shared budget. -/
def unlimited (n : ℕ) : Bool := cfg.globalLimit == 0 || n == 0

/-- `byteQuota.acquire` up to the loop of `acquireLocal`. -/
def acquire (k n : ℕ) : QProg QNext :=
  if cfg.limits.getD k 0 < n then return .ret (some errFrameExceedsQueueBudget)
  else return .goto (.acquireLocal k n)

/-- One round of `acquireLocal`. -/
def acquireLocal (k n : ℕ) : QProg QNext := do
  match ← acquireSection (.session k) n with
  | none => return .goto (.acquireGlobal k n)
  | some g =>
    match ← await (.session k) g with
    | .ctxDone err => return .ret (some err)
    | .closing => return .ret (some (.sentinel .closed))
    | .changed => return .goto (.acquireLocal k n)

/-- Gives the local reservation back and returns the error of the shared budget. -/
def undoLocal (k n : ℕ) (err : Err) : QProg QNext := do
  releaseLocal k n
  return .ret (some err)

/-- One round of `globalByteQuota.acquire`. -/
def acquireGlobal (k n : ℕ) : QProg QNext := do
  if unlimited cfg n then return .goto (.release k n)
  else if cfg.globalLimit < n then undoLocal k n (limitError cfg)
  else
    match ← acquireSection .shared n with
    | none => return .goto (.release k n)
    | some g =>
      match ← await .shared g with
      | .ctxDone err => undoLocal k n err
      | .closing => undoLocal k n (.sentinel .closed)
      | .changed => return .goto (.acquireGlobal k n)

def tryAcquire (k n : ℕ) : QProg QNext := do
  if cfg.limits.getD k 0 < n then return .ret (some errFrameExceedsQueueBudget)
  else
    match ← trySection (.session k) n with
    | false => return .ret (some (.sentinel .wouldBlock))
    | true =>
      if unlimited cfg n then return .goto (.release k n)
      else if cfg.globalLimit < n then undoLocal k n (limitError cfg)
      else
        match ← trySection .shared n with
        | false => undoLocal k n (.join (.sentinel .wouldBlock) (limitError cfg))
        | true => return .goto (.release k n)

def release (k n : ℕ) : QProg QNext := do
  releaseLocal k n
  if unlimited cfg n then return .ret none
  else
    releaseSection .shared n
    return .ret none

end Quota

def QLabel.body (cfg : QuotaConfig) : QLabel → QProg QNext
  | .acquire k n => Quota.acquire cfg k n
  | .tryAcquire k n => Quota.tryAcquire cfg k n
  | .acquireLocal k n => Quota.acquireLocal k n
  | .acquireGlobal k n => Quota.acquireGlobal cfg k n
  | .release k n => Quota.release cfg k n

structure QuotaState where
  sessions : List ByteQuota
  shared : ByteQuota

namespace QuotaState

def get (s : QuotaState) : Budget → Option ByteQuota
  | .session k => s.sessions[k]?
  | .shared => some s.shared

def put (s : QuotaState) (q : ByteQuota) : Budget → QuotaState
  | .session k => { s with sessions := s.sessions.set k q }
  | .shared => { s with shared := q }

/-- Runs a section of a budget. -/
def on {β : Type} (s : QuotaState) (b : Budget) (f : ByteQuota → ByteQuota × β) :
    Option (QuotaState × β) :=
  (s.get b).map fun q => (s.put (f q).1 b, (f q).2)

def exec (s : QuotaState) (x : Woken) : (i : QInstr) → Option (QuotaState × i.Resp)
  | .acquireSection b n => s.on b (·.acquireSection n)
  | .tryAcquire b n => s.on b (·.tryAcquire n)
  | .release b n => s.on b fun q => (q.release n, ())
  | .await b g =>
    match x with
    | .changed =>
      if (s.get b).any fun q => g ∈ q.closed then some (s, .changed) else none
    | x => some (s, x)

/-- Anyone may call `acquire` and `tryAcquire`. -/
def spawn (s : QuotaState) : QLabel → Option QuotaState
  | .acquire k _ | .tryAcquire k _ => if k < s.sessions.length then some s else none
  | _ => none

end QuotaState

def quotaMachine (cfg : QuotaConfig) :
    Machine QInstr QInstr.Resp QLabel (Option Err) QuotaState Woken Empty where
  body := QLabel.body cfg
  exec s i x := s.exec x i
  spawn := QuotaState.spawn
  env s _ := some s

abbrev QThread := Thread QInstr QInstr.Resp QLabel (Option Err)

abbrev QProcess := Process QInstr QInstr.Resp QLabel (Option Err) QuotaState

def QProcess.init (cfg : QuotaConfig) : QProcess :=
  ⟨⟨cfg.limits.map fun limit => { limit }, { limit := cfg.globalLimit }⟩, []⟩

/-- A state of the budgets that some interleaving reaches. -/
def QuotaReaches (cfg : QuotaConfig) (p : QProcess) : Prop :=
  (quotaMachine cfg).Reaches (QProcess.init cfg) p

end Ogrenet
