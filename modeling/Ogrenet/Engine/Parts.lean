import Ogrenet.Engine.Machine

/-!
# What the programs of an engine are made of

A few steps of the engine's goroutines matter to how it stops and to what its listeners report: the
transitions of the engine, the wait for its end, the error of a listener and the start of a `Serve`.
Here is which programs do without them.
-/

namespace Ogrenet

open Interleaving Interleaving.Prog Eng

/-- The steps that neither stop the engine nor wait for its end, record no error of a listener and
start no `Serve`. -/
def EInstr.common : EInstr → Prop
  | .startDraining | .startAborting _ | .awaitDone | .setErr _ _ => False
  | .spawn l => ∀ j, l ≠ .serve j
  | _ => True

/-- The goroutines that only a `go` statement starts and that do what no other does. -/
def ELabel.sole : ELabel → Bool
  | .serve _ | .handleAccepted _ _ _ => true
  | _ => false

/-- The goroutine does not turn into one of them. -/
def ToLoops : ENext → Prop
  | .goto l => l.sole = false
  | .ret _ => True

variable {α : Type}

/-! ### Bookkeeping -/

lemma common_adm (p : AdmProg α) : (adm p).Forall EInstr.common :=
  forall_lift _ (fun _ => trivial) p

lemma common_trk (j : ℕ) (p : TrkProg α) : (trk j p).Forall EInstr.common :=
  forall_lift _ (fun _ => trivial) p

lemma common_maybeDoneLocked : maybeDoneLocked.Forall EInstr.common := by
  refine ⟨trivial, ?_⟩
  rintro (_ | _)
  · trivial
  · exact ⟨trivial, fun _ => ⟨trivial, fun _ => trivial⟩⟩

/-- The end of a section of `Engine.mu` that may find the engine idle. -/
lemma common_doneUnlock : (do maybeDoneLocked; unlock : EProg Unit).Forall EInstr.common :=
  common_maybeDoneLocked.bind fun _ => ⟨trivial, fun _ => trivial⟩

lemma common_beginOp : beginOp.Forall EInstr.common := by
  refine ⟨trivial, fun _ => ⟨trivial, fun st => ?_⟩⟩
  cases st with
  | running => exact ⟨trivial, fun _ => ⟨trivial, fun _ => trivial⟩⟩
  | _ => exact ⟨trivial, fun _ => trivial⟩

lemma common_endOp : endOp.Forall EInstr.common :=
  ⟨trivial, fun _ => ⟨trivial, fun _ => common_doneUnlock⟩⟩

lemma common_addTracked (j : ℕ) : (addTracked j).Forall EInstr.common := by
  refine ⟨trivial, fun _ => ⟨trivial, fun st => ?_⟩⟩
  cases st with
  | running => exact ⟨trivial, fun _ => ⟨trivial, fun _ => trivial⟩⟩
  | _ => exact ⟨trivial, fun _ => trivial⟩

lemma common_addLeased (kind : SessionKind) (lease : ℕ) :
    (addLeased kind lease).Forall EInstr.common :=
  ⟨trivial, fun _ => ⟨trivial, fun _ => trivial⟩⟩

lemma common_addWithLease (kind : SessionKind) (peer : String) (lease : Option ℕ) :
    (addWithLease kind peer lease).Forall EInstr.common := by
  refine ⟨trivial, fun _ => ⟨trivial, fun st => ?_⟩⟩
  cases st with
  | running =>
    cases lease with
    | none =>
      refine (common_adm (acquireConnection peer)).bind ?_
      rintro (e | lease)
      · exact ⟨trivial, fun _ => trivial⟩
      · exact common_addLeased kind lease
    | some lease =>
      refine (common_adm (ConnectionLease.activate lease)).bind ?_
      rintro (_ | _)
      · exact ⟨trivial, fun _ => trivial⟩
      · exact common_addLeased kind lease
  | _ => exact ⟨trivial, fun _ => trivial⟩

lemma common_releaseLease (lease : Option ℕ) : (releaseLease lease).Forall EInstr.common := by
  cases lease with
  | none => trivial
  | some m => exact common_adm _

lemma common_releaseUnless (lease : ℕ) (r : Except Err ℕ) :
    (releaseUnless lease r).Forall EInstr.common := by
  cases r with
  | ok k => trivial
  | error err => exact (common_adm _).bind fun _ => trivial

lemma common_removeTracked (j : ℕ) : (removeTracked j).Forall EInstr.common :=
  ⟨trivial, fun _ => ⟨trivial, fun _ => common_doneUnlock⟩⟩

lemma common_acquireEngineActivity (kind : Activity) :
    (acquireEngineActivity kind).Forall EInstr.common := by
  refine ⟨trivial, fun _ => ⟨trivial, fun st => ?_⟩⟩
  cases st with
  | running =>
    refine (common_adm (Adm.acquireActivity kind)).bind ?_
    rintro (e | a) <;> exact ⟨trivial, fun _ => trivial⟩
  | _ => exact ⟨trivial, fun _ => trivial⟩

lemma common_releaseEngineActivity (a : ℕ) :
    (releaseEngineActivity a).Forall EInstr.common := by
  refine (common_adm (ActivityLease.release a)).bind ?_
  rintro (_ | _)
  · trivial
  · exact ⟨trivial, fun _ => common_doneUnlock⟩

/-! ### Streams, listeners and packets -/

lemma common_adoptStreamWithLease (raw : Remote) (lease : ℕ) :
    (adoptStreamWithLease raw lease).Forall EInstr.common := by
  refine ⟨trivial, ?_⟩
  rintro (err | _)
  · trivial
  · refine (common_addWithLease .conn raw.peer (some lease)).bind ?_
    rintro (err | k)
    · trivial
    · exact ⟨nofun, fun _ => trivial⟩

lemma common_adoptDialled (scheme : Scheme) (raw : Remote) (lease : ℕ) :
    (adoptDialled scheme raw lease).Forall EInstr.common := by
  refine (common_adoptStreamWithLease raw lease).bind ?_
  rintro (err | k)
  · show Within _ _ (if _ then _ else _)
    split <;> trivial
  · trivial

lemma common_dialHandshake (scheme : Scheme) (raw : Remote) :
    (dialHandshake scheme raw).Forall EInstr.common := by
  refine ⟨trivial, ?_⟩
  rintro (err | _)
  · trivial
  · refine (common_acquireEngineActivity .handshake).bind ?_
    rintro (err | handshake)
    · trivial
    · refine ⟨trivial, fun r => (common_releaseEngineActivity handshake).bind fun _ => ?_⟩
      cases r with
      | ok _ => trivial
      | error err =>
        refine ⟨trivial, ?_⟩
        rintro (_ | cause) <;> trivial

lemma common_dialStream (scheme : Scheme) : (dialStream scheme).Forall EInstr.common := by
  refine ⟨trivial, ?_⟩
  rintro (err | raw)
  · trivial
  · refine (common_adm (acquireOpening raw.peer)).bind ?_
    rintro (e | lease)
    · trivial
    · refine Forall.bind (p := dialLeased scheme raw lease) ?_ (common_releaseUnless lease)
      simp only [dialLeased]
      split
      · refine (common_dialHandshake scheme raw).bind ?_
        rintro (_ | err)
        · exact common_adoptDialled scheme raw lease
        · trivial
      · exact common_adoptDialled scheme raw lease

/-- A close of a listener without a cause. -/
lemma common_initiateClose (j : ℕ) : (initiateClose j none).Forall EInstr.common := by
  refine ⟨trivial, ?_⟩
  rintro (_ | _)
  · trivial
  · refine ⟨trivial, fun _ => ⟨trivial, ?_⟩⟩
    rintro (err | _) <;> exact ⟨trivial, fun _ => trivial⟩

lemma common_watchContext (j : ℕ) : (watchContext j).Within EInstr.common ToLoops := by
  refine ⟨trivial, ?_⟩
  rintro (_ | _)
  · trivial
  · exact (common_initiateClose j).bind fun _ => trivial

lemma common_finalizeListener (j : ℕ) : (finalizeListener j).Within EInstr.common ToLoops :=
  (common_initiateClose j).bind fun _ => ⟨trivial, fun _ => (common_removeTracked j).bind fun _ =>
    trivial⟩

lemma common_prepare : prepare.Forall EInstr.common := by
  refine (common_acquireEngineActivity .handshake).bind ?_
  rintro (err | handshake)
  · trivial
  · refine ⟨trivial, fun r => (common_releaseEngineActivity handshake).bind fun _ => ?_⟩
    cases r <;> trivial

lemma common_listenStream (scheme : Scheme) : (listenStream scheme).Forall EInstr.common := by
  have hstart : (startListener scheme).Forall EInstr.common := by
    refine ⟨trivial, fun j => (common_addTracked j).bind ?_⟩
    rintro (_ | err)
    · exact ⟨nofun, fun _ => ⟨nofun, fun _ => trivial⟩⟩
    · trivial
  refine ⟨trivial, ?_⟩
  rintro (err | _)
  · trivial
  · show Within _ _ (if _ then _ else _)
    split
    · refine ⟨trivial, ?_⟩
      rintro (err | _)
      · trivial
      · exact hstart
    · exact hstart

lemma common_openPacket (what : External) (op : Op) :
    (openPacket what op).Forall EInstr.common := by
  refine ⟨trivial, ?_⟩
  rintro (err | raw)
  · refine ⟨trivial, ?_⟩
    rintro (_ | cause) <;> trivial
  · refine (common_addWithLease .packet raw.peer none).bind ?_
    rintro (err | k)
    · trivial
    · exact ⟨nofun, fun _ => trivial⟩

lemma common_finalizer (k : ℕ) : (finalizer k).Within EInstr.common ToLoops := by
  refine ⟨trivial, fun _ => Forall.bind (p := removeSession k) ?_ fun _ => trivial⟩
  exact ⟨trivial, fun _ => ⟨trivial, fun lease => (common_releaseLease lease).bind fun _ =>
    common_doneUnlock⟩⟩

/-! ### WebSocket listeners and dials -/

lemma common_releaseConn (j conn : ℕ) : (releaseConn j conn).Forall EInstr.common :=
  (common_trk j _).bind common_releaseLease

lemma common_closeAll (j : ℕ) : (closeAll j).Forall EInstr.common := by
  refine (common_trk j Trk.all).bind fun hs => ?_
  induction hs with
  | nil => trivial
  | cons h hs ih =>
    refine Forall.bind (p := releaseHolder j h) ?_ fun _ => ih
    exact (common_trk j _).bind common_releaseLease

lemma common_closeWSListener (j : ℕ) : (closeWSListener j).Forall EInstr.common := by
  refine ⟨trivial, ?_⟩
  rintro (_ | _)
  · trivial
  · refine ⟨trivial, fun _ => ⟨trivial, fun r => (common_closeAll j).bind fun _ => ?_⟩⟩
    cases r <;> exact ⟨trivial, fun _ => trivial⟩

lemma common_admitConn (j : ℕ) (raw : Remote) : (admitConn j raw).Forall EInstr.common := by
  refine common_beginOp.bind ?_
  rintro (_ | err)
  · refine (common_adm (acquireOpeningWithListener raw.peer (some j))).bind ?_
    rintro (e | lease)
    · exact common_endOp.bind fun _ => trivial
    · exact (common_trk j _).bind fun _ => common_endOp.bind fun _ => trivial
  · trivial

lemma common_acceptHTTP (j : ℕ) : (acceptHTTP j).Within EInstr.common ToLoops := by
  refine ⟨trivial, ?_⟩
  rintro (err | raw)
  · trivial
  · refine (common_admitConn j raw).bind ?_
    rintro (_ | _)
    · rfl
    · exact ⟨nofun, fun _ => trivial⟩

lemma common_tlsAcceptLoop (j : ℕ) : (tlsAcceptLoop j).Within EInstr.common ToLoops := by
  refine ⟨trivial, ?_⟩
  rintro (err | raw)
  · trivial
  · refine (common_admitConn j raw).bind ?_
    rintro (_ | _)
    · rfl
    · exact ⟨nofun, fun _ => rfl⟩

lemma common_handshakeLeased (j raw : ℕ) : (handshakeLeased j raw).Forall EInstr.common := by
  refine ⟨trivial, ?_⟩
  rintro (err | tlsConn)
  · exact common_releaseConn j raw
  · refine (common_trk j (Trk.rebind raw tlsConn.conn)).bind ?_
    rintro (_ | _)
    · trivial
    · refine ⟨trivial, ?_⟩
      rintro (_ | _)
      · exact common_releaseConn j tlsConn.conn
      · exact ⟨nofun, fun _ => trivial⟩

lemma common_tlsHandshake (j raw : ℕ) : (tlsHandshake j raw).Within EInstr.common ToLoops := by
  refine (common_acquireEngineActivity .handshake).bind ?_
  rintro (err | handshake)
  · exact (common_releaseConn j raw).bind fun _ => trivial
  · exact (common_handshakeLeased j raw).bind fun _ =>
      (common_releaseEngineActivity handshake).bind fun _ => trivial

lemma common_upgradeLeased (raw : Remote) (lease : ℕ) :
    (upgradeLeased raw lease).Forall EInstr.common := by
  refine ⟨trivial, ?_⟩
  rintro (err | _)
  · trivial
  · refine (common_addWithLease .webSocket raw.peer (some lease)).bind ?_
    rintro (err | k)
    · trivial
    · exact ⟨nofun, fun _ => trivial⟩

lemma common_upgradeHandler (j : ℕ) (holder : Option ℕ) :
    (upgradeHandler j holder).Forall EInstr.common := by
  cases holder with
  | none => trivial
  | some h =>
    refine (common_acquireEngineActivity .upgrade).bind ?_
    rintro (err | upgrade)
    · trivial
    · refine ⟨trivial, fun r => (common_releaseEngineActivity upgrade).bind fun _ => ?_⟩
      cases r with
      | error err => trivial
      | ok raw =>
        refine (common_trk j _).bind ?_
        rintro (_ | ⟨lease, _⟩)
        · trivial
        · exact (common_upgradeLeased raw lease).bind fun r =>
            (common_releaseUnless lease r).bind fun _ => trivial

lemma common_httpRequests (j conn : ℕ) (holder : Option ℕ) :
    (httpRequests j conn holder).Within EInstr.common ToLoops := by
  refine ⟨trivial, fun ev => ?_⟩
  cases ev with
  | closed => exact (common_releaseConn j conn).bind fun _ => trivial
  | other => rfl
  | upgrade =>
    refine Forall.bind (p := handleUpgrade j holder) (common_beginOp.bind ?_) ?_
    · rintro (_ | err)
      · exact (common_upgradeHandler j holder).bind fun _ => common_endOp.bind fun _ => trivial
      · trivial
    · rintro (_ | _)
      · rfl
      · trivial

lemma common_watchWS (j : ℕ) : (watchWS j).Within EInstr.common ToLoops := by
  refine ⟨trivial, ?_⟩
  rintro (_ | _)
  · trivial
  · exact (common_closeWSListener j).bind fun _ => trivial

lemma common_dialCallback (d : ℕ) (tls : Bool) :
    (dialCallback d tls).Within EInstr.common ToLoops := by
  have hraw : dialRaw.Forall EInstr.common := by
    refine ⟨trivial, ?_⟩
    rintro (err | raw)
    · trivial
    · refine ⟨trivial, ?_⟩
      rintro (err | _)
      · trivial
      · refine (common_adm (acquireOpening raw.peer)).bind ?_
        rintro (e | lease) <;> trivial
  have hset (raw : Remote) (lease : ℕ) : (setCell d raw lease).Within EInstr.common ToLoops := by
    refine ⟨trivial, ?_⟩
    rintro (_ | _)
    · exact (common_adm _).bind fun _ => trivial
    · trivial
  refine hraw.bind ?_
  rintro (_ | ⟨raw, lease⟩)
  · trivial
  · show Within _ _ (if _ then _ else _)
    split
    · refine (common_acquireEngineActivity .handshake).bind ?_
      rintro (err | handshake)
      · exact (common_adm _).bind fun _ => trivial
      · refine ⟨trivial, fun r => (common_releaseEngineActivity handshake).bind fun _ => ?_⟩
        cases r with
        | ok _ => exact hset raw lease
        | error err => exact (common_adm _).bind fun _ => trivial
    · exact hset raw lease

lemma common_dialWithCell (scheme : Scheme) (d : ℕ) :
    (dialWithCell scheme d).Forall EInstr.common := by
  refine ⟨trivial, ?_⟩
  rintro (err | _)
  · refine ⟨trivial, ?_⟩
    rintro (_ | cause) <;> trivial
  · refine ⟨trivial, ?_⟩
    rintro (err | _)
    · trivial
    · refine ⟨trivial, ?_⟩
      rintro (_ | lease)
      · trivial
      · refine Forall.bind (p := dialTaken scheme lease) ?_ (common_releaseUnless lease)
        refine (common_addWithLease .webSocket "" (some lease)).bind ?_
        rintro (err | k)
        · trivial
        · exact ⟨nofun, fun _ => trivial⟩

lemma common_dialWebSocket (cfg : EngineConfig) (scheme : Scheme) :
    (dialWebSocket cfg scheme).Forall EInstr.common := by
  have hcell : (dialInCell scheme).Forall EInstr.common :=
    ⟨trivial, fun d => (common_dialWithCell scheme d).bind fun _ => Forall.bind (p := releaseCell d)
      ⟨trivial, common_releaseLease⟩ fun _ => trivial⟩
  simp only [dialWebSocket]
  split
  · trivial
  · refine (common_acquireEngineActivity .upgrade).bind ?_
    rintro (err | upgrade)
    · trivial
    · refine Forall.bind (p := dialUpgraded scheme) ?_ fun _ =>
        (common_releaseEngineActivity upgrade).bind fun _ => trivial
      simp only [dialUpgraded]
      split
      · refine ⟨trivial, ?_⟩
        rintro (err | _)
        · trivial
        · exact hcell
      · exact hcell

/-- An exported method whose operation is common. -/
lemma common_checked (ctxNil mismatch : Bool) {p : EProg (Except Err ℕ)}
    (hp : mismatch = false → p.Forall EInstr.common) :
    (checked ctxNil mismatch p).Within EInstr.common ToLoops := by
  simp only [checked]
  split
  · trivial
  · refine ⟨trivial, ?_⟩
    rintro (err | _)
    · trivial
    · show Within _ _ (if _ then _ else _)
      split
      · trivial
      · rename_i hm
        refine Forall.bind (p := withOp p) (common_beginOp.bind ?_) fun _ => trivial
        rintro (_ | err)
        · exact (hp (Bool.eq_false_iff.mpr hm)).bind fun _ => common_endOp.bind fun _ => trivial
        · trivial

/-! ### Shutdown -/

lemma common_drainLeases (ls : List ℕ) : (drainLeases ls).Forall EInstr.common := by
  induction ls with
  | nil => trivial
  | cons m ls ih => exact (common_adm (ConnectionLease.beginDrain m)).bind fun _ => ih

lemma common_closeEach {close : ℕ → EProg (Option Err)}
    (hclose : ∀ j, (close j).Forall EInstr.common) (js : List ℕ) (errs : Option Err) :
    (closeEach close js errs).Forall EInstr.common := by
  induction js generalizing errs with
  | nil => trivial
  | cons j js ih =>
    refine (hclose j).bind ?_
    rintro (_ | err) <;> exact ih _

lemma common_closeSessions (ks : List ℕ) : (closeSessions ks).Forall EInstr.common := by
  induction ks with
  | nil => trivial
  | cons k ks ih => exact ⟨trivial, fun _ => ih⟩

lemma common_closeSet (set : EngineShutdownSet) : (closeSet set).Forall EInstr.common :=
  (common_closeEach common_initiateClose _ _).bind fun _ =>
    (common_closeEach common_closeWSListener _ _).bind fun _ =>
      (common_closeSessions _).bind fun _ => (common_closeSessions _).bind fun _ =>
        (common_closeSessions _).bind fun _ => trivial

lemma common_recordShutdownError (err : Err) :
    (recordShutdownError err).Forall EInstr.common :=
  ⟨trivial, fun _ => ⟨trivial, fun _ => ⟨trivial, fun _ => trivial⟩⟩⟩

lemma common_shutdownResult : shutdownResult.Forall EInstr.common :=
  ⟨trivial, fun _ => ⟨trivial, fun _ => ⟨trivial, fun _ => trivial⟩⟩⟩

end Ogrenet
