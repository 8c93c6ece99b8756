import Ogrenet.Engine.ListenerErrors
import Ogrenet.Session.Ending.Typed

/-!
# Terminal errors and the typed envelope

`errors.As` finds a `*transport.Error` in every terminal error but two: the `*TimeoutError` that the
watchdog of a stream publishes, and the error of `newFramer` that a stream listener records. The
theorem says, for every run, that these are the only exceptions.
-/

namespace Ogrenet

open Interleaving

theorem terminal_errors_typed (kind : SessionKind) (cfg : SessionConfig) (ecfg : EngineConfig) :
    (∀ es (p : SProcess), (sessionMachine kind cfg).run (SProcess.init kind cfg) es = some p →
      p.EndsTyped kind es) ∧
    ∀ es (p : EProcess), (engineMachine ecfg).run (EProcess.init ecfg) es = some p →
      ∀ (j : ℕ) L, p.shared.listeners[j]? = some L → L.isWS = false → p.ListenerTyped es j L :=
  ⟨fun _ _ hrun => endsTyped_of_run hrun,
    fun _ _ hrun _ _ hL hstream => listenerTyped_of_run hrun hL hstream⟩

/-- The watchdog of an idle stream fires before anything else. -/
def SProcess.idleStream : List (Event SLabel Choice SEnv) :=
  [.run 2 { pick := some 1 }, .run 2 {}, .run 2 {}]

/-- A TCP listener accepts a connection, and its framer factory returns nil. -/
def EProcess.nilFramer : List EEvent := List.flatten [
    .spawn (.listen false .tcp false) :: List.replicate 13 (.run 0 {}),
    .spawn (.acceptLoop 0 .tcp) :: List.replicate 3 (.run 1 {}),
    .spawn (.handleAccepted 0 .tcp {}) :: List.replicate 6 (.run 2 {}),
    [.run 2 { err := some (.plain "transport: framer factory returned nil") }, .run 2 {},
      .run 2 {}]]

theorem terminal_errors_bare :
    (∃ p : SProcess, (sessionMachine .conn { SessionConfig.small with activity := true }).run
        (SProcess.init .conn { SessionConfig.small with activity := true })
        SProcess.idleStream = some p ∧
      p.shared.err = some (.timeoutError .connectionIdle) ∧
      (Err.timeoutError .connectionIdle).hasOperational = false) ∧
    ∃ p : EProcess, (engineMachine {}).run (EProcess.init {}) EProcess.nilFramer = some p ∧
      p.shared.listeners.map (fun L => (L.isWS, L.err.map Err.hasOperational)) =
        [(false, some false)] := by
  have hconn : ((sessionMachine .conn { SessionConfig.small with activity := true }).run
      (SProcess.init .conn { SessionConfig.small with activity := true })
      SProcess.idleStream).map (fun p => p.shared.err) =
      some (some (.timeoutError .connectionIdle)) := by rfl
  have hlistener : ((engineMachine {}).run (EProcess.init {}) EProcess.nilFramer).map
      (fun p => p.shared.listeners.map fun L => (L.isWS, L.err.map Err.hasOperational)) =
      some [(false, some false)] := by decide
  obtain ⟨p, hp, herr⟩ := Option.map_eq_some_iff.mp hconn
  obtain ⟨q, hq, hL⟩ := Option.map_eq_some_iff.mp hlistener
  exact ⟨⟨p, hp, herr, rfl⟩, q, hq, hL⟩

end Ogrenet
