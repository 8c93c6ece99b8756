import Ogrenet.Session.Callbacks.Programs

/-!
# The readers of streams and WebSockets
-/

namespace Ogrenet

open Interleaving Interleaving.Prog Ses

variable {kind : SessionKind} {cfg : SessionConfig}

namespace Conn

lemma walks_failRead (cause : Err) (hint : ClassifyHint) :
    Walks kind .opened (failRead cfg cause hint) :=
  (keeps_initiateClose _).walks fun _ => .endLoop

lemma walks_readerLoop : Walks kind .fresh readerLoop :=
  .deliver nofun rfl rfl (.unlessClosing (.goto fun _ hc => hc))

lemma walks_readerTail (pending : Bytes) (readErr : Option Err) :
    Walks kind .opened (readerTail cfg pending readErr) := by
  cases readErr with
  | none => exact .unlessClosing (.goto fun _ hc => hc)
  | some readErr =>
    refine .unlessClosing ?_
    split
    · exact walks_failRead _ _
    · split
      · exact walks_failRead _ _
      · exact .op rfl fun _ => keeps_maybeFinishGraceful.walks fun _ => .endLoop

lemma walks_readerGot (pending data : Bytes) (readErr : Option Err) :
    Walks kind .opened (readerGot cfg pending data readErr) := by
  simp only [readerGot]
  split
  · exact walks_readerTail _ _
  · exact .goto fun _ hc => hc

lemma walks_reader (pending : Bytes) :
    Walks kind .opened (reader cfg pending) := by
  simp only [reader]
  split
  · refine .op rfl ?_
    rintro (_ | e)
    · refine .op rfl ?_
      rintro ⟨data, readErr⟩
      refine .op rfl fun clearErr => ?_
      cases clearErr with
      | none => exact walks_readerGot pending data readErr
      | some e =>
        cases readErr with
        | none => exact walks_failRead _ _
        | some e' => exact walks_readerGot pending data _
    · exact walks_failRead _ _
  · exact .op rfl fun _ => walks_readerGot pending _ _

lemma walks_afterDecode (pending : Bytes) (consumed : ℕ) (readErr : Option Err) :
    Walks kind .opened (afterDecode cfg pending consumed readErr) := by
  simp only [afterDecode]
  split
  · exact .op rfl fun _ => walks_failRead _ _
  · exact walks_readerTail _ _

lemma walks_decoding (pending : Bytes) (consumed : ℕ) (readErr : Option Err) :
    Walks kind .opened (decoding cfg pending consumed readErr) := by
  simp only [decoding]
  split
  · refine .op rfl ?_
    rintro (e | ⟨msg, k⟩)
    · show Walks kind .opened (if _ then _ else _)
      split
      · exact walks_afterDecode _ _ _
      · exact .op rfl fun _ => walks_failRead _ _
    · show Walks kind .opened (if _ then _ else _)
      split
      · exact .op rfl fun _ => walks_failRead _ _
      · cases msg.validate with
        | error e => exact .op rfl fun _ => walks_failRead _ _
        | ok _ =>
          exact .op rfl fun _ => .op rfl fun _ => .deliver (by simp) rfl rfl
            (.unlessClosing (.goto fun _ hc => hc))
  · exact walks_afterDecode _ _ _

end Conn

namespace WebSocket

/-- The reader gives up. -/
lemma walks_close (cause : Option Err) :
    Walks kind .opened (do initiateClose cause; endLoop) :=
  (keeps_initiateClose cause).walks fun _ => .endLoop

lemma walks_readerLoop : Walks kind .fresh readerLoop :=
  .deliver nofun rfl rfl (.unlessClosing (.goto fun _ hc => hc))

lemma keeps_ownClose (e : Err) : Keeps kind (ownClose e) := by
  refine (keeps_isClosedSignal .fullReq).bind ?_
  rintro (_ | _)
  · exact .pure _
  · refine (keeps_isClosedSignal .aborted).bind ?_
    rintro (_ | _)
    · show Keeps kind (if _ then _ else _)
      split
      · exact .pure _
      · exact keeps_isClosedSignal .writerDrained
    · exact .pure _

lemma keeps_idleTimeout (e : Err) : Keeps kind (idleTimeout cfg e) := by
  simp only [idleTimeout]
  split
  · refine (keeps_isClosedSignal .closing).bind ?_
    rintro (_ | _)
    · exact .pure _
    · exact .pure _
  · exact .pure _

lemma walks_failRead (e : Err) : Walks kind .opened (failRead cfg e) := by
  refine (keeps_idleTimeout e).walks ?_
  rintro (_ | _)
  · refine .op rfl ?_
    rintro (_ | cause)
    · refine .op rfl ?_
      rintro (_ | _)
      · exact walks_close _
      · exact .endLoop
    · exact walks_close _
  · exact walks_close _

lemma walks_reader : Walks kind .opened (reader cfg) := by
  refine .op rfl ?_
  rintro (e | ⟨text, payload⟩)
  · refine (keeps_ownClose e).walks ?_
    rintro (_ | _)
    · exact walks_failRead e
    · exact .op rfl fun _ => .endLoop
  · refine .op rfl ?_
    rintro (e | msg)
    · exact .op rfl fun _ => walks_close _
    · exact .op rfl fun _ => .op rfl fun _ => .deliver nofun rfl rfl
        (.unlessClosing (.goto fun _ hc => hc))

end WebSocket

end Ogrenet
