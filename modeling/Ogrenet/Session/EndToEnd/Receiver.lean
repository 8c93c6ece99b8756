import Ogrenet.Chunked.Encoded
import Ogrenet.Session.Delivery
import Ogrenet.Session.Parts.Steps
import Ogrenet.Session.Resources.Conserved

/-!
# What the reader of a stream session hands on

`readerLoop` in `transport/conn.go` beside everything else that happens to the session. Whatever the
interleaving, the messages given to `OnMessage` are those that the codec yields from the bytes read
so far, in order, and when the reader is about to read again the codec needs more.
-/

namespace Ogrenet

open Interleaving Interleaving.Prog Ses

/-! ### The past of the reader -/

/-- What the goroutine has read off the connection. -/
def bytesRead : SLog → Bytes
  | [] => []
  | ⟨.rawRead, (data, _)⟩ :: log => bytesRead log ++ data
  | _ :: log => bytesRead log

/-- The messages with which the goroutine has called `OnMessage`. -/
def handedOn : SLog → List Message
  | [] => []
  | ⟨.callBegin (.onMessage msg), _⟩ :: log => handedOn log ++ [msg]
  | _ :: log => handedOn log

namespace Codec

/-- What a framer answers that is the codec. -/
def framerAnswer (c : Codec Err) (src : Bytes) : Except Err (Message × ℤ) :=
  match c.decodeOne src with
  | .ok (msg, n) => .ok (msg, n)
  | .error e => .error (.ofWire e)

/-- The framer that was asked to decode, if it was, is the codec. -/
def answers (c : Codec Err) : (i : SInstr) → i.Resp → Bool
  | .decodeOne src, r => decide (r = c.framerAnswer src)
  | _, _ => true

/-- The goroutine decodes with the codec. -/
def DecodesIn (c : Codec Err) (log : SLog) : Prop := log.all (fun a => c.answers a.1 a.2) = true

instance (c : Codec Err) (log : SLog) : Decidable (c.DecodesIn log) :=
  inferInstanceAs (Decidable (_ = true))

variable {c : Codec Err} {src : Bytes} {log : SLog}

lemma DecodesIn.tail {a : Sigma SInstr.Resp} (h : c.DecodesIn (a :: log)) : c.DecodesIn log :=
  (Bool.and_eq_true_iff.mp h).2

lemma DecodesIn.head {r : Except Err (Message × ℤ)}
    (h : c.DecodesIn (⟨.decodeOne src, r⟩ :: log)) : r = c.framerAnswer src :=
  of_decide_eq_true (Bool.and_eq_true_iff.mp h).1

/-- What a successful answer says about the front of the bytes. -/
lemma verdict_of_ok {msg : Message} {k : ℤ} (h : .ok (msg, k) = c.framerAnswer src) :
    c.verdict src = .frame msg k.toNat := by
  cases hd : c.decodeOne src with
  | error e =>
    simp only [framerAnswer, hd] at h
    cases h
  | ok found =>
    obtain ⟨msg', n⟩ := found
    simp only [framerAnswer, hd] at h
    cases h
    simp [verdict, hd]

/-- What an answer says that asks for more. -/
lemma verdict_of_needMore {e : Err} (h : .error e = c.framerAnswer src)
    (hn : e.is .needMore = true) : c.verdict src = .need := by
  cases hd : c.decodeOne src with
  | error e' =>
    simp only [framerAnswer, hd] at h
    cases h
    simp [verdict, hd, hn]
  | ok found =>
    simp only [framerAnswer, hd] at h
    cases h

end Codec

/-! ### The outline -/

/-- The reader, with the bytes in `rest` still to decode. -/
structure Decoding (C : Codec Err) (rest : Bytes) (c : SPast) : Prop where
  role : c.1.role = .reader
  yields : C.DecodesIn c.2 → C.decoder.Yields (bytesRead c.2) (handedOn c.2) rest

/-- The reader, which has found out what the bytes in `rest` start with. -/
structure Looked (C : Codec Err) (v : Chunked.Verdict Message (WireError Err)) (rest : Bytes)
    (c : SPast) : Prop extends Decoding C rest c where
  verdict : C.DecodesIn c.2 → C.verdict rest = v

def readReq (cfg : SessionConfig) (C : Codec Err) : SInstr → SPast → Prop
  | .rawRead, c => c.1.role = .reader →
      ∃ rest, Looked C .need rest c ∧ rest.length ≤ cfg.maxRead
  | .decodeOne src, c => c.1.role = .reader → Decoding C src c
  | .callBegin (.onMessage msg), c => c.1.role = .reader →
      ∃ rest n, Looked C (.frame msg n) rest c
  | _, _ => True

def readPre (cfg : SessionConfig) (C : Codec Err) : SLabel → SPast → Prop
  | .readerLoop, c => c = (.readerLoop, [])
  | .reader pending, c => Looked C .need pending c ∧ pending.length ≤ cfg.maxRead
  | .decoding pending consumed _, c => Decoding C (pending.drop consumed) c
  | l, c => c.1.role = l.role

def readOutline (cfg : SessionConfig) (C : Codec Err) :
    Outline SInstr SInstr.Resp SLabel SVal SPast :=
  .past (readReq cfg C) (fun _ _ _ => True) (readPre cfg C) fun _ _ => True

/-- The step neither reads, decodes nor hands a message on. -/
def SInstr.quiet : SInstr → Bool
  | .rawRead | .decodeOne _ | .callBegin (.onMessage _) => false
  | _ => true

section Rules

variable {C : Codec Err} {cfg : SessionConfig} {i : SInstr} {r : i.Resp} {c : SPast}
  {v : Chunked.Verdict Message (WireError Err)} {rest : Bytes} {α : Type}

lemma readReq_quiet (hi : i.quiet = true) : readReq cfg C i c := by
  unfold readReq
  split
  · cases hi
  · cases hi
  · cases hi
  · trivial

lemma readReq_of_role (h : c.1.role ≠ .reader) : readReq cfg C i c := by
  unfold readReq
  split
  · exact fun hr => absurd hr h
  · exact fun hr => absurd hr h
  · exact fun hr => absurd hr h
  · trivial

lemma bytesRead_quiet {log : SLog} (hi : i.quiet = true) :
    bytesRead (⟨i, r⟩ :: log) = bytesRead log := by
  cases i with
  | rawRead => cases hi
  | _ => rfl

lemma handedOn_quiet {log : SLog} (hi : i.quiet = true) :
    handedOn (⟨i, r⟩ :: log) = handedOn log := by
  cases i with
  | callBegin cb =>
    cases cb with
    | onMessage msg => cases hi
    | _ => rfl
  | _ => rfl

lemma Decoding.cons (h : Decoding C rest c) (hi : i.quiet = true) :
    Decoding C rest (c.1, ⟨i, r⟩ :: c.2) := by
  refine ⟨h.role, fun hd => ?_⟩
  rw [bytesRead_quiet hi, handedOn_quiet hi]
  exact h.yields hd.tail

lemma Looked.cons (h : Looked C v rest c) (hi : i.quiet = true) :
    Looked C v rest (c.1, ⟨i, r⟩ :: c.2) :=
  ⟨h.toDecoding.cons hi, fun hd => h.verdict hd.tail⟩

lemma wp_quietly {k : i.Resp → SProg α} {Q : α → SPast → Prop} (hi : i.quiet = true)
    (hk : ∀ r, (readOutline cfg C).wp (k r) Q (c.1, ⟨i, r⟩ :: c.2)) :
    (readOutline cfg C).wp (.op i k) Q c :=
  ⟨readReq_quiet hi, fun r _ => hk r⟩

lemma Looked.op {k : i.Resp → SProg α} {Q : α → SPast → Prop} (h : Looked C v rest c)
    (hi : i.quiet = true) (hk : ∀ r c', Looked C v rest c' → (readOutline cfg C).wp (k r) Q c') :
    (readOutline cfg C).wp (.op i k) Q c :=
  wp_quietly hi fun r => hk r _ (h.cons hi)

lemma SInstr.Ending.quiet (h : i.Ending False .conn .reader) : i.quiet = true := by
  cases i with
  | rawRead | decodeOne _ => exact h.elim
  | callBegin cb => cases h
  | _ => rfl

/-- What ends a session reads and hands on nothing. -/
lemma wp_endCall {β : Type} {p : SProg β} {Q : β → SPast → Prop}
    (hp : EndCall False cfg .reader .conn β p) (hQ : ∀ a c', Q a c') :
    (readOutline cfg C).wp p Q c := by
  refine Outline.wp_of_within (J := fun _ => True) (hp.ending.imp (fun i hi c _ => ?_) fun _ => id)
    (fun a c _ _ => hQ a c) trivial
  exact ⟨readReq_quiet hi.quiet, fun _ _ => trivial⟩

end Rules

/-! ### The programs -/

namespace Conn

variable {C : Codec Err} {cfg : SessionConfig} {c : SPast} {rest : Bytes} {l₀ : SLabel}

lemma read_endLoop : (readOutline cfg C).wp endLoop ((readOutline cfg C).ends l₀) c :=
  wp_quietly rfl fun _ => trivial

lemma read_failRead {cause : Err} {hint : ClassifyHint} :
    (readOutline cfg C).wp (failRead cfg cause hint) ((readOutline cfg C).ends l₀) c := by
  apply (Outline.wp_bind (initiateClose _) _ _ _).mpr
  apply (Outline.wp_bind (abort .failure _) _ _ _).mpr
  exact wp_endCall (.connAbort (Gives.operational .reader (by decide) False.elim))
    fun _ _ => read_endLoop

/-- The check of `closing` before the next round. -/
lemma read_unlessClosing {p : SProg SNext}
    (hp : (readOutline cfg C).wp p ((readOutline cfg C).ends l₀)
      (c.1, ⟨.select [.closed .closing] true, .default⟩ :: c.2)) :
    (readOutline cfg C).wp (do
      match ← isClosing with
      | true => endLoop
      | false => p) ((readOutline cfg C).ends l₀) c := by
  apply (Outline.wp_bind isClosing _ _ _).mpr
  refine wp_quietly rfl fun r => ?_
  cases r with
  | default => exact hp
  | _ => exact read_endLoop

lemma read_readerTail {readErr : Option Err} (hc : Looked C .need rest c)
    (hfits : rest.length ≤ cfg.maxRead) :
    (readOutline cfg C).wp (readerTail cfg rest readErr) ((readOutline cfg C).ends l₀) c := by
  cases readErr with
  | none => exact read_unlessClosing ⟨hc.cons rfl, hfits⟩
  | some readErr =>
    apply read_unlessClosing
    split
    · exact read_failRead
    · split
      · exact read_failRead
      · refine wp_quietly rfl fun _ => ?_
        apply (Outline.wp_bind maybeFinishGraceful _ _ _).mpr
        exact wp_endCall (.connFinish (.inr rfl)) fun _ _ => read_endLoop

lemma read_readerGot {data : Bytes} {readErr : Option Err} (hc : Decoding C (rest ++ data) c)
    (hneed : C.DecodesIn c.2 → C.verdict rest = .need) (hfits : rest.length ≤ cfg.maxRead) :
    (readOutline cfg C).wp (readerGot cfg rest data readErr) ((readOutline cfg C).ends l₀) c := by
  simp only [readerGot]
  split
  · rename_i hnil
    rw [hnil, List.append_nil] at hc
    exact read_readerTail ⟨hc, hneed⟩ hfits
  · exact hc

/-- What `Read` returns follows what is still to decode. -/
lemma Looked.read (hc : Looked C .need rest c) (data : Bytes) (readErr : Option Err) :
    Decoding C (rest ++ data) (c.1, ⟨.rawRead, (data, readErr)⟩ :: c.2) :=
  ⟨hc.role, fun hd => (hc.yields hd.tail).append data⟩

lemma read_reader (hc : Looked C .need rest c) (hfits : rest.length ≤ cfg.maxRead) :
    (readOutline cfg C).wp (reader cfg rest) ((readOutline cfg C).ends l₀) c := by
  simp only [reader]
  split
  · refine hc.op rfl fun e c hc => ?_
    cases e with
    | some e => exact read_failRead
    | none =>
      refine ⟨fun _ => ⟨rest, hc, hfits⟩, ?_⟩
      rintro ⟨data, readErr⟩ -
      refine wp_quietly rfl fun clearErr => ?_
      have hgot := @Decoding.cons C .setReadDeadline clearErr _ _ (Looked.read hc data readErr) rfl
      cases clearErr with
      | none => exact read_readerGot hgot (fun hd => hc.verdict hd.tail.tail) hfits
      | some e =>
        cases readErr with
        | none => exact read_failRead
        | some e' => exact read_readerGot hgot (fun hd => hc.verdict hd.tail.tail) hfits
  · refine ⟨fun _ => ⟨rest, hc, hfits⟩, ?_⟩
    rintro ⟨data, readErr⟩ -
    exact read_readerGot (Looked.read hc data readErr) (fun hd => hc.verdict hd.tail) hfits

lemma read_afterDecode {pending : Bytes} {consumed : ℕ} {readErr : Option Err}
    (hc : Looked C .need (pending.drop consumed) c) :
    (readOutline cfg C).wp (afterDecode cfg pending consumed readErr) ((readOutline cfg C).ends l₀)
      c := by
  simp only [afterDecode]
  split
  · exact wp_quietly rfl fun _ => read_failRead
  · rename_i hfits
    exact read_readerTail hc (Nat.not_lt.mp hfits)

/-- The call of `OnMessage` takes the frame off. -/
lemma Looked.handOn {msg : Message} {n : ℕ} {r : Unit} (hc : Looked C (.frame msg n) rest c) :
    Decoding C (rest.drop n) (c.1, ⟨.callBegin (.onMessage msg), r⟩ :: c.2) :=
  ⟨hc.role, fun hd => .frame (hc.yields hd.tail) (hc.verdict hd.tail)⟩

lemma read_decoding {pending : Bytes} {consumed : ℕ} {readErr : Option Err}
    (hc : Decoding C (pending.drop consumed) c) :
    (readOutline cfg C).wp (decoding cfg pending consumed readErr) ((readOutline cfg C).ends l₀)
      c := by
  simp only [decoding]
  split
  · refine ⟨fun _ => hc, fun r _ => ?_⟩
    have hkept : Decoding C (pending.drop consumed)
        (c.1, ⟨.decodeOne (pending.drop consumed), r⟩ :: c.2) :=
      ⟨hc.role, fun hd => hc.yields hd.tail⟩
    cases r with
    | error e =>
      show (readOutline cfg C).wp (if _ then _ else _) _ _
      split
      · rename_i hn
        refine read_afterDecode ⟨hkept, fun hd => ?_⟩
        exact Codec.verdict_of_needMore hd.head hn
      · exact wp_quietly rfl fun _ => read_failRead
    | ok found =>
      obtain ⟨msg, k⟩ := found
      have hfound : Looked C (.frame msg k.toNat) (pending.drop consumed) _ :=
        ⟨hkept, fun hd => Codec.verdict_of_ok hd.head⟩
      show (readOutline cfg C).wp (if _ then _ else _) _ _
      split
      · exact wp_quietly rfl fun _ => read_failRead
      · cases msg.validate with
        | error e => exact wp_quietly rfl fun _ => read_failRead
        | ok _ =>
          refine hfound.op rfl fun _ _ h => h.op rfl fun _ c' h =>
            ⟨fun _ => ⟨_, _, h⟩, fun r _ => ?_⟩
          refine wp_quietly rfl fun _ => read_unlessClosing ?_
          show Decoding C (pending.drop (consumed + k.toNat)) _
          rw [← List.drop_drop]
          exact Decoding.cons (Decoding.cons (Looked.handOn h) rfl) rfl
  · rename_i hall
    refine read_afterDecode ⟨hc, fun _ => ?_⟩
    rw [List.drop_eq_nil_of_le (Nat.not_lt.mp hall)]
    exact C.decoder.step_nil

/-- The other goroutines. -/
lemma read_elsewhere {l : SLabel} (hl : l.role ≠ .reader) (hc : c.1.role = l.role) :
    (readOutline cfg C).wp (body cfg l) ((readOutline cfg C).ends l₀) c := by
  refine @wp_of_steps False .conn cfg _ _ (fun c => c.1.role = l.role) _ l (Role.stays_self l)
    ?_ ?_ c hc
  · intro i _ c hc
    exact ⟨readReq_of_role (by rwa [hc]), fun r _ => ⟨False.elim, hc⟩⟩
  · intro n c hn hc
    cases n with
    | ret v => trivial
    | goto l' =>
      have hl' := hn.role_eq
      cases l' with
      | readerLoop | reader _ | decoding _ _ _ => exact absurd hl'.symm hl
      | _ => exact hc.trans hl'.symm

lemma read_body (l : SLabel) (hc : readPre cfg C l c) :
    (readOutline cfg C).wp (body cfg l) ((readOutline cfg C).ends l₀) c := by
  cases l with
  | readerLoop =>
    cases hc
    refine wp_quietly rfl fun _ => wp_quietly rfl fun _ => read_unlessClosing ?_
    exact ⟨⟨⟨rfl, fun _ => .start⟩, fun _ => C.decoder.step_nil⟩, Nat.zero_le _⟩
  | reader pending => exact read_reader hc.1 hc.2
  | decoding pending consumed readErr => exact read_decoding hc
  | _ => exact read_elsewhere (by simp [SLabel.role]) hc

end Conn

/-! ### Whole runs -/

/-- What a reader has handed on, the codec yields from what it has read. -/
def ReadsOn (C : Codec Err) (cs : List SPast) : Prop :=
  ∀ c ∈ cs, c.1.role = .reader → ∃ rest, Decoding C rest c

variable {C : Codec Err} {cfg : SessionConfig}

lemma decoding_exec {i : SInstr} {r : i.Resp} {c : SPast} (hreq : readReq cfg C i c)
    (hrole : c.1.role = .reader) (h : ∃ rest, Decoding C rest c) :
    ∃ rest, Decoding C rest (c.1, ⟨i, r⟩ :: c.2) := by
  cases hi : i.quiet with
  | true =>
    obtain ⟨rest, h⟩ := h
    exact ⟨rest, h.cons hi⟩
  | false =>
    cases i with
    | rawRead =>
      obtain ⟨rest, h, -⟩ := hreq hrole
      exact ⟨_, Conn.Looked.read h r.1 r.2⟩
    | decodeOne src => exact ⟨src, hrole, fun hd => (hreq hrole).yields hd.tail⟩
    | callBegin cb =>
      cases cb with
      | onMessage msg =>
        obtain ⟨rest, n, h⟩ := hreq hrole
        exact ⟨_, Conn.Looked.handOn h⟩
      | _ => cases hi
    | _ => cases hi

lemma readOutline_sound (cfg : SessionConfig) (C : Codec Err) :
    (readOutline cfg C).Sound (sessionMachine .conn cfg) (fun _ => ReadsOn C) fun _ _ => True where
  body l₀ l c hc := Conn.read_body l hc
  exec p t x th i k s' r _ ht _ hG hreq _ := by
    have hc := Outline.ctxs_getElem? (O := readOutline cfg C) ht
    refine ⟨trivial, forall_mem_set hG fun hrole => ?_⟩
    exact decoding_exec hreq hrole (hG _ (List.mem_of_getElem? hc) hrole)
  spawn p l s' _ hG hs := by
    refine ⟨?_, forall_mem_concat hG fun hrole => ⟨[], hrole, fun _ => .start⟩⟩
    cases l with
    | reader _ | decoding _ _ _ | readerLoop => cases hs
    | _ => rfl
  env p e s' _ hG _ := hG

lemma readsOn_reached {p : SProcess} (hp : SessionReaches .conn cfg p) :
    (readOutline cfg C).Holds (fun _ => ReadsOn C) p := by
  refine (readOutline_sound cfg C).reaches ⟨?_, ?_⟩ hp
  · intro c hc hrole
    obtain ⟨th, hth, rfl⟩ := List.mem_map.mp hc
    obtain ⟨l, -, rfl⟩ := List.mem_map.mp hth
    exact ⟨[], hrole, fun _ => .start⟩
  · intro th hth
    obtain ⟨l, hl, rfl⟩ := List.mem_map.mp hth
    apply Conn.read_body
    rcases mem_init hl with rfl | rfl | rfl | rfl | rfl <;> rfl

lemma read_ctx (th : SThread) : (readOutline cfg C).ctx th = (th.entry, th.log) :=
  Outline.past_ctx th

/-- What the reader `th` has done with the bytes of its connection. -/
structure HandsOn (cfg : SessionConfig) (C : Codec Err) (th : SThread) : Prop where
  /-- At every moment the messages handed on are the first ones that decoding all the bytes read so
  far gives. -/
  first : handedOn th.log <+: (C.decoder.greedy (bytesRead th.log)).1
  /-- Before a read they are all of them, and what is left over fits the read buffer. -/
  all : ∀ k, th.prog = .op .rawRead k → ∃ rest,
    C.decoder.greedy (bytesRead th.log) = (handedOn th.log, .blocked rest) ∧
      rest.length ≤ cfg.maxRead

/-- Whatever else happens to a stream session, its reader hands on what the codec finds in the bytes
it has read, and all of it before it reads again. -/
theorem reader_hands_on (cfg : SessionConfig) (C : Codec Err) (p : SProcess)
    (hp : SessionReaches .conn cfg p) (th : SThread) (hth : th ∈ p.threads)
    (hentry : th.entry = .readerLoop) (hC : C.DecodesIn th.log) : HandsOn cfg C th := by
  obtain ⟨hR, hreads⟩ := @readsOn_reached C cfg _ hp
  have hrole : ((readOutline cfg C).ctx th).1.role = .reader := by
    rw [read_ctx, hentry]
    rfl
  constructor
  · obtain ⟨rest, h⟩ := hR _ (List.mem_map_of_mem hth) hrole
    rw [read_ctx] at h
    rw [(h.yields hC).greedy_eq]
    exact List.prefix_append _ _
  · intro k hprog
    have hwp := hreads th hth
    rw [hprog] at hwp
    obtain ⟨rest, h, hfits⟩ := hwp.1 hrole
    rw [read_ctx] at h
    refine ⟨rest, ?_, hfits⟩
    rw [(h.yields hC).greedy_eq, Chunked.Decoder.greedy_of_need (h.verdict hC), List.append_nil]

/-- A frame arrives in two reads, and the reader is about to read again. -/
def SProcess.twoReads : List (Event SLabel Choice SEnv) :=
  List.flatten [
    List.replicate 4 (.run 1 {}),
    [.run 1 { data := [0x4f, 0x47, 1, 0, 0, 0, 0] }, .run 1 {},
      .run 1 { err := some (.ofWire .needMore) }, .run 1 {}, .run 1 {},
      .run 1 { data := [0, 0, 2, 104, 105] }, .run 1 {},
      .run 1 { msg := ⟨.binary, [104, 105]⟩, consumed := 12 }],
    List.replicate 8 (.run 1 {})]

theorem reader_hands_on_twoReads : ∃ (p : SProcess) (th : SThread),
    (sessionMachine .conn .small).run (SProcess.init .conn .small) SProcess.twoReads = some p ∧
      p.threads[1]? = some th ∧ handedOn th.log = [⟨.binary, [104, 105]⟩] ∧
      HandsOn .small defaultCodec th := by
  have hrun : ((sessionMachine .conn .small).run (SProcess.init .conn .small)
      SProcess.twoReads).bind (fun p => p.threads[1]?.map fun th =>
        (th.entry, handedOn th.log, decide (defaultCodec.DecodesIn th.log))) =
      some (.readerLoop, [⟨.binary, [104, 105]⟩], true) := by decide
  obtain ⟨p, hp, hth⟩ := Option.bind_eq_some_iff.mp hrun
  obtain ⟨th, hth, hobs⟩ := Option.map_eq_some_iff.mp hth
  simp only [Prod.mk.injEq, decide_eq_true_eq] at hobs
  obtain ⟨hentry, hhanded, hdecodes⟩ := hobs
  exact ⟨p, th, hp, hth, hhanded, reader_hands_on .small defaultCodec p ⟨_, hp⟩ th
    (List.mem_of_getElem? hth) hentry hdecodes⟩

end Ogrenet
