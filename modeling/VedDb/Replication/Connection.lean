import VedDb.Lib.Framing
import VedDb.Replication.Agreement
import VedDb.Replication.Apply

/-!
# Replication connections

`send_message` and `receive_message` of `replication/connection.rs`, and the loops that select
between a pending `receive_message` and something to send.  Whatever wins the selection drops the
pending receive, with the bytes it has already read.
-/

namespace VedDb

open LittleEndian
open Framing (frame Poll)

variable (json : MessageJson)

/-- The bytes `send_message` writes.  The length of the message is cast to `u32`. -/
def sendMessage (message : ReplicationMessage) : Except ReplicationError Bytes :=
  match message.toBytes json with
  | .error e => .error e
  | .ok bytes => .ok (frame bytes)

/-- The largest message `receive_message` accepts. -/
def maxMessageSize : Nat := 100 * 1024 * 1024

/-- A poll of `receive_message`, which has taken some bytes off the stream before. -/
def receiveMessage (taken arrived : Bytes) : Poll ReplicationError ReplicationMessage :=
  Framing.poll maxMessageSize (fun _ => .ioError .invalidData)
    (ReplicationMessage.fromBytes json) taken arrived

/-- The receiving end: the bytes that arrived, those the pending receive has read, the messages
decoded so far, and the error that ended the loop. -/
structure Receiver where
  arrived : Bytes
  taken : Bytes
  received : List ReplicationMessage
  failed : Option ReplicationError

/-- One direction of a connection: the messages sent, the bytes on their way and the receiving
end. -/
structure Connection where
  sent : List ReplicationMessage
  wire : Bytes
  receiver : Receiver

inductive ConnectionEvent where
  -- the sender calls `send_message`
  | send (message : ReplicationMessage)
  -- some bytes arrive
  | arrive (count : Nat)
  -- the loop polls the pending `receive_message`
  | poll
  -- a message to send, or the tick of a heartbeat, wins the selection
  | cancel

namespace Connection

def start : Connection :=
  { sent := [], wire := [],
    receiver := { arrived := [], taken := [], received := [], failed := none } }

def pollReceiver (r : Receiver) : Receiver :=
  match r.failed with
  | some _ => r
  | none =>
    match receiveMessage json r.taken r.arrived with
    | .pending taken arrived => { r with taken := taken, arrived := arrived }
    | .failed e => { r with taken := [], failed := some e }
    | .ready message arrived =>
      { r with taken := [], arrived := arrived, received := r.received ++ [message] }

def step (c : Connection) : ConnectionEvent → Connection
  | .send message =>
    match sendMessage json message with
    | .error _ => c
    | .ok bytes => { c with sent := c.sent ++ [message], wire := c.wire ++ bytes }
  | .arrive count =>
    { c with
      wire := c.wire.drop count
      receiver := { c.receiver with arrived := c.receiver.arrived ++ c.wire.take count } }
  | .poll => { c with receiver := pollReceiver json c.receiver }
  | .cancel => { c with receiver := { c.receiver with taken := [] } }

def run (c : Connection) (events : List ConnectionEvent) : Connection := events.foldl (step json) c

/-- Everything on its way arrives, and the receiver is polled once for every message. -/
def drain (c : Connection) : Connection :=
  (c.step json (.arrive c.wire.length)).run json (List.replicate c.sent.length .poll)

/-- The messages decoded are the first of those sent, and all of them when no bytes are left. -/
structure Delivers (c : Connection) : Prop where
  failed_eq : c.receiver.failed = none
  received_in_order : c.receiver.received <+: c.sent
  received_eq : c.wire = [] → c.receiver.arrived = [] → c.receiver.received = c.sent

/-- No receive is dropped after it has read a part of a message, and what is sent is decoded to
itself and not too large for the receiver. -/
def Undisturbed (c : Connection) : ConnectionEvent → Prop
  | .send message => ∀ bytes, message.toBytes json = .ok bytes →
      bytes.length ≤ maxMessageSize ∧ ReplicationMessage.fromBytes json bytes = .ok message
  | .arrive _ => True
  | .poll => True
  | .cancel => c.receiver.taken = []

/-! ## Frames on their way -/

/-- A message that was sent and not decoded yet, with its bytes. -/
structure Outstanding where
  message : ReplicationMessage
  body : Bytes
  size_le : body.length ≤ maxMessageSize
  decodes : ReplicationMessage.fromBytes json body = .ok message

/-- The bytes read, arrived and on their way are the frames of the outstanding messages, and the
pending receive has not read past the end of the first. -/
structure Framed (c : Connection) (outstanding : List (Outstanding json)) : Prop where
  failed_eq : c.receiver.failed = none
  sent_eq : c.sent = c.receiver.received ++ outstanding.map Outstanding.message
  bytes_eq : c.receiver.taken ++ c.receiver.arrived ++ c.wire =
    outstanding.flatMap fun o => frame o.body
  taken_lt : ∀ o ∈ outstanding.head?, c.receiver.taken.length < 4 + o.body.length

variable {json} {c : Connection} {outstanding : List (Outstanding json)}

theorem framed_start : Framed json start [] := ⟨rfl, rfl, rfl, nofun⟩

theorem Framed.delivers (h : Framed json c outstanding) : c.Delivers := by
  refine ⟨h.failed_eq, ?_, ?_⟩
  · rw [h.sent_eq]
    exact List.prefix_append _ _
  · intro hwire harrived
    have hbytes := h.bytes_eq
    rw [hwire, harrived, List.append_nil, List.append_nil] at hbytes
    cases outstanding with
    | nil => rw [h.sent_eq, List.map_nil, List.append_nil]
    | cons o outstanding =>
      have hlt := h.taken_lt o rfl
      rw [hbytes, List.flatMap_cons, List.length_append, Framing.frame_length] at hlt
      omega

theorem Framed.send (h : Framed json c outstanding) {message : ReplicationMessage}
    (hsend : Undisturbed json c (.send message)) :
    ∃ outstanding', Framed json (c.step json (.send message)) outstanding' := by
  cases hbytes : message.toBytes json with
  | error e =>
    have hstep : c.step json (.send message) = c := by
      simp only [step, sendMessage, hbytes]
    rw [hstep]
    exact ⟨outstanding, h⟩
  | ok bytes =>
    obtain ⟨hsize, hdecodes⟩ := hsend bytes hbytes
    have hstep : c.step json (.send message) =
        { c with sent := c.sent ++ [message], wire := c.wire ++ frame bytes } := by
      simp only [step, sendMessage, hbytes]
    rw [hstep]
    refine ⟨outstanding ++ [⟨message, bytes, hsize, hdecodes⟩], h.failed_eq, ?_, ?_, ?_⟩
    · rw [List.map_append, ← List.append_assoc, ← h.sent_eq]
      rfl
    · rw [List.flatMap_append, ← h.bytes_eq, List.flatMap_singleton]
      exact (List.append_assoc _ _ _).symm
    · cases outstanding with
      | nil =>
        intro o ho
        have htaken : c.receiver.taken = [] := by
          have hnil := h.bytes_eq
          rw [List.flatMap_nil, List.append_eq_nil_iff, List.append_eq_nil_iff] at hnil
          exact hnil.1.1
        rw [htaken, List.length_nil]
        omega
      | cons o outstanding => exact h.taken_lt

theorem Framed.arrive (h : Framed json c outstanding) (count : Nat) :
    Framed json (c.step json (.arrive count)) outstanding := by
  refine ⟨h.failed_eq, h.sent_eq, ?_, h.taken_lt⟩
  rw [← h.bytes_eq]
  simp only [step, List.append_assoc, List.take_append_drop]

-- A dropped receive that had read nothing is as good as the one that replaces it.
theorem Framed.cancel (h : Framed json c outstanding) (htaken : c.receiver.taken = []) :
    Framed json (c.step json .cancel) outstanding := by
  have hsame : c.step json .cancel = c := by
    rcases c with ⟨sent, wire, ⟨arrived, taken, received, failed⟩⟩
    simp only at htaken
    rw [htaken]
    rfl
  rwa [hsame]

-- A poll takes what has arrived, or decodes the first outstanding message.
theorem Framed.poll_cases (h : Framed json c outstanding) :
    (Framed json (c.step json .poll) outstanding ∧ (c.step json .poll).receiver.arrived = []) ∨
      ∃ o rest, outstanding = o :: rest ∧ Framed json (c.step json .poll) rest := by
  have hfailed := h.failed_eq
  have hbytes := h.bytes_eq
  cases outstanding with
  | nil =>
    rw [List.flatMap_nil, List.append_eq_nil_iff, List.append_eq_nil_iff] at hbytes
    obtain ⟨⟨htaken, harrived⟩, hwire⟩ := hbytes
    have hstep : c.step json .poll =
        { c with receiver := { c.receiver with taken := [], arrived := [] } } := by
      simp only [step, pollReceiver, hfailed, htaken, harrived, receiveMessage,
        Framing.poll_nil]
    rw [hstep]
    exact .inl ⟨⟨hfailed, h.sent_eq, hwire, nofun⟩, rfl⟩
  | cons o rest =>
    have htaken := h.taken_lt o rfl
    have hsmall : o.body.length < 2 ^ 32 := by
      have hsize := o.size_le
      unfold maxMessageSize at hsize
      omega
    rw [List.flatMap_cons] at hbytes
    by_cases hshort : (c.receiver.taken ++ c.receiver.arrived).length < 4 + o.body.length
    · have hpoll := @Framing.poll_pending ReplicationError ReplicationMessage maxMessageSize
        (fun _ => .ioError .invalidData) (ReplicationMessage.fromBytes json) o.body _
        c.receiver.taken c.receiver.arrived c.wire hsmall o.size_le hbytes hshort
      have hstep : c.step json .poll =
          { c with receiver := { c.receiver with
            taken := c.receiver.taken ++ c.receiver.arrived, arrived := [] } } := by
        simp only [step, pollReceiver, hfailed, receiveMessage, hpoll]
      rw [hstep]
      refine .inl ⟨⟨hfailed, h.sent_eq, ?_, ?_⟩, rfl⟩
      · rw [List.flatMap_cons, ← hbytes]
        simp only [List.append_nil]
      · intro first hfirst
        cases hfirst
        exact hshort
    · obtain ⟨left, hpoll, hleft⟩ := @Framing.poll_ready ReplicationError ReplicationMessage
        maxMessageSize (fun _ => .ioError .invalidData) (ReplicationMessage.fromBytes json)
        o.body _ c.receiver.taken c.receiver.arrived c.wire o.message hsmall o.size_le o.decodes
        hbytes (Nat.le_of_lt htaken) (Nat.not_lt.mp hshort)
      have hstep : c.step json .poll =
          { c with receiver := { c.receiver with
            taken := [], arrived := left
            received := c.receiver.received ++ [o.message] } } := by
        simp only [step, pollReceiver, hfailed, receiveMessage, hpoll]
      rw [hstep]
      refine .inr ⟨o, rest, rfl, hfailed, ?_, ?_, ?_⟩
      · rw [h.sent_eq, List.map_cons, List.append_assoc]
        rfl
      · rw [← hleft]
        rfl
      · intro first _
        rw [List.length_nil]
        omega

theorem Framed.step (h : Framed json c outstanding) {event : ConnectionEvent}
    (hevent : Undisturbed json c event) :
    ∃ outstanding', Framed json (c.step json event) outstanding' := by
  cases event with
  | send message => exact h.send hevent
  | arrive count => exact ⟨outstanding, h.arrive count⟩
  | poll =>
    rcases h.poll_cases with ⟨hframed, -⟩ | ⟨o, rest, -, hframed⟩
    · exact ⟨outstanding, hframed⟩
    · exact ⟨rest, hframed⟩
  | cancel => exact ⟨outstanding, h.cancel hevent⟩

theorem Framed.run (h : Framed json c outstanding) {events : List ConnectionEvent}
    (hevents : MeetsAlong (Connection.step json) (Undisturbed json) c events) :
    ∃ outstanding', Framed json (c.run json events) outstanding' := by
  induction events generalizing c outstanding with
  | nil => exact ⟨outstanding, h⟩
  | cons event events ih =>
    obtain ⟨next, hnext⟩ := h.step hevents.1
    exact ih hnext hevents.2

-- With nothing left on its way, every poll decodes a message until none is outstanding.
theorem Framed.polls (h : Framed json c outstanding) (hwire : c.wire = []) {n : Nat}
    (hn : outstanding.length ≤ n) :
    (c.run json (List.replicate n .poll)).receiver.received = c.sent := by
  induction n generalizing c outstanding with
  | zero =>
    have hnil : outstanding = [] := List.eq_nil_of_length_eq_zero (by omega)
    rw [h.sent_eq, hnil, List.map_nil, List.append_nil]
    rfl
  | succ n ih =>
    have hrun : c.run json (List.replicate (n + 1) .poll) =
        (c.step json .poll).run json (List.replicate n .poll) := rfl
    have hwire' : (c.step json .poll).wire = [] := hwire
    have hsent : (c.step json .poll).sent = c.sent := rfl
    rw [hrun, ← hsent]
    rcases h.poll_cases with ⟨hframed, harrived⟩ | ⟨o, rest, rfl, hframed⟩
    · -- nothing has arrived either, so that nothing is outstanding
      have hall := hframed.delivers.received_eq hwire' harrived
      have hnone : outstanding = [] := by
        have heq := hframed.sent_eq
        rw [hall] at heq
        have hmap : outstanding.map Outstanding.message = [] := by
          have hlen := congrArg List.length heq
          rw [List.length_append] at hlen
          exact List.eq_nil_of_length_eq_zero (by omega)
        exact List.map_eq_nil_iff.mp hmap
      exact ih hframed hwire' (by rw [hnone]; simp)
    · exact ih hframed hwire' (by rw [List.length_cons] at hn; omega)

/-- In every run in which no receive is dropped after it has read a part of a message, and every
message sent is decoded to itself and not too large for the receiver: the messages decoded are at
every moment the first of those sent, in order, and all of them once all bytes have arrived. -/
theorem undisturbed_run_delivers {events : List ConnectionEvent}
    (hevents : MeetsAlong (step json) (Undisturbed json) start events) :
    (∀ n, (start.run json (events.take n)).Delivers) ∧
      ((start.run json events).drain json).receiver.received = (start.run json events).sent := by
  refine ⟨?_, ?_⟩
  · intro n
    obtain ⟨outstanding, hframed⟩ := framed_start.run (hevents.take n)
    exact hframed.delivers
  · obtain ⟨outstanding, hframed⟩ := framed_start.run hevents
    have hwire : ((start.run json events).step json
        (.arrive (start.run json events).wire.length)).wire = [] :=
      List.drop_of_length_le (Nat.le_refl _)
    refine (hframed.arrive (start.run json events).wire.length).polls hwire ?_
    rw [hframed.sent_eq, List.length_append, List.length_map]
    omega

/-! ## Two small runs -/

/-- The JSON of a successful acknowledgment. -/
def ackText (sequence : Nat) : Bytes :=
  utf8 ("\x7b\"Ack\":\x7b\"sequence\":" ++ toString sequence ++ ",\"status\":\"Success\"\x7d\x7d")

/-- `serde_json` on successful acknowledgments. -/
def ackMessages : MessageJson where
  toVec
    | .ack sequence .success => .ok (ackText sequence)
    | _ => .error "only successful acknowledgments"
  fromSlice bytes :=
    let digits := (bytes.drop 19).takeWhile fun b => 48 ≤ b ∧ b ≤ 57
    let sequence := digits.foldl (fun n b => 10 * n + (b.toNat - 48)) 0
    if bytes = ackText sequence then .ok (.ack sequence .success)
    else .error "expected a successful acknowledgment"

theorem ackMessages_undisturbed (c : Connection) :
    Undisturbed ackMessages c (.send (.ackSuccess 7)) := by
  intro bytes hbytes
  cases hbytes
  have hsequence : (((ackText 7).drop 19).takeWhile fun b => 48 ≤ b ∧ b ≤ 57).foldl
      (fun n b => 10 * n + (b.toNat - 48)) 0 = 7 := by
    decide +kernel
  refine ⟨by decide +kernel, ?_⟩
  simp only [ReplicationMessage.fromBytes, ackMessages, hsequence, if_true]
  rfl

-- A message that arrives in two parts, with a heartbeat before and after it.
theorem ack_in_two_parts :
    (∀ n, (start.run ackMessages ([.cancel, .send (.ackSuccess 7), .arrive 2, .poll, .arrive 100,
        .poll, .cancel].take n)).Delivers) ∧
      ((start.run ackMessages [.cancel, .send (.ackSuccess 7), .arrive 2, .poll, .arrive 100,
          .poll, .cancel]).drain ackMessages).receiver.received =
        (start.run ackMessages [.cancel, .send (.ackSuccess 7), .arrive 2, .poll, .arrive 100,
          .poll, .cancel]).sent := by
  refine undisturbed_run_delivers
    ⟨rfl, ackMessages_undisturbed _, trivial, trivial, trivial, trivial, ?_, trivial⟩
  have htaken : (start.run ackMessages [.cancel, .send (.ackSuccess 7), .arrive 2, .poll,
      .arrive 100, .poll]).receiver.taken = [] := by
    decide +kernel
  exact htaken

-- A heartbeat between the two parts: the message is lost, and what is left of it is rejected.
theorem heartbeat_between_parts :
    ¬∀ n, (start.run ackMessages ([.send (.ackSuccess 7), .arrive 2, .poll, .cancel, .arrive 100,
      .poll].take n)).Delivers := by
  intro h
  have hfailed : (start.run ackMessages [.send (.ackSuccess 7), .arrive 2, .poll, .cancel,
      .arrive 100, .poll]).receiver.failed = some (.ioError .invalidData) := by
    decide +kernel
  have hnone := (h 6).failed_eq
  rw [List.take_of_length_le (by decide), hfailed] at hnone
  cases hnone

end Connection

end VedDb
