import VedDb.Replication.Handshake

/-!
# How a handshake ends

Where the two sides of a handshake come to rest, from the state they start in.  The master sends at
most one reply, and the slave makes of it what `apply_full_sync` or `apply_incremental_sync` does; a
slave that is up to date is sent none.
-/

namespace VedDb

open LittleEndian
open Framing (frame)

namespace Handshake

variable {C : Type} {env : HandshakeEnv C}

/-! ## The end of a handshake -/

variable {master slave : SyncManager C}

def asked (master slave : SyncManager C) : Handshake C :=
  { start master slave with slavePhase := .awaitingResponse }

theorem run_request
    (hrequest : env.json.Delivers (.syncRequest slave.currentSequence env.slaveId)) :
    ((start master slave).connect env).masterReceives env =
      (asked master slave).answer env (.syncRequest slave.currentSequence env.slaveId) := by
  obtain ⟨bytes, hbytes, hsize, hread⟩ := hrequest
  have hconnect : (start master slave).connect env =
      { asked master slave with toMaster := [frame bytes] } := by
    simp only [connect, start, sendMessage_of_toVec hbytes]
    rfl
  rw [hconnect]
  simp only [Handshake.masterReceives, receiveMessage_frame hsize hread]
  rfl

-- A master that is past the request leaves the slave and what was sent alone.
theorem masterReceives_slave {h : Handshake C} (hphase : h.masterPhase ≠ .awaitingRequest) :
    (h.masterReceives env).sent = h.sent ∧ (h.masterReceives env).slavePhase = h.slavePhase ∧
      (h.masterReceives env).slave = h.slave := by
  unfold Handshake.masterReceives
  cases h.toMaster with
  | nil => exact ⟨rfl, rfl, rfl⟩
  | cons bytes rest =>
    dsimp only
    split
    · exact ⟨rfl, rfl, rfl⟩
    · next request left hawaiting _ => exact absurd hawaiting hphase
    · exact ⟨rfl, rfl, rfl⟩
    · exact ⟨rfl, rfl, rfl⟩
    · exact ⟨rfl, rfl, rfl⟩
    · exact ⟨rfl, rfl, rfl⟩
    · exact ⟨rfl, rfl, rfl⟩

theorem handleSyncResponse_ack {replication : ReplicationEnv C} {now : DateTime}
    {response ack : ReplicationMessage} {m m' : SyncManager C}
    (h : m.handleSyncResponse replication now response = (.ok ack, m')) :
    ∃ sequence, ack = .ackSuccess sequence := by
  cases response with
  | fullSync header snapshotData =>
    simp only [SyncManager.handleSyncResponse] at h
    rcases hresult : m.applyFullSync replication now header snapshotData with ⟨e | done, after⟩
    · simp [hresult] at h
    · simp only [hresult, Prod.mk.injEq, Except.ok.injEq] at h
      exact ⟨header.sequence, h.1.symm⟩
  | incrementalSync entries =>
    simp only [SyncManager.handleSyncResponse] at h
    rcases hresult : m.applyIncrementalSync replication now entries with ⟨e | last, after⟩
    · simp [hresult] at h
    · simp only [hresult, Prod.mk.injEq, Except.ok.injEq] at h
      exact ⟨last, h.1.symm⟩
  | syncRequest lastSequence slaveId => simp [SyncManager.handleSyncResponse] at h
  | heartbeat timestamp currentSequence => simp [SyncManager.handleSyncResponse] at h
  | ack sequence status => simp [SyncManager.handleSyncResponse] at h
  | error code text => simp [SyncManager.handleSyncResponse] at h
  | promoteToMaster authToken => simp [SyncManager.handleSyncResponse] at h
  | masterShutdown reason => simp [SyncManager.handleSyncResponse] at h

theorem synchronised_iff_of_sent {h : Handshake C} {reply : ReplicationMessage}
    (hsent : h.sent = [reply]) :
    h.Synchronised ↔
      h.slavePhase = .streaming ∧ reply.replySequence = some h.slave.currentSequence := by
  constructor
  · intro hsync
    rcases hsync with ⟨hnone, -⟩ | ⟨own, sequence, hown, hsequence, hphase, hcurrent⟩
    · rw [hsent] at hnone
      cases hnone
    · rw [hsent, List.cons.injEq] at hown
      rw [hown.1, hcurrent]
      exact ⟨hphase, hsequence⟩
  · intro ⟨hphase, hsequence⟩
    exact .inr ⟨reply, _, hsent, hsequence, hphase, rfl⟩

-- A reply that was sent synchronises the slave exactly when it reaches it and is accepted.
theorem synchronised_sent_iff
    (hacks : ∀ sequence, ∃ bytes, env.json.toVec (.ackSuccess sequence) = .ok bytes)
    {reply : ReplicationMessage} {bytes : Bytes} (hcarries : env.json.Carries reply)
    (hbytes : env.json.toVec reply = .ok bytes) (m : SyncManager C) {next : MasterPhase}
    (hnext : next ≠ .awaitingRequest) :
    (((({ asked master slave with master := m } : Handshake C).sendReply env reply
        next).slaveReceives env).masterReceives env).Synchronised ↔
      bytes.length ≤ maxMessageSize ∧ ∃ ack m',
        slave.handleSyncResponse env.replication env.applied reply = (.ok ack, m') ∧
          reply.replySequence = some m'.currentSequence := by
  have hsent : ({ asked master slave with master := m } : Handshake C).sendReply env reply next =
      { asked master slave with
        master := m, masterPhase := next, toSlave := [frame bytes], sent := [reply] } := by
    simp only [sendReply, sendMessage_of_toVec hbytes]
    rfl
  -- what the master makes of the acknowledgment does not matter
  have hend {h : Handshake C} (hphase : h.masterPhase = next) (hreply : h.sent = [reply]) :
      (h.masterReceives env).Synchronised ↔
        h.slavePhase = .streaming ∧ reply.replySequence = some h.slave.currentSequence := by
    obtain ⟨hsame, hslavePhase, hslave⟩ := @masterReceives_slave C env h (hphase ▸ hnext)
    rw [synchronised_iff_of_sent (hsame.trans hreply), hslavePhase, hslave]
  rw [hsent]
  by_cases hsize : bytes.length ≤ maxMessageSize
  · have hread := receiveMessage_frame hsize (hcarries.decodes bytes hbytes)
    rcases hresponse : slave.handleSyncResponse env.replication env.applied reply with
      ⟨e | ack, m'⟩
    · have hstep : ({ asked master slave with
          master := m, masterPhase := next, toSlave := [frame bytes],
          sent := [reply] } : Handshake C).slaveReceives env =
            { asked master slave with
              master := m, masterPhase := next, sent := [reply], slave := m',
              slavePhase := .failed e } := by
        simp only [Handshake.slaveReceives, asked, start, hread, hresponse]
      rw [hstep, hend rfl rfl]
      simp
    · obtain ⟨sequence, rfl⟩ := handleSyncResponse_ack hresponse
      obtain ⟨ackBytes, hack⟩ := hacks sequence
      have hstep : ({ asked master slave with
          master := m, masterPhase := next, toSlave := [frame bytes],
          sent := [reply] } : Handshake C).slaveReceives env =
            { asked master slave with
              master := m, masterPhase := next, sent := [reply], slave := m',
              slavePhase := .streaming, toMaster := [frame ackBytes] } := by
        simp only [Handshake.slaveReceives, asked, start, hread, hresponse,
          sendMessage_of_toVec hack, List.nil_append]
      rw [hstep, hend rfl rfl]
      simp [hsize]
  · obtain ⟨e, hread⟩ := hcarries.oversized hbytes (Nat.not_le.mp hsize)
    have hstep : ({ asked master slave with
        master := m, masterPhase := next, toSlave := [frame bytes],
        sent := [reply] } : Handshake C).slaveReceives env =
          { asked master slave with
            master := m, masterPhase := next, sent := [reply], slavePhase := .failed e } := by
      simp only [Handshake.slaveReceives, asked, start, hread]
    rw [hstep, hend rfl rfl]
    simp [hsize]

end Handshake

/-! ## What the slave accepts -/

section

variable {C : Type}

/-- The reply that a master makes for a slave at the given sequence. -/
inductive SyncManager.Replies (env : ReplicationEnv C) (made : DateTime) (m : SyncManager C)
    (slaveSequence : Nat) : ReplicationMessage → Prop
  | full {reply : ReplicationMessage} (hneeds : m.needsFullSync env slaveSequence = .ok true)
      (hmessage : (m.fullSyncMessage env made).1 = .ok reply) :
      Replies env made m slaveSequence reply
  | incremental {entry : WalEntry} {entries : List WalEntry}
      (hneeds : m.needsFullSync env slaveSequence = .ok false)
      (hentries : m.getWalEntriesSince env slaveSequence = .ok (entry :: entries)) :
      Replies env made m slaveSequence (.incrementalSync (entry :: entries))

/-- The slave needs no snapshot, and the log has no entry above its sequence. -/
def SyncManager.NothingNewFor (env : ReplicationEnv C) (m : SyncManager C) (slaveSequence : Nat) :
    Prop :=
  m.needsFullSync env slaveSequence = .ok false ∧ m.getWalEntriesSince env slaveSequence = .ok []

/-- A snapshot that decompresses and whose documents all can be stored, or a batch of which every
entry can be applied. -/
def Acceptable (env : ReplicationEnv C) (made : DateTime)
    (masterLayer slaveLayer : PersistentLayer) :
    ReplicationMessage → Prop
  | .fullSync _ snapshotData =>
    (∃ content, env.zstd.decompress snapshotData = .ok content) ∧
      Transportable env.snapshot made masterLayer
  | .incrementalSync entries => BatchApplies env slaveLayer entries
  | _ => False

variable {env : ReplicationEnv C} {made now : DateTime} {master slave : SyncManager C}
  {masterLayer slaveLayer : PersistentLayer}

section

variable {slaveSequence : Nat} {reply : ReplicationMessage}

theorem SyncManager.replies_iff :
    master.Replies env made slaveSequence reply ↔
      (master.needsFullSync env slaveSequence = .ok true ∧
          (master.fullSyncMessage env made).1 = .ok reply) ∨
        master.needsFullSync env slaveSequence = .ok false ∧ ∃ entry entries,
          master.getWalEntriesSince env slaveSequence = .ok (entry :: entries) ∧
            reply = .incrementalSync (entry :: entries) := by
  constructor
  · intro hreply
    cases hreply with
    | full hneeds hmessage => exact .inl ⟨hneeds, hmessage⟩
    | incremental hneeds hentries => exact .inr ⟨hneeds, _, _, hentries, rfl⟩
  · intro h
    rcases h with ⟨hneeds, hmessage⟩ | ⟨hneeds, entry, entries, hentries, rfl⟩
    · exact .full hneeds hmessage
    · exact .incremental hneeds hentries

theorem SyncManager.not_replies_of_error {e : ReplicationError}
    (hneeds : master.needsFullSync env slaveSequence = .error e) :
    ¬master.Replies env made slaveSequence reply := by
  simp [SyncManager.replies_iff, hneeds]

theorem SyncManager.replies_full_iff (hneeds : master.needsFullSync env slaveSequence = .ok true) :
    master.Replies env made slaveSequence reply ↔
      (master.fullSyncMessage env made).1 = .ok reply := by
  simp [SyncManager.replies_iff, hneeds]

theorem SyncManager.replies_incremental_iff
    (hneeds : master.needsFullSync env slaveSequence = .ok false) :
    master.Replies env made slaveSequence reply ↔ ∃ entry entries,
      master.getWalEntriesSince env slaveSequence = .ok (entry :: entries) ∧
        reply = .incrementalSync (entry :: entries) := by
  simp [SyncManager.replies_iff, hneeds]

-- Nothing new, no reply.
theorem SyncManager.NothingNewFor.not_replies (h : master.NothingNewFor env slaveSequence) :
    ¬master.Replies env made slaveSequence reply := by
  rw [SyncManager.replies_incremental_iff h.1, h.2]
  intro ⟨entry, entries, hentries, _⟩
  cases hentries

theorem SyncManager.Replies.unique {other : ReplicationMessage}
    (h : master.Replies env made slaveSequence reply)
    (hother : master.Replies env made slaveSequence other) : other = reply := by
  cases h with
  | full hneeds hmessage =>
    rw [SyncManager.replies_full_iff hneeds, hmessage, Durable.Outcome.ok.injEq] at hother
    exact hother.symm
  | incremental hneeds hentries =>
    rw [SyncManager.replies_incremental_iff hneeds] at hother
    obtain ⟨entry', entries', hentries', rfl⟩ := hother
    rw [hentries, Except.ok.injEq] at hentries'
    rw [hentries']

end

theorem fullSyncMessage_fullSync {reply : ReplicationMessage}
    (h : (master.fullSyncMessage env made).1 = .ok reply) :
    ∃ header snapshotData, reply = .fullSync header snapshotData := by
  unfold SyncManager.fullSyncMessage at h
  split at h
  · cases h
  · cases h
  · split at h
    · cases h
    · split at h
      · cases h
      · cases h
        exact ⟨_, _, rfl⟩

-- The slave accepts a snapshot exactly when it can be decompressed and all of it can be stored.
theorem handleSyncResponse_fullSync_iff (hzstd : env.zstd.Faithful)
    (hmaster : master.Stores masterLayer) (hslave : slave.Stores slaveLayer)
    (hr : Reproduces env.snapshot made masterLayer master.currentSequence)
    {header : SnapshotHeader} {snapshotData : Bytes}
    (hsent : (master.fullSyncMessage env made).1 = .ok (.fullSync header snapshotData)) :
    (∃ ack m', slave.handleSyncResponse env now (.fullSync header snapshotData) = (.ok ack, m') ∧
        m'.currentSequence = header.sequence) ↔
      (∃ content, env.zstd.decompress snapshotData = .ok content) ∧
        Transportable env.snapshot made masterLayer := by
  cases hdecompress : env.zstd.decompress snapshotData with
  | error e =>
    simp [SyncManager.handleSyncResponse, SyncManager.applyFullSync, hdecompress]
  | ok content =>
    obtain ⟨-, made', hcreate, hcompress⟩ := hmaster.fullSyncMessage_sent hr hsent
    rw [← hzstd _ _ _ hcompress hdecompress] at hcreate
    rcases applyFullSync_createSnapshot env now header hcreate hr hslave hdecompress with
      ⟨hnot, e, m', happly⟩ | ⟨htransport, after, m', -, happly, hsequence, -⟩
    · simp [SyncManager.handleSyncResponse, happly, hnot]
    · simp [SyncManager.handleSyncResponse, happly, htransport, hsequence]

-- And a batch above its sequence exactly when every entry can be applied.
theorem handleSyncResponse_incrementalSync_iff (hslave : slave.Stores slaveLayer)
    {entries : List WalEntry} (hpos : 0 < lastSequence entries) :
    (∃ ack m', slave.handleSyncResponse env now (.incrementalSync entries) = (.ok ack, m') ∧
        m'.currentSequence = lastSequence entries) ↔ BatchApplies env slaveLayer entries := by
  rcases @SyncManager.applyIncrementalSync_cases C env now slave slaveLayer hslave entries with
    ⟨hbatch, m', heq, -, hsequence⟩ | ⟨hnot, e, m', heq⟩
  · rw [if_pos hpos] at hsequence
    simp [SyncManager.handleSyncResponse, heq, hbatch, hsequence]
  · simp [SyncManager.handleSyncResponse, heq, hnot]

theorem lastSequence_pos {entry : WalEntry} {entries : List WalEntry} {sequence : Nat}
    (h : ∀ own ∈ entry :: entries, sequence < own.sequence) :
    0 < lastSequence (entry :: entries) := by
  have hlast := h ((entry :: entries).getLast (by simp)) (List.getLast_mem _)
  rw [lastSequence, List.getLast?_eq_some_getLast (by simp), Option.map_some, Option.getD_some]
  omega

theorem acceptable_iff (hzstd : env.zstd.Faithful) (hmaster : master.Stores masterLayer)
    (hslave : slave.Stores slaveLayer) {slaveSequence : Nat}
    (hr : master.needsFullSync env slaveSequence = .ok true →
      Reproduces env.snapshot made masterLayer master.currentSequence)
    {reply : ReplicationMessage}
    (hreply : master.Replies env made slaveSequence reply) :
    (∃ ack m', slave.handleSyncResponse env now reply = (.ok ack, m') ∧
        reply.replySequence = some m'.currentSequence) ↔
      Acceptable env made masterLayer slaveLayer reply := by
  cases hreply with
  | full hneeds hmessage =>
    obtain ⟨header, snapshotData, rfl⟩ := fullSyncMessage_fullSync hmessage
    rw [Acceptable, ← @handleSyncResponse_fullSync_iff C env made now master slave masterLayer
      slaveLayer hzstd hmaster hslave (hr hneeds) header snapshotData hmessage]
    simp only [ReplicationMessage.replySequence, Option.some.injEq, eq_comm]
  | @incremental entry entries hneeds hentries =>
    have hpos := lastSequence_pos (SyncManager.getWalEntriesSince_lt hentries)
    rw [Acceptable, ← @handleSyncResponse_incrementalSync_iff C env now slave slaveLayer hslave
      _ hpos]
    simp only [ReplicationMessage.replySequence, Option.some.injEq, eq_comm]

end

/-! ## Every schedule -/

namespace Handshake

variable {C : Type} {env : HandshakeEnv C} {master slave : SyncManager C}
  {masterLayer slaveLayer : PersistentLayer}

/-- The master failed without a word. -/
structure FailedSilently (h : Handshake C) : Prop where
  toMaster_eq : h.toMaster = []
  toSlave_eq : h.toSlave = []
  sent_eq : h.sent = []
  fails : h.masterPhase.Fails

theorem FailedSilently.of_asked (m : SyncManager C) {phase : MasterPhase} (h : phase.Fails) :
    ({ asked master slave with master := m, masterPhase := phase } : Handshake C).FailedSilently :=
  ⟨rfl, rfl, rfl, h⟩

theorem sendReply_failed {reply : ReplicationMessage} {e : String}
    (h : env.json.toVec reply = .error e) (m : SyncManager C) (next : MasterPhase) :
    (({ asked master slave with master := m } : Handshake C).sendReply env reply
      next).FailedSilently := by
  simp only [sendReply, sendMessage, ReplicationMessage.toBytes, h]
  exact .of_asked m trivial

inductive Answered (env : HandshakeEnv C) (master slave : SyncManager C) (h : Handshake C) : Prop
  | sent {reply : ReplicationMessage} {bytes : Bytes} (m : SyncManager C) {next : MasterPhase}
      (hreply : master.Replies env.replication env.made slave.currentSequence reply)
      (hbytes : env.json.toVec reply = .ok bytes) (hnext : next ≠ .awaitingRequest)
      (heq : h = ({ asked master slave with master := m } : Handshake C).sendReply env reply next)
  | failed (hnew : ¬master.NothingNewFor env.replication slave.currentSequence)
      (hreplies : ∀ reply bytes,
        master.Replies env.replication env.made slave.currentSequence reply →
          env.json.toVec reply ≠ .ok bytes)
      (hfailed : h.FailedSilently)
  | silent (hnothing : master.NothingNewFor env.replication slave.currentSequence)
      (heq : h = { asked master slave with masterPhase := addSlave env })

-- A reply is sent unless it cannot be written.
theorem Answered.of_reply {reply : ReplicationMessage} (m : SyncManager C) {next : MasterPhase}
    (hreply : master.Replies env.replication env.made slave.currentSequence reply)
    (hnew : ¬master.NothingNewFor env.replication slave.currentSequence)
    (hnext : next ≠ .awaitingRequest) :
    Answered env master slave
      (({ asked master slave with master := m } : Handshake C).sendReply env reply next) := by
  cases hbytes : env.json.toVec reply with
  | error e =>
    refine .failed hnew ?_ (sendReply_failed hbytes m next)
    intro other bytes hother
    rw [hreply.unique hother, hbytes]
    nofun
  | ok bytes => exact .sent m hreply hbytes hnext rfl

theorem answered : Answered env master slave ((asked master slave).answer env
    (.syncRequest slave.currentSequence env.slaveId)) := by
  have hmaster : (asked master slave).master = master := rfl
  cases hneeds : master.needsFullSync env.replication slave.currentSequence with
  | error e =>
    have hnew : ¬master.NothingNewFor env.replication slave.currentSequence := by
      simp [SyncManager.NothingNewFor, hneeds]
    refine .failed hnew ?_ ?_
    · intro reply bytes hreply
      exact absurd hreply (SyncManager.not_replies_of_error hneeds)
    · simp only [answer, hmaster, hneeds]
      exact .of_asked master trivial
  | ok full =>
    cases full with
    | true =>
      have hnew : ¬master.NothingNewFor env.replication slave.currentSequence := by
        simp [SyncManager.NothingNewFor, hneeds]
      have hreplies {reply : ReplicationMessage} :=
        @SyncManager.replies_full_iff C env.replication env.made master _ reply hneeds
      have hsilent (hnone : ∀ reply, (master.fullSyncMessage env.replication env.made).1 ≠
          .ok reply) : ∀ reply bytes,
          master.Replies env.replication env.made slave.currentSequence reply →
            env.json.toVec reply ≠ .ok bytes := by
        intro reply bytes hreply
        exact absurd (hreplies.mp hreply) (hnone reply)
      rcases hmessage : master.fullSyncMessage env.replication env.made with ⟨outcome, m⟩
      rw [hmessage] at hreplies hsilent
      cases outcome with
      | crashed =>
        refine .failed hnew (hsilent nofun) ?_
        simp only [answer, hmaster, hneeds, hmessage]
        exact .of_asked m trivial
      | error e =>
        refine .failed hnew (hsilent nofun) ?_
        simp only [answer, hmaster, hneeds, hmessage]
        exact .of_asked m trivial
      | ok reply =>
        simp only [answer, hmaster, hneeds, hmessage]
        exact .of_reply m (hreplies.mpr rfl) hnew (by simp)
    | false =>
      have hreplies {reply : ReplicationMessage} :=
        @SyncManager.replies_incremental_iff C env.replication env.made master _ reply hneeds
      rcases hentries : master.getWalEntriesSince env.replication slave.currentSequence with
        e | - | ⟨entry, entries⟩
      · refine .failed ?_ ?_ ?_
        · simp [SyncManager.NothingNewFor, hentries]
        · intro reply bytes hreply
          rw [hreplies, hentries] at hreply
          obtain ⟨entry, entries, hother, -⟩ := hreply
          cases hother
        · simp only [answer, hmaster, hneeds, hentries]
          exact .of_asked master trivial
      · refine .silent ⟨hneeds, hentries⟩ ?_
        simp only [answer, hmaster, hneeds, hentries]
      · simp only [answer, hmaster, hneeds, hentries]
        refine .of_reply master (.incremental hneeds hentries) ?_ (by simp)
        simp [SyncManager.NothingNewFor, hentries]

theorem addSlave_fails_iff : (addSlave env).Fails ↔ ¬env.slaveCount < env.maxSlaves := by
  unfold addSlave
  split
  · next hfull => exact ⟨fun _ => Nat.not_lt.mpr hfull, fun _ => trivial⟩
  · next hfree => exact ⟨False.elim, fun hnot => hnot (Nat.not_le.mp hfree)⟩

-- The schedule answers the request, delivers the reply and then the acknowledgment.
theorem run_schedule_eq
    (hrequest : env.json.Delivers (.syncRequest slave.currentSequence env.slaveId)) :
    (start master slave).run env schedule = (((asked master slave).answer env
      (.syncRequest slave.currentSequence env.slaveId)).slaveReceives env).masterReceives env := by
  rw [← run_request hrequest]
  rfl

/-- Every schedule of the handshake that comes to rest ends with a master that failed without a
reply, or with one reply that the slave accepted and that brought it to its sequence, exactly when
the master with a free slot has something new for the slave, and the reply is not too large to be
received and can be applied by the slave. -/
theorem handshake_synchronised_iff (hzstd : env.replication.zstd.Faithful)
    (hmaster : master.Stores masterLayer) (hslave : slave.Stores slaveLayer)
    (hr : master.needsFullSync env.replication slave.currentSequence = .ok true →
      Reproduces env.replication.snapshot env.made masterLayer master.currentSequence)
    (hrequest : env.json.Delivers (.syncRequest slave.currentSequence env.slaveId))
    (hacks : ∀ sequence, ∃ bytes, env.json.toVec (.ackSuccess sequence) = .ok bytes)
    (hcarries : ∀ reply, master.Replies env.replication env.made slave.currentSequence reply →
      env.json.Carries reply) :
    (∀ events, ((start master slave).run env events).AtRest env →
        ((start master slave).run env events).Synchronised) ↔
      ¬(master.NothingNewFor env.replication slave.currentSequence ∧
          env.slaveCount < env.maxSlaves) ∧
        ∀ reply bytes, master.Replies env.replication env.made slave.currentSequence reply →
          env.json.toVec reply = .ok bytes → bytes.length ≤ maxMessageSize ∧
            Acceptable env.replication env.made masterLayer slaveLayer reply := by
  rw [forall_atRest_iff env master slave, run_schedule_eq hrequest]
  have hanswered := @answered C env master slave
  generalize (asked master slave).answer env
    (.syncRequest slave.currentSequence env.slaveId) = h at hanswered ⊢
  cases hanswered with
  | @sent reply bytes m next hreply hbytes hnext heq =>
    have hnew : ¬(master.NothingNewFor env.replication slave.currentSequence ∧
        env.slaveCount < env.maxSlaves) := by
      intro ⟨hnothing, _⟩
      exact hnothing.not_replies hreply
    rw [heq, synchronised_sent_iff hacks (hcarries reply hreply) hbytes m hnext,
      acceptable_iff hzstd hmaster hslave hr hreply]
    constructor
    · intro hgood
      refine ⟨hnew, ?_⟩
      intro other bytes' hother hbytes'
      rw [hreply.unique hother] at hbytes' ⊢
      rw [hbytes, Except.ok.injEq] at hbytes'
      rw [← hbytes']
      exact hgood
    · intro ⟨_, hgood⟩
      exact hgood reply bytes hreply hbytes
  | failed hnew hreplies hfailed =>
    rw [slaveReceives_of_nil hfailed.toSlave_eq, masterReceives_of_nil hfailed.toMaster_eq]
    constructor
    · intro _
      refine ⟨fun hboth => hnew hboth.1, ?_⟩
      intro reply bytes hreply hbytes
      exact absurd hbytes (hreplies reply bytes hreply)
    · intro _
      exact .inl ⟨hfailed.sent_eq, hfailed.fails⟩
  | silent hnothing heq =>
    rw [heq, slaveReceives_of_nil rfl, masterReceives_of_nil rfl]
    constructor
    · intro hsync
      refine ⟨?_, fun reply bytes hreply => absurd hreply hnothing.not_replies⟩
      intro ⟨_, hfree⟩
      rcases hsync with ⟨-, hfails⟩ | ⟨reply, sequence, hsent, -⟩
      · exact addSlave_fails_iff.mp hfails hfree
      · cases hsent
    · intro ⟨hslots, _⟩
      refine .inl ⟨rfl, addSlave_fails_iff.mpr ?_⟩
      intro hfree
      exact hslots ⟨hnothing, hfree⟩

/-! ## Two small handshakes -/

/-- The JSON of the request of a fresh slave. -/
def requestText : Bytes :=
  utf8 "\x7b\"SyncRequest\":\x7b\"last_sequence\":0,\"slave_id\":\"slave-0\"\x7d\x7d"

def batchHead : Bytes := utf8 "\x7b\"IncrementalSync\":\x7b\"entries\":["

/-- `serde_json` on that request, on batches of one dropped collection and on acknowledgments. -/
def smallMessages : MessageJson where
  toVec
    | .syncRequest 0 "slave-0" => .ok requestText
    | .incrementalSync [entry] =>
      match dropCodec.toVec entry with
      | .error e => .error e
      | .ok json => .ok (batchHead ++ json ++ utf8 "]\x7d\x7d")
    | .ack sequence .success => .ok (Connection.ackText sequence)
    | _ => .error "not in a small handshake"
  fromSlice bytes :=
    if bytes = requestText then .ok (.syncRequest 0 "slave-0")
    else
      match stripPrefix? batchHead bytes with
      | none => Connection.ackMessages.fromSlice bytes
      | some rest =>
        match dropCodec.fromSlice (rest.take (rest.length - 3)) with
        | .error e => .error e
        | .ok entry => .ok (.incrementalSync [entry])

/-- A master with free slots. -/
def smallHandshake : HandshakeEnv Unit where
  replication := epochReplication
  json := smallMessages
  slaveId := "slave-0"
  slaveCount := 0
  maxSlaves := 10
  made := 0
  applied := 0

theorem smallMessages_request : smallMessages.Delivers (.syncRequest 0 "slave-0") :=
  ⟨requestText, rfl, by decide +kernel, by simp only [smallMessages, if_true]⟩

theorem smallMessages_batch_size {sequence : Nat} (hseq : sequence < 2 ^ 64) {bytes : Bytes}
    (h : smallMessages.toVec (.incrementalSync [droppedUsers sequence]) = .ok bytes) :
    bytes.length ≤ maxMessageSize := by
  have hbytes : bytes = batchHead ++ dropJson sequence "users" (droppedUsers sequence).checksum ++
      utf8 "]\x7d\x7d" :=
    (Except.ok.inj h).symm
  have hjson := (dropJson_users_length hseq (droppedUsers sequence).checksum).2
  have hfixed : batchHead.length + (utf8 "]\x7d\x7d").length = 34 := by decide
  rw [hbytes, List.length_append, List.length_append, maxMessageSize]
  omega

theorem smallMessages_carries {sequence : Nat} (hseq : sequence < 2 ^ 64) :
    smallMessages.Carries (.incrementalSync [droppedUsers sequence]) := by
  obtain ⟨json, hto, hfrom⟩ := dropCodec_roundTrips sequence
  have hbytes : smallMessages.toVec (.incrementalSync [droppedUsers sequence]) =
      .ok (batchHead ++ (json ++ utf8 "]\x7d\x7d")) := by
    simp only [smallMessages, hto, List.append_assoc]
  have hne : batchHead ++ (json ++ utf8 "]\x7d\x7d") ≠ requestText := by
    intro heq
    have hhead := congrArg (List.take 3) heq
    rw [List.take_append_of_le_length (by decide)] at hhead
    exact absurd hhead (by decide)
  have hbody : (json ++ utf8 "]\x7d\x7d").take ((json ++ utf8 "]\x7d\x7d").length - 3) = json := by
    rw [List.length_append, show (utf8 "]\x7d\x7d").length = 3 by decide, Nat.add_sub_cancel,
      List.take_left]
  refine ⟨?_, ?_⟩
  · intro bytes hown
    rw [hbytes, Except.ok.injEq] at hown
    rw [← hown]
    simp only [smallMessages, if_neg hne, stripPrefix?_append, hbody, hfrom]
  · intro bytes hown hlarge
    have hsize := smallMessages_batch_size hseq hown
    unfold maxMessageSize at hsize
    omega

theorem droppingMaster_entries :
    (droppingMaster 2).getWalEntriesSince epochReplication 0 = .ok [droppedUsers 1] := by
  have hview : ((droppingMaster 2).getWalEntriesSince epochReplication 0).toOption.map
      (List.map dropView) = some ([1].map fun sequence => dropView (droppedUsers sequence)) := by
    decide +kernel
  cases hentries : (droppingMaster 2).getWalEntriesSince epochReplication 0 with
  | error e =>
    rw [hentries] at hview
    cases hview
  | ok entries =>
    rw [hentries, Except.toOption, Option.map_some, Option.some.injEq] at hview
    rw [map_droppedUsers_of_views hview]
    rfl

-- A slave one entry behind is brought to it.
theorem handshake_one_behind :
    ((start (droppingMaster 2) (nodeWith .empty 0)).run smallHandshake schedule).Synchronised := by
  have hneeds : (droppingMaster 2).needsFullSync epochReplication 0 = .ok false := by
    decide +kernel
  have hreply (reply : ReplicationMessage) (h : (droppingMaster 2).Replies epochReplication 0 0
      reply) : reply = .incrementalSync [droppedUsers 1] :=
    SyncManager.Replies.unique (.incremental hneeds droppingMaster_entries) h
  refine (@handshake_synchronised_iff Unit smallHandshake (droppingMaster 2) (nodeWith .empty 0)
    .empty .empty storedZstd_faithful ⟨_, rfl, HybridStorageEngine.plain_new () .empty, rfl⟩
    (nodeWith_stores .empty 0) ?_ smallMessages_request (fun sequence => ⟨_, rfl⟩) ?_).mpr ?_
    schedule (schedule_atRest _ _ _)
  · intro hfull
    rw [show (droppingMaster 2).needsFullSync smallHandshake.replication
      (nodeWith .empty 0).currentSequence = .ok false from hneeds] at hfull
    cases hfull
  · intro reply h
    rw [hreply reply h]
    exact smallMessages_carries (by decide)
  · refine ⟨?_, ?_⟩
    · intro ⟨⟨_, hnone⟩, _⟩
      have hsome := droppingMaster_entries
      rw [show (droppingMaster 2).getWalEntriesSince epochReplication 0 = .ok [] from hnone]
        at hsome
      cases hsome
    · intro reply bytes h hbytes
      rw [hreply reply h] at hbytes ⊢
      exact ⟨smallMessages_batch_size (by decide) hbytes, ⟨dropCodec_sealed 1, trivial⟩, trivial⟩

-- A slave that is up to date: the handshake comes to rest with the slave waiting for a reply.
theorem handshake_up_to_date :
    ((start (droppingMaster 1) (nodeWith .empty 0)).run smallHandshake schedule).AtRest
        smallHandshake ∧
      ((start (droppingMaster 1) (nodeWith .empty 0)).run smallHandshake schedule).slavePhase =
        .awaitingResponse ∧
      ¬((start (droppingMaster 1) (nodeWith .empty 0)).run smallHandshake
        schedule).Synchronised := by
  have hslave : ((start (droppingMaster 1) (nodeWith .empty 0)).run smallHandshake
      schedule).slavePhase = .awaitingResponse := by
    decide +kernel
  have hmaster : ((start (droppingMaster 1) (nodeWith .empty 0)).run smallHandshake
      schedule).masterPhase = .streaming := by
    decide +kernel
  refine ⟨schedule_atRest _ _ _, hslave, ?_⟩
  intro hsync
  rcases hsync with ⟨-, hfails⟩ | ⟨reply, sequence, -, -, hphase, -⟩
  · rw [hmaster] at hfails
    exact hfails
  · rw [hslave] at hphase
    cases hphase

end Handshake

end VedDb
