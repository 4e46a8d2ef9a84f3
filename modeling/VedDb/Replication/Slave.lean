import VedDb.Replication.Documents
import VedDb.Replication.Incremental

/-!
# A slave

What a slave does with a message of its master: `connect_to_master` with the response to its
request, `handle_replication_stream` with every message after that.  An error drops the connection,
and the slave connects again.
-/

namespace VedDb

variable {C : Type}

/-- `{:?}` of an error code. -/
def ErrorCode.debug : ErrorCode → String
  | .invalidMessage => "InvalidMessage"
  | .authenticationFailed => "AuthenticationFailed"
  | .sequenceError => "SequenceError"
  | .snapshotCorrupted => "SnapshotCorrupted"
  | .walCorrupted => "WalCorrupted"
  | .internalError => "InternalError"
  | .slaveLimit => "SlaveLimit"
  | .timeout => "Timeout"

namespace SyncManager

variable (env : ReplicationEnv C) (now : DateTime)

/-- The match of `connect_to_master` on the response: the acknowledgment it sends, or why it gives
up. -/
def handleSyncResponse (m : SyncManager C) (response : ReplicationMessage) :
    Except ReplicationError ReplicationMessage × SyncManager C :=
  match response with
  | .fullSync header snapshotData =>
    match m.applyFullSync env now header snapshotData with
    | (.error e, m) => (.error e, m)
    | (.ok (), m) => (.ok (.ackSuccess header.sequence), m)
  | .incrementalSync entries =>
    match m.applyIncrementalSync env now entries with
    | (.error e, m) => (.error e, m)
    | (.ok lastSeq, m) => (.ok (.ackSuccess lastSeq), m)
  | .error code message =>
    (.error (.protocolError ("Master error: " ++ code.debug ++ " - " ++ message)), m)
  | _ => (.error (.protocolError "Unexpected sync response"), m)

/-- The match of `handle_replication_stream` on a message of the master: the acknowledgment it
sends, if any.  Heartbeats and messages it does not expect are logged only. -/
def handleStreamMessage (m : SyncManager C) (message : ReplicationMessage) :
    Except ReplicationError (Option ReplicationMessage) × SyncManager C :=
  match message with
  | .incrementalSync entries =>
    match m.applyIncrementalSync env now entries with
    | (.error e, m) => (.error e, m)
    | (.ok lastSeq, m) => (.ok (some (.ackSuccess lastSeq)), m)
  | .masterShutdown _ => (.error (.connectionError "Master shutdown"), m)
  | _ => (.ok none, m)

end SyncManager

/-- A slave, and whether it is past the response to its request. -/
structure Slave (C : Type) where
  manager : SyncManager C
  streaming : Bool

inductive SlaveEvent where
  | message (now : DateTime) (message : ReplicationMessage)
  | disconnected

namespace Slave

variable (env : ReplicationEnv C)

/-- A slave that was never connected. -/
def start (cacheLayer : C) (walDir : WalDir) : Slave C :=
  { manager := .withStorage walDir (.new cacheLayer .empty), streaming := false }

/-- The loop of `start_slave`, one message or failure at a time. -/
def step (s : Slave C) : SlaveEvent → Slave C
  | .message now message =>
    if s.streaming then
      match s.manager.handleStreamMessage env now message with
      | (.error _, m) => { manager := m, streaming := false }
      | (.ok _, m) => { manager := m, streaming := true }
    else
      match s.manager.handleSyncResponse env now message with
      | (.error _, m) => { manager := m, streaming := false }
      | (.ok _, m) => { manager := m, streaming := true }
  | .disconnected => { s with streaming := false }

def run (s : Slave C) (events : List SlaveEvent) : Slave C := events.foldl (step env) s

end Slave

/-! ## Batches -/

def layerAfter (env : ReplicationEnv C) (layer : PersistentLayer) (entries : List WalEntry) :
    PersistentLayer :=
  entries.foldl (fun layer entry => replicaOperation env.storage 0 layer entry.operation) layer

/-- The entry passes its checks and its operation succeeds. -/
def EntryApplies (env : ReplicationEnv C) (layer : PersistentLayer) (entry : WalEntry) : Prop :=
  env.wal.verifyChecksum entry = .ok true ∧ entry.operation.Applicable env.storage layer

/-- Every entry of the batch does, in its turn. -/
def BatchApplies (env : ReplicationEnv C) (layer : PersistentLayer) (entries : List WalEntry) :
    Prop :=
  MeetsAlong (fun layer entry => replicaOperation env.storage 0 layer entry.operation)
    (EntryApplies env) layer entries

/-- The sequence of the last entry, or `0`. -/
def lastSequence (entries : List WalEntry) : Nat :=
  (entries.getLast?.map WalEntry.sequence).getD 0

namespace SyncManager

variable {env : ReplicationEnv C} {now : DateTime} {m : SyncManager C} {layer : PersistentLayer}

theorem applyEntry_cases (h : m.Stores layer) (entry : WalEntry) :
    (entry.operation.Applicable env.storage layer ∧
      ∃ m', m.applyEntry env now entry = (.ok (), m') ∧
        m'.Stores (replicaOperation env.storage 0 layer entry.operation) ∧
        m'.currentSequence = m.currentSequence) ∨
      ¬entry.operation.Applicable env.storage layer ∧
        ∃ error, m.applyEntry env now entry = (.error error, m) := by
  obtain ⟨storage, hstorage, hplain, rfl⟩ := h.engine
  obtain ⟨hplain', hlayer⟩ := @applyWalEntry_plain C env.storage now storage hplain entry.operation
  rcases @applyWalEntry_cases C env.storage now storage hplain entry.operation with
    ⟨happlicable, e', heq⟩ | ⟨hnot, error, heq⟩
  · rw [heq] at hplain' hlayer
    refine .inl ⟨happlicable, { m with storage := some e' }, ?_, ?_, rfl⟩
    · simp only [applyEntry, hstorage, heq]
    · refine ⟨e', rfl, hplain', ?_⟩
      rw [replicaOperation_now env.storage 0 _ now]
      exact hlayer
  · refine .inr ⟨hnot, error, ?_⟩
    simp only [applyEntry, hstorage, heq]
    rw [← hstorage]

-- An entry at the head of a batch is applied, or ends the batch with everything as it was.
theorem applyEntries_cons (h : m.Stores layer) (entry : WalEntry) (entries : List WalEntry)
    (last : Nat) :
    (EntryApplies env layer entry ∧ ∃ m',
        applyEntries env now (entry :: entries) last m =
          applyEntries env now entries entry.sequence m' ∧
        m'.Stores (replicaOperation env.storage 0 layer entry.operation) ∧
        m'.currentSequence = m.currentSequence) ∨
      ¬EntryApplies env layer entry ∧
        ∃ error, applyEntries env now (entry :: entries) last m = (.error error, m) := by
  cases hverify : env.wal.verifyChecksum entry with
  | error e =>
    refine .inr ⟨?_, .walError e.message, ?_⟩
    · intro hentry
      rw [hentry.1] at hverify
      cases hverify
    · simp only [applyEntries, hverify]
  | ok verified =>
    cases verified with
    | false =>
      refine .inr ⟨?_, .walError ("Checksum verification failed for entry " ++
        toString entry.sequence), ?_⟩
      · intro hentry
        rw [hentry.1] at hverify
        cases hverify
      · simp only [applyEntries, hverify]
    | true =>
      rcases @applyEntry_cases C env now m layer h entry with
        ⟨happlicable, m', heq, hstores, hsequence⟩ | ⟨hnot, error, heq⟩
      · refine .inl ⟨⟨hverify, happlicable⟩, m', ?_, hstores, hsequence⟩
        simp only [applyEntries, hverify, heq]
      · refine .inr ⟨fun hentry => hnot hentry.2, error, ?_⟩
        simp only [applyEntries, hverify, heq]

theorem applyEntries_cases (h : m.Stores layer) (entries : List WalEntry) (last : Nat) :
    (BatchApplies env layer entries ∧ ∃ m',
        applyEntries env now entries last m =
          (.ok ((entries.getLast?.map WalEntry.sequence).getD last), m') ∧
        m'.Stores (layerAfter env layer entries) ∧ m'.currentSequence = m.currentSequence) ∨
      ¬BatchApplies env layer entries ∧
        ∃ error m', applyEntries env now entries last m = (.error error, m') := by
  induction entries generalizing m layer last with
  | nil => exact .inl ⟨trivial, m, rfl, h, rfl⟩
  | cons entry entries ih =>
    rcases @applyEntries_cons C env now m layer h entry entries last with
      ⟨hentry, next, heq, hstores, hsequence⟩ | ⟨hnot, error, heq⟩
    · rcases ih hstores entry.sequence with
        ⟨hrest, m', heq', hstores', hsequence'⟩ | ⟨hnot, error, m', heq'⟩
      · refine .inl ⟨⟨hentry, hrest⟩, m', ?_, hstores', hsequence'.trans hsequence⟩
        rw [heq, heq']
        cases entries with
        | nil => rfl
        | cons other others => simp [List.getLast?_cons]
      · exact .inr ⟨fun hbatch => hnot hbatch.2, error, m', heq.trans heq'⟩
    · exact .inr ⟨fun hbatch => hnot hbatch.1, error, m, heq⟩

-- A batch is applied to its end, or fails on the way.
theorem applyIncrementalSync_cases (h : m.Stores layer) (entries : List WalEntry) :
    (BatchApplies env layer entries ∧ ∃ m',
        m.applyIncrementalSync env now entries = (.ok (lastSequence entries), m') ∧
        m'.Stores (layerAfter env layer entries) ∧
        m'.currentSequence =
          if 0 < lastSequence entries then lastSequence entries else m.currentSequence) ∨
      ¬BatchApplies env layer entries ∧
        ∃ error m', m.applyIncrementalSync env now entries = (.error error, m') := by
  rcases @applyEntries_cases C env now m layer h entries 0 with
    ⟨hbatch, m', heq, hstores, hsequence⟩ | ⟨hnot, error, m', heq⟩
  · obtain ⟨lag, happly⟩ := applyIncrementalSync_of_applied heq
    refine .inl ⟨hbatch, _, happly, ⟨hstores.engine⟩, ?_⟩
    dsimp only
    rw [hsequence]
    rfl
  · refine .inr ⟨hnot, error, m', ?_⟩
    simp only [applyIncrementalSync, heq]

-- A batch that is refused at its first entry leaves everything as it was.
theorem applyIncrementalSync_refused (h : m.Stores layer) {entry : WalEntry}
    (hnot : ¬EntryApplies env layer entry) (entries : List WalEntry) :
    ∃ error, m.applyIncrementalSync env now (entry :: entries) = (.error error, m) := by
  rcases @applyEntries_cons C env now m layer h entry entries 0 with
    ⟨hentry, -⟩ | ⟨-, error, heq⟩
  · exact absurd hentry hnot
  · refine ⟨error, ?_⟩
    simp only [applyIncrementalSync, heq]

end SyncManager

end VedDb
