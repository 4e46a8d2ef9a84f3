import VedDb.Replication.Slave

/-!
# The sequence of a slave

A slave keeps the sequence it is at, and its store should be what the operations of its master up to
that sequence make.  Nothing checks that a message continues the sequence: `apply_incremental_sync`
applies the entries it is given, and takes over the number of the last one.  `Orderly` is the
condition on a message, and on the slave that receives it, under which nothing is lost.
-/

namespace VedDb

open LittleEndian (Bytes)
open PersistentLayer (makeDocumentKey)

variable {C : Type}

theorem ReadsAlike.layerAfter {env : ReplicationEnv C} {a b : PersistentLayer}
    (h : ReadsAlike env.json a b) (entries : List WalEntry) :
    ReadsAlike env.json (layerAfter env a entries) (layerAfter env b entries) := by
  induction entries generalizing a b with
  | nil => exact h
  | cons entry entries ih =>
    apply ih
    intro collection id
    have hstep (layer : PersistentLayer) :=
      decoded_replicaOperation env.storage 0 layer entry.operation (makeDocumentKey collection id)
    exact (hstep a).trans ((congrArg (entry.operation.readAfter env.json _ ·)
      (h collection id)).trans (hstep b).symm)

namespace SyncManager

variable (env : ReplicationEnv C) (history : List WalEntry)

/-- The node has applied these entries of the history, no others, and is at the last of them. -/
def HasApplied (m : SyncManager C) (applied : List WalEntry) : Prop :=
  AppliedUpTo history m.currentSequence applied ∧
    ∃ layer, m.Stores layer ∧ ReadsAlike env.json layer (layerAfter env .empty applied)

/-- The store is what the operations of the history up to the current sequence make. -/
def InStep (m : SyncManager C) : Prop := ∃ applied, m.HasApplied env history applied

def Continues (m : SyncManager C) (entries : List WalEntry) : Prop :=
  ∃ applied, m.HasApplied env history applied ∧ (applied ++ entries) <+: history

end SyncManager

/-- What is asked of a slave that receives a message. -/
structure Keeps (env : ReplicationEnv C) (history : List WalEntry) (s : Slave C)
    (event : SlaveEvent) : Prop where
  sequence_le : s.manager.currentSequence ≤ (s.step env event).manager.currentSequence
  rejects : ∀ now entries, event = .message now (.incrementalSync entries) →
    ¬s.manager.Continues env history entries →
      s.step env event = { manager := s.manager, streaming := false }
  inStep : (s.step env event).manager.InStep env history

/-- The message does not ask for the checks the slave does not make. -/
inductive Orderly (env : ReplicationEnv C) (history : List WalEntry) (s : Slave C) :
    SlaveEvent → Prop
  -- the next entries of the history, all of which can be applied
  | batch {now : DateTime} {entries : List WalEntry} {layer : PersistentLayer}
      (hstores : s.manager.Stores layer) (hcontinues : s.manager.Continues env history entries)
      (happlies : BatchApplies env layer entries) :
      Orderly env history s (.message now (.incrementalSync entries))
  -- entries of which the first cannot be applied
  | refused {now : DateTime} {entry : WalEntry} {entries : List WalEntry}
      {layer : PersistentLayer} (hstores : s.manager.Stores layer)
      (hnot : ¬EntryApplies env layer entry) :
      Orderly env history s (.message now (.incrementalSync (entry :: entries)))
  -- the snapshot of a master in step with the history, not behind the slave
  | snapshot {now made : DateTime} {header : SnapshotHeader} {snapshotData : Bytes}
      {master : SyncManager C} {masterLayer layer : PersistentLayer}
      (hmaster : master.Stores masterLayer) (hstores : s.manager.Stores layer)
      (hinStep : master.InStep env history)
      (hreproduces : Reproduces env.snapshot made masterLayer master.currentSequence)
      (hsent : (master.fullSyncMessage env made).1 = .ok (.fullSync header snapshotData))
      (hnewer : s.manager.currentSequence ≤ master.currentSequence)
      (htransport : Transportable env.snapshot made masterLayer)
      (hcovers : SnapshotCovers env.snapshot made masterLayer layer) :
      Orderly env history s (.message now (.fullSync header snapshotData))
  -- a snapshot that cannot be decompressed
  | undecodable {now : DateTime} {header : SnapshotHeader} {snapshotData : Bytes} {e : String}
      (hdecompress : env.zstd.decompress snapshotData = .error e) :
      Orderly env history s (.message now (.fullSync header snapshotData))
  -- a snapshot outside of the response to the slave's request
  | unexpected {now : DateTime} {header : SnapshotHeader} {snapshotData : Bytes}
      (hstreaming : s.streaming = true) :
      Orderly env history s (.message now (.fullSync header snapshotData))
  | other {now : DateTime} {message : ReplicationMessage}
      (hfull : ∀ header snapshotData, message ≠ .fullSync header snapshotData)
      (hbatch : ∀ entries, message ≠ .incrementalSync entries) :
      Orderly env history s (.message now message)
  | disconnected : Orderly env history s .disconnected

/-! ## Numbers -/

-- A part of the history up to one of its entries, by the numbers.
theorem filter_le_of_append {init rest : List WalEntry} {last : WalEntry}
    (hincreasing : (init ++ last :: rest).Pairwise fun a b => a.sequence < b.sequence) :
    (init ++ last :: rest).filter (fun entry => entry.sequence ≤ last.sequence) =
      init ++ [last] := by
  rw [List.pairwise_append, List.pairwise_cons] at hincreasing
  obtain ⟨-, ⟨hrest, -⟩, hinit⟩ := hincreasing
  have hbefore : init.filter (fun entry => entry.sequence ≤ last.sequence) = init := by
    rw [List.filter_eq_self]
    intro entry hentry
    exact decide_eq_true (Nat.le_of_lt (hinit entry hentry last List.mem_cons_self))
  have hafter : rest.filter (fun entry => entry.sequence ≤ last.sequence) = [] := by
    rw [List.filter_eq_nil_iff]
    intro entry hentry
    rw [decide_eq_true_eq, Nat.not_le]
    exact hrest entry hentry
  rw [List.filter_append, hbefore, List.filter_cons_of_pos (by simp), hafter]

-- The next entries lead to the number of the last one, which is not below the one before.
theorem AppliedUpTo.append {history applied entries : List WalEntry} {sequence : Nat}
    (hincreasing : history.Pairwise fun a b => a.sequence < b.sequence)
    (h : AppliedUpTo history sequence applied) (hnextEntries : (applied ++ entries) <+: history) :
    AppliedUpTo history (if 0 < lastSequence entries then lastSequence entries else sequence)
        (applied ++ entries) ∧
      sequence ≤ if 0 < lastSequence entries then lastSequence entries else sequence := by
  rcases List.eq_nil_or_concat entries with rfl | ⟨init, last, hconcat⟩
  · rw [List.append_nil]
    exact ⟨h, Nat.le_refl _⟩
  · rw [List.concat_eq_append] at hconcat
    subst hconcat
    have hlast : lastSequence (init ++ [last]) = last.sequence := by
      simp [lastSequence]
    obtain ⟨rest, hrest⟩ := hnextEntries
    have hhistory : (applied ++ init) ++ last :: rest = history := by
      rw [← hrest]
      simp only [List.append_assoc, List.cons_append, List.nil_append]
    have hupTo : history.filter (fun entry => entry.sequence ≤ last.sequence) =
        applied ++ (init ++ [last]) := by
      rw [← hhistory] at hincreasing
      rw [← hhistory, filter_le_of_append hincreasing, List.append_assoc]
    rw [hlast]
    rcases h with happlied | ⟨hzero, happlied⟩
    · -- the last entry is not among those the slave has
      have hlt : sequence < last.sequence := by
        by_cases hle : last.sequence ≤ sequence
        · have hmem : last ∈ applied := by
            rw [happlied, List.mem_filter, ← hhistory]
            exact ⟨List.mem_append_right _ List.mem_cons_self, decide_eq_true hle⟩
          rw [← hhistory, List.pairwise_append] at hincreasing
          have hself := hincreasing.2.2 last (List.mem_append_left _ hmem) last List.mem_cons_self
          omega
        · omega
      rw [if_pos (by omega)]
      exact ⟨.inl hupTo.symm, Nat.le_of_lt hlt⟩
    · by_cases hpos : 0 < last.sequence
      · rw [if_pos hpos]
        exact ⟨.inl hupTo.symm, by omega⟩
      · have hsame : last.sequence = sequence := by omega
        rw [if_neg hpos, ← hsame]
        exact ⟨.inl hupTo.symm, Nat.le_refl _⟩

/-! ## One message -/

section

variable {env : ReplicationEnv C} {history : List WalEntry} {s : Slave C}

-- A batch is handled the same way in the response and in the stream.
theorem Slave.step_incrementalSync (now : DateTime) (entries : List WalEntry) :
    s.step env (.message now (.incrementalSync entries)) =
      { manager := (s.manager.applyIncrementalSync env now entries).2
        streaming := match (s.manager.applyIncrementalSync env now entries).1 with
          | .error _ => false
          | .ok _ => true } := by
  rcases hresult : s.manager.applyIncrementalSync env now entries with ⟨e | last, m⟩
  · by_cases hstreaming : s.streaming = true
    · simp only [Slave.step, if_pos hstreaming, SyncManager.handleStreamMessage, hresult]
    · simp only [Slave.step, if_neg hstreaming, SyncManager.handleSyncResponse, hresult]
  · by_cases hstreaming : s.streaming = true
    · simp only [Slave.step, if_pos hstreaming, SyncManager.handleStreamMessage, hresult]
    · simp only [Slave.step, if_neg hstreaming, SyncManager.handleSyncResponse, hresult]

-- The next entries, applied.
theorem SyncManager.HasApplied.batch
    (hincreasing : history.Pairwise fun a b => a.sequence < b.sequence)
    {m : SyncManager C} {applied entries : List WalEntry} {layer : PersistentLayer}
    (h : m.HasApplied env history applied) (hstores : m.Stores layer)
    (hnextEntries : (applied ++ entries) <+: history) (happlies : BatchApplies env layer entries)
    (now : DateTime) :
    (m.applyIncrementalSync env now entries).2.HasApplied env history (applied ++ entries) ∧
      m.currentSequence ≤ (m.applyIncrementalSync env now entries).2.currentSequence := by
  obtain ⟨hupTo, own, hown, hreads⟩ := h
  obtain ⟨hupTo', hle⟩ := hupTo.append hincreasing hnextEntries
  rcases @SyncManager.applyIncrementalSync_cases C env now m layer hstores entries with
    ⟨-, m', heq, hstores', hsequence⟩ | ⟨hnot, -⟩
  · rw [heq]
    dsimp only
    rw [hsequence]
    refine ⟨⟨?_, layerAfter env layer entries, hstores', ?_⟩, hle⟩
    · rw [hsequence]
      exact hupTo'
    · have hsame : layer = own := by
        obtain ⟨storage, hstorage, -, hlayer⟩ := hstores.engine
        obtain ⟨storage', hstorage', -, hlayer'⟩ := hown.engine
        rw [hstorage, Option.some.injEq] at hstorage'
        rw [← hlayer, ← hlayer', hstorage']
      have happend : layerAfter env .empty (applied ++ entries) =
          layerAfter env (layerAfter env .empty applied) entries := by
        simp only [layerAfter, List.foldl_append]
      rw [happend, hsame]
      exact hreads.layerAfter entries
  · exact absurd happlies hnot

-- The snapshot of a master in step, applied.
theorem SyncManager.HasApplied.snapshot (hzstd : env.zstd.Faithful) {now made : DateTime}
    {m master : SyncManager C} {masterLayer layer : PersistentLayer} {header : SnapshotHeader}
    {snapshotData content : Bytes} (hmaster : master.Stores masterLayer)
    (hstores : m.Stores layer) {applied : List WalEntry}
    (h : master.HasApplied env history applied)
    (hreproduces : Reproduces env.snapshot made masterLayer master.currentSequence)
    (hsent : (master.fullSyncMessage env made).1 = .ok (.fullSync header snapshotData))
    (htransport : Transportable env.snapshot made masterLayer)
    (hcovers : SnapshotCovers env.snapshot made masterLayer layer)
    (hdecompress : env.zstd.decompress snapshotData = .ok content) :
    ∃ m', m.applyFullSync env now header snapshotData = (.ok (), m') ∧
      m'.HasApplied env history applied ∧ m'.currentSequence = master.currentSequence := by
  obtain ⟨-, made', hcreate, hcompress⟩ := hmaster.fullSyncMessage_sent hreproduces hsent
  have hcontent : content = made' := hzstd _ _ _ hcompress hdecompress
  rw [← hcontent] at hcreate
  rcases applyFullSync_createSnapshot env now header hcreate hreproduces hstores hdecompress with
    ⟨hnot, -⟩ | ⟨-, after, m', hafter, happly, -, -⟩
  · exact absurd htransport hnot
  · have hequals := (applyFullSync_equals_iff hzstd hmaster hstores hreproduces hsent
      (by rw [happly])).mpr hcovers
    rw [happly] at hequals
    obtain ⟨hsequence, hreads⟩ := hequals
    refine ⟨m', happly, ⟨?_, after, hafter, ?_⟩, hsequence⟩
    · rw [hsequence]
      exact h.1
    · obtain ⟨-, own, hown, halike⟩ := h
      intro collection id
      have hread := hreads 0 collection id
      rw [hafter.getDocument, hown.getDocument, PersistentLayer.getDocument_eq_iff] at hread
      exact hread.trans (halike collection id)

-- Only batches and the snapshot in a response change the manager.
theorem Slave.step_other (now : DateTime) {message : ReplicationMessage}
    (hfull : ∀ header snapshotData, message ≠ .fullSync header snapshotData)
    (hbatch : ∀ entries, message ≠ .incrementalSync entries) :
    (s.step env (.message now message)).manager = s.manager := by
  by_cases hstreaming : s.streaming = true
  · simp only [Slave.step, if_pos hstreaming]
    cases message with
    | incrementalSync entries => exact absurd rfl (hbatch entries)
    | fullSync header snapshotData => rfl
    | syncRequest lastSequence slaveId => rfl
    | heartbeat timestamp currentSequence => rfl
    | ack sequence status => rfl
    | error code text => rfl
    | promoteToMaster authToken => rfl
    | masterShutdown reason => rfl
  · simp only [Slave.step, if_neg hstreaming]
    cases message with
    | incrementalSync entries => exact absurd rfl (hbatch entries)
    | fullSync header snapshotData => exact absurd rfl (hfull header snapshotData)
    | syncRequest lastSequence slaveId => rfl
    | heartbeat timestamp currentSequence => rfl
    | ack sequence status => rfl
    | error code text => rfl
    | promoteToMaster authToken => rfl
    | masterShutdown reason => rfl

theorem Slave.step_streaming_fullSync (now : DateTime) (header : SnapshotHeader)
    (snapshotData : Bytes) (hstreaming : s.streaming = true) :
    (s.step env (.message now (.fullSync header snapshotData))).manager = s.manager := by
  simp only [Slave.step, if_pos hstreaming, SyncManager.handleStreamMessage]

theorem Slave.step_undecodable (now : DateTime) (header : SnapshotHeader) {snapshotData : Bytes}
    {e : String} (hdecompress : env.zstd.decompress snapshotData = .error e) :
    (s.step env (.message now (.fullSync header snapshotData))).manager = s.manager := by
  by_cases hstreaming : s.streaming = true
  · exact Slave.step_streaming_fullSync now header snapshotData hstreaming
  · simp only [Slave.step, if_neg hstreaming, SyncManager.handleSyncResponse,
      SyncManager.applyFullSync, hdecompress]

theorem Keeps.of_unchanged {event : SlaveEvent} (h : s.manager.InStep env history)
    (hsame : (s.step env event).manager = s.manager)
    (hbatch : ∀ now entries, event ≠ .message now (.incrementalSync entries)) :
    Keeps env history s event where
  sequence_le := by rw [hsame]
  rejects now entries hevent := absurd hevent (hbatch now entries)
  inStep := by rwa [hsame]

theorem Orderly.keeps (hzstd : env.zstd.Faithful)
    (hincreasing : history.Pairwise fun a b => a.sequence < b.sequence) {event : SlaveEvent}
    (h : s.manager.InStep env history) (horderly : Orderly env history s event) :
    Keeps env history s event := by
  cases horderly with
  | @batch now entries layer hstores hcontinues happlies =>
    obtain ⟨applied, hhas, hnextEntries⟩ := id hcontinues
    obtain ⟨hhas', hle⟩ := hhas.batch hincreasing hstores hnextEntries happlies now
    refine ⟨?_, ?_, ?_⟩
    · rw [Slave.step_incrementalSync]
      exact hle
    · intro now' entries' hevent hnot
      cases hevent
      exact absurd hcontinues hnot
    · rw [Slave.step_incrementalSync]
      exact ⟨_, hhas'⟩
  | @refused now entry entries layer hstores hnot =>
    obtain ⟨error, heq⟩ :=
      @SyncManager.applyIncrementalSync_refused C env now s.manager layer hstores entry hnot
        entries
    have hstep := @Slave.step_incrementalSync C env s now (entry :: entries)
    rw [heq] at hstep
    refine ⟨?_, ?_, ?_⟩
    · rw [hstep]
    · intro _ _ _ _
      exact hstep
    · rw [hstep]
      exact h
  | @snapshot now made header snapshotData master masterLayer layer hmaster hstores hinStep
      hreproduces hsent hnewer htransport hcovers =>
      by_cases hstreaming : s.streaming = true
      · exact .of_unchanged h (Slave.step_streaming_fullSync now header _ hstreaming) nofun
      · cases hdecompress : env.zstd.decompress snapshotData with
        | error e => exact .of_unchanged h (Slave.step_undecodable now header hdecompress) nofun
        | ok content =>
          obtain ⟨applied, hhas⟩ := hinStep
          obtain ⟨m', happly, hhas', hsequence⟩ := @SyncManager.HasApplied.snapshot C env history
            hzstd now made s.manager master masterLayer layer header snapshotData content
            hmaster hstores applied hhas hreproduces hsent htransport hcovers hdecompress
          have hstep : s.step env (.message now (.fullSync header snapshotData)) =
              { manager := m', streaming := true } := by
            simp only [Slave.step, if_neg hstreaming, SyncManager.handleSyncResponse, happly]
          refine ⟨?_, nofun, ?_⟩
          · rw [hstep, hsequence]
            exact hnewer
          · rw [hstep]
            exact ⟨applied, hhas'⟩
  | @undecodable now header snapshotData e hdecompress =>
    exact .of_unchanged h (Slave.step_undecodable now header hdecompress) nofun
  | @unexpected now header snapshotData hstreaming =>
    exact .of_unchanged h (Slave.step_streaming_fullSync now header _ hstreaming) nofun
  | @other now message hfull hbatch =>
    refine .of_unchanged h (Slave.step_other now hfull hbatch) ?_
    intro now' entries hevent
    cases hevent
    exact hbatch entries rfl
  | disconnected => exact .of_unchanged h rfl nofun

end

/-! ## Every message -/

/-- In every run whose messages are all orderly, delivered in any order and over any number of
connections, the sequence of the slave never decreases, a batch that does not continue it is
rejected with nothing applied, and its store is what the operations of the master up to its sequence
make. -/
theorem orderly_run_keeps {env : ReplicationEnv C} {history : List WalEntry} {s : Slave C}
    {events : List SlaveEvent} (hzstd : env.zstd.Faithful)
    (hincreasing : history.Pairwise fun a b => a.sequence < b.sequence)
    (hstart : s.manager.InStep env history)
    (horderly : MeetsAlong (Slave.step env) (Orderly env history) s events) :
    MeetsAlong (Slave.step env) (Keeps env history) s events ∧
      (s.run env events).manager.InStep env history := by
  induction events generalizing s with
  | nil => exact ⟨trivial, hstart⟩
  | cons event events ih =>
    have hkeeps := horderly.1.keeps hzstd hincreasing hstart
    obtain ⟨hrest, hend⟩ := ih hkeeps.inStep horderly.2
    exact ⟨⟨hkeeps, hrest⟩, hend⟩

theorem start_inStep (env : ReplicationEnv C) (history : List WalEntry) (cacheLayer : C)
    (walDir : WalDir) : (Slave.start cacheLayer walDir).manager.InStep env history :=
  ⟨[], .inr ⟨rfl, rfl⟩, .empty, ⟨_, rfl, HybridStorageEngine.plain_new cacheLayer .empty, rfl⟩,
    fun _ _ => rfl⟩

/-! ## Two small runs -/

-- Dropping a collection cannot fail.
theorem batchApplies_drops {env : ReplicationEnv C} {entries : List WalEntry}
    (h : ∀ entry ∈ entries, env.wal.verifyChecksum entry = .ok true ∧
      ∃ name, entry.operation = .dropCollection name) (layer : PersistentLayer) :
    BatchApplies env layer entries := by
  induction entries generalizing layer with
  | nil => trivial
  | cons entry entries ih =>
    obtain ⟨hverify, name, hoperation⟩ := h entry List.mem_cons_self
    refine ⟨⟨hverify, ?_⟩, ih (fun other hother => h other (List.mem_cons_of_mem _ hother)) _⟩
    rw [hoperation]
    trivial

/-- Three drops of the collection `users`, and a slave that was never connected. -/
def threeDrops : List WalEntry := (droppingLog 3).history

def freshSlave : Slave Unit := .start () []

def delivered (entries : List WalEntry) : SlaveEvent := .message 0 (.incrementalSync entries)

theorem threeDrops_eq : threeDrops = [0, 1, 2].map droppedUsers := by
  apply map_droppedUsers_of_views
  decide +kernel

theorem threeDrops_drops : ∀ entry ∈ threeDrops,
    epochReplication.wal.verifyChecksum entry = .ok true ∧
      ∃ name, entry.operation = .dropCollection name := by
  intro entry hentry
  rw [threeDrops_eq, List.mem_map] at hentry
  obtain ⟨sequence, -, rfl⟩ := hentry
  exact ⟨dropCodec_sealed sequence, "users", rfl⟩

theorem threeDrops_increasing :
    threeDrops.Pairwise fun a b => a.sequence < b.sequence := by
  decide +kernel

-- The first entries in the response, the others in the stream.
theorem drops_orderly {history : List WalEntry}
    (hincreasing : history.Pairwise fun a b => a.sequence < b.sequence)
    (h : ∀ entry ∈ history, epochReplication.wal.verifyChecksum entry = .ok true ∧
      ∃ name, entry.operation = .dropCollection name) (n : Nat) :
    MeetsAlong (Slave.step epochReplication) (Orderly epochReplication history) freshSlave
      [delivered (history.take n), delivered (history.drop n)] := by
  have hempty : freshSlave.manager.Stores .empty :=
    ⟨_, rfl, HybridStorageEngine.plain_new () .empty, rfl⟩
  have hfresh : freshSlave.manager.HasApplied epochReplication history [] :=
    ⟨.inr ⟨rfl, rfl⟩, .empty, hempty, fun _ _ => rfl⟩
  have hfirst : BatchApplies epochReplication .empty (history.take n) :=
    batchApplies_drops (fun entry hentry => h entry (List.mem_of_mem_take hentry)) _
  obtain ⟨hone, -⟩ := hfresh.batch hincreasing hempty (List.take_prefix n history) hfirst 0
  rw [List.nil_append] at hone
  obtain ⟨layer, hstores, -⟩ := hone.2
  have hsecond : BatchApplies epochReplication layer (history.drop n) :=
    batchApplies_drops (fun entry hentry => h entry (List.mem_of_mem_drop hentry)) _
  refine ⟨.batch hempty ⟨[], hfresh, List.take_prefix n history⟩ hfirst, ?_, trivial⟩
  rw [delivered, Slave.step_incrementalSync]
  refine .batch hstores ⟨history.take n, hone, [], ?_⟩ hsecond
  rw [List.append_nil, List.take_append_drop]

theorem threeDrops_run_keeps :
    MeetsAlong (Slave.step epochReplication) (Keeps epochReplication threeDrops) freshSlave
        [delivered (threeDrops.take 1), delivered (threeDrops.drop 1)] ∧
      (freshSlave.run epochReplication [delivered (threeDrops.take 1),
        delivered (threeDrops.drop 1)]).manager.InStep epochReplication threeDrops :=
  orderly_run_keeps storedZstd_faithful threeDrops_increasing
    (start_inStep epochReplication threeDrops () [])
    (drops_orderly threeDrops_increasing threeDrops_drops 1)

-- A batch that the slave has already applied takes its sequence back from 2 to 1.
theorem stale_batch_decreases_sequence :
    freshSlave.manager.InStep epochReplication threeDrops ∧
      ¬MeetsAlong (Slave.step epochReplication) (Keeps epochReplication threeDrops) freshSlave
        [delivered threeDrops, delivered ((threeDrops.drop 1).take 1)] := by
  refine ⟨start_inStep epochReplication threeDrops () [], ?_⟩
  intro ⟨_, hstale, _⟩
  have hle := hstale.sequence_le
  have hbefore : (freshSlave.step epochReplication
      (delivered threeDrops)).manager.currentSequence = 2 := by
    decide +kernel
  have hafter : ((freshSlave.step epochReplication (delivered threeDrops)).step epochReplication
      (delivered ((threeDrops.drop 1).take 1))).manager.currentSequence = 1 := by
    decide +kernel
  omega

end VedDb
