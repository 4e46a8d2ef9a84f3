import VedDb.Replication.SyncManager
import VedDb.Wal.Retention

/-!
# Incremental synchronisation

What `get_wal_entries_since` finds for a slave that `needs_full_sync` does not send a snapshot.  A
slave reports the sequence of the last entry it applied, and entries above it are sent; a slave that
has applied nothing reports `0` like one that has applied the entry `0`.
-/

namespace VedDb

open LittleEndian (Bytes)

variable {C : Type}

namespace SyncManager

/-! ## Reading the log -/

-- Sorting entries with distinct numbers.
theorem mergeSort_eq_of_perm {l sorted : List WalEntry} (hperm : l.Perm sorted)
    (hincreasing : sorted.Pairwise fun a b => a.sequence < b.sequence) :
    l.mergeSort (fun a b => decide (a.sequence ≤ b.sequence)) = sorted := by
  have hnodup : (sorted.map WalEntry.sequence).Nodup :=
    List.pairwise_map.mpr (hincreasing.imp Nat.ne_of_lt)
  have hmerged := (List.mergeSort_perm l fun a b => decide (a.sequence ≤ b.sequence)).trans hperm
  have hsorted := pairwise_mergeSort_decide (R := fun a b : WalEntry => a.sequence ≤ b.sequence)
    (fun _ _ _ hab hbc => Nat.le_trans hab hbc) (fun _ _ => Nat.le_total _ _) l
  refine List.Perm.eq_of_pairwise ?_ hsorted (hincreasing.imp Nat.le_of_lt) hmerged
  intro a b ha hb hab hba
  exact List.inj_on_of_nodup_map hnodup (hmerged.mem_iff.mp ha) hb (Nat.le_antisymm hab hba)

theorem entriesSince_ok (fromSequence : Nat) (entries : List WalEntry) :
    entriesSince fromSequence (entries.map .ok) =
      .ok (entries.filter fun entry => fromSequence < entry.sequence) := by
  induction entries with
  | nil => rfl
  | cons entry entries ih =>
    rw [List.map_cons, entriesSince, ih, List.filter_cons]
    simp only [decide_eq_true_eq]

theorem collectEntries_ok {codec : WalCodec} {files : List WalFile}
    {entries : WalFile → List WalEntry}
    (h : ∀ file ∈ files, codec.Holds file.content (entries file)) (fromSequence : Nat) :
    collectEntries codec fromSequence files =
      .ok ((files.flatMap entries).filter fun entry => fromSequence < entry.sequence) := by
  induction files with
  | nil => rfl
  | cons file files ih =>
    have hown := (h file List.mem_cons_self).fileResults
    have hrest := ih fun other hother => h other (List.mem_cons_of_mem _ hother)
    simp only [collectEntries, hown, entriesSince_ok, hrest, List.flatMap_cons,
      List.filter_append]

-- Whatever the files hold, only entries above the sequence are returned.
theorem entriesSince_lt {fromSequence : Nat} {results : List (Except WalError WalEntry)}
    {entries : List WalEntry} (h : entriesSince fromSequence results = .ok entries) :
    ∀ entry ∈ entries, fromSequence < entry.sequence := by
  induction results generalizing entries with
  | nil =>
    cases h
    intro entry hentry
    cases hentry
  | cons result results ih =>
    cases result with
    | error e => cases h
    | ok own =>
      rw [entriesSince] at h
      cases hrest : entriesSince fromSequence results with
      | error e =>
        rw [hrest] at h
        cases h
      | ok rest =>
        rw [hrest] at h
        cases h
        by_cases hown : fromSequence < own.sequence
        · rw [if_pos hown, List.forall_mem_cons]
          exact ⟨hown, ih hrest⟩
        · rw [if_neg hown]
          exact ih hrest

theorem collectEntries_lt {codec : WalCodec} {fromSequence : Nat} {files : List WalFile}
    {entries : List WalEntry} (h : collectEntries codec fromSequence files = .ok entries) :
    ∀ entry ∈ entries, fromSequence < entry.sequence := by
  induction files generalizing entries with
  | nil =>
    cases h
    intro entry hentry
    cases hentry
  | cons file files ih =>
    rw [collectEntries] at h
    cases hown : entriesSince fromSequence (WalReader.fileResults codec file.content) with
    | error e =>
      rw [hown] at h
      cases h
    | ok own =>
      cases hrest : collectEntries codec fromSequence files with
      | error e =>
        rw [hown, hrest] at h
        cases h
      | ok rest =>
        rw [hown, hrest] at h
        cases h
        rw [List.forall_mem_append]
        exact ⟨entriesSince_lt hown, ih hrest⟩

theorem getWalEntriesSince_lt {env : ReplicationEnv C} {m : SyncManager C} {fromSequence : Nat}
    {entries : List WalEntry} (h : m.getWalEntriesSince env fromSequence = .ok entries) :
    ∀ entry ∈ entries, fromSequence < entry.sequence := by
  rw [getWalEntriesSince] at h
  cases hcollect : collectEntries env.wal fromSequence (scanWalFiles m.walDir) with
  | error e =>
    rw [hcollect] at h
    cases h
  | ok collected =>
    rw [hcollect] at h
    cases h
    intro entry hentry
    exact collectEntries_lt hcollect entry
      ((List.mergeSort_perm _ _).mem_iff.mp hentry)

theorem nextEntry_holds {codec : WalCodec} {content : Bytes} {entries : List WalEntry}
    (h : codec.Holds content entries) :
    ((WalReader.ofBytes content).nextEntry codec).1 = .ok entries.head? := by
  obtain ⟨frames, hframes, rfl⟩ := h
  cases hframes with
  | nil => rfl
  | cons hframe hrest =>
    rw [List.flatten_cons, WalReader.ofBytes, WalReader.nextEntry_of_frames codec hframe]
    rfl

variable {env : ReplicationEnv C} {m : SyncManager C} {records : List (Nat × WalEntry)}

-- Of the entries the directory keeps, those above the sequence are returned, in order.
theorem getWalEntriesSince_keeps (h : m.walDir.Keeps env.wal records)
    (hincreasing : records.Pairwise fun a b => a.2.sequence < b.2.sequence)
    (fromSequence : Nat) :
    m.getWalEntriesSince env fromSequence =
      .ok ((records.map Prod.snd).filter fun entry => fromSequence < entry.sequence) := by
  have hscan := scanWalFiles_perm m.walDir
  have hcollect := collectEntries_ok
    (fun file hfile => h.holds file (hscan.mem_iff.mp hfile)) fromSequence
  rw [getWalEntriesSince, hcollect]
  dsimp only
  congr 1
  -- the files are read by name, the result is in the order of the numbers
  have hgroup : ((scanWalFiles m.walDir).flatMap fun file =>
      (records.filter fun record => record.1 = file.number).map Prod.snd).Perm
        (records.map Prod.snd) := by
    have hkeys := flatMap_filter_perm h.nodup h.mem
    rw [List.flatMap_map] at hkeys
    refine (hscan.flatMap_right _).trans ?_
    rw [← List.map_flatMap]
    exact hkeys.map Prod.snd
  have hentries : (records.map Prod.snd).Pairwise fun a b => a.sequence < b.sequence := by
    rw [List.pairwise_map]
    exact hincreasing
  exact mergeSort_eq_of_perm (hgroup.filter _) (hentries.filter _)

-- Without a full synchronisation, the first file is empty or starts at or below the sequence.
theorem needsFullSync_false (h : m.walDir.Keeps env.wal records) {number : Nat}
    (hnumber : number ∈ m.walDir.map WalFile.number) {slaveSequence : Nat}
    (hneeds : m.needsFullSync env slaveSequence = .ok false) :
    ∃ first ∈ m.walDir.map WalFile.number, first ∉ records.map Prod.fst ∨
      ∃ record ∈ records, record.2.sequence ≤ slaveSequence := by
  have hscan := scanWalFiles_perm m.walDir
  unfold needsFullSync getAvailableWalRange at hneeds
  split at hneeds
  · cases hneeds
  · cases hfiles : scanWalFiles m.walDir with
    | nil =>
      rw [hfiles] at hscan
      rw [← hscan.nil_eq] at hnumber
      cases hnumber
    | cons first files =>
      have hmem : first ∈ m.walDir := by
        rw [← hscan.mem_iff, hfiles]
        exact List.mem_cons_self
      have hnext := nextEntry_holds (h.holds first hmem)
      refine ⟨first.number, List.mem_map_of_mem hmem, ?_⟩
      cases hentries : records.filter fun record => record.1 = first.number with
      | nil =>
        left
        intro hin
        obtain ⟨record, hrecord, hsame⟩ := List.mem_map.mp hin
        have hfound : record ∈ records.filter fun record => record.1 = first.number :=
          List.mem_filter.mpr ⟨hrecord, by simpa using hsame⟩
        rw [hentries] at hfound
        cases hfound
      | cons record rest =>
        right
        have hrecord : record ∈ records.filter fun record => record.1 = first.number := by
          rw [hentries]
          exact List.mem_cons_self
        refine ⟨record, (List.mem_filter.mp hrecord).1, ?_⟩
        rw [hentries, List.map_cons, List.head?_cons] at hnext
        cases hread : (WalReader.ofBytes first.content).nextEntry env.wal with
        | mk result reader =>
          rw [hread] at hnext
          dsimp only at hnext
          subst hnext
          simp only [hfiles, hread, Except.ok.injEq, decide_eq_false_iff_not,
            Nat.not_lt] at hneeds
          exact hneeds

/-! ## Applying the entries -/

-- A batch that is applied to its end does to the storage what its operations do one by one.
theorem applyEntries_storage {now : DateTime} {entries : List WalEntry} {last last' : Nat}
    {m m' : SyncManager C} {storage : HybridStorageEngine C} (hstorage : m.storage = some storage)
    (hok : applyEntries env now entries last m = (.ok last', m')) :
    m'.storage =
      some (applyWalEntries env.storage now storage (entries.map WalEntry.operation)) := by
  induction entries generalizing m last storage with
  | nil =>
    cases hok
    exact hstorage
  | cons entry entries ih =>
    unfold applyEntries at hok
    cases hverify : env.wal.verifyChecksum entry with
    | error e => simp only [hverify, Prod.mk.injEq, reduceCtorEq, false_and] at hok
    | ok verified =>
      cases verified with
      | false => simp only [hverify, Prod.mk.injEq, reduceCtorEq, false_and] at hok
      | true =>
        simp only [hverify, applyEntry, hstorage] at hok
        rw [List.map_cons, applyWalEntries, List.foldl_cons]
        rcases happly : applyWalEntry env.storage now storage entry.operation with
          ⟨e | done, after⟩
        · simp only [happly, Prod.mk.injEq, reduceCtorEq, false_and] at hok
        · simp only [happly] at hok
          exact ih rfl hok

-- What is left of a batch once its entries are applied: the sequence and the lag.
theorem applyIncrementalSync_of_applied {now : DateTime} {entries : List WalEntry} {last : Nat}
    {m m' : SyncManager C} (hok : applyEntries env now entries 0 m = (.ok last, m')) :
    ∃ lag, m.applyIncrementalSync env now entries =
      (.ok last, { m' with
        currentSequence := if 0 < last then last else m'.currentSequence
        replicationLag := lag }) := by
  simp only [applyIncrementalSync, hok]
  by_cases hpos : 0 < last
  · simp only [if_pos hpos]
    cases entries.getLast? with
    | none => exact ⟨m'.replicationLag, rfl⟩
    | some entry =>
      dsimp only
      generalize lagMs now entry.timestamp = lag
      exact ⟨lag, rfl⟩
  · simp only [if_neg hpos]
    cases entries.getLast? with
    | none => exact ⟨m'.replicationLag, rfl⟩
    | some entry =>
      dsimp only
      generalize lagMs now entry.timestamp = lag
      exact ⟨lag, rfl⟩

theorem applyIncrementalSync_storage {now : DateTime} {entries : List WalEntry} {last : Nat}
    {m m' : SyncManager C} {storage : HybridStorageEngine C} (hstorage : m.storage = some storage)
    (hok : m.applyIncrementalSync env now entries = (.ok last, m')) :
    m'.storage =
      some (applyWalEntries env.storage now storage (entries.map WalEntry.operation)) := by
  rcases happly : applyEntries env now entries 0 m with ⟨e | last', after⟩
  · simp only [applyIncrementalSync, happly, Prod.mk.injEq, reduceCtorEq, false_and] at hok
  · obtain ⟨lag, heq⟩ := applyIncrementalSync_of_applied happly
    rw [heq, Prod.mk.injEq] at hok
    rw [← hok.2, ← applyEntries_storage hstorage happly]

end SyncManager

/-! ## Slaves -/

/-- What a slave at the given sequence has applied: the entries up to it, or nothing at all when it
is fresh. -/
def AppliedUpTo (history : List WalEntry) (slaveSequence : Nat) (applied : List WalEntry) : Prop :=
  applied = history.filter (fun entry => entry.sequence ≤ slaveSequence) ∨
    slaveSequence = 0 ∧ applied = []

def SyncManager.BringsUpToDate (env : ReplicationEnv C) (m : SyncManager C) (slaveSequence : Nat)
    (applied history : List WalEntry) : Prop :=
  ∃ entries, m.getWalEntriesSince env slaveSequence = .ok entries ∧ history = applied ++ entries ∧
    ∀ now storage (slave : SyncManager C) last (slave' : SyncManager C),
      slave.storage =
        some (applyWalEntries env.storage now storage (applied.map WalEntry.operation)) →
      slave.applyIncrementalSync env now entries = (.ok last, slave') →
      slave'.storage =
        some (applyWalEntries env.storage now storage (history.map WalEntry.operation))

theorem filter_le_append_filter_lt {history : List WalEntry}
    (hincreasing : history.Pairwise fun a b => a.sequence < b.sequence) (sequence : Nat) :
    history.filter (fun entry => entry.sequence ≤ sequence) ++
      history.filter (fun entry => sequence < entry.sequence) = history := by
  have hsplit := filter_not_append_filter (p := fun entry : WalEntry =>
    decide (sequence < entry.sequence)) (l := history) ?_
  · have hle : (fun entry : WalEntry => !decide (sequence < entry.sequence)) =
        fun entry => decide (entry.sequence ≤ sequence) := by
      funext entry
      rw [← decide_not]
      exact decide_eq_decide.mpr Nat.not_lt
    rwa [hle] at hsplit
  · refine hincreasing.imp ?_
    intro a b hab ha
    rw [decide_eq_true_eq] at ha ⊢
    exact Nat.lt_trans ha hab

theorem AppliedUpTo.le {history applied : List WalEntry} {slaveSequence : Nat}
    (h : AppliedUpTo history slaveSequence applied) :
    ∀ entry ∈ applied, entry.sequence ≤ slaveSequence := by
  intro entry hentry
  rcases h with heq | ⟨-, heq⟩
  · rw [heq] at hentry
    simpa using (List.mem_filter.mp hentry).2
  · rw [heq] at hentry
    cases hentry

-- Unless a fresh slave misses the entry `0`, the rest of the history is above its sequence.
theorem AppliedUpTo.history_eq {history applied : List WalEntry} {slaveSequence : Nat}
    (h : AppliedUpTo history slaveSequence applied)
    (hincreasing : history.Pairwise fun a b => a.sequence < b.sequence)
    (hfresh : ¬(applied = [] ∧ slaveSequence = 0 ∧ ∃ entry ∈ history, entry.sequence = 0)) :
    history = applied ++ history.filter fun entry => slaveSequence < entry.sequence := by
  rcases h with heq | ⟨hzero, heq⟩
  · rw [heq, filter_le_append_filter_lt hincreasing slaveSequence]
  · have hall : history.filter (fun entry => slaveSequence < entry.sequence) = history := by
      rw [List.filter_eq_self]
      intro entry hentry
      rw [decide_eq_true_eq, hzero]
      exact Nat.pos_of_ne_zero fun hsequence => hfresh ⟨heq, hzero, entry, hentry, hsequence⟩
    rw [hall, heq, List.nil_append]

section

variable {env : ReplicationEnv C} {m : SyncManager C} {s : Journal} {slaveSequence : Nat}
  {applied hidden : List WalEntry}

-- The slave has every entry that is no longer, or not yet, on disk.
theorem needsFullSync_false_covers {removed : List WalEntry} {n : Nat}
    (h : s.Retained env.wal removed n) {shown : List (Nat × WalEntry)}
    (hkeeps : m.walDir.Keeps env.wal shown)
    (hlogged : s.logged.map Prod.snd = shown.map Prod.snd ++ hidden)
    (hnumbers : m.walDir.map WalFile.number = s.writer.dir.map WalFile.number)
    (hempty : ∀ number ∈ m.walDir.map WalFile.number, 0 < number →
      number ∉ shown.map Prod.fst → hidden ≠ [])
    (hneeds : m.needsFullSync env slaveSequence = .ok false)
    (hhidden : ∀ entry ∈ hidden, entry.sequence ≤ slaveSequence) :
    ∀ entry ∈ removed, entry.sequence ≤ slaveSequence := by
  have hincreasing := h.history_increasing
  rw [h.history_eq, List.pairwise_append] at hincreasing
  have hfile : s.writer.file ∈ m.walDir.map WalFile.number := hnumbers ▸ h.recorded.file_mem
  obtain ⟨first, hfirst, hcase⟩ := SyncManager.needsFullSync_false hkeeps hfile hneeds
  intro entry hentry
  have hbelow {later : WalEntry} (hlater : later ∈ shown.map Prod.snd ++ hidden) :
      entry.sequence < later.sequence := hincreasing.2.2 entry hentry later (hlogged ▸ hlater)
  rcases hcase with hnone | ⟨record, hrecord, hle⟩
  · rcases Nat.eq_zero_or_pos first with hzero | hpos
    · rw [h.whole (hnumbers ▸ hzero ▸ hfirst)] at hentry
      cases hentry
    · -- all entries of the first file are in the buffer
      obtain ⟨later, hlater⟩ := List.exists_mem_of_ne_nil _ (hempty first hfirst hpos hnone)
      exact Nat.le_trans (Nat.le_of_lt (hbelow (List.mem_append_right _ hlater)))
        (hhidden later hlater)
  · have hlater : record.2 ∈ shown.map Prod.snd ++ hidden :=
      List.mem_append_left _ (List.mem_map_of_mem hrecord)
    exact Nat.le_trans (Nat.le_of_lt (hbelow hlater)) hle

end

/-! ## Two small logs -/

def dropView (entry : WalEntry) : Option (Nat × DateTime × String × UInt32) :=
  match entry.operation with
  | .dropCollection name => some (entry.sequence, entry.timestamp, name, entry.checksum)
  | _ => none

theorem eq_droppedUsers {entry : WalEntry} {sequence : Nat}
    (h : dropView entry = dropView (droppedUsers sequence)) : entry = droppedUsers sequence := by
  rcases entry with ⟨own, timestamp, operation, checksum⟩
  cases operation with
  | dropCollection name =>
    simp only [dropView, droppedUsers, Option.some.injEq, Prod.mk.injEq] at h
    obtain ⟨rfl, rfl, rfl, rfl⟩ := h
    rfl
  | insert collection id fields => cases h
  | update collection id changes => cases h
  | delete collection id => cases h
  | createCollection name schema => cases h
  | createIndex collection index => cases h
  | dropIndex collection indexName => cases h

theorem map_droppedUsers_of_views {entries : List WalEntry} {sequences : List Nat}
    (h : entries.map dropView = sequences.map fun sequence => dropView (droppedUsers sequence)) :
    entries = sequences.map droppedUsers := by
  induction entries generalizing sequences with
  | nil =>
    cases sequences with
    | nil => rfl
    | cons sequence sequences => cases h
  | cons entry entries ih =>
    cases sequences with
    | nil => cases h
    | cons sequence sequences =>
      rw [List.map_cons, List.map_cons, List.cons.injEq] at h
      rw [List.map_cons, eq_droppedUsers h.1, ih h.2]

/-- The log of a master that dropped the collection `users` some times. -/
def droppingLog (times : Nat) : Journal :=
  (Journal.start dropCodec ⟨.always, 1000⟩).run dropCodec
    (List.replicate times (.append 0 (.dropCollection "users")))

def droppingMaster (times : Nat) : SyncManager Unit :=
  SyncManager.withStorage (droppingLog times).writer.dir (.new () .empty)

theorem droppingLog_logs (times : Nat) :
    ∀ command ∈ List.replicate times (WalCommand.append 0 (.dropCollection "users")),
      Journal.Logs dropCodec command := by
  intro command hcommand
  rw [List.eq_of_mem_replicate hcommand]
  exact WalWriter.dropCodec_loggable

theorem droppingLog_onDisk (times : Nat) (hlt : times < 2 ^ 64) :
    (droppingLog times).OnDisk dropCodec [] (droppingMaster times).walDir := by
  have hrun := (@Journal.retained_start dropCodec ⟨.always, 1000⟩).run
    (droppingLog_logs times) (by rw [List.length_replicate]; omega)
  obtain ⟨removed, hretained⟩ := hrun
  exact hretained.onDisk_nil

end VedDb
