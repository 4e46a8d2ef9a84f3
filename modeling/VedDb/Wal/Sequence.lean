import VedDb.Wal.Writer

/-!
# Sequence numbers over restarts

A run of the log is any list of appends, flushes, compactions, restarts and crashes.  The numbers
its appends are given grow for as long as no restart happens while `0` is the newest number, no
crash loses a written frame, and every logged entry can be read back.

The restart is where the numbers can repeat: the next number is recovered from the files, and
`scan_existing_wals` takes a highest sequence of `0` for an empty log.
-/

namespace VedDb

open LittleEndian

inductive WalCommand where
  | append (now : DateTime) (operation : Operation)
  | flush
  | compact (beforeSequence : Nat)
  | restart (config : WalConfig)
  | crash (lost : Nat) (config : WalConfig)

/-- A writer and the sequence numbers its appends have returned so far, oldest first. -/
structure WalRun where
  writer : WalWriter
  assigned : List Nat

namespace WalRun

variable (codec : WalCodec)

/-- A writer opened on an empty directory. -/
def start (config : WalConfig) : WalRun :=
  { writer := WalWriter.new codec config [], assigned := [] }

def step (s : WalRun) : WalCommand → WalRun
  | .append now operation =>
    match s.writer.append codec now operation with
    | (.ok sequence, writer) => { writer := writer, assigned := s.assigned ++ [sequence] }
    | (.error _, writer) => { s with writer := writer }
  | .flush => { s with writer := s.writer.flush }
  | .compact beforeSequence => { s with writer := (s.writer.compact codec beforeSequence).2 }
  | .restart config => { s with writer := s.writer.restart codec config }
  | .crash lost config => { s with writer := s.writer.crash codec lost config }

def run (s : WalRun) (commands : List WalCommand) : WalRun := commands.foldl (step codec) s

/-- What has to hold before a command for the numbers to keep growing.  An operation must read
back from the log, and a restart must not find `0` as the newest number or miss bytes of it. -/
def Safe (s : WalRun) : WalCommand → Prop
  | .append now operation => WalWriter.Loggable codec now operation
  | .flush => True
  | .compact _ => True
  | .restart _ => s.assigned.getLast? ≠ some 0
  | .crash lost _ => s.assigned.getLast? ≠ some 0 ∧ min lost s.writer.unsynced = 0

def SafeRun : WalRun → List WalCommand → Prop
  | _, [] => True
  | s, command :: commands => Safe codec s command ∧ SafeRun (step codec s command) commands

/-! ## The invariant -/

/-- The state after at most `n` commands of a safe run.  The open file is the newest one, and the
newest number is always that of an entry in it: compaction never removes that file. -/
structure Inv (s : WalRun) (n : Nat) : Prop where
  sound : s.writer.Sound codec
  file_eq : s.writer.file = s.writer.fileNumber
  file_max : ∀ number ∈ s.writer.dir.map WalFile.number, number ≤ s.writer.fileNumber
  fileNumber_le : s.writer.fileNumber ≤ n
  sequence_le : s.writer.currentSequence ≤ n
  increasing : s.assigned.Pairwise (· < ·)
  assigned_lt : ∀ a ∈ s.assigned, a < s.writer.currentSequence
  logged_assigned : ∀ entry ∈ s.writer.dir.entries codec, entry.sequence ∈ s.assigned
  newest : ∀ a ∈ s.assigned.getLast?, ∃ file ∈ s.writer.dir,
    file.number = s.writer.file ∧ ∃ entry ∈ file.entries codec, entry.sequence = a

variable {codec} {s : WalRun} {n : Nat}

theorem inv_start (config : WalConfig) : Inv codec (start codec config) 0 := by
  have hentries : (start codec config).writer.dir.entries codec = [] := rfl
  refine ⟨WalWriter.sound_new_nil config, rfl, ?_, le_rfl, le_rfl, .nil, ?_, ?_, ?_⟩
  · intro number hnumber
    exact (List.mem_singleton.mp hnumber).le
  · intro a ha
    cases ha
  · intro entry hentry
    rw [hentries] at hentry
    cases hentry
  · intro a ha
    cases ha

theorem Inv.mono {m : Nat} (h : Inv codec s n) (hle : n ≤ m) : Inv codec s m :=
  { h with
    fileNumber_le := h.fileNumber_le.trans hle
    sequence_le := h.sequence_le.trans hle }

theorem Inv.append (h : Inv codec s n) (hn : n + 1 < 2 ^ 64) {now : DateTime}
    {operation : Operation} (hlog : WalWriter.Loggable codec now operation) :
    Inv codec (step codec s (.append now operation)) (n + 1) := by
  have hle := h.sequence_le
  have hseq : (s.writer.currentSequence + 1) % 2 ^ 64 = s.writer.currentSequence + 1 :=
    Nat.mod_eq_of_lt (by omega)
  have hgrow : ∀ a ∈ s.assigned, a < s.writer.currentSequence + 1 := fun a ha =>
    (h.assigned_lt a ha).trans (Nat.lt_succ_self _)
  rcases s.writer.append_cases hlog (by omega) with
    ⟨e, happend⟩ | ⟨new, bytes, -, hnew, hframes, happend⟩
  · -- the number is used up without being handed out
    simp only [step, happend]
    refine ⟨h.sound.of_dir_eq rfl rfl, h.file_eq, h.file_max,
      h.fileNumber_le.trans (Nat.le_succ n), ?_, h.increasing, ?_, h.logged_assigned, h.newest⟩
    · simpa only [WalWriter.fetchSequence, hseq, Nat.add_le_add_iff_right] using hle
    · simpa only [WalWriter.fetchSequence, hseq] using hgrow
  · -- the frame is in the open file, which may be a fresh one after a rotation
    simp only [step, happend]
    obtain ⟨hsound, hentries, file, hfile, hnumber, hmem⟩ := h.sound.append hframes
    obtain ⟨hfileEq, hfileMax, hfileLe⟩ := WalWriter.makeRoom_newest
      (w := s.writer.fetchSequence) h.file_eq h.file_max (h.fileNumber_le.trans_lt (by omega))
      bytes.length
    refine ⟨hsound, ?_, ?_, ?_, ?_, ?_, ?_, ?_, ?_⟩
    · simpa only [WalWriter.growFileSize, WalWriter.writeFrame_file,
        WalWriter.writeFrame_fileNumber] using hfileEq
    · simpa only [WalWriter.growFileSize, WalWriter.writeFrame_dir, WalDir.modify_numbers,
        WalWriter.writeFrame_fileNumber] using hfileMax
    · simp only [WalWriter.growFileSize, WalWriter.writeFrame_fileNumber]
      exact hfileLe.trans (Nat.succ_le_succ h.fileNumber_le)
    · simpa only [WalWriter.growFileSize, WalWriter.writeFrame_currentSequence,
        WalWriter.makeRoom_currentSequence, WalWriter.fetchSequence, hseq,
        Nat.add_le_add_iff_right] using hle
    · rw [List.pairwise_append]
      refine ⟨h.increasing, List.pairwise_singleton _ _, ?_⟩
      intro a ha b hb
      rw [List.mem_singleton.mp hb]
      exact h.assigned_lt a ha
    · simp only [WalWriter.growFileSize, WalWriter.writeFrame_currentSequence,
        WalWriter.makeRoom_currentSequence, WalWriter.fetchSequence, hseq]
      intro a ha
      rcases List.mem_append.mp ha with ha | ha
      · exact hgrow a ha
      · exact (List.mem_singleton.mp ha).trans_lt (Nat.lt_succ_self _)
    · intro entry hentry
      rcases List.mem_append.mp (hentries.mem_iff.mp hentry) with hold | hentry
      · exact List.mem_append_left _ (h.logged_assigned entry hold)
      · rw [List.mem_singleton.mp hentry, hnew]
        exact List.mem_append_right _ (List.mem_singleton.mpr rfl)
    · intro a ha
      rw [List.getLast?_concat, Option.mem_some] at ha
      exact ⟨file, hfile, hnumber, new, hmem, hnew.trans ha⟩

theorem Inv.compact (h : Inv codec s n) (beforeSequence : Nat) :
    Inv codec (step codec s (.compact beforeSequence)) n := by
  have hsub : (step codec s (.compact beforeSequence)).writer.dir.Sublist s.writer.dir :=
    List.filter_sublist
  -- the open file is never removed, and it holds the newest number
  have hkeep : ∀ file ∈ s.writer.dir, file.number = s.writer.file →
      file ∈ (step codec s (.compact beforeSequence)).writer.dir := by
    intro file hfile hnumber
    refine List.mem_filter.mpr ⟨hfile, ?_⟩
    simp [WalWriter.removable, hnumber, h.file_eq]
  refine ⟨⟨?_, ?_, ?_⟩, h.file_eq, ?_, h.fileNumber_le, h.sequence_le, h.increasing,
    h.assigned_lt, ?_, ?_⟩
  · exact fun file hfile => h.sound.framed file (hsub.subset hfile)
  · exact h.sound.numbers_nodup.sublist (hsub.map _)
  · obtain ⟨file, hfile, hnumber⟩ := List.mem_map.mp h.sound.file_mem
    exact List.mem_map.mpr ⟨file, hkeep file hfile hnumber, hnumber⟩
  · exact fun number hnumber => h.file_max number ((hsub.map _).subset hnumber)
  · intro entry hentry
    obtain ⟨file, hfile, hmem⟩ := List.mem_flatMap.mp hentry
    exact h.logged_assigned entry (List.mem_flatMap.mpr ⟨file, hsub.subset hfile, hmem⟩)
  · intro a ha
    obtain ⟨file, hfile, hnumber, hentry⟩ := h.newest a ha
    exact ⟨file, hkeep file hfile hnumber, hnumber, hentry⟩

theorem Inv.restart (h : Inv codec s n) (hn : n < 2 ^ 64) (config : WalConfig)
    (hsafe : s.assigned.getLast? ≠ some 0) :
    Inv codec (step codec s (.restart config)) n := by
  obtain ⟨hdir, hfile, hnumber, -⟩ := WalWriter.new_of_newest codec
    (h.file_eq ▸ h.sound.file_mem) h.file_max config
  obtain ⟨hle, habove⟩ := WalWriter.scanExistingWals_sequence h.sound.framed
    (fun entry hentry => h.assigned_lt _ (h.logged_assigned entry hentry))
    (h.sequence_le.trans_lt hn)
  simp only [step, WalWriter.restart]
  refine ⟨h.sound.of_dir_eq hdir (hfile.trans h.file_eq.symm), hfile.trans hnumber.symm, ?_,
    hnumber ▸ h.fileNumber_le, hle.trans h.sequence_le, h.increasing, ?_, ?_, ?_⟩
  · rw [hdir, hnumber]
    exact h.file_max
  · intro a ha
    -- the newest number is on disk and not zero, so the scan ends above it
    obtain ⟨last, hlast⟩ := Option.ne_none_iff_exists'.mp
      (fun hnone => List.ne_nil_of_mem ha (List.getLast?_eq_none_iff.mp hnone))
    obtain ⟨file, hmem, -, entry, hentry, rfl⟩ := h.newest last hlast
    have hlogged : entry ∈ s.writer.dir.entries codec :=
      List.mem_flatMap.mpr ⟨file, hmem, hentry⟩
    have htop : entry.sequence < (WalWriter.scanExistingWals codec s.writer.dir).1 := by
      refine habove ⟨entry, hlogged, ?_⟩ entry hlogged
      intro hzero
      rw [hzero] at hlast
      exact hsafe hlast
    refine lt_of_le_of_lt ?_ htop
    obtain ⟨earlier, hassigned⟩ := List.getLast?_eq_some_iff.mp hlast
    have hincreasing := h.increasing
    rw [hassigned, List.pairwise_append] at hincreasing
    rw [hassigned] at ha
    rcases List.mem_append.mp ha with ha | ha
    · exact (hincreasing.2.2 a ha _ (List.mem_singleton.mpr rfl)).le
    · exact (List.mem_singleton.mp ha).le
  · rw [hdir]
    exact h.logged_assigned
  · rw [hdir, hfile, ← h.file_eq]
    exact h.newest

-- One command of a safe run.
theorem Inv.step (h : Inv codec s n) (hn : n + 1 < 2 ^ 64) {command : WalCommand}
    (hsafe : Safe codec s command) : Inv codec (s.step codec command) (n + 1) := by
  cases command with
  | append now operation => exact h.append hn hsafe
  | flush =>
    have hflush : Inv codec (s.step codec .flush) n :=
      ⟨h.sound.of_dir_eq rfl rfl, h.file_eq, h.file_max, h.fileNumber_le, h.sequence_le,
        h.increasing, h.assigned_lt, h.logged_assigned, h.newest⟩
    exact hflush.mono (Nat.le_succ n)
  | compact beforeSequence => exact (h.compact beforeSequence).mono (Nat.le_succ n)
  | restart config => exact (h.restart (by omega) config hsafe).mono (Nat.le_succ n)
  | crash lost config =>
    have heq : s.step codec (.crash lost config) = s.step codec (.restart config) := by
      simp only [WalRun.step, WalWriter.crash_eq_restart hsafe.2]
    rw [heq]
    exact (h.restart (by omega) config hsafe.1).mono (Nat.le_succ n)

theorem Inv.run (h : Inv codec s n) {commands : List WalCommand}
    (hn : n + commands.length < 2 ^ 64) (hsafe : SafeRun codec s commands) :
    Inv codec (s.run codec commands) (n + commands.length) := by
  induction commands generalizing s n with
  | nil => exact h
  | cons command commands ih =>
    rw [List.length_cons] at hn
    have hnext := ih (h.step (by omega) hsafe.1) (by omega) hsafe.2
    rw [List.length_cons, Nat.add_comm commands.length 1, ← Nat.add_assoc]
    exact hnext

end WalRun

/-!
## What was appended

A journal is a writer together with a record of its appends: every entry that was logged, and the
file each entry of a file still there was written into.  The record says what the files are meant to
hold; the readers of the log are compared with it.
-/

structure Journal where
  writer : WalWriter
  /-- The entries in the files of the directory, each with the number of its file. -/
  logged : List (Nat × WalEntry)
  /-- Every entry logged so far, oldest first. -/
  history : List WalEntry

namespace Journal

variable (codec : WalCodec)

/-- A writer opened on an empty directory. -/
def start (config : WalConfig) : Journal :=
  { writer := WalWriter.new codec config [], logged := [], history := [] }

def step (s : Journal) : WalCommand → Journal
  | .append now operation =>
    match WalWriter.sealEntry codec s.writer.currentSequence now operation,
        s.writer.append codec now operation with
    | .ok entry, (.ok _, writer) =>
      { writer := writer, logged := s.logged ++ [(writer.file, entry)],
        history := s.history ++ [entry] }
    | _, (_, writer) => { s with writer := writer }
  | .flush => { s with writer := s.writer.flush }
  | .compact beforeSequence =>
    let writer := (s.writer.compact codec beforeSequence).2
    { s with
      writer := writer
      logged := s.logged.filter fun record => record.1 ∈ writer.dir.map WalFile.number }
  | .restart config => { s with writer := s.writer.restart codec config }
  | .crash lost config => { s with writer := s.writer.crash codec lost config }

def run (s : Journal) (commands : List WalCommand) : Journal := commands.foldl (step codec) s

/-- The entries appended to a file. -/
def writtenTo (s : Journal) (number : Nat) : List WalEntry :=
  (s.logged.filter (fun record => record.1 = number)).map Prod.snd

variable {codec} {s : Journal}

variable (codec) in
-- The record follows the two outcomes of an append.
theorem step_append_cases (s : Journal) (now : DateTime) (operation : Operation) :
    (s.step codec (.append now operation) = { s with writer := s.writer.fetchSequence }) ∨
      ∃ entry bytes, WalWriter.sealEntry codec s.writer.currentSequence now operation = .ok entry ∧
        codec.serializeEntry entry = .ok bytes ∧
        s.step codec (.append now operation) =
          (let writer := ((s.writer.fetchSequence.makeRoom bytes.length).writeFrame
            bytes).growFileSize bytes.length
          { writer := writer, logged := s.logged ++ [(writer.file, entry)],
            history := s.history ++ [entry] }) := by
  rcases s.writer.append_outcome codec now operation with
    ⟨e, happend⟩ | ⟨entry, bytes, hseal, hser, happend⟩
  · left
    cases hseal : WalWriter.sealEntry codec s.writer.currentSequence now operation with
    | error e' => simp only [step, hseal, happend]
    | ok entry => simp only [step, hseal, happend]
  · exact .inr ⟨entry, bytes, hseal, hser, by simp only [step, hseal, happend]⟩

/-! ## The journal and the sequence numbers -/

-- A journal is a run of the log that also remembers its entries.
theorem step_walRun (s : Journal) (command : WalCommand) :
    (WalRun.mk s.writer (s.history.map WalEntry.sequence)).step codec command =
      ⟨(s.step codec command).writer,
        (s.step codec command).history.map WalEntry.sequence⟩ := by
  cases command with
  | append now operation =>
    rcases s.writer.append_outcome codec now operation with
      ⟨e, happend⟩ | ⟨entry, bytes, hseal, hser, happend⟩
    · cases hseal : WalWriter.sealEntry codec s.writer.currentSequence now operation with
      | error e' => simp only [step, WalRun.step, hseal, happend]
      | ok entry => simp only [step, WalRun.step, hseal, happend]
    · obtain ⟨checksum, rfl, -⟩ := WalWriter.sealEntry_eq hseal
      simp only [step, WalRun.step, hseal, happend, List.map_append, List.map_cons, List.map_nil]
  | flush | compact _ | restart _ | crash _ _ => rfl

theorem run_walRun (s : Journal) (commands : List WalCommand) :
    (WalRun.mk s.writer (s.history.map WalEntry.sequence)).run codec commands =
      ⟨(s.run codec commands).writer,
        (s.run codec commands).history.map WalEntry.sequence⟩ := by
  induction commands generalizing s with
  | nil => rfl
  | cons command commands ih =>
    unfold WalRun.run run at ih ⊢
    rw [List.foldl_cons, List.foldl_cons, step_walRun]
    exact ih _

end Journal

end VedDb
