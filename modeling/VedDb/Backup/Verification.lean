import VedDb.Backup.Exactness
import VedDb.Backup.Manager
import VedDb.Snapshot.Grammar

/-!
# Verification of a backup

`verify_backup` of `backup.rs`.  It opens the snapshot and reads its header, 256 bytes with a
checksum over themselves; the records behind the header and the checksum in the footer, which
`load_snapshot` goes through, it never looks at.
-/

namespace VedDb

open LittleEndian

/-- `verify_backup`, on the files of the manager. -/
def BackupManager.verifyBackup (env : SnapshotEnv) (manager : BackupManager)
    (backupPath : String) : Except String Bool :=
  match manager.files[backupPath]? with
  | none =>
    .error ("Cannot open backup file: " ++
      (SnapshotError.notFound
        (backupPath ++ ": No such file or directory (os error 2)")).message)
  | some file =>
    match (SnapshotReader.ofBytes file.content).readHeader env with
    | .ok _ => .ok true
    | .error .checksumMismatch => .ok false
    | .error .invalidMagic => .ok false
    | .error e => .error ("Backup verification failed: " ++ e.message)

/-! ## What a verified backup promises -/

namespace BackupManager

theorem verifyBackup_eq_true_iff (env : SnapshotEnv) {manager : BackupManager} {path : String}
    {file : StoredFile} (hfile : manager.files[path]? = some file) :
    manager.verifyBackup env path = .ok true ↔ HeaderAccepted env file.content := by
  rw [← SnapshotReader.readHeader_eq_ok_iff]
  unfold verifyBackup
  simp only [hfile]
  cases hheader : (SnapshotReader.ofBytes file.content).readHeader env with
  | error e => cases e <;> simp
  | ok header => exact iff_of_true rfl ⟨header.1, header.2, rfl⟩

end BackupManager

/-- What is verified can be loaded into an empty store, and what cannot be loaded is not
verified. -/
def VerifiedMeansLoadable (env : SnapshotEnv) (now : DateTime) (manager : BackupManager)
    (path : String) (content : Bytes) : Prop :=
  (manager.verifyBackup env path = .ok true →
    ∃ walSequence, (loadSnapshot env now content .empty).1 = .ok walSequence) ∧
  ((∃ e, (loadSnapshot env now content .empty).1 = .error e) →
    manager.verifyBackup env path ≠ .ok true)

def managerWith (path : String) (content : Bytes) : BackupManager :=
  { config := { includeWal := true, compress := false, backupDir := "./backups" }
    files := (∅ : Files).insert path ⟨content, 0⟩ }

theorem managerWith_getElem? (path : String) (content : Bytes) :
    (managerWith path content).files[path]? = some ⟨content, 0⟩ :=
  Std.ExtTreeMap.getElem?_insert_self

/-- A verified backup can be loaded exactly when its header is rejected, or what stands behind the
header, which the verification does not read, is complete. -/
theorem verified_backup_loads_iff (env : SnapshotEnv) (now : DateTime) (manager : BackupManager)
    (path : String) (content : Bytes) (created : DateTime)
    (hfile : manager.files[path]? = some ⟨content, created⟩) :
    VerifiedMeansLoadable env now manager path content ↔
      (HeaderAccepted env content → CompleteBehindHeader env content) := by
  have hload := loadSnapshot_alike env now content .empty
  have hok : (∃ walSequence, (loadSnapshot env now content .empty).1 = .ok walSequence) ↔
      SnapshotAccepted env now content :=
    exists_congr hload.eq_ok_iff
  unfold VerifiedMeansLoadable
  rw [hok, loadSnapshot_rejected_iff, snapshotAccepted_iff, Ne,
    BackupManager.verifyBackup_eq_true_iff env hfile]
  constructor
  · intro h haccepted
    exact (h.1 haccepted).2
  · intro h
    exact ⟨fun haccepted => ⟨haccepted, h haccepted⟩,
      fun hrejected haccepted => hrejected ⟨haccepted, h haccepted⟩⟩

theorem usersBackup_complete : CompleteBehindHeader epochEnv usersBackup := by
  have hload : (loadSnapshot epochEnv 0 usersBackup .empty).1 = .ok 5 := by decide +kernel
  have haccepted : SnapshotAccepted epochEnv 0 usersBackup :=
    ⟨5, ((loadSnapshot_alike epochEnv 0 usersBackup .empty).eq_ok_iff 5).mp hload⟩
  exact ((snapshotAccepted_iff epochEnv 0 usersBackup).mp haccepted).2

theorem users_backup_verified :
    VerifiedMeansLoadable epochEnv 0 (managerWith "./backups/a.veddb" usersBackup)
      "./backups/a.veddb" usersBackup :=
  (verified_backup_loads_iff epochEnv 0 (managerWith "./backups/a.veddb" usersBackup)
    "./backups/a.veddb" usersBackup 0 (managerWith_getElem? _ _)).mpr
    fun _ => usersBackup_complete

/-- With the checksum of its footer zeroed, a backup is verified and cannot be loaded. -/
theorem damaged_backup_verified :
    ¬VerifiedMeansLoadable epochEnv 0 (managerWith "./backups/a.veddb" damagedSnapshot)
      "./backups/a.veddb" damagedSnapshot := by
  rintro ⟨hverified, -⟩
  have hread : ((SnapshotReader.ofBytes damagedSnapshot).readHeader epochEnv).toBool = true := by
    decide +kernel
  have hheader : HeaderAccepted epochEnv damagedSnapshot := by
    apply SnapshotReader.readHeader_eq_ok_iff.mp
    cases h : (SnapshotReader.ofBytes damagedSnapshot).readHeader epochEnv with
    | error e => simp [h, Except.toBool] at hread
    | ok header => exact ⟨header.1, header.2, rfl⟩
  have hanswer := (BackupManager.verifyBackup_eq_true_iff epochEnv
    (managerWith_getElem? "./backups/a.veddb" damagedSnapshot)).mpr hheader
  obtain ⟨walSequence, hload⟩ := hverified hanswer
  rw [damaged_snapshot_changes_store.1] at hload
  cases hload

end VedDb
