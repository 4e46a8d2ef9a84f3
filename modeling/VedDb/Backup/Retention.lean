import VedDb.Backup.Calls
import VedDb.Lib.Pointwise
import VedDb.Lib.Runs
import VedDb.Lib.StableSort

/-!
# Backup retention

Runs of calls of `create_backup` of one manager.  A backup is finished once its snapshot and its
metadata are under their names; between the two renames `list_backups` shows the snapshot without
its metadata, as a backup of sequence 0.
-/

namespace VedDb

open LittleEndian (Bytes)

/-! ## The backups that are kept -/

/-- A backup whose snapshot and whose metadata are under their names. -/
structure StoredBackup (env : BackupEnv) (config : BackupConfig) (files : Files)
    (backup : FinishedBackup) : Prop where
  path : ∃ stem, IsBackupStem stem ∧
    backup.info.filePath = dirPath config.backupDir stem config.snapshotExtension
  content : ∃ created, files[backup.info.filePath]? = some ⟨backup.content, created⟩
  metadata : ∃ file, files[withExtension backup.info.filePath "meta"]? = some file ∧
    env.fromStr file.content = .ok backup.info

/-- The directory holds these backups under different names, and `list_backups` looks at no other
file. -/
structure HoldsBackups (env : BackupEnv) (config : BackupConfig) (files : Files)
    (kept : List FinishedBackup) : Prop where
  stored : ∀ backup ∈ kept, StoredBackup env config files backup
  distinct : (kept.map fun backup => backup.info.filePath).Nodup
  shown : ∀ entry ∈ BackupManager.backupFiles ⟨config, files⟩,
    entry.1 ∈ kept.map fun backup => backup.info.filePath

theorem mem_backupFiles {config : BackupConfig} (hdir : config.backupDir ≠ "") {files : Files}
    {entry : String × StoredFile} :
    entry ∈ BackupManager.backupFiles ⟨config, files⟩ ↔
      files[entry.1]? = some entry.2 ∧ parentDir entry.1 = withSlash config.backupDir ∧
        (fileExtension (fileName entry.1) = some "veddb" ∨
          fileExtension (fileName entry.1) = some "gz") := by
  unfold BackupManager.backupFiles Files.readDir
  rw [if_neg hdir, List.mem_filter, List.mem_filter,
    Std.ExtTreeMap.mem_toList_iff_getElem?_eq_some]
  simp only [decide_eq_true_eq]
  exact and_assoc

section

variable {env : BackupEnv} {config : BackupConfig} {files files' : Files}
  {backup : FinishedBackup} {kept : List FinishedBackup}

theorem StoredBackup.exists_stem (h : StoredBackup env config files backup) :
    ∃ stem, IsBackupStem stem ∧
      backup.info.filePath = dirPath config.backupDir stem config.snapshotExtension ∧
      withExtension backup.info.filePath "meta" = dirPath config.backupDir stem "meta" := by
  obtain ⟨stem, hstem, hpath⟩ := h.path
  refine ⟨stem, hstem, hpath, ?_⟩
  rw [hpath, withExtension_dirPath hstem.1 config.isExtension_snapshot]

theorem StoredBackup.isShown (h : StoredBackup env config files backup) :
    parentDir backup.info.filePath = withSlash config.backupDir ∧
      (fileExtension (fileName backup.info.filePath) = some "veddb" ∨
        fileExtension (fileName backup.info.filePath) = some "gz") := by
  obtain ⟨stem, hstem, hpath⟩ := h.path
  rw [hpath, parentDir_dirPath hstem.1 config.isExtension_snapshot,
    fileExtension_dirPath hstem.1 config.isExtension_snapshot]
  refine ⟨rfl, ?_⟩
  rcases config.snapshotExtension_cases with heq | heq
  · exact .inr (by rw [heq])
  · exact .inl (by rw [heq])

theorem StoredBackup.congr (h : StoredBackup env config files backup)
    (hfile : files'[backup.info.filePath]? = files[backup.info.filePath]?)
    (hmeta : files'[withExtension backup.info.filePath "meta"]? =
      files[withExtension backup.info.filePath "meta"]?) :
    StoredBackup env config files' backup where
  path := h.path
  content := by
    rw [hfile]
    exact h.content
  metadata := by
    rw [hmeta]
    exact h.metadata

/-- The files of two backups with different names are different. -/
theorem StoredBackup.apart (h : StoredBackup env config files backup) {other : FinishedBackup}
    (hother : StoredBackup env config files' other)
    (hne : backup.info.filePath ≠ other.info.filePath) :
    backup.info.filePath ≠ withExtension other.info.filePath "meta" ∧
      withExtension backup.info.filePath "meta" ≠ other.info.filePath ∧
      withExtension backup.info.filePath "meta" ≠ withExtension other.info.filePath "meta" := by
  obtain ⟨stem, hstem, hpath, hmeta⟩ := h.exists_stem
  obtain ⟨stem', hstem', hpath', hmeta'⟩ := hother.exists_stem
  have hextension : config.snapshotExtension ≠ "meta" :=
    config.snapshotExtension_ne (by decide) (by decide)
  rw [hmeta, hmeta']
  rw [hpath, hpath'] at hne ⊢
  refine ⟨?_, ?_, ?_⟩
  · exact dirPath_ne_of_extension hstem.1 config.isExtension_snapshot hstem'.1 isExtension_meta
      hextension
  · exact dirPath_ne_of_extension hstem.1 isExtension_meta hstem'.1 config.isExtension_snapshot
      hextension.symm
  · intro heq
    exact hne (by rw [stem_inj hstem.1 isExtension_meta hstem'.1 heq])

theorem not_isTemporary_of_shown {path : String} (h : fileExtension (fileName path) = some "veddb" ∨
    fileExtension (fileName path) = some "gz") : ¬IsTemporary path := by
  rw [IsTemporary]
  rcases h with heq | heq
  · rw [heq]
    decide
  · rw [heq]
    decide

theorem StoredBackup.not_isTemporary (h : StoredBackup env config files backup) :
    ¬IsTemporary backup.info.filePath ∧
      ¬IsTemporary (withExtension backup.info.filePath "meta") := by
  obtain ⟨stem, hstem, hpath, hmeta⟩ := h.exists_stem
  constructor
  · exact not_isTemporary_of_shown h.isShown.2
  · rw [IsTemporary, hmeta, fileExtension_dirPath hstem.1 isExtension_meta]
    decide

theorem tails_any_isPrefixOf_iff {text path : List Char} :
    (path.tails.any fun rest => text.isPrefixOf rest) = true ↔ text <:+: path := by
  rw [List.any_eq_true, List.infix_iff_prefix_suffix]
  constructor
  · intro ⟨rest, hrest, hprefix⟩
    exact ⟨rest, List.isPrefixOf_iff_prefix.mp hprefix, (List.mem_tails _ _).mp hrest⟩
  · intro ⟨rest, hprefix, hrest⟩
    exact ⟨rest, (List.mem_tails _ _).mpr hrest, List.isPrefixOf_iff_prefix.mpr hprefix⟩

/-- A backup's path has a `.tmp` in it where the directory's has. -/
theorem StoredBackup.tmp_iff (h : StoredBackup env config files backup) :
    (backup.info.filePath.toList.tails.any fun rest => ".tmp".toList.isPrefixOf rest) = true ↔
      ".tmp".toList <:+: config.backupDir.toList := by
  obtain ⟨stem, hstem, hpath⟩ := h.path
  have hname : 't' ∉ (stem ++ "." ++ config.snapshotExtension).toList := by
    rw [toList_named, List.mem_append, List.mem_cons]
    rintro (hmem | hmem | hmem)
    · exact hstem.2 hmem
    · exact absurd hmem (by decide)
    · revert hmem
      rcases config.snapshotExtension_cases with heq | heq
      · rw [heq]
        decide
      · rw [heq]
        decide
  rw [tails_any_isPrefixOf_iff, hpath]
  exact infix_dirPath_iff (by decide) (by decide) hname

/-! ## Steps that keep the backups -/

theorem HoldsBackups.perm {other : List FinishedBackup} (h : HoldsBackups env config files kept)
    (hperm : kept.Perm other) : HoldsBackups env config files other where
  stored backup hmem := h.stored backup (hperm.mem_iff.mpr hmem)
  distinct := (hperm.map _).nodup_iff.mp h.distinct
  shown entry hmem := (hperm.map _).mem_iff.mp (h.shown entry hmem)

variable (hdir : config.backupDir ≠ "")

include hdir

theorem HoldsBackups.of_same (h : HoldsBackups env config files kept)
    (hsame : SameButTemporary files files') : HoldsBackups env config files' kept where
  stored backup hmem := by
    have hstored := h.stored backup hmem
    exact hstored.congr (hsame _ hstored.not_isTemporary.1) (hsame _ hstored.not_isTemporary.2)
  distinct := h.distinct
  shown entry hmem := by
    rw [mem_backupFiles hdir] at hmem
    rw [hsame _ (not_isTemporary_of_shown hmem.2.2)] at hmem
    exact h.shown entry ((mem_backupFiles hdir).mpr hmem)

/-- A backup goes once its snapshot does, whatever becomes of its metadata. -/
theorem HoldsBackups.tail (h : HoldsBackups env config files (backup :: kept))
    (hgone : files'[backup.info.filePath]? = none)
    (hothers : ∀ path, path ≠ backup.info.filePath →
      path ≠ withExtension backup.info.filePath "meta" → files'[path]? = files[path]?) :
    HoldsBackups env config files' kept := by
  have hbackup := h.stored backup List.mem_cons_self
  have hdistinct := h.distinct
  rw [List.map_cons, List.nodup_cons] at hdistinct
  refine ⟨?_, hdistinct.2, ?_⟩
  · intro other hmem
    have hother := h.stored other (List.mem_cons_of_mem _ hmem)
    have hne : other.info.filePath ≠ backup.info.filePath :=
      fun heq => hdistinct.1 (List.mem_map.mpr ⟨other, hmem, heq⟩)
    obtain ⟨hfile, hmeta, hmetas⟩ := hother.apart hbackup hne
    exact hother.congr (hothers _ hne hfile) (hothers _ hmeta hmetas)
  · intro entry hmem
    rw [mem_backupFiles hdir] at hmem
    have hne : entry.1 ≠ backup.info.filePath := by
      intro heq
      rw [heq, hgone] at hmem
      exact absurd hmem.1 (Option.some_ne_none _).symm
    have hmeta : entry.1 ≠ withExtension backup.info.filePath "meta" := by
      intro heq
      obtain ⟨stem, hstem, -, hpath⟩ := hbackup.exists_stem
      rw [heq, hpath, fileExtension_dirPath hstem.1 isExtension_meta] at hmem
      exact absurd hmem.2.2 (by decide)
    rw [hothers _ hne hmeta] at hmem
    have hshown := h.shown entry ((mem_backupFiles hdir).mpr hmem)
    rw [List.map_cons, List.mem_cons] at hshown
    exact hshown.resolve_left hne

theorem HoldsBackups.deleteBackups {expired : List FinishedBackup}
    (h : HoldsBackups env config files (expired ++ kept)) :
    HoldsBackups env config
      (BackupManager.deleteBackups files (expired.map FinishedBackup.info)) kept := by
  induction expired generalizing files with
  | nil => exact h
  | cons backup expired ih =>
    apply ih
    apply h.tail hdir
    · rw [lookup_erase, lookup_erase]
      simp
    · intro path hfile hmeta
      rw [lookup_erase, lookup_erase, if_neg hmeta.symm, if_neg hfile.symm]

theorem stored_metadataRenamed (henv : env.Documented) {call : BackupCall}
    {content metadata : Bytes}
    (hjson : env.toStringPretty (call.backupInfo env config content) = .ok metadata) :
    StoredBackup env config (call.metadataRenamed env config files content metadata)
      ⟨call.backupInfo env config content, content⟩ where
  path := ⟨_, call.isBackupStem henv config, call.finalBackupPath_eq henv config hdir⟩
  content := by
    refine ⟨call.started, ?_⟩
    show (call.metadataRenamed env config files content metadata)[
      call.finalBackupPath env config]? = _
    rw [call.getElem?_metadataRenamed henv hdir files content metadata
      (call.not_isTemporary_final henv hdir), if_neg (call.finalMeta_ne henv hdir).symm,
      if_pos rfl]
  metadata := by
    refine ⟨⟨metadata, call.created⟩, ?_, henv.fromStr_toStringPretty _ _ hjson⟩
    show (call.metadataRenamed env config files content metadata)[
      call.finalMetaPath env config]? = _
    rw [call.getElem?_metadataRenamed henv hdir files content metadata
      (call.not_isTemporary_finalMeta henv hdir), if_pos rfl]

theorem HoldsBackups.add (henv : env.Documented) (h : HoldsBackups env config files kept)
    {call : BackupCall} {content metadata : Bytes}
    (hjson : env.toStringPretty (call.backupInfo env config content) = .ok metadata)
    (hfresh : files[call.finalBackupPath env config]? = none) :
    HoldsBackups env config (call.metadataRenamed env config files content metadata)
      (kept ++ [⟨call.backupInfo env config content, content⟩]) := by
  have hstored : StoredBackup env config
      (call.metadataRenamed env config files content metadata)
      ⟨call.backupInfo env config content, content⟩ := stored_metadataRenamed hdir henv hjson
  have hothers {path : String} (htemporary : ¬IsTemporary path)
      (hmeta : path ≠ call.finalMetaPath env config)
      (hfile : path ≠ call.finalBackupPath env config) :
      (call.metadataRenamed env config files content metadata)[path]? = files[path]? := by
    rw [call.getElem?_metadataRenamed henv hdir files content metadata htemporary,
      if_neg hmeta.symm, if_neg hfile.symm]
  have hne {backup : FinishedBackup} (hmem : backup ∈ kept) :
      backup.info.filePath ≠ call.finalBackupPath env config := by
    intro heq
    obtain ⟨created, hcontent⟩ := (h.stored backup hmem).content
    rw [heq, hfresh] at hcontent
    exact absurd hcontent (Option.some_ne_none _).symm
  refine ⟨?_, ?_, ?_⟩
  · intro backup hmem
    rw [List.mem_append, List.mem_singleton] at hmem
    rcases hmem with hmem | rfl
    · have hold := h.stored backup hmem
      obtain ⟨hfile, hmeta, hmetas⟩ := hold.apart hstored (hne hmem)
      apply hold.congr
      · exact hothers hold.not_isTemporary.1 hfile (hne hmem)
      · exact hothers hold.not_isTemporary.2 hmetas hmeta
    · exact hstored
  · rw [List.map_append, List.nodup_append]
    refine ⟨h.distinct, List.nodup_singleton _, ?_⟩
    intro path hpath other hother
    obtain ⟨backup, hmem, rfl⟩ := List.mem_map.mp hpath
    rw [List.mem_singleton.mp hother]
    exact hne hmem
  · intro entry hmem
    rw [mem_backupFiles hdir] at hmem
    rw [List.map_append, List.mem_append]
    by_cases hnew : entry.1 = call.finalBackupPath env config
    · exact .inr (List.mem_singleton.mpr hnew)
    · left
      have hmeta : entry.1 ≠ call.finalMetaPath env config := by
        intro heq
        rw [heq, call.finalMetaPath_eq henv config hdir,
          fileExtension_dirPath (call.isBackupStem henv config).1 isExtension_meta] at hmem
        exact absurd hmem.2.2 (by decide)
      rw [hothers (not_isTemporary_of_shown hmem.2.2) hmeta hnew] at hmem
      exact h.shown entry ((mem_backupFiles hdir).mpr hmem)

/-! ## What is listed and what is deleted -/

theorem HoldsBackups.backupFiles_perm (h : HoldsBackups env config files kept) :
    ((BackupManager.backupFiles ⟨config, files⟩).map Prod.fst).Perm
      (kept.map fun backup => backup.info.filePath) := by
  have hkeys : (files.toList.map Prod.fst).Nodup := by
    rw [Std.ExtTreeMap.map_fst_toList_eq_keys]
    exact Std.ExtTreeMap.nodup_keys
  have hsublist : (BackupManager.backupFiles ⟨config, files⟩).Sublist files.toList := by
    unfold BackupManager.backupFiles Files.readDir
    rw [if_neg hdir]
    exact List.filter_sublist.trans List.filter_sublist
  rw [List.perm_ext_iff_of_nodup (hkeys.sublist (hsublist.map _)) h.distinct]
  intro path
  constructor
  · intro hmem
    obtain ⟨entry, hentry, rfl⟩ := List.mem_map.mp hmem
    exact h.shown entry hentry
  · intro hmem
    obtain ⟨backup, hbackup, rfl⟩ := List.mem_map.mp hmem
    have hstored := h.stored backup hbackup
    obtain ⟨created, hcontent⟩ := hstored.content
    refine List.mem_map.mpr ⟨(_, ⟨backup.content, created⟩), ?_, rfl⟩
    exact (mem_backupFiles hdir).mpr ⟨hcontent, hstored.isShown⟩

/-- `list_backups` shows the backups that are held, each by its metadata. -/
theorem HoldsBackups.listBackups_perm (h : HoldsBackups env config files kept) :
    (BackupManager.listBackups env ⟨config, files⟩).Perm (kept.map FinishedBackup.info) := by
  have hinfo {backup : FinishedBackup} (hmem : backup ∈ kept) :
      BackupManager.loadBackupMetadata env ⟨config, files⟩ backup.info.filePath =
        some backup.info := by
    obtain ⟨file, hfile, hread⟩ := (h.stored backup hmem).metadata
    show (files[withExtension backup.info.filePath "meta"]?).bind _ = _
    rw [hfile]
    show (env.fromStr file.content).toOption = _
    rw [hread]
    rfl
  have hpaths := (h.backupFiles_perm hdir).map
    (BackupManager.loadBackupMetadata env ⟨config, files⟩)
  rw [List.map_map, List.map_map] at hpaths
  have hkept : kept.map (BackupManager.loadBackupMetadata env ⟨config, files⟩ ∘
      fun backup => backup.info.filePath) = (kept.map FinishedBackup.info).map some := by
    rw [List.map_map]
    exact List.map_congr_left fun backup hmem => hinfo hmem
  have hentries : (BackupManager.backupFiles ⟨config, files⟩).map
      (BackupManager.loadBackupMetadata env ⟨config, files⟩ ∘ Prod.fst) =
        ((BackupManager.backupFiles ⟨config, files⟩).map
          (BackupManager.backupInfo env ⟨config, files⟩)).map some := by
    rw [List.map_map]
    apply List.map_congr_left
    intro entry hmem
    obtain ⟨backup, hbackup, hpath⟩ := List.mem_map.mp (h.shown entry hmem)
    show BackupManager.loadBackupMetadata env ⟨config, files⟩ entry.1 =
      some ((BackupManager.loadBackupMetadata env ⟨config, files⟩ entry.1).getD _)
    rw [← hpath, hinfo hbackup]
    rfl
  rw [hkept, hentries, List.map_perm_map_iff (Option.some_injective _)] at hpaths
  exact (List.mergeSort_perm _ _).trans hpaths

/-- What `cleanup_old_backups` deletes is the oldest of the backups that are held, all but five, or
nothing where the directory has a `.tmp` in its path. -/
theorem HoldsBackups.exists_toDelete (h : HoldsBackups env config files kept) :
    ∃ (ordered : List FinishedBackup) (count : Nat), ordered.Perm kept ∧
      ordered.Pairwise (fun a b => a.info.createdAt ≤ b.info.createdAt) ∧
      BackupManager.toDelete env ⟨config, files⟩ =
        (ordered.take count).map FinishedBackup.info ∧
      count ≤ kept.length - 5 ∧
      ((".tmp".toList <:+: config.backupDir.toList → kept.length ≤ 5) →
        count = kept.length - 5) := by
  have hlisted := h.listBackups_perm hdir
  have hmarked {info : BackupInfo} (hmem : info ∈ BackupManager.listBackups env ⟨config, files⟩) :
      (info.filePath.toList.tails.any fun rest => ".tmp".toList.isPrefixOf rest) = true ↔
        ".tmp".toList <:+: config.backupDir.toList := by
    obtain ⟨backup, hbackup, rfl⟩ := List.mem_map.mp (hlisted.mem_iff.mp hmem)
    exact (h.stored backup hbackup).tmp_iff
  obtain ⟨ordered, hordered, hmap⟩ :=
    exists_map_eq_of_perm ((List.mergeSort_perm _ fun a b : BackupInfo =>
      decide (a.createdAt ≤ b.createdAt)).trans hlisted)
  have hsorted : (ordered.map FinishedBackup.info).Pairwise
      fun a b => a.createdAt ≤ b.createdAt := by
    rw [hmap]
    apply pairwise_mergeSort_decide
    · intro a b c hab hbc
      exact Int.le_trans hab hbc
    · intro a b
      exact Int.le_total _ _
  rw [List.pairwise_map] at hsorted
  unfold BackupManager.toDelete
  by_cases htmp : ".tmp".toList <:+: config.backupDir.toList
  · have hnone : (BackupManager.listBackups env ⟨config, files⟩).filter (fun backup =>
        !backup.filePath.toList.tails.any fun rest => ".tmp".toList.isPrefixOf rest) = [] := by
      rw [List.filter_eq_nil_iff]
      intro info hmem
      rw [(hmarked hmem).mpr htmp]
      decide
    refine ⟨ordered, 0, hordered, hsorted, ?_, Nat.zero_le _, ?_⟩
    · rw [hnone]
      rfl
    · intro hroom
      have := hroom htmp
      omega
  · have hall : (BackupManager.listBackups env ⟨config, files⟩).filter (fun backup =>
        !backup.filePath.toList.tails.any fun rest => ".tmp".toList.isPrefixOf rest) =
          BackupManager.listBackups env ⟨config, files⟩ := by
      rw [List.filter_eq_self]
      intro info hmem
      rw [Bool.not_eq_true', ← Bool.not_eq_true]
      exact fun hmark => htmp ((hmarked hmem).mp hmark)
    have hlength : (BackupManager.listBackups env ⟨config, files⟩).length = kept.length := by
      rw [hlisted.length_eq, List.length_map]
    refine ⟨ordered, kept.length - 5, hordered, hsorted, ?_, Nat.le_refl _, fun _ => rfl⟩
    rw [hall]
    show ((BackupManager.listBackups env ⟨config, files⟩).mergeSort _).take
      ((BackupManager.listBackups env ⟨config, files⟩).length - 5) = _
    rw [← hmap, hlength, List.map_take]

theorem HoldsBackups.drop (h : HoldsBackups env config files kept) (count : Nat) :
    HoldsBackups env config
      (BackupManager.deleteBackups files ((kept.take count).map FinishedBackup.info))
      (kept.drop count) := by
  apply HoldsBackups.deleteBackups hdir
  rw [List.take_append_drop]
  exact h

/-- A cleanup that is cut off has deleted some of the oldest backups. -/
theorem HoldsBackups.deletedInPart (h : HoldsBackups env config files kept) {count : Nat}
    (hdelete : BackupManager.toDelete env ⟨config, files⟩ =
      (kept.take count).map FinishedBackup.info) (removed : Nat) (half : Bool) :
    ∃ gone ≤ count, HoldsBackups env config
      (BackupManager.deletedInPart env ⟨config, files⟩ removed half) (kept.drop gone) := by
  have hwhole := h.drop hdir (min removed count)
  unfold BackupManager.deletedInPart
  rw [hdelete, ← List.map_take, List.take_take, List.getElem?_map]
  cases hnext : (kept.take count)[removed]? with
  | none => exact ⟨min removed count, Nat.min_le_right _ _, hwhole⟩
  | some backup =>
    cases half with
    | false => exact ⟨min removed count, Nat.min_le_right _ _, hwhole⟩
    | true =>
      obtain ⟨hlt, hget⟩ := List.getElem?_eq_some_iff.mp hnext
      rw [List.length_take] at hlt
      rw [List.getElem_take] at hget
      have hmin : min removed count = removed := by omega
      refine ⟨removed + 1, by omega, ?_⟩
      rw [hmin] at hwhole ⊢
      rw [List.drop_eq_getElem_cons (by omega), hget] at hwhole
      apply hwhole.tail hdir
      · exact Std.ExtTreeMap.getElem?_erase_self
      · intro path hfile _
        show (Std.ExtTreeMap.erase _ backup.info.filePath)[path]? = _
        rw [lookup_erase, if_neg hfile.symm]

end

/-! ## Retention -/

/-- The newest of the finished backups, five at least where there are so many. -/
structure Retained (finished kept : List FinishedBackup) : Prop where
  newest : ∃ removed, finished.Perm (removed ++ kept) ∧
    ∀ old ∈ removed, ∀ new ∈ kept, old.info.createdAt ≤ new.info.createdAt
  enough : min 5 finished.length ≤ kept.length

/-- `list_backups` shows these backups, the newest first, and the snapshot of each is its own. -/
structure ShowsBackups (env : BackupEnv) (config : BackupConfig) (files : Files)
    (kept : List FinishedBackup) : Prop where
  listed : (BackupManager.listBackups env ⟨config, files⟩).Perm (kept.map FinishedBackup.info)
  ordered : (BackupManager.listBackups env ⟨config, files⟩).Pairwise
    fun a b => b.createdAt ≤ a.createdAt
  own : ∀ backup ∈ kept, ∃ created,
    files[backup.info.filePath]? = some ⟨backup.content, created⟩

theorem HoldsBackups.shows {env : BackupEnv} {config : BackupConfig}
    (hdir : config.backupDir ≠ "") {files : Files} {kept : List FinishedBackup}
    (h : HoldsBackups env config files kept) : ShowsBackups env config files kept where
  listed := h.listBackups_perm hdir
  ordered := by
    apply pairwise_mergeSort_decide (R := fun a b : BackupInfo => b.createdAt ≤ a.createdAt)
    · intro a b c hab hbc
      exact Int.le_trans hbc hab
    · intro a b
      exact Int.le_total _ _
  own backup hmem := (h.stored backup hmem).content

theorem Retained.length_le {finished kept : List FinishedBackup} (h : Retained finished kept) :
    kept.length ≤ finished.length := by
  obtain ⟨removed, hperm, -⟩ := h.newest
  rw [hperm.length_eq, List.length_append]
  exact Nat.le_add_left _ _

theorem Retained.add {finished kept : List FinishedBackup} (h : Retained finished kept)
    {new : FinishedBackup} (hnew : ∀ old ∈ finished, old.info.createdAt ≤ new.info.createdAt) :
    Retained (finished ++ [new]) (kept ++ [new]) where
  newest := by
    obtain ⟨removed, hperm, hnewest⟩ := h.newest
    refine ⟨removed, ?_, ?_⟩
    · rw [← List.append_assoc]
      exact hperm.append_right _
    · intro old hold other hother
      rw [List.mem_append, List.mem_singleton] at hother
      rcases hother with hother | rfl
      · exact hnewest old hold other hother
      · exact hnew old (hperm.mem_iff.mpr (List.mem_append_left _ hold))
  enough := by
    have henough := h.enough
    rw [List.length_append, List.length_append, List.length_singleton]
    omega

theorem Retained.drop {finished kept ordered : List FinishedBackup} (h : Retained finished kept)
    (hperm : ordered.Perm kept)
    (hsorted : ordered.Pairwise fun a b => a.info.createdAt ≤ b.info.createdAt) {count : Nat}
    (hcount : count ≤ kept.length - 5) : Retained finished (ordered.drop count) where
  newest := by
    obtain ⟨removed, hfinished, hnewest⟩ := h.newest
    refine ⟨removed ++ ordered.take count, ?_, ?_⟩
    · rw [List.append_assoc, List.take_append_drop]
      exact hfinished.trans (hperm.symm.append_left _)
    · intro old hold new hnew
      rw [List.mem_append] at hold
      rcases hold with hold | hold
      · exact hnewest old hold new (hperm.mem_iff.mp (List.mem_of_mem_drop hnew))
      · rw [← List.take_append_drop count ordered, List.pairwise_append] at hsorted
        exact hsorted.2.2 old hold new hnew
  enough := by
    have henough := h.enough
    rw [List.length_drop, hperm.length_eq]
    omega

namespace BackupCall

variable (env : BackupEnv) (config : BackupConfig)

def Renames (call : BackupCall) : Prop :=
  ∃ content metadata, call.snapshot = .ok content ∧
    env.toStringPretty (call.backupInfo env config content) = .ok metadata ∧
    ∀ written, call.ends ≠ .metadata written

/-- What is claimed of a call and the state it leaves: `list_backups` shows finished backups alone,
the newest, and after a call that succeeds five of them, or all. -/
def KeepsNewest (run : BackupRun) (call : BackupCall) : Prop :=
  ∃ kept, Retained (call.after env config run).finished kept ∧
    ShowsBackups env config (call.after env config run).files kept ∧
    (call.Renames env config → call.ends = .returns →
      kept.length = min 5 (call.after env config run).finished.length)

/-- A call that comes to renaming its files renames both, to a name that is free, and, where the
directory has a `.tmp` in its path, does not return with five backups there before it. -/
def RenamesSafely (run : BackupRun) (call : BackupCall) : Prop :=
  call.Renames env config →
    call.ends ≠ .renames ∧ run.files[call.finalBackupPath env config]? = none ∧
    (call.ends = .returns → ".tmp".toList <:+: config.backupDir.toList →
      (BackupManager.backupFiles ⟨config, run.files⟩).length < 5)

def InOrder (run : BackupRun) (call : BackupCall) : Prop :=
  ∀ old ∈ run.finished, old.info.createdAt ≤ call.created

variable {env config} (hdir : config.backupDir ≠ "") (henv : env.Documented) {run : BackupRun}
  {call : BackupCall}

include hdir henv in
theorem after_of_not_renames (run : BackupRun) (h : ¬call.Renames env config) :
    (call.after env config run).finished = run.finished ∧
      SameButTemporary run.files (call.after env config run).files := by
  obtain ⟨started, created, walSequence, snapshot, ends⟩ := call
  unfold after
  cases snapshot with
  | error part =>
    cases part with
    | none => exact ⟨rfl, fun _ _ => rfl⟩
    | some part => exact ⟨rfl, snapshotWritten_same henv _ hdir _ _⟩
  | ok content =>
    dsimp only
    split
    · exact ⟨rfl, snapshotWritten_same henv _ hdir _ _⟩
    · exact ⟨rfl, snapshotWritten_same henv _ hdir _ _⟩
    · exact ⟨rfl, metadataWritten_same henv _ hdir _ _ _⟩
    all_goals
      rename_i hjson
      exact absurd ⟨content, _, rfl, hjson, fun _ => by simp⟩ h

include hdir henv in
theorem after_keeps {kept : List FinishedBackup} (hholds : HoldsBackups env config run.files kept)
    (hretained : Retained run.finished kept) (horder : call.InOrder run)
    (hsafe : call.RenamesSafely env config run) :
    ∃ left, HoldsBackups env config (call.after env config run).files left ∧
      Retained (call.after env config run).finished left ∧
      (call.Renames env config → call.ends = .returns →
        left.length = min 5 (call.after env config run).finished.length) := by
  by_cases hrenames : call.Renames env config
  · obtain ⟨hwhole, hfresh, hroom⟩ := hsafe hrenames
    obtain ⟨content, metadata, hsnapshot, hjson, hends⟩ := hrenames
    have hadded := hholds.add hdir henv hjson hfresh
    have hnewest : Retained (run.finished ++ [⟨call.backupInfo env config content, content⟩])
        (kept ++ [⟨call.backupInfo env config content, content⟩]) := hretained.add horder
    obtain ⟨ordered, count, hperm, hsorted, hdelete, hcount, hall⟩ := hadded.exists_toDelete hdir
    have hordered := hadded.perm hperm.symm
    cases hend : call.ends with
    | metadata written => exact absurd hend (hends written)
    | renames => exact absurd hend hwhole
    | returns =>
      have hafter : call.after env config run =
          { files := (BackupManager.cleanupOldBackups env
              ⟨config, call.metadataRenamed env config run.files content metadata⟩).files
            finished := run.finished ++ [⟨call.backupInfo env config content, content⟩] } := by
        unfold after
        simp only [hsnapshot, hjson, hend]
      rw [hafter, BackupManager.cleanupOldBackups_files, hdelete]
      refine ⟨ordered.drop count, hordered.drop hdir count,
        hnewest.drop hperm hsorted hcount, ?_⟩
      intro _ _
      have hfive := hall fun htmp => by
        have hshown := (hholds.backupFiles_perm hdir).length_eq
        rw [List.length_map, List.length_map] at hshown
        have hless := hroom hend htmp
        rw [List.length_append, List.length_singleton]
        omega
      have henough := hretained.enough
      have hle := hretained.length_le
      rw [List.length_drop, hperm.length_eq, hfive]
      simp only [List.length_append, List.length_singleton]
      omega
    | deletes removed half =>
      have hafter : call.after env config run =
          { files := BackupManager.deletedInPart env
              ⟨config, call.metadataRenamed env config run.files content metadata⟩ removed half
            finished := run.finished ++ [⟨call.backupInfo env config content, content⟩] } := by
        unfold after
        simp only [hsnapshot, hjson, hend]
      obtain ⟨gone, hgone, hleft⟩ := hordered.deletedInPart hdir hdelete removed half
      rw [hafter]
      exact ⟨ordered.drop gone, hleft, hnewest.drop hperm hsorted (by omega),
        fun _ hreturns => absurd hreturns (by simp)⟩
  · obtain ⟨hfinished, hsame⟩ := after_of_not_renames hdir henv run hrenames
    rw [hfinished]
    exact ⟨kept, hholds.of_same hdir hsame, hretained, fun h => absurd h hrenames⟩

theorem after_finished (run : BackupRun) (call : BackupCall) :
    (call.after env config run).finished = run.finished ∨
      ∃ content, (call.after env config run).finished =
        run.finished ++ [⟨call.backupInfo env config content, content⟩] := by
  unfold after
  split
  · exact .inl rfl
  · exact .inl rfl
  · split
    · exact .inl rfl
    · exact .inl rfl
    · exact .inl rfl
    · exact .inl rfl
    · exact .inr ⟨_, rfl⟩
    · exact .inr ⟨_, rfl⟩

theorem meetsAlong_inOrder (env : BackupEnv) (config : BackupConfig) {calls : List BackupCall}
    (htimes : calls.Pairwise fun a b => a.created ≤ b.created) {run : BackupRun}
    (hpast : ∀ call ∈ calls, call.InOrder run) :
    MeetsAlong (fun run call => call.after env config run) (fun run call => call.InOrder run) run
      calls := by
  induction calls generalizing run with
  | nil => exact trivial
  | cons call calls ih =>
    rw [List.pairwise_cons] at htimes
    refine ⟨hpast call List.mem_cons_self, ih htimes.2 ?_⟩
    intro next hnext old hold
    have holder := hpast next (List.mem_cons_of_mem _ hnext) old
    rcases call.after_finished run with hsame | ⟨content, hmore⟩
    · rw [hsame] at hold
      exact holder hold
    · rw [hmore, List.mem_append, List.mem_singleton] at hold
      rcases hold with hold | rfl
      · exact holder hold
      · exact htimes.1 next hnext

theorem keepsNewest_of_renamesSafely (henv : env.Documented) (hdir : config.backupDir ≠ "")
    {files : Files} (hempty : BackupManager.backupFiles ⟨config, files⟩ = [])
    {calls : List BackupCall} (htimes : calls.Pairwise fun a b => a.created ≤ b.created)
    (hsafe : MeetsAlong (fun run call => call.after env config run)
      (RenamesSafely env config) ⟨files, []⟩ calls) :
    MeetsAlong (fun run call => call.after env config run) (KeepsNewest env config)
      ⟨files, []⟩ calls := by
  have hpast (call : BackupCall) (_ : call ∈ calls) : call.InOrder ⟨files, []⟩ :=
    fun _ hold => absurd hold List.not_mem_nil
  have horder := meetsAlong_inOrder env config htimes hpast
  refine MeetsAlong.imp (I := fun run => ∃ kept, HoldsBackups env config run.files kept ∧
    Retained run.finished kept) ?_ ?_ ?_ (meetsAlong_and.mpr ⟨horder, hsafe⟩)
  · rintro run call ⟨kept, hholds, hretained⟩ ⟨horder, hsafe⟩
    obtain ⟨left, hleft, hnewest, -⟩ := after_keeps hdir henv hholds hretained horder hsafe
    exact ⟨left, hleft, hnewest⟩
  · rintro run call ⟨kept, hholds, hretained⟩ ⟨horder, hsafe⟩
    obtain ⟨left, hleft, hnewest, hcount⟩ := after_keeps hdir henv hholds hretained horder hsafe
    exact ⟨left, hnewest, hleft.shows hdir, hcount⟩
  · refine ⟨[], ⟨?_, List.nodup_nil, ?_⟩, ⟨⟨[], .refl _, ?_⟩, Nat.zero_le _⟩⟩
    · exact fun _ hmem => absurd hmem List.not_mem_nil
    · intro entry hmem
      rw [hempty] at hmem
      exact absurd hmem List.not_mem_nil
    · exact fun _ hmem => absurd hmem List.not_mem_nil

/-- A backup of the second after the epoch, of two bytes. -/
def secondBackup : BackupInfo :=
  { backupId := "backup_19700101_000001"
    createdAt := 1000000000
    walSequence := 5
    filePath := "/backups/backup_19700101_000001.veddb"
    sizeBytes := 2
    includesWal := true
    compressed := false }

def secondBackupJson : Bytes :=
  utf8 ("\x7b\n  \"backup_id\": \"backup_19700101_000001\",\n" ++
    "  \"created_at\": \"1970-01-01T00:00:01Z\",\n  \"wal_sequence\": 5,\n" ++
    "  \"file_path\": \"/backups/backup_19700101_000001.veddb\",\n" ++
    "  \"size_bytes\": 2,\n  \"includes_wal\": true,\n  \"compressed\": false\n\x7d")

/-- The JSON of this backup, and the names of the first two seconds. -/
def secondBackupEnv : BackupEnv where
  snapshot := epochEnv
  toStringPretty info :=
    if info = secondBackup then .ok secondBackupJson else .error "expected the second backup"
  fromStr json :=
    if json = secondBackupJson then .ok secondBackup else .error "expected the second backup"
  format time := if time < 1000000000 then "19700101_000000" else "19700101_000001"

theorem secondBackupEnv_documented : secondBackupEnv.Documented where
  fromStr_toStringPretty info bytes h := by
    unfold secondBackupEnv at h ⊢
    dsimp only at h ⊢
    split at h
    · rename_i heq
      rw [heq, if_pos (Except.ok.inj h).symm]
    · cases h
  format_chars time := by
    show ∀ c ∈ (if time < 1000000000 then "19700101_000000" else "19700101_000001").toList, _
    split
    · simp
    · simp

def plainBackups : BackupConfig :=
  { includeWal := true
    compress := false
    backupDir := "/backups" }

def cutThenWhole : List BackupCall :=
  [⟨0, 0, 4, .error (some [1]), .returns⟩,
    ⟨1000000000, 1000000000, 5, .ok [1, 2], .returns⟩]

theorem keepsNewest_of_cut_snapshot :
    MeetsAlong (fun run call => BackupCall.after secondBackupEnv plainBackups call run)
      (KeepsNewest secondBackupEnv plainBackups) ⟨∅, []⟩ cutThenWhole := by
  apply keepsNewest_of_renamesSafely secondBackupEnv_documented
  · decide
  · decide +kernel
  · decide
  · refine ⟨?_, ?_, trivial⟩
    · intro ⟨_, _, hsnapshot, _⟩
      cases hsnapshot
    · intro _
      refine ⟨by decide, by decide +kernel, fun _ htmp => ?_⟩
      revert htmp
      decide

/-- The process dies between the two renames. -/
def halfRenamed : BackupCall := ⟨1000000000, 1000000000, 5, .ok [1, 2], .renames⟩

-- The snapshot is listed, at sequence 0.
theorem half_renamed_listed :
    ¬MeetsAlong (fun run call => BackupCall.after secondBackupEnv plainBackups call run)
      (KeepsNewest secondBackupEnv plainBackups) ⟨∅, []⟩ [halfRenamed] := by
  intro ⟨⟨kept, hretained, hshows, _⟩, _⟩
  have hnone : kept.length = 0 := Nat.le_zero.mp hretained.length_le
  have hlength := hshows.listed.length_eq
  rw [BackupManager.listBackups_length, List.length_map, hnone] at hlength
  revert hlength
  decide +kernel

end BackupCall

end VedDb
