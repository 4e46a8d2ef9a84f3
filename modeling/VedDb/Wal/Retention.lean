import VedDb.Wal.Compaction

/-!
# What stays in the log

A compaction removes whole files, and the entries of a file are older than those of the files behind
it.  So what a run of appends and compactions leaves in the directory is the end of its history, and
the first file can be empty only as long as nothing was removed.
-/

namespace VedDb

open LittleEndian

/-! ## Lists -/

-- A predicate that stays true once it is true splits a list in two.
theorem filter_not_append_filter {α : Type} {p : α → Bool} {l : List α}
    (h : l.Pairwise fun a b => p a = true → p b = true) :
    l.filter (fun a => !p a) ++ l.filter p = l := by
  induction l with
  | nil => rfl
  | cons a l ih =>
    obtain ⟨hhead, htail⟩ := List.pairwise_cons.mp h
    cases hp : p a with
    | false => simp [hp, ih htail]
    | true =>
      have hall : ∀ b ∈ l, p b = true := fun b hb => hhead b hb hp
      have hnone : l.filter (fun a => !p a) = [] := by
        rw [List.filter_eq_nil_iff]
        intro b hb
        simp [hall b hb]
      simp [hp, hnone, List.filter_eq_self.mpr hall]

-- Grouping by distinct keys that cover the list only reorders it.
theorem flatMap_filter_perm {α β : Type} [DecidableEq β] {key : α → β} {keys : List β}
    {l : List α} (hnodup : keys.Nodup) (hmem : ∀ a ∈ l, key a ∈ keys) :
    (keys.flatMap fun k => l.filter fun a => key a = k).Perm l := by
  induction keys generalizing l with
  | nil =>
    have hnil : l = [] := List.eq_nil_iff_forall_not_mem.mpr fun a ha => by
      cases hmem a ha
    rw [hnil]
    exact .nil
  | cons k keys ih =>
    obtain ⟨hk, htail⟩ := List.nodup_cons.mp hnodup
    have hothers : (keys.flatMap fun k' => l.filter fun a => key a = k') =
        keys.flatMap fun k' => (l.filter fun a => !decide (key a = k)).filter
          fun a => key a = k' := by
      apply List.flatMap_congr
      intro k' hk'
      rw [List.filter_filter]
      apply List.filter_congr
      intro a _
      by_cases ha : key a = k'
      · have hne : key a ≠ k := fun heq => hk (heq.symm.trans ha ▸ hk')
        simp [ha, ha ▸ hne]
      · simp [ha]
    have hrest : ∀ a ∈ l.filter fun a => !decide (key a = k), key a ∈ keys := by
      intro a ha
      obtain ⟨hal, hne⟩ := List.mem_filter.mp ha
      rcases List.mem_cons.mp (hmem a hal) with heq | hin
      · simp [heq] at hne
      · exact hin
    rw [List.flatMap_cons, hothers]
    exact ((ih htail hrest).append_left _).trans (List.filter_append_perm _ _)

/-! ## What compaction looks at -/

theorem onlyEntriesBefore_ok (entries : List WalEntry) (beforeSequence : Nat) :
    WalWriter.onlyEntriesBefore beforeSequence (entries.map .ok) =
      .ok (decide (∀ entry ∈ entries, entry.sequence < beforeSequence)) := by
  induction entries with
  | nil => simp [WalWriter.onlyEntriesBefore]
  | cons entry entries ih =>
    rw [List.map_cons, WalWriter.onlyEntriesBefore]
    by_cases hle : entry.sequence ≥ beforeSequence
    · rw [if_pos hle]
      simp [Nat.not_lt.mpr hle]
    · rw [if_neg hle, ih]
      simp [Nat.lt_of_not_ge hle]

theorem removable_iff_of_holds {codec : WalCodec} {w : WalWriter} {file : WalFile}
    {entries : List WalEntry} (h : codec.Holds file.content entries) (beforeSequence : Nat) :
    w.removable codec beforeSequence file = true ↔
      file.number < w.fileNumber ∧ ∀ entry ∈ entries, entry.sequence < beforeSequence := by
  simp only [WalWriter.removable, WalWriter.fileContainsOnlyEntriesBefore, h.fileResults,
    onlyEntriesBefore_ok, Bool.and_eq_true, decide_eq_true_eq]

namespace Journal

variable {codec : WalCodec} {s : Journal} {removed : List WalEntry} {n : Nat}

/-! ## The invariant -/

theorem mem_writtenTo {record : Nat × WalEntry} (hrecord : record ∈ s.logged) :
    record.2 ∈ s.writtenTo record.1 :=
  List.mem_map_of_mem (List.mem_filter.mpr ⟨hrecord, by simp⟩)

/-- The commands of a log that is neither restarted nor crashes, with operations that read back. -/
def Logs (codec : WalCodec) : WalCommand → Prop
  | .append now operation => WalWriter.Loggable codec now operation
  | .flush | .compact _ => True
  | .restart _ | .crash _ _ => False

/-- After at most `n` commands: the files hold the end of the history, in the order of their
numbers.  Only the file with the number `0` can be empty, and while it is there nothing was
removed. -/
structure Retained (codec : WalCodec) (s : Journal) (removed : List WalEntry) (n : Nat) :
    Prop where
  recorded : s.Recorded codec
  inv : WalRun.Inv codec ⟨s.writer, s.history.map WalEntry.sequence⟩ n
  frames : ∀ record ∈ s.logged, ∀ bytes, codec.serializeEntry record.2 = .ok bytes →
    codec.Frames record.2 bytes
  history_eq : s.history = removed ++ s.logged.map Prod.snd
  files : s.logged.Pairwise fun a b => a.1 ≤ b.1
  nonempty : ∀ number ∈ s.writer.dir.map WalFile.number, 0 < number →
    number ∈ s.logged.map Prod.fst
  whole : 0 ∈ s.writer.dir.map WalFile.number → removed = []

namespace Retained

theorem history_increasing (h : s.Retained codec removed n) :
    s.history.Pairwise fun a b => a.sequence < b.sequence :=
  List.pairwise_map.mp h.inv.increasing

theorem logged_increasing (h : s.Retained codec removed n) :
    s.logged.Pairwise fun a b => a.2.sequence < b.2.sequence := by
  have hhistory := h.history_increasing
  rw [h.history_eq, List.pairwise_append, List.pairwise_map] at hhistory
  exact hhistory.2.1

-- An entry of an earlier file has a smaller number.
theorem sequence_lt (h : s.Retained codec removed n) {a b : Nat × WalEntry} (ha : a ∈ s.logged)
    (hb : b ∈ s.logged) (hlt : a.1 < b.1) : a.2.sequence < b.2.sequence := by
  have hpair := h.files.and h.logged_increasing
  obtain ⟨before, behind, hsplit⟩ := List.append_of_mem hb
  rw [hsplit, List.pairwise_append, List.pairwise_cons] at hpair
  rw [hsplit] at ha
  rcases List.mem_append.mp ha with ha | ha
  · exact (hpair.2.2 a ha b List.mem_cons_self).2
  · rcases List.mem_cons.mp ha with rfl | ha
    · exact absurd hlt (Nat.lt_irrefl _)
    · exact absurd hlt (Nat.not_lt.mpr (hpair.2.1.1 a ha).1)

-- Each file holds the entries that were written into it.
theorem holds (h : s.Retained codec removed n) {file : WalFile} (hfile : file ∈ s.writer.dir) :
    codec.Holds file.content (s.writtenTo file.number) := by
  obtain ⟨frames, hframes, hcontent⟩ := h.recorded.written file hfile
  refine ⟨frames, ?_, hcontent⟩
  have hentries : ∀ entry ∈ s.writtenTo file.number, ∀ bytes,
      codec.serializeEntry entry = .ok bytes → codec.Frames entry bytes := by
    intro entry hentry
    obtain ⟨record, hrecord, rfl⟩ := List.mem_map.mp hentry
    exact h.frames record (List.mem_filter.mp hrecord).1
  refine ((List.forall₂_and_left _ _).mpr ⟨hentries, hframes⟩).imp ?_
  intro entry bytes hboth
  exact hboth.1 bytes hboth.2

end Retained

theorem retained_start (config : WalConfig) : Retained codec (start codec config) [] 0 where
  recorded := recorded_start config
  inv := WalRun.inv_start config
  frames := by
    intro record hmem
    cases hmem
  history_eq := rfl
  files := .nil
  nonempty := by
    intro number hnumber hpos
    have hzero : number = 0 := List.mem_singleton.mp hnumber
    omega
  whole _ := rfl

/-! ## Steps -/

-- What a rotation, or its absence, does to the numbers of the files.
theorem mem_makeRoom_numbers {w : WalWriter} {bytes number : Nat}
    (hnumber : number ∈ (w.makeRoom bytes).dir.map WalFile.number) :
    number ∈ w.dir.map WalFile.number ∨
      number = (w.makeRoom bytes).file ∧ number = (w.fileNumber + 1) % 2 ^ 64 := by
  unfold WalWriter.makeRoom at hnumber ⊢
  split at hnumber
  · next hrotate =>
      rw [if_pos hrotate]
      rcases WalDir.mem_create_numbers.mp hnumber with hold | hnew
      · exact .inl hold
      · exact .inr ⟨hnew, hnew⟩
  · exact .inl hnumber

namespace Retained

-- The sequence numbers of the log stay sound.
theorem inv_step (h : s.Retained codec removed n) (hn : n + 1 < 2 ^ 64) {command : WalCommand}
    (hcommand : Logs codec command) :
    WalRun.Inv codec ⟨(s.step codec command).writer,
      (s.step codec command).history.map WalEntry.sequence⟩ (n + 1) := by
  rw [← step_walRun]
  apply h.inv.step hn
  cases command with
  | append now operation => exact hcommand
  | flush => trivial
  | compact beforeSequence => trivial
  | restart config => exact hcommand.elim
  | crash lost config => exact hcommand.elim

-- The files did not change.
theorem of_writer (h : s.Retained codec removed n) {w : WalWriter} {m : Nat}
    (hrecorded : Recorded codec { s with writer := w })
    (hinv : WalRun.Inv codec ⟨w, s.history.map WalEntry.sequence⟩ m)
    (hdir : w.dir = s.writer.dir) : Retained codec { s with writer := w } removed m :=
  ⟨hrecorded, hinv, h.frames, h.history_eq, h.files, hdir ▸ h.nonempty, hdir ▸ h.whole⟩

theorem append (h : s.Retained codec removed n) (hn : n + 1 < 2 ^ 64) {now : DateTime}
    {operation : Operation} (hlog : WalWriter.Loggable codec now operation) :
    Retained codec (s.step codec (.append now operation)) removed (n + 1) := by
  have hinv := h.inv_step hn (show Logs codec (.append now operation) from hlog)
  have hrecorded := h.recorded.append hlog.keepsSequence
  rcases s.step_append_cases codec now operation with
    hstep | ⟨entry, bytes, hseal, hser, hstep⟩
  · rw [hstep] at hrecorded hinv ⊢
    exact h.of_writer hrecorded hinv rfl
  · have hframes := WalWriter.frames_of_sealEntry hlog h.recorded.sequence_lt hseal hser
    have hlogged : (s.step codec (.append now operation)).logged =
        s.logged ++ [((s.step codec (.append now operation)).writer.file, entry)] := by
      rw [hstep]
    have hhistory : (s.step codec (.append now operation)).history = s.history ++ [entry] := by
      rw [hstep]
    have hfile : (s.step codec (.append now operation)).writer.file =
        (s.writer.fetchSequence.makeRoom bytes.length).file := by
      rw [hstep]
      exact WalWriter.writeFrame_file _ _
    have hdir : (s.step codec (.append now operation)).writer.dir.map WalFile.number =
        (s.writer.fetchSequence.makeRoom bytes.length).dir.map WalFile.number := by
      rw [hstep]
      simp only [WalWriter.growFileSize, WalWriter.writeFrame_dir, WalDir.modify_numbers]
    refine ⟨hrecorded, hinv, ?_, ?_, ?_, ?_, ?_⟩
    · intro record hrecord
      rw [hlogged] at hrecord
      rcases List.mem_append.mp hrecord with hold | hnew
      · exact h.frames record hold
      · rw [List.mem_singleton.mp hnew]
        intro bytes' hser'
        rw [hser, Except.ok.injEq] at hser'
        exact hser' ▸ hframes
    · rw [hhistory, hlogged, h.history_eq, List.map_append, List.append_assoc]
      rfl
    · -- the open file is the newest one
      rw [hlogged, List.pairwise_append]
      refine ⟨h.files, List.pairwise_singleton _ _, ?_⟩
      intro a ha b hb
      rw [List.mem_singleton.mp hb]
      have hmem : a ∈ (s.step codec (.append now operation)).logged := by
        rw [hlogged]
        exact List.mem_append_left _ ha
      have hle := hinv.file_max a.1 (hrecorded.logged_mem a hmem)
      rwa [← hinv.file_eq] at hle
    · intro number hnumber hpos
      rw [hlogged, List.map_append, List.mem_append]
      rw [hdir] at hnumber
      rcases mem_makeRoom_numbers hnumber with hold | ⟨hnew, -⟩
      · exact .inl (h.nonempty number hold hpos)
      · exact .inr (List.mem_singleton.mpr (hnew.trans hfile.symm))
    · intro hzero
      rw [hdir] at hzero
      rcases mem_makeRoom_numbers hzero with hold | ⟨-, hnew⟩
      · exact h.whole hold
      · have hle := h.inv.fileNumber_le
        have hmod : (s.writer.fileNumber + 1) % 2 ^ 64 = s.writer.fileNumber + 1 :=
          Nat.mod_eq_of_lt (by dsimp only at hle; omega)
        have hnew : 0 = (s.writer.fileNumber + 1) % 2 ^ 64 := hnew
        omega

-- A file is removed exactly when it is not the open one and all its entries are below the bound.
theorem notMem_compact_iff (h : s.Retained codec removed n) (beforeSequence : Nat) {number : Nat}
    (hnumber : number ∈ s.writer.dir.map WalFile.number) :
    number ∉ (s.writer.compact codec beforeSequence).2.dir.map WalFile.number ↔
      number < s.writer.fileNumber ∧
        ∀ entry ∈ s.writtenTo number, entry.sequence < beforeSequence := by
  obtain ⟨file, hfile, rfl⟩ := List.mem_map.mp hnumber
  rw [← removable_iff_of_holds (h.holds hfile)]
  constructor
  · intro hgone
    by_contra hkept
    exact hgone (List.mem_map_of_mem (List.mem_filter.mpr ⟨hfile, by simpa using hkept⟩))
  · intro hremovable hmem
    obtain ⟨other, hother, hsame⟩ := List.mem_map.mp hmem
    obtain ⟨hmemDir, hkept⟩ := List.mem_filter.mp hother
    have heq : other = file :=
      List.inj_on_of_nodup_map h.recorded.numbers_nodup hmemDir hfile hsame
    rw [heq, hremovable] at hkept
    cases hkept

-- When a file holds only entries below a bound, so does every file in front of it.
theorem below_of_file_le (h : s.Retained codec removed n) {b : Nat × WalEntry} (hb : b ∈ s.logged)
    {beforeSequence number : Nat}
    (hbelow : ∀ entry ∈ s.writtenTo b.1, entry.sequence < beforeSequence) (hle : number ≤ b.1) :
    ∀ entry ∈ s.writtenTo number, entry.sequence < beforeSequence := by
  intro entry hentry
  obtain ⟨record, hrecord, rfl⟩ := List.mem_map.mp hentry
  obtain ⟨hlogged, hfile⟩ := List.mem_filter.mp hrecord
  rw [decide_eq_true_eq] at hfile
  rcases Nat.lt_or_eq_of_le hle with hlt | heq
  · exact (h.sequence_lt hlogged hb (hfile ▸ hlt)).trans (hbelow _ (mem_writtenTo hb))
  · exact hbelow _ (heq ▸ hentry)

theorem compact (h : s.Retained codec removed n) (hn : n + 1 < 2 ^ 64) (beforeSequence : Nat) :
    ∃ removed', Retained codec (s.step codec (.compact beforeSequence)) removed' (n + 1) := by
  have hinv := h.inv_step hn (show Logs codec (.compact beforeSequence) from trivial)
  have hrecorded := h.recorded.compact beforeSequence
  let kept (record : Nat × WalEntry) : Bool :=
    record.1 ∈ (s.writer.compact codec beforeSequence).2.dir.map WalFile.number
  have hgone {record : Nat × WalEntry} (hrecord : record ∈ s.logged) : kept record = false ↔
      record.1 < s.writer.fileNumber ∧
        ∀ entry ∈ s.writtenTo record.1, entry.sequence < beforeSequence := by
    rw [← h.notMem_compact_iff beforeSequence (h.recorded.logged_mem record hrecord)]
    simp only [kept, decide_eq_false_iff_not]
  -- once a file is kept, so are those behind it
  have hsuffix : s.logged.Pairwise fun a b => kept a = true → kept b = true := by
    refine h.files.imp_of_mem ?_
    intro a b ha hb hle hkept
    cases hb' : kept b with
    | true => rfl
    | false =>
      obtain ⟨hold, hbelow⟩ := (hgone hb).mp hb'
      have hfalse : kept a = false :=
        (hgone ha).mpr ⟨Nat.lt_of_le_of_lt hle hold, h.below_of_file_le hb hbelow hle⟩
      rw [hfalse] at hkept
      cases hkept
  have hsplit := filter_not_append_filter hsuffix
  have hsub : ((s.writer.compact codec beforeSequence).2.dir.map WalFile.number).Sublist
      (s.writer.dir.map WalFile.number) := List.filter_sublist.map WalFile.number
  refine ⟨removed ++ (s.logged.filter fun record => !kept record).map Prod.snd, hrecorded, hinv,
    ?_, ?_, ?_, ?_, ?_⟩
  · intro record hrecord
    exact h.frames record (List.mem_filter.mp hrecord).1
  · change s.history = removed ++ (s.logged.filter fun record => !kept record).map Prod.snd ++
      (s.logged.filter kept).map Prod.snd
    rw [List.append_assoc, ← List.map_append, hsplit]
    exact h.history_eq
  · exact h.files.filter _
  · intro number hnumber hpos
    obtain ⟨record, hrecord, rfl⟩ :=
      List.mem_map.mp (h.nonempty number (hsub.subset hnumber) hpos)
    exact List.mem_map_of_mem (List.mem_filter.mpr ⟨hrecord, decide_eq_true hnumber⟩)
  · -- the first file stays only when it holds an entry from the bound on
    intro hzero
    have hmem : 0 ∈ s.writer.dir.map WalFile.number := hsub.subset hzero
    have hnone : s.logged.filter (fun record => !kept record) = [] := by
      rw [List.filter_eq_nil_iff]
      intro record hrecord hremoved
      rw [Bool.not_eq_true'] at hremoved
      obtain ⟨hold, hbelow⟩ := (hgone hrecord).mp hremoved
      have hfirst : ¬(0 < s.writer.fileNumber ∧
          ∀ entry ∈ s.writtenTo 0, entry.sequence < beforeSequence) :=
        fun hall => (h.notMem_compact_iff beforeSequence hmem).mpr hall hzero
      rw [not_and] at hfirst
      exact hfirst (Nat.zero_lt_of_lt hold)
        (h.below_of_file_le hrecord hbelow (Nat.zero_le record.1))
    rw [h.whole hmem, hnone]
    rfl

-- One command.
theorem step (h : s.Retained codec removed n) (hn : n + 1 < 2 ^ 64) {command : WalCommand}
    (hcommand : Logs codec command) :
    ∃ removed', Retained codec (s.step codec command) removed' (n + 1) := by
  cases command with
  | append now operation => exact ⟨removed, h.append hn hcommand⟩
  | flush =>
    have hinv := h.inv_step hn (show Logs codec .flush from trivial)
    exact ⟨removed, h.of_writer (h.recorded.of_writer rfl rfl rfl h.recorded.sequence_lt) hinv rfl⟩
  | compact beforeSequence => exact h.compact hn beforeSequence
  | restart config => exact hcommand.elim
  | crash lost config => exact hcommand.elim

theorem run (h : s.Retained codec removed n) {commands : List WalCommand}
    (hcommands : ∀ command ∈ commands, Logs codec command)
    (hn : n + commands.length < 2 ^ 64) :
    ∃ removed', Retained codec (s.run codec commands) removed' (n + commands.length) := by
  induction commands generalizing s removed n with
  | nil => exact ⟨removed, h⟩
  | cons command commands ih =>
    rw [List.length_cons] at hn
    obtain ⟨removed', hnext⟩ := h.step (by omega) (hcommands command List.mem_cons_self)
    obtain ⟨removed'', hrun⟩ := ih hnext
      (fun c hc => hcommands c (List.mem_cons_of_mem _ hc)) (by omega)
    rw [List.length_cons, Nat.add_comm commands.length 1, ← Nat.add_assoc]
    exact ⟨removed'', hrun⟩

end Retained

/-! ## The buffer -/

/-- What a reader of the directory finds while the frames of the last entries, written since the
last flush, are still in the buffer of the open file. -/
structure OnDisk (codec : WalCodec) (s : Journal) (hidden : List WalEntry) (disk : WalDir) :
    Prop where
  split : ∃ visible content tail, s.writtenTo s.writer.file = visible ++ hidden ∧
    codec.Holds content visible ∧ codec.Holds tail hidden ∧ tail.length ≤ s.writer.unsynced ∧
    disk = s.writer.dir.modify s.writer.file fun _ => content

-- Nothing has to be in the buffer.
theorem Retained.onDisk_nil (h : s.Retained codec removed n) :
    s.OnDisk codec [] s.writer.dir := by
  obtain ⟨file, hfile, hnumber⟩ := List.mem_map.mp h.recorded.file_mem
  have hholds := h.holds hfile
  rw [hnumber] at hholds
  refine ⟨s.writtenTo s.writer.file, file.content, [], (List.append_nil _).symm, hholds, .nil,
    Nat.zero_le _, ?_⟩
  conv_lhs => rw [← List.map_id s.writer.dir]
  apply List.map_congr_left
  intro other hother
  by_cases hopen : other.number = s.writer.file
  · rw [if_pos hopen, List.inj_on_of_nodup_map h.recorded.numbers_nodup hother hfile
      (hopen.trans hnumber.symm)]
    rfl
  · rw [if_neg hopen, id]

end Journal

/-- The files of the directory hold exactly the given entries, each in the file of its number. -/
structure WalDir.Keeps (codec : WalCodec) (dir : WalDir) (records : List (Nat × WalEntry)) :
    Prop where
  nodup : (dir.map WalFile.number).Nodup
  mem : ∀ record ∈ records, record.1 ∈ dir.map WalFile.number
  holds : ∀ file ∈ dir,
    codec.Holds file.content ((records.filter fun record => record.1 = file.number).map Prod.snd)

namespace Journal

variable {codec : WalCodec} {s : Journal} {removed hidden : List WalEntry} {n : Nat}
  {disk : WalDir}

/-- The retained entries, with these in the open file. -/
def shown (s : Journal) (visible : List WalEntry) : List (Nat × WalEntry) :=
  (s.logged.filter fun record => !decide (record.1 = s.writer.file)) ++
    visible.map fun entry => (s.writer.file, entry)

theorem shown_writtenTo (s : Journal) (visible : List WalEntry) (number : Nat) :
    ((s.shown visible).filter fun record => record.1 = number).map Prod.snd =
      if number = s.writer.file then visible else s.writtenTo number := by
  rw [shown, List.filter_append, List.map_append, List.filter_filter, List.filter_map]
  by_cases hopen : number = s.writer.file
  · have hnone : (s.logged.filter fun record => decide (record.1 = number) &&
        !decide (record.1 = s.writer.file)) = [] := by
      rw [List.filter_eq_nil_iff]
      intro record _
      simp [hopen]
    rw [if_pos hopen, hnone]
    simp [hopen, Function.comp_def]
  · have hsame : (s.logged.filter fun record => decide (record.1 = number) &&
        !decide (record.1 = s.writer.file)) = s.logged.filter fun record => record.1 = number := by
      apply List.filter_congr
      intro record _
      by_cases heq : record.1 = number
      · simp [heq, hopen]
      · simp [heq]
    rw [if_neg hopen, hsame]
    simp [writtenTo, Function.comp_def, Ne.symm hopen]

-- The entries of the open file are the last ones.
theorem Retained.shown_append (h : s.Retained codec removed n) {visible : List WalEntry}
    (hwritten : s.writtenTo s.writer.file = visible ++ hidden) :
    s.logged.map Prod.snd = (s.shown visible).map Prod.snd ++ hidden := by
  have hmax {record : Nat × WalEntry} (hrecord : record ∈ s.logged) :
      record.1 ≤ s.writer.file := by
    rw [h.recorded.file_eq]
    exact h.inv.file_max _ (h.recorded.logged_mem record hrecord)
  have hlast : s.logged.Pairwise fun a b =>
      decide (a.1 = s.writer.file) = true → decide (b.1 = s.writer.file) = true := by
    refine h.files.imp_of_mem ?_
    intro a b _ hb hle ha
    rw [decide_eq_true_eq] at ha ⊢
    exact Nat.le_antisymm (hmax hb) (ha ▸ hle)
  have hopen : (s.logged.filter fun record => record.1 = s.writer.file).map Prod.snd =
      visible ++ hidden := hwritten
  conv_lhs => rw [← filter_not_append_filter hlast]
  rw [shown, List.map_append, hopen, List.map_append, List.map_map, List.append_assoc]
  simp [Function.comp_def]

-- What a reader finds is what was retained, up to the entries in the buffer.
theorem Retained.onDisk (h : s.Retained codec removed n) (hdisk : s.OnDisk codec hidden disk) :
    ∃ shown : List (Nat × WalEntry), disk.Keeps codec shown ∧
      s.logged.map Prod.snd = shown.map Prod.snd ++ hidden ∧
      disk.map WalFile.number = s.writer.dir.map WalFile.number ∧
      ∀ number ∈ disk.map WalFile.number, 0 < number → number ∉ shown.map Prod.fst →
        hidden ≠ [] := by
  obtain ⟨visible, content, -, hwritten, hcontent, -, -, rfl⟩ := hdisk.split
  have hnumbers : ((s.writer.dir.modify s.writer.file fun _ => content).map WalFile.number) =
      s.writer.dir.map WalFile.number := WalDir.modify_numbers _ _ _
  refine ⟨s.shown visible, ⟨?_, ?_, ?_⟩, h.shown_append hwritten, hnumbers, ?_⟩
  · rw [hnumbers]
    exact h.recorded.numbers_nodup
  · intro record hrecord
    rw [hnumbers]
    rcases List.mem_append.mp hrecord with hold | hnew
    · exact h.recorded.logged_mem record (List.mem_filter.mp hold).1
    · obtain ⟨entry, -, rfl⟩ := List.mem_map.mp hnew
      exact h.recorded.file_mem
  · intro file hfile
    obtain ⟨own, hown, rfl⟩ := List.mem_map.mp hfile
    by_cases hopen : own.number = s.writer.file
    · rw [if_pos hopen, shown_writtenTo, if_pos hopen]
      exact hcontent
    · rw [if_neg hopen, shown_writtenTo, if_neg hopen]
      exact h.holds hown
  · intro number hnumber hpos hmissing hhidden
    -- with an empty buffer every retained entry is shown
    rw [hnumbers] at hnumber
    obtain ⟨record, hrecord, rfl⟩ := List.mem_map.mp (h.nonempty number hnumber hpos)
    have hmem := mem_writtenTo hrecord
    have hshown := s.shown_writtenTo visible record.1
    rw [hhidden, List.append_nil] at hwritten
    have hsame : (if record.1 = s.writer.file then visible else s.writtenTo record.1) =
        s.writtenTo record.1 := by
      split
      · next hopen => rw [hopen, hwritten]
      · rfl
    rw [hsame] at hshown
    rw [← hshown] at hmem
    obtain ⟨other, hother, -⟩ := List.mem_map.mp hmem
    obtain ⟨hin, hfile⟩ := List.mem_filter.mp hother
    exact hmissing (List.mem_map.mpr ⟨other, hin, of_decide_eq_true hfile⟩)

end Journal

end VedDb
