import Mathlib.Data.List.Nodup
import VedDb.Wal.Replay
import VedDb.Wal.Sequence

/-!
# Compaction

`compact(before_sequence)` removes a file when every entry in it, the corrupted ones included, is
numbered below the bound and the file is not the newest one.  What it removes is what a replay from
the bound would skip, so the replay of the rest ends in the same store.

A file is judged by what is read from it.  That this covers what was appended to it needs very
little of `serde_json`: an entry that decodes at all carries the sequence number it was written
with, and a JSON text cut short does not decode.
-/

namespace VedDb

open LittleEndian

/-! ## File names -/

theorem walFileName_injective {m n : Nat} (h : walFileName m = walFileName n) : m = n := by
  by_contra hne
  have hdigits : (if m < 10 ^ 10 then decChars 10 m else Nat.toDigits 10 m) =
      (if n < 10 ^ 10 then decChars 10 n else Nat.toDigits 10 n) := by
    unfold walFileName at h
    exact List.append_cancel_left (List.append_cancel_right (String.ofList_injective h))
  have hlong (k : Nat) (hk : ¬ k < 10 ^ 10) : ¬ (Nat.toDigits 10 k).length ≤ 10 := by
    rw [Nat.length_toDigits_le_iff (by decide) (by decide)]
    exact hk
  by_cases hm : m < 10 ^ 10
  · by_cases hn : n < 10 ^ 10
    · rcases Nat.lt_or_gt_of_ne hne with hlt | hlt
      · exact String.lt_irrefl _ (h ▸ walFileName_lt hlt hn)
      · exact String.lt_irrefl _ (h ▸ walFileName_lt hlt hm)
    · rw [if_pos hm, if_neg hn] at hdigits
      have hlen := congrArg List.length hdigits
      rw [decChars_length] at hlen
      exact hlong n hn hlen.ge
  · by_cases hn : n < 10 ^ 10
    · rw [if_neg hm, if_pos hn] at hdigits
      have hlen := congrArg List.length hdigits
      rw [decChars_length] at hlen
      exact hlong m hm hlen.le
    · rw [if_neg hm, if_neg hn] at hdigits
      apply hne
      rw [← Nat.ofDigitChars_ten_toDigits (n := m), hdigits, Nat.ofDigitChars_ten_toDigits]

-- Removing files leaves the others in their order.
theorem scanWalFiles_filter {dir : WalDir} (hnodup : (dir.map WalFile.number).Nodup)
    (p : WalFile → Bool) : scanWalFiles (dir.filter p) = (scanWalFiles dir).filter p := by
  refine List.Perm.eq_of_pairwise ?_ (scanWalFiles_sorted _) ((scanWalFiles_sorted dir).filter p)
    ((scanWalFiles_perm _).trans ((scanWalFiles_perm dir).symm.filter p))
  intro a b ha hb hab hba
  have ha' := (List.mem_filter.mp ((scanWalFiles_perm _).mem_iff.mp ha)).1
  have hb' := (scanWalFiles_perm dir).mem_iff.mp (List.mem_filter.mp hb).1
  exact List.inj_on_of_nodup_map hnodup ha' hb'
    (walFileName_injective (String.le_antisymm hab hba))

/-! ## What a removable file holds -/

namespace WalWriter

/-- An answer of the reader that is numbered below the bound. -/
def Below (beforeSequence : Nat) : Except WalError WalEntry → Prop
  | .ok entry => entry.sequence < beforeSequence
  | .error (.corruptedEntry seq) => seq < beforeSequence
  | .error _ => False

theorem onlyEntriesBefore_ok_true {beforeSequence : Nat}
    {results : List (Except WalError WalEntry)}
    (h : onlyEntriesBefore beforeSequence results = .ok true) :
    ∀ result ∈ results, Below beforeSequence result := by
  induction results with
  | nil =>
    intro result hmem
    cases hmem
  | cons head results ih =>
    have hhead : Below beforeSequence head ∧
        onlyEntriesBefore beforeSequence results = .ok true := by
      cases head with
      | ok entry =>
        rw [onlyEntriesBefore] at h
        split at h
        · cases h
        · next hlt => exact ⟨Nat.lt_of_not_ge hlt, h⟩
      | error e =>
        cases e with
        | corruptedEntry seq =>
          rw [onlyEntriesBefore] at h
          split at h
          · cases h
          · next hlt => exact ⟨Nat.lt_of_not_ge hlt, h⟩
        | ioError _ | serializationError _ | deserializationError _ | checksumMismatch _ _
        | fileNotFound _ | invalidFormat =>
          rw [onlyEntriesBefore] at h
          · cases h
          · simp
    intro result hmem
    rcases List.mem_cons.mp hmem with rfl | hmem
    · exact hhead.1
    · exact ih hhead.2 result hmem

theorem removable_only_below {codec : WalCodec} {w : WalWriter} {beforeSequence : Nat}
    {file : WalFile} (h : removable codec w beforeSequence file = true) :
    file.number < w.fileNumber ∧
      onlyEntriesBefore beforeSequence (WalReader.fileResults codec file.content) = .ok true := by
  unfold removable fileContainsOnlyEntriesBefore at h
  rw [Bool.and_eq_true, decide_eq_true_eq] at h
  refine ⟨h.1, ?_⟩
  have hread := h.2
  split at hread
  · next onlyBefore heq => rw [heq, hread]
  · cases hread

end WalWriter

/-! ## Replaying what is left -/

section

variable (json : DocumentJson) {codec : WalCodec} (now : DateTime) (fromSequence : Nat)

-- A replay that gets through entries below its start has changed nothing.
theorem replayLoop_below {results : List (Except WalError WalEntry)}
    (h : ∀ result ∈ results, WalWriter.Below fromSequence result) (layer : PersistentLayer)
    (stats : ReplayStats) :
    (replayLoop json now fromSequence results layer stats).2 = layer := by
  induction results generalizing stats with
  | nil => rfl
  | cons head results ih =>
    cases head with
    | error e => rfl
    | ok entry =>
      have hbelow : entry.sequence < fromSequence := h _ List.mem_cons_self
      rw [replayLoop, if_pos hbelow]
      exact ih (fun result hmem => h result (List.mem_cons_of_mem _ hmem)) _

-- Leaving out files with nothing to replay changes neither the outcome nor the store, as long as
-- the whole replay succeeds.
theorem replayFiles_filter {files : List WalFile} {p : WalFile → Bool}
    (h : ∀ file ∈ files, p file = false →
      ∀ result ∈ WalReader.fileResults codec file.content, WalWriter.Below fromSequence result)
    (layer : PersistentLayer) (total : ReplayStats) {stats : ReplayStats}
    (hok : (replayFiles json codec now fromSequence files layer total).1 = .ok stats)
    (total' : ReplayStats) :
    ∃ stats', replayFiles json codec now fromSequence (files.filter p) layer total' =
      (.ok stats', (replayFiles json codec now fromSequence files layer total).2) := by
  induction files generalizing layer total total' with
  | nil => exact ⟨total', rfl⟩
  | cons file files ih =>
    have hrest : ∀ other ∈ files, p other = false →
        ∀ result ∈ WalReader.fileResults codec other.content,
          WalWriter.Below fromSequence result :=
      fun other hmem => h other (List.mem_cons_of_mem _ hmem)
    rcases hfile : replayWal json codec now file.content layer fromSequence with
      ⟨e | fileStats, layer'⟩
    · rw [replayFiles, hfile] at hok
      cases hok
    · rw [replayFiles, hfile] at hok ⊢
      dsimp only at hok ⊢
      by_cases hp : p file = true
      · obtain ⟨stats', hstats'⟩ := ih hrest layer' _ hok (total'.add fileStats)
        refine ⟨stats', ?_⟩
        rw [List.filter_cons_of_pos hp, replayFiles, hfile]
        exact hstats'
      · have hlayer : layer' = layer := by
          have hbelow := replayLoop_below json now fromSequence
            (h file List.mem_cons_self (Bool.eq_false_iff.mpr hp)) layer .default
          have hwal : (replayWal json codec now file.content layer fromSequence).2 = layer :=
            hbelow
          rwa [hfile] at hwal
        rw [List.filter_cons_of_neg hp]
        rw [hlayer] at hok ⊢
        exact ih hrest layer _ hok total'

-- Entries below the start are passed over where all of them verify.
theorem replayLoop_skips {results : List (Except WalError WalEntry)}
    (h : ∀ result ∈ results, WalWriter.Below fromSequence result)
    (hsound : ∀ seq, .error (.corruptedEntry seq) ∉ results) (layer : PersistentLayer)
    (stats : ReplayStats) :
    ∃ stats', replayLoop json now fromSequence results layer stats = (.ok stats', layer) := by
  induction results generalizing stats with
  | nil => exact ⟨stats, rfl⟩
  | cons head results ih =>
    have hhead := h head List.mem_cons_self
    cases head with
    | error e =>
      cases e with
      | corruptedEntry seq => exact absurd List.mem_cons_self (hsound seq)
      | _ => exact hhead.elim
    | ok entry =>
      have hbelow : entry.sequence < fromSequence := hhead
      rw [replayLoop, if_pos hbelow]
      exact ih (fun result hmem => h result (List.mem_cons_of_mem _ hmem))
        (fun seq hmem => hsound seq (List.mem_cons_of_mem _ hmem)) _

-- Where the replay fails, it fails alike without the files that it passes over.
theorem replayFiles_filter_error {files : List WalFile} {p : WalFile → Bool}
    (hskips : ∀ file ∈ files, p file = false → ∀ layer, ∃ stats,
      replayWal json codec now file.content layer fromSequence = (.ok stats, layer))
    (layer : PersistentLayer) (total : ReplayStats) {e : WalError}
    (herror : (replayFiles json codec now fromSequence files layer total).1 = .error e)
    (total' : ReplayStats) :
    replayFiles json codec now fromSequence (files.filter p) layer total' =
      replayFiles json codec now fromSequence files layer total := by
  induction files generalizing layer total total' with
  | nil => cases herror
  | cons file files ih =>
    have hrest : ∀ other ∈ files, p other = false → ∀ layer, ∃ stats,
        replayWal json codec now other.content layer fromSequence = (.ok stats, layer) :=
      fun other hmem => hskips other (List.mem_cons_of_mem _ hmem)
    by_cases hp : p file = true
    · rw [List.filter_cons_of_pos hp, replayFiles, replayFiles]
      rw [replayFiles] at herror
      rcases hfile : replayWal json codec now file.content layer fromSequence with
        ⟨e | fileStats, layer'⟩
      · rfl
      · rw [hfile] at herror
        exact ih hrest layer' _ herror _
    · obtain ⟨fileStats, hfile⟩ :=
        hskips file List.mem_cons_self (Bool.eq_false_iff.mpr hp) layer
      rw [replayFiles, hfile] at herror
      rw [List.filter_cons_of_neg hp, replayFiles, hfile]
      exact ih hrest layer _ herror total'

-- **Replay is unaffected.**  When the replay from the bound succeeds on the directory, it succeeds
-- on the compacted one and ends in the same store.
theorem replayAllWals_compact {w : WalWriter} (hnodup : (w.dir.map WalFile.number).Nodup)
    (beforeSequence : Nat) (layer : PersistentLayer) {stats : ReplayStats}
    (hok : (replayAllWals json codec now w.dir layer beforeSequence).1 = .ok stats) :
    ∃ stats', replayAllWals json codec now (w.compact codec beforeSequence).2.dir layer
        beforeSequence =
      (.ok stats', (replayAllWals json codec now w.dir layer beforeSequence).2) := by
  have hdir : (w.compact codec beforeSequence).2.dir =
      w.dir.filter (fun file => !w.removable codec beforeSequence file) := rfl
  unfold replayAllWals at hok ⊢
  rw [hdir, scanWalFiles_filter hnodup]
  refine replayFiles_filter json now beforeSequence ?_ layer .default hok .default
  intro file _ hremoved
  rw [Bool.not_eq_false'] at hremoved
  exact WalWriter.onlyEntriesBefore_ok_true (WalWriter.removable_only_below hremoved).2

-- Where it fails, it fails on the compacted directory alike, if what was removed verifies.
theorem replayAllWals_compact_error {w : WalWriter} (hnodup : (w.dir.map WalFile.number).Nodup)
    (beforeSequence : Nat) (layer : PersistentLayer) {e : WalError}
    (herror : (replayAllWals json codec now w.dir layer beforeSequence).1 = .error e)
    (hsound : ∀ file ∈ w.dir, file ∉ (w.compact codec beforeSequence).2.dir →
      ∀ seq, .error (.corruptedEntry seq) ∉ WalReader.fileResults codec file.content) :
    replayAllWals json codec now (w.compact codec beforeSequence).2.dir layer beforeSequence =
      replayAllWals json codec now w.dir layer beforeSequence := by
  have hdir : (w.compact codec beforeSequence).2.dir =
      w.dir.filter (fun file => !w.removable codec beforeSequence file) := rfl
  unfold replayAllWals at herror ⊢
  rw [hdir, scanWalFiles_filter hnodup]
  refine replayFiles_filter_error json now beforeSequence ?_ layer .default herror .default
  intro file hmem hremoved layer
  have hgone : file ∉ (w.compact codec beforeSequence).2.dir := by
    rw [hdir, List.mem_filter, hremoved]
    exact fun h => Bool.false_ne_true h.2
  rw [Bool.not_eq_false'] at hremoved
  exact replayLoop_skips json now beforeSequence
    (WalWriter.onlyEntriesBefore_ok_true (WalWriter.removable_only_below hremoved).2)
    (hsound file ((scanWalFiles_perm _).mem_iff.mp hmem) hgone) layer .default

end

/-! ## Reading what was written -/

/-- What the log relies on of `serde_json` for an operation: an entry that decodes carries the
number it was written with, and the JSON of an entry too long for the length field of its frame,
which is cut when it is read, does not decode when cut. -/
def WalWriter.KeepsSequence (codec : WalCodec) (now : DateTime) (operation : Operation) : Prop :=
  ∀ sequence checksum entryJson, sequence < 2 ^ 64 →
    codec.toVec ⟨sequence, now, operation, checksum⟩ = .ok entryJson →
      (∀ entry, codec.fromSlice entryJson = .ok entry → entry.sequence = sequence) ∧
        (2 ^ 32 ≤ entryJson.length →
          ∀ n < entryJson.length, ∃ e, codec.fromSlice (entryJson.take n) = .error e)

-- A loggable operation keeps its sequence number.
theorem WalWriter.Loggable.keepsSequence {codec : WalCodec} {now : DateTime}
    {operation : Operation} (h : Loggable codec now operation) :
    KeepsSequence codec now operation := by
  intro sequence checksum entryJson hseq hto
  obtain ⟨hfrom, hlen⟩ := h sequence checksum entryJson hseq hto
  refine ⟨?_, fun hlong => absurd hlen (Nat.not_lt.mpr hlong)⟩
  intro entry hentry
  rw [hfrom] at hentry
  cases hentry
  rfl

/-- The file holds what `serialize_entry` gave for the entries, whether or not it reads back. -/
def WalCodec.Wrote (codec : WalCodec) (content : Bytes) (entries : List WalEntry) : Prop :=
  ∃ frames, List.Forall₂ (fun e f => codec.serializeEntry e = .ok f) entries frames ∧
    content = frames.flatten

namespace WalReader

variable {codec : WalCodec}

-- The first answer of a file, and what follows it.
theorem fileResults_eq (content : Bytes) :
    fileResults codec content =
      match nextEntry codec (ofBytes content) with
      | (.ok none, _) => []
      | (.ok (some entry), r) => .ok entry :: fileResults codec r.rest
      | (.error (.ioError kind), _) => [.error (.ioError kind)]
      | (.error e, r) => .error e :: fileResults codec r.rest := by
  have hfuel {result : Except WalError (Option WalEntry)} {r : WalReader}
      (hnext : nextEntry codec (ofBytes content) = (result, r)) (hend : result ≠ .ok none)
      (hread : ∀ kind, result ≠ .error (.ioError kind)) :
      readResults codec content.length r.rest = fileResults codec r.rest := by
    have hshort := nextEntry_rest_length codec hnext hend hread
    exact readResults_fuel codec hshort (Nat.lt_succ_self _)
  rw [fileResults, readResults]
  rcases hnext : nextEntry codec (ofBytes content) with ⟨e | - | entry, r⟩
  · cases e with
    | ioError kind => rfl
    | serializationError _ | deserializationError _ | checksumMismatch _ _ | corruptedEntry _
    | fileNotFound _ | invalidFormat => simp only [hfuel hnext (by simp) (by simp)]
  · rfl
  · simp only [hfuel hnext (by simp) (by simp)]

-- What the reader answers at the front of what was written for an entry, when it does not end the
-- scan: the entry or its number, with the frame consumed.
theorem nextEntry_written {now : DateTime} {operation : Operation} {sequence : Nat}
    {checksum : UInt32} {bytes : Bytes} (hkeeps : WalWriter.KeepsSequence codec now operation)
    (hseq : sequence < 2 ^ 64)
    (hser : codec.serializeEntry ⟨sequence, now, operation, checksum⟩ = .ok bytes)
    (rest : Bytes) (k : Nat) :
    (∃ entry k', nextEntry codec ⟨bytes ++ rest, k⟩ = (.ok (some entry), ⟨rest, k'⟩) ∧
        entry.sequence = sequence) ∨
      nextEntry codec ⟨bytes ++ rest, k⟩ = (.error (.corruptedEntry sequence), ⟨rest, k⟩) ∨
      ∃ e r, nextEntry codec ⟨bytes ++ rest, k⟩ = (.error e, r) ∧
        ∀ seq, e ≠ .corruptedEntry seq := by
  unfold WalCodec.serializeEntry at hser
  cases hto : codec.toVec ⟨sequence, now, operation, checksum⟩ with
  | error e => simp only [hto, reduceCtorEq] at hser
  | ok entryJson =>
    simp only [hto, Except.ok.injEq] at hser
    subst hser
    obtain ⟨hnumber, hcut⟩ := hkeeps sequence checksum entryJson hseq hto
    rw [WalCodec.frame, List.append_assoc, List.append_assoc]
    by_cases hlen : entryJson.length < 2 ^ 32
    · rw [nextEntry_reads codec (leBytes_length _ _) (ofLeBytes_leBytes_of_lt hlen).symm
        (leBytes_length _ _)]
      rcases hfrom : codec.fromSlice entryJson with e | entry
      · exact .inr (.inr ⟨.deserializationError e, _, rfl, by simp⟩)
      · have hsequence := hnumber entry hfrom
        dsimp only
        generalize hstored : ({ entry with
          checksum := UInt32.ofNat (ofLeBytes (leBytes 4 checksum.toNat)) } : WalEntry) = stored
        have hstoredSeq : stored.sequence = sequence := by
          rw [← hstored]
          exact hsequence
        rcases hverify : codec.verifyChecksum stored with e | - | -
        · refine .inr (.inr ⟨e, _, rfl, ?_⟩)
          intro seq he
          subst he
          unfold WalCodec.verifyChecksum WalCodec.computeChecksum at hverify
          cases htoZero : codec.toVec { stored with checksum := 0 } with
          | error e => simp only [htoZero, Except.error.injEq, reduceCtorEq] at hverify
          | ok bytes => simp only [htoZero, reduceCtorEq] at hverify
        · exact .inr (.inl (by rw [hsequence]))
        · exact .inl ⟨stored, k + 1, rfl, hstoredSeq⟩
    · -- the length field lost its high bits, so the JSON is cut
      have hlong : 2 ^ 32 ≤ entryJson.length := Nat.le_of_not_lt hlen
      have hfield : ofLeBytes (leBytes 4 entryJson.length) = entryJson.length % 2 ^ 32 := by
        rw [ofLeBytes_leBytes]
        rfl
      have hshort : entryJson.length % 2 ^ 32 < entryJson.length :=
        (Nat.mod_lt _ (by decide)).trans_le hlong
      obtain ⟨e, he⟩ := hcut hlong _ hshort
      have hsplit : entryJson ++ (leBytes 4 checksum.toNat ++ rest) =
          entryJson.take (entryJson.length % 2 ^ 32) ++
            ((entryJson.drop (entryJson.length % 2 ^ 32) ++
              (leBytes 4 checksum.toNat ++ rest)).take 4 ++
            (entryJson.drop (entryJson.length % 2 ^ 32) ++
              (leBytes 4 checksum.toNat ++ rest)).drop 4) := by
        rw [List.take_append_drop 4, ← List.append_assoc (entryJson.take _),
          List.take_append_drop]
      rw [hsplit, nextEntry_reads codec (leBytes_length _ _)]
      · simp only [he]
        exact .inr (.inr ⟨.deserializationError e, _, rfl, by simp⟩)
      · rw [List.length_take_of_le hshort.le, hfield]
      · rw [List.length_take_of_le]
        simp only [List.length_append, leBytes_length]
        omega

end WalReader

-- A file that passes the scan was written with nothing but numbers below the bound.
theorem WalCodec.Wrote.below {codec : WalCodec} {content : Bytes} {entries : List WalEntry}
    (h : codec.Wrote content entries) {beforeSequence : Nat}
    (hentries : ∀ entry ∈ entries, entry.sequence < 2 ^ 64 ∧
      WalWriter.KeepsSequence codec entry.timestamp entry.operation)
    (hscan : WalWriter.onlyEntriesBefore beforeSequence (WalReader.fileResults codec content) =
      .ok true) :
    ∀ entry ∈ entries, entry.sequence < beforeSequence := by
  obtain ⟨frames, hframes, rfl⟩ := h
  induction hframes with
  | nil =>
    intro entry hmem
    cases hmem
  | @cons entry bytes entries frames hser _ ih =>
    obtain ⟨hseq, hkeeps⟩ := hentries entry List.mem_cons_self
    have hrest : WalWriter.onlyEntriesBefore beforeSequence
        (WalReader.fileResults codec frames.flatten) = .ok true ∧
        entry.sequence < beforeSequence := by
      rw [List.flatten_cons, WalReader.fileResults_eq] at hscan
      rcases WalReader.nextEntry_written hkeeps hseq hser frames.flatten 0 with
        ⟨read, k', hnext, hnumber⟩ | hnext | ⟨e, r, hnext, hother⟩
      · rw [WalReader.ofBytes, hnext] at hscan
        dsimp only at hscan
        rw [WalWriter.onlyEntriesBefore] at hscan
        split at hscan
        · cases hscan
        · next hlt =>
            rw [hnumber] at hlt
            exact ⟨hscan, Nat.lt_of_not_ge hlt⟩
      · rw [WalReader.ofBytes, hnext] at hscan
        dsimp only at hscan
        rw [WalWriter.onlyEntriesBefore] at hscan
        split at hscan
        · cases hscan
        · next hlt => exact ⟨hscan, Nat.lt_of_not_ge hlt⟩
      · rw [WalReader.ofBytes, hnext] at hscan
        cases e with
        | corruptedEntry seq => exact absurd rfl (hother seq)
        | ioError _ | serializationError _ | deserializationError _ | checksumMismatch _ _
        | fileNotFound _ | invalidFormat =>
          dsimp only at hscan
          rw [WalWriter.onlyEntriesBefore] at hscan
          · cases hscan
          · simp
    intro other hmem
    rcases List.mem_cons.mp hmem with rfl | hmem
    · exact hrest.2
    · exact ih (fun e he => hentries e (List.mem_cons_of_mem _ he)) hrest.1 other hmem

/-! ## Whole runs -/

namespace Journal

/-- The files hold what the journal recorded, the open file is the one the file counter names, and
every recorded operation keeps its number. -/
structure Recorded (codec : WalCodec) (s : Journal) : Prop where
  numbers_nodup : (s.writer.dir.map WalFile.number).Nodup
  file_mem : s.writer.file ∈ s.writer.dir.map WalFile.number
  file_eq : s.writer.file = s.writer.fileNumber
  sequence_lt : s.writer.currentSequence < 2 ^ 64
  logged_mem : ∀ record ∈ s.logged, record.1 ∈ s.writer.dir.map WalFile.number
  written : ∀ file ∈ s.writer.dir, codec.Wrote file.content (s.writtenTo file.number)
  keeps : ∀ record ∈ s.logged, record.2.sequence < 2 ^ 64 ∧
    WalWriter.KeepsSequence codec record.2.timestamp record.2.operation

variable {codec : WalCodec} {s : Journal}

theorem Recorded.of_writer (h : s.Recorded codec) {w : WalWriter} (hdir : w.dir = s.writer.dir)
    (hfile : w.file = s.writer.file) (hnumber : w.fileNumber = s.writer.fileNumber)
    (hseq : w.currentSequence < 2 ^ 64) : Recorded codec { s with writer := w } :=
  ⟨hdir ▸ h.numbers_nodup, hdir ▸ hfile ▸ h.file_mem, hfile.trans (h.file_eq.trans hnumber.symm),
    hseq, hdir ▸ h.logged_mem, hdir ▸ h.written, h.keeps⟩

-- A rotation and a restart both open the file with the number of the counter, creating it if it is
-- missing.
theorem Recorded.openFile (h : s.Recorded codec) {w : WalWriter} (number : Nat)
    (hdir : w.dir = s.writer.dir.create number) (hfile : w.file = number)
    (hnumber : w.fileNumber = number) (hseq : w.currentSequence < 2 ^ 64) :
    Recorded codec { s with writer := w } := by
  have hnumbers (n : Nat) : n ∈ w.dir.map WalFile.number ↔
      n ∈ s.writer.dir.map WalFile.number ∨ n = number := by
    rw [hdir]
    exact WalDir.mem_create_numbers
  refine ⟨?_, ?_, hfile.trans hnumber.symm, hseq, ?_, ?_, h.keeps⟩
  · change (w.dir.map WalFile.number).Nodup
    rw [hdir]
    exact WalDir.create_numbers_nodup h.numbers_nodup number
  · exact (hnumbers _).mpr (.inr hfile)
  · exact fun record hmem => (hnumbers _).mpr (.inl (h.logged_mem record hmem))
  · intro file hmem
    change file ∈ w.dir at hmem
    rw [hdir] at hmem
    unfold WalDir.create at hmem
    split at hmem
    · exact h.written file hmem
    · next hnew =>
        rcases List.mem_append.mp hmem with hmem | hmem
        · exact h.written file hmem
        · -- nothing was recorded under the number of a missing file
          rw [List.mem_singleton.mp hmem]
          have hnone : s.logged.filter (fun record => record.1 = number) = [] := by
            rw [List.filter_eq_nil_iff]
            intro record hrecord heq
            rw [decide_eq_true_eq] at heq
            exact hnew (heq ▸ h.logged_mem record hrecord)
          refine ⟨[], ?_, rfl⟩
          change List.Forall₂ _ ((s.logged.filter (fun record => record.1 = number)).map _) []
          rw [hnone]
          exact .nil

theorem Recorded.makeRoom (h : s.Recorded codec) (n : Nat) :
    Recorded codec { s with writer := s.writer.makeRoom n } := by
  unfold WalWriter.makeRoom
  split
  · exact h.openFile _ rfl rfl rfl h.sequence_lt
  · exact h

-- Writing an entry into the open file and recording it there.
theorem Recorded.write (h : s.Recorded codec) {entry : WalEntry} {bytes : Bytes}
    (hser : codec.serializeEntry entry = .ok bytes) (hseq : entry.sequence < 2 ^ 64)
    (hkeeps : WalWriter.KeepsSequence codec entry.timestamp entry.operation)
    (history : List WalEntry) :
    Recorded codec
      { writer := (s.writer.writeFrame bytes).growFileSize bytes.length
        logged := s.logged ++ [(s.writer.file, entry)]
        history := history } := by
  have hnumbers : ((s.writer.writeFrame bytes).growFileSize bytes.length).dir.map WalFile.number =
      s.writer.dir.map WalFile.number := by
    rw [WalWriter.growFileSize, WalWriter.writeFrame_dir, WalDir.modify_numbers]
  refine ⟨hnumbers ▸ h.numbers_nodup, ?_, ?_, ?_, ?_, ?_, ?_⟩
  · rw [hnumbers, WalWriter.growFileSize, WalWriter.writeFrame_file]
    exact h.file_mem
  · rw [WalWriter.growFileSize, WalWriter.writeFrame_file, WalWriter.writeFrame_fileNumber]
    exact h.file_eq
  · rw [WalWriter.growFileSize, WalWriter.writeFrame_currentSequence]
    exact h.sequence_lt
  · intro record hmem
    rw [hnumbers]
    rcases List.mem_append.mp hmem with hmem | hmem
    · exact h.logged_mem record hmem
    · rw [List.mem_singleton.mp hmem]
      exact h.file_mem
  · intro file hmem
    rw [WalWriter.growFileSize, WalWriter.writeFrame_dir] at hmem
    obtain ⟨old, hold, rfl⟩ := List.mem_map.mp hmem
    obtain ⟨frames, hframes, hcontent⟩ := h.written old hold
    unfold writtenTo at hframes ⊢
    dsimp only
    rw [List.filter_append, List.map_append]
    split
    · next hopen =>
        -- the open file has the new entry behind the old ones
        rw [List.filter_cons_of_pos (by simp [hopen]), List.filter_nil]
        refine ⟨frames ++ [bytes], List.rel_append hframes (.cons hser .nil), ?_⟩
        rw [List.flatten_append, List.flatten_singleton, hcontent]
    · next hother =>
        rw [List.filter_cons_of_neg (by simpa using Ne.symm hother), List.filter_nil, List.map_nil,
          List.append_nil]
        exact ⟨frames, hframes, hcontent⟩
  · intro record hmem
    rcases List.mem_append.mp hmem with hmem | hmem
    · exact h.keeps record hmem
    · rw [List.mem_singleton.mp hmem]
      exact ⟨hseq, hkeeps⟩

theorem Recorded.compact (h : s.Recorded codec) (beforeSequence : Nat) :
    Recorded codec (s.step codec (.compact beforeSequence)) := by
  have hsub : (s.step codec (.compact beforeSequence)).writer.dir.Sublist s.writer.dir :=
    List.filter_sublist
  refine ⟨h.numbers_nodup.sublist (hsub.map _), ?_, h.file_eq, h.sequence_lt, ?_, ?_, ?_⟩
  · obtain ⟨file, hfile, hnumber⟩ := List.mem_map.mp h.file_mem
    refine List.mem_map.mpr ⟨file, List.mem_filter.mpr ⟨hfile, ?_⟩, hnumber⟩
    simp [WalWriter.removable, hnumber, h.file_eq]
  · intro record hmem
    exact of_decide_eq_true (List.mem_filter.mp hmem).2
  · intro file hmem
    have hkept : file.number ∈ (s.step codec (.compact beforeSequence)).writer.dir.map
        WalFile.number := List.mem_map_of_mem hmem
    have hsame : (s.step codec (.compact beforeSequence)).writtenTo file.number =
        s.writtenTo file.number := by
      unfold writtenTo
      congr 1
      change (s.logged.filter _).filter _ = _
      rw [List.filter_filter]
      apply List.filter_congr
      intro record _
      by_cases hnumber : record.1 = file.number
      · simp only [hnumber, decide_true, Bool.true_and, decide_eq_true_eq]
        exact hkept
      · simp [hnumber]
    rw [hsame]
    exact h.written file (hsub.subset hmem)
  · exact fun record hmem => h.keeps record (List.mem_filter.mp hmem).1

def Undisturbed (codec : WalCodec) : WalCommand → Prop
  | .append now operation => WalWriter.KeepsSequence codec now operation
  | .flush | .compact _ | .restart _ => True
  | .crash _ _ => False

theorem recorded_start (config : WalConfig) : Recorded codec (start codec config) := by
  refine ⟨List.pairwise_singleton _ _, List.mem_singleton.mpr rfl, rfl, ?_, ?_, ?_, ?_⟩
  · change 0 < 2 ^ 64
    decide
  · intro record hmem
    cases hmem
  · intro file hmem
    exact ⟨[], .nil, by rw [List.mem_singleton.mp hmem]; rfl⟩
  · intro record hmem
    cases hmem

theorem Recorded.append (h : s.Recorded codec) {now : DateTime} {operation : Operation}
    (hkeeps : WalWriter.KeepsSequence codec now operation) :
    Recorded codec (s.step codec (.append now operation)) := by
  have hfetch : s.writer.fetchSequence.currentSequence < 2 ^ 64 := Nat.mod_lt _ (by decide)
  rcases s.step_append_cases codec now operation with
    hstep | ⟨entry, bytes, hseal, hser, hstep⟩
  · rw [hstep]
    exact h.of_writer rfl rfl rfl hfetch
  · obtain ⟨checksum, rfl, -⟩ := WalWriter.sealEntry_eq hseal
    have hroom := (h.of_writer (w := s.writer.fetchSequence) rfl rfl rfl hfetch).makeRoom
      bytes.length
    rw [hstep]
    have hwrite := hroom.write hser h.sequence_lt hkeeps
      (s.history ++ [⟨s.writer.currentSequence, now, operation, checksum⟩])
    have hopen : (((s.writer.fetchSequence.makeRoom bytes.length).writeFrame bytes).growFileSize
        bytes.length).file = (s.writer.fetchSequence.makeRoom bytes.length).file :=
      WalWriter.writeFrame_file _ _
    dsimp only at hwrite ⊢
    rwa [hopen]

theorem Recorded.restart (h : s.Recorded codec) (config : WalConfig) :
    Recorded codec (s.step codec (.restart config)) := by
  refine h.openFile (WalWriter.scanExistingWals codec s.writer.dir).2 rfl rfl rfl ?_
  change (WalWriter.scanExistingWals codec s.writer.dir).1 < 2 ^ 64
  rw [WalWriter.scanExistingWals_eq]
  dsimp only
  split
  · exact Nat.mod_lt _ (by decide)
  · decide

-- One command of an undisturbed run.
theorem Recorded.step (h : s.Recorded codec) {command : WalCommand}
    (hcommand : Undisturbed codec command) : Recorded codec (s.step codec command) := by
  cases command with
  | append now operation => exact h.append hcommand
  | flush => exact h.of_writer rfl rfl rfl h.sequence_lt
  | compact beforeSequence => exact h.compact beforeSequence
  | restart config => exact h.restart config
  | crash lost config => exact hcommand.elim

theorem Recorded.run (h : s.Recorded codec) {commands : List WalCommand}
    (hcommands : ∀ command ∈ commands, Undisturbed codec command) :
    Recorded codec (s.run codec commands) := by
  induction commands generalizing s with
  | nil => exact h
  | cons command commands ih =>
    exact ih (h.step (hcommands command List.mem_cons_self))
      (fun c hc => hcommands c (List.mem_cons_of_mem _ hc))

/-! ## Runs whose entries read back -/

theorem framed_step (h : s.Recorded codec) (hframed : s.writer.dir.Framed codec)
    {command : WalCommand} (hcommand : Undisturbed codec command)
    (hlog : ∀ now operation, command = .append now operation →
      WalWriter.Loggable codec now operation) :
    (s.step codec command).writer.dir.Framed codec := by
  cases command with
  | append now operation =>
    rcases s.step_append_cases codec now operation with
      hstep | ⟨entry, bytes, hseal, hser, hstep⟩
    · rw [hstep]
      exact hframed
    · have hframes := WalWriter.frames_of_sealEntry (hlog now operation rfl) h.sequence_lt hseal
        hser
      have hsound : s.writer.Sound codec := ⟨hframed, h.numbers_nodup, h.file_mem⟩
      rw [hstep]
      exact (hsound.append hframes).1.framed
  | flush => exact hframed
  | compact beforeSequence =>
    exact fun file hmem => hframed file (List.mem_filter.mp hmem).1
  | restart config => exact (hframed.create _).1
  | crash lost config => exact hcommand.elim

theorem framed_run (h : s.Recorded codec) (hframed : s.writer.dir.Framed codec)
    {commands : List WalCommand} (hcommands : ∀ command ∈ commands, Undisturbed codec command)
    (hlog : ∀ now operation, .append now operation ∈ commands →
      WalWriter.Loggable codec now operation) :
    (s.run codec commands).writer.dir.Framed codec := by
  induction commands generalizing s with
  | nil => exact hframed
  | cons command commands ih =>
    have hcommand := hcommands command List.mem_cons_self
    refine ih (h.step hcommand) (framed_step h hframed hcommand ?_)
      (fun c hc => hcommands c (List.mem_cons_of_mem _ hc))
      (fun now operation hmem => hlog now operation (List.mem_cons_of_mem _ hmem))
    intro now operation heq
    exact hlog now operation (heq ▸ List.mem_cons_self)

end Journal

end VedDb
