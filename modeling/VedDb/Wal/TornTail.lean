import VedDb.Wal.Replay
import VedDb.Wal.Writer

/-!
# Torn tails

A crash in the middle of a write leaves a prefix of the log file.  Replay recovers from it exactly
when the prefix ends between two frames.  Behind a complete length field the reader takes the end
of the file for an I/O error and the whole replay fails.  Inside a length field it takes the cut
for the end of the log, but the reopened writer appends behind the stray bytes, and no later entry
is read back.
-/

namespace VedDb

open LittleEndian

/-! ## Cutting a list of frames -/

/-- How many of the frames lie completely within the first `k` bytes. -/
def completeFrames : List Bytes → Nat → Nat
  | [], _ => 0
  | frame :: frames, k =>
    if frame.length ≤ k then completeFrames frames (k - frame.length) + 1 else 0

/-- The first `k` bytes end between two frames, or behind the last. -/
def OnBoundary (frames : List Bytes) (k : Nat) : Prop :=
  ∃ m, frames.flatten.take k = (frames.take m).flatten

-- A cut leaves the complete frames and a part of the next one.
theorem take_flatten_eq (frames : List Bytes) (k : Nat) :
    ∃ torn, frames.flatten.take k = (frames.take (completeFrames frames k)).flatten ++ torn ∧
      (torn = [] ∨ ∃ frame r, frame ∈ frames ∧ 0 < r ∧ r < frame.length ∧ torn = frame.take r ∧
        frames[completeFrames frames k]? = some frame) := by
  induction frames generalizing k with
  | nil => exact ⟨[], by simp [completeFrames], .inl rfl⟩
  | cons frame frames ih =>
    rw [List.flatten_cons, completeFrames]
    by_cases hlen : frame.length ≤ k
    · obtain ⟨torn, htake, htorn⟩ := ih (k - frame.length)
      refine ⟨torn, ?_, ?_⟩
      · rw [if_pos hlen, List.take_append, List.take_of_length_le hlen, htake,
          List.take_succ_cons, List.flatten_cons, List.append_assoc]
      · rcases htorn with htorn | ⟨f, r, hf, hr⟩
        · exact .inl htorn
        · refine .inr ⟨f, r, List.mem_cons_of_mem _ hf, ?_⟩
          rw [if_pos hlen, List.getElem?_cons_succ]
          exact hr
    · rw [if_neg hlen]
      refine ⟨frame.take k, ?_, ?_⟩
      · rw [List.take_append, Nat.sub_eq_zero_of_le (by omega)]
        simp
      · by_cases hk : k = 0
        · exact .inl (by simp [hk])
        · exact .inr ⟨frame, k, List.mem_cons_self, by omega, by omega, rfl, rfl⟩

-- On a boundary nothing is torn.
theorem onBoundary_torn {frames : List Bytes} {k : Nat} {torn : Bytes}
    (hb : OnBoundary frames k)
    (htake : frames.flatten.take k = (frames.take (completeFrames frames k)).flatten ++ torn)
    (htorn : torn = [] ∨ ∃ frame r, frame ∈ frames ∧ 0 < r ∧ r < frame.length ∧
      torn = frame.take r ∧ frames[completeFrames frames k]? = some frame) : torn = [] := by
  obtain ⟨m, hm⟩ := hb
  rcases htorn with htorn | ⟨frame, r, -, hpos, hlt, rfl, hnext⟩
  · exact htorn
  exfalso
  generalize hc : completeFrames frames k = c at *
  have hlen : (frames.take m).flatten.length = (frames.take c).flatten.length + r := by
    rw [← hm, htake, List.length_append, List.length_take]
    omega
  have hgrows {i j : Nat} (hij : i ≤ j) :
      (frames.take i).flatten.length ≤ (frames.take j).flatten.length := by
    obtain ⟨rest, hrest⟩ := List.take_prefix_take_left (l := frames) hij
    rw [← hrest, List.flatten_append, List.length_append]
    omega
  rcases Nat.lt_or_ge c m with hcm | hmc
  · have hsucc := hgrows hcm
    rw [Nat.succ_eq_add_one, List.take_add_one, hnext, Option.toList_some, List.flatten_append,
      List.flatten_singleton, List.length_append] at hsucc
    omega
  · have := hgrows hmc
    omega

/-! ## Recovery -/

section

variable (codec : WalCodec)

def WalWriter.appendAll : WalWriter → List (DateTime × Operation) → List WalEntry × WalWriter
  | w, [] => ([], w)
  | w, (now, operation) :: operations =>
    match w.append codec now operation, sealEntry codec w.currentSequence now operation with
    | (.ok _, w), .ok entry =>
      (entry :: (appendAll w operations).1, (appendAll w operations).2)
    | (_, w), _ => appendAll w operations

/-- Recovery from the first `k` bytes of a log.  Replaying them succeeds and applies the complete
entries.  Whatever a writer reopened on them appends, a later replay of the directory succeeds,
and reads and applies the complete entries and all the appended ones. -/
structure Recovers (json : DocumentJson) (entries : List WalEntry) (frames : List Bytes) (k : Nat) :
    Prop where
  replays : ∀ now layer, ∃ stats,
    replayWal json codec now (frames.flatten.take k) layer 0 =
      (.ok stats, applyAll json now
        ((entries.take (completeFrames frames k)).map WalEntry.operation) layer)
  reads_back : ∀ (number : Nat) (config : WalConfig) (operations : List (DateTime × Operation)),
    (∀ op ∈ operations, WalWriter.Loggable codec op.1 op.2) →
    let reopened := WalWriter.new codec config [⟨number, frames.flatten.take k⟩]
    let dir := (reopened.appendAll codec operations).2.dir
    ∃ read : List WalEntry, dir.results codec = read.map .ok ∧
      read.Perm (entries.take (completeFrames frames k) ++
        (reopened.appendAll codec operations).1) ∧
      ∀ now layer, ∃ stats, replayAllWals json codec now dir layer 0 =
        (.ok stats, applyAll json now (read.map WalEntry.operation) layer)

/-- Some operation is logged in a frame of fewer than `264` bytes, whatever its number: one that
drops a collection with a short name, say. -/
def HasSmallOperation : Prop :=
  ∃ now operation, WalWriter.Loggable codec now operation ∧
    ∀ sequence < 2 ^ 64, ∃ entry entryJson,
      WalWriter.sealEntry codec sequence now operation = .ok entry ∧
      codec.toVec entry = .ok entryJson ∧ 0 < entryJson.length ∧ entryJson.length < 256

end

variable {codec : WalCodec} {json : DocumentJson}

theorem replayedOperations_zero (entries : List WalEntry) :
    replayedOperations 0 entries = entries.map WalEntry.operation := by
  simp [replayedOperations]

/-! ### On a boundary -/

theorem WalWriter.new_currentSequence_lt (config : WalConfig) (dir : WalDir) :
    (WalWriter.new codec config dir).currentSequence < 2 ^ 64 := by
  change (WalWriter.scanExistingWals codec dir).1 < 2 ^ 64
  rw [WalWriter.scanExistingWals_eq]
  dsimp only
  split
  · exact Nat.mod_lt _ (by decide)
  · decide

-- Appending to a sound writer logs the appended entries and keeps the others.
theorem WalWriter.Sound.appendAll {w : WalWriter} (h : w.Sound codec)
    (hseq : w.currentSequence < 2 ^ 64) {operations : List (DateTime × Operation)}
    (hlog : ∀ op ∈ operations, WalWriter.Loggable codec op.1 op.2) :
    (w.appendAll codec operations).2.Sound codec ∧
      ((w.appendAll codec operations).2.dir.entries codec).Perm
        (w.dir.entries codec ++ (w.appendAll codec operations).1) := by
  induction operations generalizing w with
  | nil => exact ⟨h, by simp [WalWriter.appendAll]⟩
  | cons op operations ih =>
    obtain ⟨now, operation⟩ := op
    have htail : ∀ op ∈ operations, WalWriter.Loggable codec op.1 op.2 := fun op hop =>
      hlog op (List.mem_cons_of_mem _ hop)
    have hnext : w.fetchSequence.currentSequence < 2 ^ 64 := Nat.mod_lt _ (by decide)
    rcases w.append_cases (hlog _ List.mem_cons_self) hseq with
      ⟨e, happend⟩ | ⟨entry, bytes, hseal, -, hframes, happend⟩
    · have hfetch : w.fetchSequence.Sound codec := h.of_dir_eq rfl rfl
      simp only [WalWriter.appendAll, happend]
      exact ih hfetch hnext htail
    · obtain ⟨hsound, hentries, -⟩ := h.append hframes
      simp only [WalWriter.appendAll, happend, hseal]
      obtain ⟨hfinal, hperm⟩ := ih hsound
        (by simpa only [WalWriter.growFileSize, WalWriter.writeFrame_currentSequence,
          WalWriter.makeRoom_currentSequence] using hnext) htail
      refine ⟨hfinal, hperm.trans ?_⟩
      rw [List.append_cons]
      exact hentries.append_right _

theorem recovers_of_onBoundary {entries : List WalEntry} {frames : List Bytes} {k : Nat}
    (hframes : List.Forall₂ codec.Frames entries frames) (hb : OnBoundary frames k) :
    Recovers codec json entries frames k := by
  obtain ⟨torn, htake, htorn⟩ := take_flatten_eq frames k
  rw [onBoundary_torn hb htake htorn, List.append_nil] at htake
  have hholds : codec.Holds (frames.flatten.take k)
      (entries.take (completeFrames frames k)) :=
    ⟨_, List.forall₂_take _ hframes, htake⟩
  constructor
  · intro now layer
    obtain ⟨stats, hreplay⟩ := replayWal_of_holds json now 0 hholds layer
    rw [replayedOperations_zero] at hreplay
    exact ⟨stats, hreplay⟩
  · intro number config operations hlog reopened dir
    obtain ⟨hdir, hfile, -⟩ := WalWriter.new_one codec config number (frames.flatten.take k)
    have hentries : WalFile.entries codec ⟨number, frames.flatten.take k⟩ = _ :=
      WalFile.entries_of_holds hholds
    have hsound : reopened.Sound codec := by
      refine ⟨?_, ?_, ?_⟩
      · rw [hdir]
        intro file hmem
        rw [List.mem_singleton.mp hmem, hentries]
        exact hholds
      · rw [hdir]
        exact List.pairwise_singleton _ _
      · rw [hdir, hfile]
        exact List.mem_singleton.mpr rfl
    obtain ⟨hfinal, hperm⟩ := hsound.appendAll
      (WalWriter.new_currentSequence_lt config _) hlog
    have hbefore : reopened.dir.entries codec = entries.take (completeFrames frames k) := by
      rw [hdir, WalDir.entries, List.flatMap_singleton, hentries]
    rw [hbefore] at hperm
    refine ⟨WalDir.entries codec (scanWalFiles dir), WalDir.results_of_framed hfinal.framed,
      ?_, ?_⟩
    · exact ((scanWalFiles_perm dir).flatMap_right _).trans hperm
    · intro now layer
      obtain ⟨stats, hreplay⟩ := replayAllWals_of_framed json now 0 hfinal.framed layer
      rw [replayedOperations_zero] at hreplay
      exact ⟨stats, hreplay⟩

/-! ### Off a boundary -/

-- A length field that promises more than is left ends in an I/O error.
theorem WalReader.fileResults_short {bytes lenBytes rest : Bytes}
    (hread : readExact 4 bytes = some (lenBytes, rest))
    (hshort : rest.length < ofLeBytes lenBytes + 4) :
    fileResults codec bytes = [.error (.ioError .unexpectedEof)] := by
  have hnext : ∃ r, nextEntry codec (ofBytes bytes) = (.error (.ioError .unexpectedEof), r) := by
    unfold nextEntry ofBytes
    simp only [hread]
    rcases hpayload : readExact (ofLeBytes lenBytes) rest with - | ⟨entryBytes, rest'⟩
    · exact ⟨_, rfl⟩
    · obtain ⟨rfl, hlen⟩ := readExact_eq_some hpayload
      have hchecksum : readExact 4 rest' = none := by
        rw [readExact_eq_none_iff]
        rw [List.length_append] at hshort
        omega
      simp only [hchecksum]
      exact ⟨_, rfl⟩
  obtain ⟨r, hnext⟩ := hnext
  rw [fileResults, readResults, hnext]

-- A frame cut behind its length field.
theorem WalReader.fileResults_torn_payload {entry : WalEntry} {frame : Bytes} {r : Nat}
    (h : codec.Frames entry frame) (hr : 4 ≤ r) (hlt : r < frame.length) :
    fileResults codec (frame.take r) = [.error (.ioError .unexpectedEof)] := by
  obtain ⟨entryJson, -, -, hlen, rfl⟩ := h.exists_json
  rw [WalCodec.frame_length] at hlt
  have hsplit : (WalCodec.frame entryJson entry.checksum).take r = leBytes 4 entryJson.length ++
      (entryJson ++ leBytes 4 entry.checksum.toNat).take (r - 4) := by
    rw [WalCodec.frame, List.append_assoc, List.take_append, leBytes_length,
      List.take_of_length_le (by rw [leBytes_length]; exact hr)]
  have hread : readExact 4 ((WalCodec.frame entryJson entry.checksum).take r) =
      some (leBytes 4 entryJson.length,
        (entryJson ++ leBytes 4 entry.checksum.toNat).take (r - 4)) := by
    rw [hsplit]
    have happend := readExact_append (leBytes 4 entryJson.length)
      ((entryJson ++ leBytes 4 entry.checksum.toNat).take (r - 4))
    rwa [leBytes_length] at happend
  apply fileResults_short hread
  rw [ofLeBytes_leBytes_of_lt hlen, List.length_take]
  omega

-- Fewer than four stray bytes in front of a small frame shift its length into the high bytes of
-- the length that is read.
theorem WalReader.fileResults_stray (codec : WalCodec) {stray entryJson : Bytes} (checksum : UInt32)
    (hstray : 0 < stray.length) (hstray4 : stray.length < 4) (hpos : 0 < entryJson.length)
    (hlen : entryJson.length < 256) :
    fileResults codec (stray ++ WalCodec.frame entryJson checksum) =
      [.error (.ioError .unexpectedEof)] := by
  have hframe : WalCodec.frame entryJson checksum =
      UInt8.ofNat entryJson.length :: 0 :: 0 :: 0 :: (entryJson ++ leBytes 4 checksum.toNat) := by
    have hmod : entryJson.length % 256 = entryJson.length := Nat.mod_eq_of_lt hlen
    have hdiv : entryJson.length / 256 = 0 := Nat.div_eq_of_lt hlen
    simp [WalCodec.frame, leBytes, hmod, hdiv]
  have hbyte : (UInt8.ofNat entryJson.length).toNat = entryJson.length := by
    simp only [UInt8.toNat_ofNat', Nat.reducePow]
    omega
  generalize hb : UInt8.ofNat entryJson.length = b at hframe hbyte
  generalize hbody : entryJson ++ leBytes 4 checksum.toNat = body at hframe
  have hbodyLen : body.length = b.toNat + 4 := by
    rw [← hbody, List.length_append, leBytes_length, hbyte]
  rw [hframe]
  -- one, two or three bytes of the small frame's length complete the field
  rcases stray with - | ⟨x, - | ⟨y, - | ⟨z, - | ⟨u, stray⟩⟩⟩⟩
  · simp at hstray
  · apply fileResults_short (show readExact 4 _ = some ([x, b, 0, 0], 0 :: body) from rfl)
    have hvalue : ofLeBytes [x, b, 0, 0] = x.toNat + 256 * b.toNat := by simp [ofLeBytes]
    rw [hvalue, List.length_cons, hbodyLen]
    omega
  · apply fileResults_short (show readExact 4 _ = some ([x, y, b, 0], 0 :: 0 :: body) from rfl)
    have hvalue : ofLeBytes [x, y, b, 0] = x.toNat + 256 * (y.toNat + 256 * b.toNat) := by
      simp [ofLeBytes]
    rw [hvalue, List.length_cons, List.length_cons, hbodyLen]
    omega
  · apply fileResults_short
      (show readExact 4 _ = some ([x, y, z, b], 0 :: 0 :: 0 :: body) from rfl)
    simp only [ofLeBytes, List.length_cons, hbodyLen]
    omega
  · simp only [List.length_cons] at hstray4
    omega

-- An append that needs no rotation writes behind whatever the one file holds.
theorem WalWriter.appendAll_new_one {content bytes : Bytes} {config : WalConfig} {now : DateTime}
    {operation : Operation} {entry : WalEntry}
    (hseal : sealEntry codec (new codec config [⟨0, content⟩]).currentSequence now operation =
      .ok entry) (hser : codec.serializeEntry entry = .ok bytes)
    (hfits : content.length + bytes.length ≤ config.maxFileSize) :
    ((new codec config [⟨0, content⟩]).appendAll codec [(now, operation)]).2.dir =
      [⟨0, content ++ bytes⟩] := by
  obtain ⟨hdir, hfile, hsize⟩ := new_one codec config 0 content
  have hroom : (new codec config [⟨0, content⟩]).fetchSequence.shouldRotate bytes.length =
      false := by
    simp only [shouldRotate, fetchSequence, hsize, decide_eq_false_iff_not, gt_iff_lt, not_lt]
    exact hfits
  simp only [appendAll, append, hseal, hser, hroom, Bool.false_eq_true, if_false, growFileSize,
    writeFrame_dir]
  simp only [fetchSequence, hdir, hfile, WalDir.modify, List.map_cons, List.map_nil, if_true]

-- Inside a length field the next append is lost.
theorem not_reads_back_of_stray {complete : List WalEntry} {content stray : Bytes}
    (hstray : 0 < stray.length) (hstray4 : stray.length < 4) (hsmall : HasSmallOperation codec)
    (hresults : ∀ rest, WalReader.fileResults codec (content ++ rest) =
      complete.map .ok ++ WalReader.fileResults codec (stray ++ rest)) :
    ∃ (config : WalConfig) (now : DateTime) (operation : Operation),
      WalWriter.Loggable codec now operation ∧ ∀ read : List WalEntry,
        ((WalWriter.new codec config [⟨0, content⟩]).appendAll codec
          [(now, operation)]).2.dir.results codec ≠ read.map .ok := by
  obtain ⟨now, operation, hlog, hframe⟩ := hsmall
  obtain ⟨config, hconfig⟩ : ∃ config : WalConfig, config.maxFileSize = content.length + 264 :=
    ⟨{ fsyncPolicy := .always, maxFileSize := content.length + 264 }, rfl⟩
  obtain ⟨entry, entryJson, hseal, hto, hjson, hjson256⟩ := hframe
    (WalWriter.new codec config [⟨0, content⟩]).currentSequence
    (WalWriter.new_currentSequence_lt config _)
  have hser : codec.serializeEntry entry = .ok (WalCodec.frame entryJson entry.checksum) := by
    simp only [WalCodec.serializeEntry, hto]
  have hfits : content.length + (WalCodec.frame entryJson entry.checksum).length ≤
      config.maxFileSize := by
    rw [hconfig, WalCodec.frame_length]
    omega
  refine ⟨config, now, operation, hlog, fun read hread => ?_⟩
  have hone : WalDir.results codec [⟨0, content ++ WalCodec.frame entryJson entry.checksum⟩] =
      complete.map .ok ++ [.error (.ioError .unexpectedEof)] := by
    rw [← WalReader.fileResults_stray codec entry.checksum hstray hstray4 hjson
      hjson256, ← hresults]
    simp [WalDir.results, scanWalFiles]
  rw [WalWriter.appendAll_new_one hseal hser hfits, hone] at hread
  have herror : (.error (.ioError .unexpectedEof) : Except WalError WalEntry) ∈
      read.map .ok := by
    rw [← hread]
    simp
  simp at herror

theorem onBoundary_of_recovers {entries : List WalEntry} {frames : List Bytes} {k : Nat}
    (hframes : List.Forall₂ codec.Frames entries frames) (hsmall : HasSmallOperation codec)
    (h : Recovers codec json entries frames k) : OnBoundary frames k := by
  obtain ⟨torn, htake, htorn⟩ := take_flatten_eq frames k
  have hresults (rest : Bytes) : WalReader.fileResults codec (frames.flatten.take k ++ rest) =
      (entries.take (completeFrames frames k)).map .ok ++
        WalReader.fileResults codec (torn ++ rest) := by
    rw [htake, List.append_assoc]
    exact WalReader.fileResults_frames_append codec (List.forall₂_take _ hframes) _
  rcases htorn with rfl | ⟨frame, r, hmem, hpos, hlt, rfl, -⟩
  · exact ⟨_, htake.trans (List.append_nil _)⟩
  exfalso
  rcases Nat.lt_or_ge r 4 with hr | hr
  · have hlen : (frame.take r).length = r := List.length_take_of_le (by omega)
    obtain ⟨config, now, operation, hlog, hlost⟩ :=
      not_reads_back_of_stray (by omega) (by omega) hsmall hresults
    obtain ⟨read, hread, -, -⟩ := h.reads_back 0 config [(now, operation)]
      (fun op hop => by rw [List.mem_singleton.mp hop]; exact hlog)
    exact hlost read hread
  · -- behind the length field replay fails
    have hframed : ∃ entry, codec.Frames entry frame := by
      obtain ⟨i, hi, rfl⟩ := List.mem_iff_getElem.mp hmem
      exact ⟨_, hframes.get (hframes.length_eq ▸ hi) hi⟩
    obtain ⟨entry, hentry⟩ := hframed
    have htail := hresults []
    rw [List.append_nil, List.append_nil, WalReader.fileResults_torn_payload hentry hr hlt] at htail
    obtain ⟨stats, hreplay⟩ := h.replays 0 .empty
    have hfail := replayWal_error json 0 0 htail .empty
    rw [hreplay] at hfail
    cases hfail

theorem dropCodec_hasSmallOperation : HasSmallOperation dropCodec := by
  refine ⟨0, .dropCollection "users", WalWriter.dropCodec_loggable, fun sequence hseq => ?_⟩
  exact ⟨droppedUsers sequence, _, rfl, rfl, dropJson_users_length hseq _⟩

/-- **Torn tails.**  Replay recovers from a cut of the log exactly when the cut falls between two
frames. -/
theorem recovers_iff_onBoundary {entries : List WalEntry} {frames : List Bytes}
    (hframes : List.Forall₂ codec.Frames entries frames) (hsmall : HasSmallOperation codec)
    (k : Nat) : Recovers codec json entries frames k ↔ OnBoundary frames k :=
  ⟨onBoundary_of_recovers hframes hsmall, recovers_of_onBoundary hframes⟩

/-- A log of three entries, cut behind the second. -/
theorem recovers_two_of_three :
    let entries := [droppedUsers 1, droppedUsers 2, droppedUsers 3]
    let frames := [droppedFrame 1, droppedFrame 2, droppedFrame 3]
    Recovers dropCodec nullDocuments entries frames
      ((droppedFrame 1).length + (droppedFrame 2).length) := by
  have hframes : List.Forall₂ dropCodec.Frames [droppedUsers 1, droppedUsers 2, droppedUsers 3]
      [droppedFrame 1, droppedFrame 2, droppedFrame 3] :=
    .cons (dropCodec_frames (by decide)) (.cons (dropCodec_frames (by decide))
      (.cons (dropCodec_frames (by decide)) .nil))
  refine (recovers_iff_onBoundary hframes dropCodec_hasSmallOperation _).mpr ⟨2, ?_⟩
  have hsplit : [droppedFrame 1, droppedFrame 2, droppedFrame 3].flatten =
      (droppedFrame 1 ++ droppedFrame 2) ++ droppedFrame 3 := by
    simp
  rw [hsplit, ← List.length_append, List.take_left]
  simp

/-- The first ten bytes of a log of one entry: replay ends in an I/O error. -/
theorem not_recovers_ten_bytes :
    ¬ Recovers dropCodec nullDocuments [droppedUsers 1] [droppedFrame 1] 10 := by
  intro h
  obtain ⟨stats, hreplay⟩ := h.replays 0 .empty
  have hfail : (replayWal nullDocuments dropCodec 0 ([droppedFrame 1].flatten.take 10) .empty 0).1 =
      .error (.ioError .unexpectedEof) := by
    decide +kernel
  rw [hreplay] at hfail
  cases hfail

end VedDb
