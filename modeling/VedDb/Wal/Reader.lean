import Mathlib.Data.List.Forall2
import VedDb.Wal.Entry

/-!
# Reading the log

`WalReader::next_entry` of `wal/reader.rs` as a state-passing function over the unread bytes of a
file, and what repeated calls return.  A stream of frames is read back entry by entry, and a frame
whose checksum does not verify is reported and stepped over.
-/

namespace VedDb

open LittleEndian

/-- `WalReader`: the unread part of the file and the number of entries read. -/
structure WalReader where
  rest : Bytes
  entriesRead : Nat

namespace WalReader

/-- `WalReader::open` on a file with the given contents. -/
def ofBytes (content : Bytes) : WalReader := { rest := content, entriesRead := 0 }

variable (codec : WalCodec)

/-- `WalReader::next_entry`.  An exact read that runs into the end of the file consumes what was
left.  Only the first of the three reads turns an end of file into `Ok(None)`. -/
def nextEntry (r : WalReader) : Except WalError (Option WalEntry) × WalReader :=
  match readExact 4 r.rest with
  | none => (.ok none, { r with rest := [] })
  | some (lenBytes, rest) =>
    match readExact (ofLeBytes lenBytes) rest with
    | none => (.error (.ioError .unexpectedEof), { r with rest := [] })
    | some (entryBytes, rest) =>
      match readExact 4 rest with
      | none => (.error (.ioError .unexpectedEof), { r with rest := [] })
      | some (checksumBytes, rest) =>
        match codec.fromSlice entryBytes with
        | .error e => (.error (.deserializationError e), { r with rest := rest })
        | .ok entry =>
          let entry := { entry with checksum := UInt32.ofNat (ofLeBytes checksumBytes) }
          match codec.verifyChecksum entry with
          | .error e => (.error e, { r with rest := rest })
          | .ok false =>
            (.error (.corruptedEntry entry.sequence), { r with rest := rest })
          | .ok true =>
            (.ok (some entry), { rest := rest, entriesRead := r.entriesRead + 1 })

/-- What the next `n` calls of `next_entry` return. -/
def calls : Nat → WalReader → List (Except WalError (Option WalEntry))
  | 0, _ => []
  | n + 1, r => (nextEntry codec r).1 :: calls n (nextEntry codec r).2

/-! ## One frame -/

-- The three reads of a call, on a stream that is long enough for them.
theorem nextEntry_reads {lenBytes entryBytes checksumBytes : Bytes} (hlen : lenBytes.length = 4)
    (hentry : entryBytes.length = ofLeBytes lenBytes) (hsum : checksumBytes.length = 4)
    (rest : Bytes) (k : Nat) :
    nextEntry codec ⟨lenBytes ++ (entryBytes ++ (checksumBytes ++ rest)), k⟩ =
      match codec.fromSlice entryBytes with
      | .error e => (.error (.deserializationError e), ⟨rest, k⟩)
      | .ok entry =>
        let entry := { entry with checksum := UInt32.ofNat (ofLeBytes checksumBytes) }
        match codec.verifyChecksum entry with
        | .error e => (.error e, ⟨rest, k⟩)
        | .ok false => (.error (.corruptedEntry entry.sequence), ⟨rest, k⟩)
        | .ok true => (.ok (some entry), ⟨rest, k + 1⟩) := by
  have hread₁ : readExact 4 (lenBytes ++ (entryBytes ++ (checksumBytes ++ rest))) =
      some (lenBytes, entryBytes ++ (checksumBytes ++ rest)) := by
    rw [← hlen]
    exact readExact_append _ _
  have hread₂ : readExact (ofLeBytes lenBytes) (entryBytes ++ (checksumBytes ++ rest)) =
      some (entryBytes, checksumBytes ++ rest) := by
    rw [← hentry]
    exact readExact_append _ _
  have hread₃ : readExact 4 (checksumBytes ++ rest) = some (checksumBytes, rest) := by
    rw [← hsum]
    exact readExact_append _ _
  simp only [nextEntry, hread₁, hread₂, hread₃]

-- A frame is split off the stream, whatever follows it.
theorem nextEntry_frame {entryJson : Bytes} {entry : WalEntry}
    (hfrom : codec.fromSlice entryJson = .ok entry) (hlen : entryJson.length < 2 ^ 32)
    (stored : UInt32) (rest : Bytes) (k : Nat) :
    nextEntry codec ⟨WalCodec.frame entryJson stored ++ rest, k⟩ =
      match codec.verifyChecksum { entry with checksum := stored } with
      | .error e => (.error e, ⟨rest, k⟩)
      | .ok false => (.error (.corruptedEntry entry.sequence), ⟨rest, k⟩)
      | .ok true => (.ok (some { entry with checksum := stored }), ⟨rest, k + 1⟩) := by
  have hstored : UInt32.ofNat (ofLeBytes (leBytes 4 stored.toNat)) = stored := by
    rw [ofLeBytes_leBytes_of_lt stored.toNat_lt, UInt32.ofNat_toNat]
  rw [WalCodec.frame, List.append_assoc, List.append_assoc,
    nextEntry_reads codec (leBytes_length _ _) (ofLeBytes_leBytes_of_lt hlen).symm
      (leBytes_length _ _)]
  simp only [hfrom, hstored]

-- A frame is read as its entry.
theorem nextEntry_of_frames {entry : WalEntry} {bytes : Bytes} (h : codec.Frames entry bytes)
    (rest : Bytes) (k : Nat) :
    nextEntry codec ⟨bytes ++ rest, k⟩ = (.ok (some entry), ⟨rest, k + 1⟩) := by
  obtain ⟨entryJson, -, hfrom, hlen, rfl⟩ := h.exists_json
  rw [nextEntry_frame codec hfrom hlen]
  simp only [h.sealed]

-- A frame whose stored checksum does not verify is reported under its entry's sequence.
theorem nextEntry_of_corrupted {entryJson : Bytes} {entry : WalEntry} {stored : UInt32}
    (hfrom : codec.fromSlice entryJson = .ok entry) (hlen : entryJson.length < 2 ^ 32)
    (hbad : codec.verifyChecksum { entry with checksum := stored } = .ok false)
    (rest : Bytes) (k : Nat) :
    nextEntry codec ⟨WalCodec.frame entryJson stored ++ rest, k⟩ =
      (.error (.corruptedEntry entry.sequence), ⟨rest, k⟩) := by
  rw [nextEntry_frame codec hfrom hlen]
  simp only [hbad]

/-! ## A stream of frames -/

/-- The reader answers `result` at the front of `bytes` and stops right behind it. -/
def ReadsAs (bytes : Bytes) (result : Except WalError (Option WalEntry)) : Prop :=
  ∀ rest k, ∃ k', nextEntry codec ⟨bytes ++ rest, k⟩ = (result, ⟨rest, k'⟩)

theorem readsAs_of_frames {entry : WalEntry} {bytes : Bytes} (h : codec.Frames entry bytes) :
    ReadsAs codec bytes (.ok (some entry)) :=
  fun rest k => ⟨k + 1, nextEntry_of_frames codec h rest k⟩

-- Frame by frame, the calls answer what each frame reads as and then go on behind the last.
theorem calls_flatten {frames : List Bytes} {results : List (Except WalError (Option WalEntry))}
    (h : List.Forall₂ (ReadsAs codec) frames results) (rest : Bytes) (n k : Nat) :
    ∃ k', calls codec (results.length + n) ⟨frames.flatten ++ rest, k⟩ =
      results ++ calls codec n ⟨rest, k'⟩ := by
  induction h generalizing k with
  | nil => exact ⟨k, by simp⟩
  | @cons f r fs rs hhead _ ih =>
    obtain ⟨k₁, hnext⟩ := hhead (fs.flatten ++ rest) k
    obtain ⟨k', hrest⟩ := ih k₁
    refine ⟨k', ?_⟩
    rw [List.length_cons, Nat.succ_add, calls, List.flatten_cons, List.append_assoc, hnext,
      hrest, List.cons_append]

theorem calls_nil (k : Nat) : calls codec 1 ⟨[], k⟩ = [.ok none] := rfl

-- Replacing one frame replaces the answer at its position and no other.
theorem forall₂_readsAs_set {frames : List Bytes}
    {results : List (Except WalError (Option WalEntry))} {f : Bytes}
    {r : Except WalError (Option WalEntry)}
    (h : List.Forall₂ (ReadsAs codec) frames results) (hf : ReadsAs codec f r) (i : Nat) :
    List.Forall₂ (ReadsAs codec) (frames.set i f) (results.set i r) := by
  induction h generalizing i with
  | nil => simp
  | cons hhead htail ih =>
    cases i with
    | zero => exact .cons hf htail
    | succ i => exact .cons hhead (ih i)

/-- **Frame codec.**  Reading back the frames `serialize_entry` wrote for a list of entries answers
exactly those entries and then the end of the file.  With the payload (and stored checksum) of any
one frame exchanged for one that does not verify, the reader reports that frame as corrupted and
still answers every other entry. -/
theorem calls_serialized_entries (es : List WalEntry) (frames : List Bytes)
    (hframes : List.Forall₂ (fun e f => codec.serializeEntry e = .ok f) es frames)
    (hround : ∀ e ∈ es, codec.RoundTrips e)
    (hsealed : ∀ e ∈ es, codec.verifyChecksum e = .ok true)
    (hsize : ∀ f ∈ frames, f.length < 2 ^ 32) :
    calls codec (es.length + 1) (ofBytes frames.flatten) =
        es.map (fun e => .ok (some e)) ++ [.ok none] ∧
      ∀ (i : Nat) (bad : WalEntry) (badJson : Bytes) (stored : UInt32), i < es.length →
        codec.toVec bad = .ok badJson → codec.fromSlice badJson = .ok bad →
        (WalCodec.frame badJson stored).length < 2 ^ 32 →
        codec.verifyChecksum { bad with checksum := stored } = .ok false →
        calls codec (es.length + 1)
            (ofBytes (frames.set i (WalCodec.frame badJson stored)).flatten) =
          (es.map (fun e => .ok (some e))).set i (.error (.corruptedEntry bad.sequence)) ++
            [.ok none] := by
  have hreads : List.Forall₂ (ReadsAs codec) frames
      (es.map (fun e => (.ok (some e) : Except WalError (Option WalEntry)))) := by
    rw [List.forall₂_map_right_iff]
    induction hframes with
    | nil => exact .nil
    | @cons e f es fs hhead _ ih =>
      refine .cons ?_ (ih (fun x hx => hround x (List.mem_cons_of_mem _ hx))
        (fun x hx => hsealed x (List.mem_cons_of_mem _ hx))
        (fun x hx => hsize x (List.mem_cons_of_mem _ hx)))
      apply readsAs_of_frames
      exact WalCodec.frames_of_serializeEntry (hround e List.mem_cons_self)
        (hsealed e List.mem_cons_self) hhead (hsize f List.mem_cons_self)
  refine ⟨?_, ?_⟩
  · obtain ⟨k', h⟩ := calls_flatten codec hreads [] 1 0
    rw [List.length_map, List.append_nil, calls_nil] at h
    exact h
  · intro i bad badJson stored _ _ hfrom hlen hbad
    have hread : ReadsAs codec (WalCodec.frame badJson stored)
        (.error (.corruptedEntry bad.sequence)) := by
      intro rest k
      rw [WalCodec.frame_length] at hlen
      exact ⟨k, nextEntry_of_corrupted codec hfrom (by omega) hbad rest k⟩
    obtain ⟨k', h⟩ := calls_flatten codec (forall₂_readsAs_set codec hreads hread i) [] 1 0
    rw [List.length_set, List.length_map, List.append_nil, calls_nil] at h
    exact h

/-- Three drops of the collection `users`, the second with a wrong checksum in front. -/
theorem calls_corrupted_middle :
    calls dropCodec 4 (ofBytes ([droppedFrame 1, droppedFrame 2, droppedFrame 3].set 1
        (WalCodec.frame (dropJson 2 "users" (droppedUsers 2).checksum) 0)).flatten) =
      [.ok (some (droppedUsers 1)), .error (.corruptedEntry 2), .ok (some (droppedUsers 3)),
        .ok none] :=
  (calls_serialized_entries dropCodec [droppedUsers 1, droppedUsers 2, droppedUsers 3]
    [droppedFrame 1, droppedFrame 2, droppedFrame 3]
    (.cons rfl (.cons rfl (.cons rfl .nil)))
    (by simp [dropCodec_roundTrips])
    (by simp [dropCodec_sealed])
    (by decide +kernel)).2 1 (droppedUsers 2) _ 0 (by decide) rfl
      (dropCodec_fromSlice (parseDropJson_users _ _)) (by decide +kernel) (by decide +kernel)

/-! ## Reading a whole file

Every loop of the log code calls `next_entry` until the file ends or a read fails.  `fileResults`
is the list of answers such a loop meets; the loops themselves are recursions over it. -/

/-- The answers of `next_entry` from the front of `bytes`, up to the end of the file or to the
first failed read, after which the position in the file is unspecified. -/
def readResults : Nat → Bytes → List (Except WalError WalEntry)
  | 0, _ => []
  | fuel + 1, bytes =>
    match nextEntry codec (ofBytes bytes) with
    | (.ok none, _) => []
    | (.ok (some entry), r) => .ok entry :: readResults fuel r.rest
    | (.error (.ioError kind), _) => [.error (.ioError kind)]
    | (.error e, r) => .error e :: readResults fuel r.rest

def fileResults (content : Bytes) : List (Except WalError WalEntry) :=
  readResults codec (content.length + 1) content

-- A call that neither ends the file nor fails to read shortens the stream.
theorem nextEntry_rest_length {bytes : Bytes} {k : Nat}
    {result : Except WalError (Option WalEntry)} {r : WalReader}
    (h : nextEntry codec ⟨bytes, k⟩ = (result, r)) (hend : result ≠ .ok none)
    (hread : ∀ kind, result ≠ .error (.ioError kind)) : r.rest.length < bytes.length := by
  unfold nextEntry at h
  rcases h₁ : readExact 4 bytes with - | ⟨lenBytes, rest₁⟩
  · simp only [h₁, Prod.mk.injEq] at h
    exact absurd h.1.symm hend
  rcases h₂ : readExact (ofLeBytes lenBytes) rest₁ with - | ⟨entryBytes, rest₂⟩
  · simp only [h₁, h₂, Prod.mk.injEq] at h
    exact absurd h.1.symm (hread _)
  rcases h₃ : readExact 4 rest₂ with - | ⟨checksumBytes, rest₃⟩
  · simp only [h₁, h₂, h₃, Prod.mk.injEq] at h
    exact absurd h.1.symm (hread _)
  -- Behind the three reads every branch leaves the same rest.
  have hrest : r.rest = rest₃ := by
    simp only [h₁, h₂, h₃] at h
    split at h
    · rw [← (Prod.mk.inj h).2]
    · split at h <;> rw [← (Prod.mk.inj h).2]
  obtain ⟨rfl, hlen⟩ := readExact_eq_some h₁
  obtain ⟨rfl, -⟩ := readExact_eq_some h₂
  obtain ⟨rfl, -⟩ := readExact_eq_some h₃
  rw [hrest]
  simp only [List.length_append]
  omega

-- Fuel beyond the length of the stream changes nothing.
theorem readResults_fuel {bytes : Bytes} {m n : Nat} (hm : bytes.length < m)
    (hn : bytes.length < n) : readResults codec m bytes = readResults codec n bytes := by
  induction m generalizing n bytes with
  | zero => omega
  | succ m ih =>
    obtain ⟨n, rfl⟩ : ∃ n', n = n' + 1 := ⟨n - 1, by omega⟩
    rw [readResults, readResults]
    rcases hnext : nextEntry codec (ofBytes bytes) with ⟨result, r⟩
    have hrec (hend : result ≠ .ok none) (hread : ∀ kind, result ≠ .error (.ioError kind)) :
        readResults codec m r.rest = readResults codec n r.rest := by
      have hshort := nextEntry_rest_length codec hnext hend hread
      exact ih (by omega) (by omega)
    match result with
    | .ok none => rfl
    | .ok (some entry) => simp only [hrec (by simp) (by simp)]
    | .error (.ioError kind) => rfl
    | .error (.serializationError _) | .error (.deserializationError _)
    | .error (.checksumMismatch _ _) | .error (.corruptedEntry _)
    | .error (.fileNotFound _) | .error .invalidFormat =>
      simp only [hrec (by simp) (by simp)]

-- A frame contributes its entry.
theorem fileResults_frame_append {entry : WalEntry} {bytes : Bytes}
    (h : codec.Frames entry bytes) (rest : Bytes) :
    fileResults codec (bytes ++ rest) = .ok entry :: fileResults codec rest := by
  have hlen := h.length_pos
  rw [fileResults, readResults, ofBytes, nextEntry_of_frames codec h]
  simp only [fileResults]
  rw [readResults_fuel codec (n := rest.length + 1) (by simp; omega) (by omega)]

theorem fileResults_frames_append {entries : List WalEntry} {frames : List Bytes}
    (h : List.Forall₂ codec.Frames entries frames) (rest : Bytes) :
    fileResults codec (frames.flatten ++ rest) =
      entries.map .ok ++ fileResults codec rest := by
  induction h with
  | nil => rfl
  | cons hhead _ ih =>
    rw [List.flatten_cons, List.append_assoc, fileResults_frame_append codec hhead, ih,
      List.map_cons, List.cons_append]

theorem fileResults_nil : fileResults codec [] = [] := rfl

end WalReader

/-! ## Files of whole frames -/

/-- The contents of a file are the frames of the given entries, with nothing behind them. -/
def WalCodec.Holds (codec : WalCodec) (content : Bytes) (entries : List WalEntry) : Prop :=
  ∃ frames, List.Forall₂ codec.Frames entries frames ∧ content = frames.flatten

namespace WalCodec.Holds

variable {codec : WalCodec} {content : Bytes} {entries : List WalEntry}

theorem nil : codec.Holds [] [] := ⟨[], .nil, rfl⟩

theorem append {entry : WalEntry} {bytes : Bytes} (h : codec.Holds content entries)
    (hbytes : codec.Frames entry bytes) : codec.Holds (content ++ bytes) (entries ++ [entry]) := by
  obtain ⟨frames, hframes, rfl⟩ := h
  refine ⟨frames ++ [bytes], List.rel_append hframes (.cons hbytes .nil), ?_⟩
  rw [List.flatten_append, List.flatten_singleton]

-- Such a file is read to its end without an error.
theorem fileResults (h : codec.Holds content entries) :
    WalReader.fileResults codec content = entries.map .ok := by
  obtain ⟨frames, hframes, rfl⟩ := h
  have happend := WalReader.fileResults_frames_append codec hframes []
  rwa [List.append_nil, WalReader.fileResults_nil, List.append_nil] at happend

end WalCodec.Holds

end VedDb
