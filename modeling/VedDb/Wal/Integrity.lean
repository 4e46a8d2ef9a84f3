import VedDb.Wal.Reader

/-!
# Verification of a log file

`verify_wal_integrity` of `wal/replay.rs`.  It reads frame after frame and compares each sequence
number with the number of the frame, which is what strictly increasing numbers from zero on would
be at least.  Up to three bytes behind the last frame are taken for the end of the file.
-/

namespace VedDb

open LittleEndian

/-! ## The loop -/

/-- The loop of `verify_wal_integrity` over what the reader answers. -/
def verifyLoop : List (Except WalError WalEntry) → Nat → Except WalError Bool
  | [], _ => .ok true
  | .error e :: _, _ => .error e
  | .ok entry :: results, entryCount =>
    let entryCount := entryCount + 1
    if 1 < entryCount ∧ entry.sequence < entryCount - 1 then .ok false
    else verifyLoop results entryCount

/-- `verify_wal_integrity` on a file with the given contents. -/
def verifyWalIntegrity (codec : WalCodec) (content : Bytes) : Except WalError Bool :=
  verifyLoop (WalReader.fileResults codec content) 0

/-! ## What is to be accepted -/

structure WalCodec.CompleteFrame (codec : WalCodec) (entry : WalEntry) (bytes : Bytes) : Prop where
  exists_json : ∃ entryJson parsed, codec.fromSlice entryJson = .ok parsed ∧
    entryJson.length < 2 ^ 32 ∧ entry = { parsed with checksum := entry.checksum } ∧
    bytes = WalCodec.frame entryJson entry.checksum
  sealed : codec.verifyChecksum entry = .ok true

/-- The file is complete frames of the entries, and then something too short for a length field. -/
def WalCodec.Parses (codec : WalCodec) (content : Bytes) (entries : List WalEntry)
    (tail : Bytes) : Prop :=
  ∃ frames, List.Forall₂ codec.CompleteFrame entries frames ∧
    content = frames.flatten ++ tail ∧ tail.length < 4

def StrictlyIncreasing (entries : List WalEntry) : Prop :=
  (entries.map WalEntry.sequence).Pairwise (· < ·)

/-- The file is complete frames, whose sequence numbers are strictly increasing. -/
def WalCodec.Intact (codec : WalCodec) (content : Bytes) : Prop :=
  ∃ entries, codec.Parses content entries [] ∧ StrictlyIncreasing entries

/-- Some entry behind the first has a sequence number below its position. -/
def LagsBehind (entries : List WalEntry) : Prop :=
  ∃ i entry, 0 < i ∧ entries[i]? = some entry ∧ entry.sequence < i

/-- Some entry's sequence number is not above the one before it. -/
def OutOfOrder (entries : List WalEntry) : Prop :=
  ∃ i entry next, entries[i]? = some entry ∧ entries[i + 1]? = some next ∧
    next.sequence ≤ entry.sequence

/-- What the loop does not see: bytes behind the last frame, or entries that are out of order and
do not lag behind. -/
def WalCodec.Overlooked (codec : WalCodec) (content : Bytes) : Prop :=
  ∃ entries tail, codec.Parses content entries tail ∧ ¬LagsBehind entries ∧
    (tail ≠ [] ∨ OutOfOrder entries)

/-! ## Reading frames -/

namespace WalReader

variable {codec : WalCodec}

theorem nextEntry_completeFrame {entry : WalEntry} {bytes : Bytes}
    (h : codec.CompleteFrame entry bytes) (rest : Bytes) (k : Nat) :
    nextEntry codec ⟨bytes ++ rest, k⟩ = (.ok (some entry), ⟨rest, k + 1⟩) := by
  obtain ⟨entryJson, parsed, hfrom, hlen, hentry, rfl⟩ := h.exists_json
  have hsealed := h.sealed
  rw [hentry] at hsealed
  rw [nextEntry_frame codec hfrom hlen]
  simp only [hsealed]
  rw [← hentry]

theorem nextEntry_short {bytes : Bytes} (h : bytes.length < 4) (k : Nat) :
    nextEntry codec ⟨bytes, k⟩ = (.ok none, ⟨[], k⟩) := by
  unfold nextEntry
  rw [readExact_eq_none_iff.mpr h]

theorem completeFrame_of_nextEntry {bytes : Bytes} {k : Nat} {entry : WalEntry} {r : WalReader}
    (h : nextEntry codec ⟨bytes, k⟩ = (.ok (some entry), r)) :
    ∃ frame, codec.CompleteFrame entry frame ∧ bytes = frame ++ r.rest := by
  unfold nextEntry at h
  rcases h₁ : readExact 4 bytes with - | ⟨lenBytes, rest₁⟩
  · simp [h₁] at h
  rcases h₂ : readExact (ofLeBytes lenBytes) rest₁ with - | ⟨entryBytes, rest₂⟩
  · simp [h₁, h₂] at h
  rcases h₃ : readExact 4 rest₂ with - | ⟨checksumBytes, rest₃⟩
  · simp [h₁, h₂, h₃] at h
  simp only [h₁, h₂, h₃] at h
  obtain ⟨rfl, hlen₁⟩ := readExact_eq_some h₁
  obtain ⟨rfl, hlen₂⟩ := readExact_eq_some h₂
  obtain ⟨rfl, hlen₃⟩ := readExact_eq_some h₃
  cases hfrom : codec.fromSlice entryBytes with
  | error e => simp [hfrom] at h
  | ok parsed =>
    simp only [hfrom] at h
    split at h
    · cases h
    · cases h
    · next hsealed =>
        obtain ⟨hentry, hr⟩ := Prod.mk.inj h
        have hentry := Option.some.inj (Except.ok.inj hentry)
        have hfield : leBytes 4 entryBytes.length = lenBytes := by
          rw [hlen₂, ← hlen₁]
          exact leBytes_ofLeBytes lenBytes
        have hsum : leBytes 4 entry.checksum.toNat = checksumBytes := by
          have hlt := ofLeBytes_lt checksumBytes
          rw [hlen₃] at hlt
          rw [← hentry]
          show leBytes 4 (UInt32.ofNat (ofLeBytes checksumBytes)).toNat = _
          rw [UInt32.toNat_ofNat_of_lt' hlt, ← hlen₃]
          exact leBytes_ofLeBytes checksumBytes
        have hshort := ofLeBytes_lt lenBytes
        rw [hlen₁] at hshort
        refine ⟨lenBytes ++ entryBytes ++ checksumBytes, ⟨⟨entryBytes, parsed, hfrom, ?_, ?_, ?_⟩,
          ?_⟩, ?_⟩
        · rw [hlen₂]
          exact hshort
        · rw [← hentry]
        · rw [WalCodec.frame, hfield, hsum]
        · rw [← hentry]
          exact hsealed
        · rw [← hr, List.append_assoc, List.append_assoc]

theorem nextEntry_none {bytes : Bytes} {k : Nat} {r : WalReader}
    (h : nextEntry codec ⟨bytes, k⟩ = (.ok none, r)) : bytes.length < 4 := by
  unfold nextEntry at h
  rcases h₁ : readExact 4 bytes with - | ⟨lenBytes, rest₁⟩
  · exact readExact_eq_none_iff.mp h₁
  rcases h₂ : readExact (ofLeBytes lenBytes) rest₁ with - | ⟨entryBytes, rest₂⟩
  · simp [h₁, h₂] at h
  rcases h₃ : readExact 4 rest₂ with - | ⟨checksumBytes, rest₃⟩
  · simp [h₁, h₂, h₃] at h
  simp only [h₁, h₂, h₃] at h
  split at h
  · cases h
  · split at h <;> cases h

/-! ## Reading a file -/

theorem fileResults_completeFrame_append {entry : WalEntry} {bytes : Bytes}
    (h : codec.CompleteFrame entry bytes) (rest : Bytes) :
    fileResults codec (bytes ++ rest) = .ok entry :: fileResults codec rest := by
  have hnext := nextEntry_completeFrame h rest 0
  have hlen := nextEntry_rest_length codec hnext (by simp) (by simp)
  rw [fileResults, readResults, ofBytes, hnext]
  simp only [fileResults]
  rw [readResults_fuel codec (n := rest.length + 1) hlen (Nat.lt_succ_self _)]

theorem fileResults_eq_cons {content : Bytes} {entry : WalEntry}
    {results : List (Except WalError WalEntry)}
    (h : fileResults codec content = .ok entry :: results) :
    ∃ frame rest, codec.CompleteFrame entry frame ∧ content = frame ++ rest ∧
      fileResults codec rest = results := by
  have hread := h
  rw [fileResults, readResults, ofBytes] at hread
  rcases hnext : nextEntry codec ⟨content, 0⟩ with ⟨result, r⟩
  rw [hnext] at hread
  cases result with
  | error e => cases e <;> simp at hread
  | ok next =>
    cases next with
    | none => cases hread
    | some own =>
      simp only [List.cons.injEq, Except.ok.injEq] at hread
      obtain ⟨rfl, -⟩ := hread
      obtain ⟨frame, hframe, hcontent⟩ := completeFrame_of_nextEntry hnext
      refine ⟨frame, r.rest, hframe, hcontent, ?_⟩
      rw [hcontent, fileResults_completeFrame_append hframe] at h
      exact (List.cons.inj h).2

theorem fileResults_eq_nil_iff {content : Bytes} :
    fileResults codec content = [] ↔ content.length < 4 := by
  rw [fileResults, readResults, ofBytes]
  constructor
  · intro h
    rcases hnext : nextEntry codec ⟨content, 0⟩ with ⟨result, r⟩
    rw [hnext] at h
    cases result with
    | error e => cases e <;> cases h
    | ok next =>
      cases next with
      | none => exact nextEntry_none hnext
      | some own => cases h
  · intro h
    rw [nextEntry_short h]

end WalReader

namespace WalCodec.Parses

variable {codec : WalCodec} {content tail : Bytes} {entries : List WalEntry}

theorem nil (h : content.length < 4) : codec.Parses content [] content := ⟨[], .nil, rfl, h⟩

theorem cons {entry : WalEntry} {frame : Bytes} (hframe : codec.CompleteFrame entry frame)
    (h : codec.Parses content entries tail) :
    codec.Parses (frame ++ content) (entry :: entries) tail := by
  obtain ⟨frames, hframes, rfl, htail⟩ := h
  refine ⟨frame :: frames, .cons hframe hframes, ?_, htail⟩
  rw [List.flatten_cons, List.append_assoc]

theorem of_nil (h : codec.Parses content [] tail) : content = tail ∧ tail.length < 4 := by
  obtain ⟨frames, hframes, rfl, htail⟩ := h
  cases hframes
  exact ⟨rfl, htail⟩

theorem of_cons {entry : WalEntry} (h : codec.Parses content (entry :: entries) tail) :
    ∃ frame rest, codec.CompleteFrame entry frame ∧ content = frame ++ rest ∧
      codec.Parses rest entries tail := by
  obtain ⟨frames, hframes, rfl, htail⟩ := h
  cases hframes with
  | @cons _ frame _ frames hframe hframes =>
    refine ⟨frame, frames.flatten ++ tail, hframe, ?_, frames, hframes, rfl, htail⟩
    rw [List.flatten_cons, List.append_assoc]

theorem exists_iff : (∃ tail, codec.Parses content entries tail) ↔
    WalReader.fileResults codec content = entries.map .ok := by
  induction entries generalizing content with
  | nil =>
    rw [List.map_nil, WalReader.fileResults_eq_nil_iff]
    constructor
    · intro ⟨tail, h⟩
      obtain ⟨rfl, hshort⟩ := h.of_nil
      exact hshort
    · intro h
      exact ⟨content, .nil h⟩
  | cons entry entries ih =>
    rw [List.map_cons]
    constructor
    · intro ⟨tail, h⟩
      obtain ⟨frame, rest, hframe, rfl, hrest⟩ := h.of_cons
      rw [WalReader.fileResults_completeFrame_append hframe, ih.mp ⟨tail, hrest⟩]
    · intro h
      obtain ⟨frame, rest, hframe, rfl, hrest⟩ := WalReader.fileResults_eq_cons h
      obtain ⟨tail, hparses⟩ := ih.mpr hrest
      exact ⟨tail, hparses.cons hframe⟩

/-- A file parses in one way. -/
theorem unique {entries' : List WalEntry} {tail' : Bytes} (h : codec.Parses content entries tail)
    (h' : codec.Parses content entries' tail') : entries = entries' ∧ tail = tail' := by
  have hentries : entries = entries' := by
    have hmap := (exists_iff.mp ⟨tail, h⟩).symm.trans (exists_iff.mp ⟨tail', h'⟩)
    exact List.map_injective_iff.mpr (fun _ _ hok => Except.ok.inj hok) hmap
  subst hentries
  refine ⟨rfl, ?_⟩
  induction entries generalizing content with
  | nil => exact h.of_nil.1.symm.trans h'.of_nil.1
  | cons entry entries ih =>
    obtain ⟨frame, rest, hframe, rfl, hrest⟩ := h.of_cons
    obtain ⟨frame', rest', hframe', happend, hrest'⟩ := h'.of_cons
    have hread := WalReader.nextEntry_completeFrame hframe rest 0
    rw [happend, WalReader.nextEntry_completeFrame hframe' rest' 0] at hread
    have hsame : rest' = rest := congrArg WalReader.rest (Prod.mk.inj hread).2
    exact ih hrest (hsame ▸ hrest')

end WalCodec.Parses

/-! ## The verdict -/

-- Each entry behind the first has a number that is not below its position.
theorem verifyLoop_eq_true_iff {results : List (Except WalError WalEntry)} {count : Nat} :
    verifyLoop results count = .ok true ↔ ∃ entries : List WalEntry, results = entries.map .ok ∧
      ∀ i entry, entries[i]? = some entry → count + i ≤ entry.sequence ∨ count + i = 0 := by
  induction results generalizing count with
  | nil =>
    refine iff_of_true rfl ⟨[], rfl, fun i entry hentry => ?_⟩
    cases hentry
  | cons result results ih =>
    cases result with
    | error e =>
      refine iff_of_false (by simp [verifyLoop]) ?_
      rintro ⟨entries, hentries, -⟩
      cases entries <;> cases hentries
    | ok entry =>
      rw [verifyLoop]
      by_cases hlow : 1 < count + 1 ∧ entry.sequence < count + 1 - 1
      · rw [if_pos hlow]
        refine iff_of_false (by simp) ?_
        rintro ⟨entries, hentries, hall⟩
        cases entries with
        | nil => cases hentries
        | cons own entries =>
          have hown := Except.ok.inj (List.cons.inj hentries).1
          have hhead := hall 0 own rfl
          rw [← hown] at hhead
          omega
      · rw [if_neg hlow, ih]
        constructor
        · rintro ⟨entries, rfl, hall⟩
          refine ⟨entry :: entries, rfl, fun i own hown => ?_⟩
          cases i with
          | zero =>
            rw [← Option.some.inj hown]
            omega
          | succ i =>
            have htail := hall i own hown
            omega
        · rintro ⟨entries, hentries, hall⟩
          cases entries with
          | nil => cases hentries
          | cons own entries =>
            refine ⟨entries, (List.cons.inj hentries).2, fun i other hother => ?_⟩
            have htail := hall (i + 1) other hother
            omega

theorem verifyWalIntegrity_eq_true_iff {codec : WalCodec} {content : Bytes} :
    verifyWalIntegrity codec content = .ok true ↔
      ∃ entries tail, codec.Parses content entries tail ∧ ¬LagsBehind entries := by
  rw [verifyWalIntegrity, verifyLoop_eq_true_iff]
  apply exists_congr
  intro entries
  rw [← WalCodec.Parses.exists_iff, exists_and_right]
  apply and_congr_right
  intro _
  constructor
  · rintro hall ⟨i, entry, hpos, hentry, hlow⟩
    have hown := hall i entry hentry
    omega
  · intro hnot i entry hentry
    by_contra hlow
    exact hnot ⟨i, entry, by omega, hentry, by omega⟩

theorem strictlyIncreasing_iff {entries : List WalEntry} :
    StrictlyIncreasing entries ↔ ¬OutOfOrder entries := by
  unfold StrictlyIncreasing
  rw [← List.isChain_iff_pairwise, List.isChain_iff_getElem]
  constructor
  · rintro h ⟨i, entry, next, hentry, hnext, hle⟩
    obtain ⟨hlt, rfl⟩ := List.getElem?_eq_some_iff.mp hentry
    obtain ⟨hlt', rfl⟩ := List.getElem?_eq_some_iff.mp hnext
    have hstep := h i (by rw [List.length_map]; exact hlt')
    rw [List.getElem_map, List.getElem_map] at hstep
    omega
  · intro h i hi
    rw [List.length_map] at hi
    rw [List.getElem_map, List.getElem_map]
    by_contra hle
    refine h ⟨i, _, _, List.getElem?_eq_getElem (by omega), List.getElem?_eq_getElem hi, ?_⟩
    omega

-- Numbers that increase strictly are not below their positions.
theorem StrictlyIncreasing.not_lagsBehind {entries : List WalEntry}
    (h : StrictlyIncreasing entries) : ¬LagsBehind entries := by
  rintro ⟨i, entry, -, hentry, hlow⟩
  rw [strictlyIncreasing_iff] at h
  induction i generalizing entry with
  | zero => omega
  | succ i ih =>
    obtain ⟨hlt, -⟩ := List.getElem?_eq_some_iff.mp hentry
    have hprev : entries[i]? = some entries[i] := List.getElem?_eq_getElem (by omega)
    apply ih entries[i] hprev
    by_contra hge
    exact h ⟨i, entries[i], entry, hprev, hentry, by omega⟩

/-- Verification is right about a file exactly when the file is none that it overlooks: one with up
to three bytes behind its frames, or with sequence numbers that repeat or decrease but are not below
their positions. -/
theorem verifyWalIntegrity_right_iff (codec : WalCodec) (content : Bytes) :
    (verifyWalIntegrity codec content = .ok true ↔ codec.Intact content) ↔
      ¬codec.Overlooked content := by
  rw [verifyWalIntegrity_eq_true_iff]
  constructor
  · rintro h ⟨entries, tail, hparses, hnot, hwrong⟩
    obtain ⟨entries', hparses', hincreasing⟩ := h.mp ⟨entries, tail, hparses, hnot⟩
    obtain ⟨rfl, rfl⟩ := hparses.unique hparses'
    exact hwrong.elim (fun hne => hne rfl) (strictlyIncreasing_iff.mp hincreasing)
  · intro h
    constructor
    · rintro ⟨entries, tail, hparses, hnot⟩
      have htail : tail = [] := by
        by_contra hne
        exact h ⟨entries, tail, hparses, hnot, .inl hne⟩
      subst htail
      refine ⟨entries, hparses, strictlyIncreasing_iff.mpr fun hout => ?_⟩
      exact h ⟨entries, [], hparses, hnot, .inr hout⟩
    · rintro ⟨entries, hparses, hincreasing⟩
      exact ⟨entries, [], hparses, hincreasing.not_lagsBehind⟩

/-! ## A frame that is written twice -/

theorem WalCodec.Frames.completeFrame {codec : WalCodec} {entry : WalEntry} {bytes : Bytes}
    (h : codec.Frames entry bytes) : codec.CompleteFrame entry bytes := by
  obtain ⟨entryJson, -, hfrom, hlen, hbytes⟩ := h.exists_json
  exact ⟨⟨entryJson, entry, hfrom, hlen, rfl, hbytes⟩, h.sealed⟩

/-- The log that holds one frame twice is accepted, although its second sequence number is the
first one again. -/
theorem verifyWalIntegrity_accepts_duplicate :
    ¬(verifyWalIntegrity dropCodec (droppedFrame 1 ++ droppedFrame 1) = .ok true ↔
      dropCodec.Intact (droppedFrame 1 ++ droppedFrame 1)) := by
  have hframe : dropCodec.CompleteFrame (droppedUsers 1) (droppedFrame 1) :=
    (dropCodec_frames (by decide)).completeFrame
  have hparses : dropCodec.Parses (droppedFrame 1 ++ droppedFrame 1)
      [droppedUsers 1, droppedUsers 1] [] := by
    refine ⟨[droppedFrame 1, droppedFrame 1], .cons hframe (.cons hframe .nil), ?_, by decide⟩
    simp
  have haccepted : verifyWalIntegrity dropCodec (droppedFrame 1 ++ droppedFrame 1) = .ok true := by
    rw [verifyWalIntegrity_eq_true_iff]
    refine ⟨_, _, hparses, ?_⟩
    rintro ⟨i, entry, hpos, hentry, hlow⟩
    match i with
    | 0 => omega
    | 1 =>
      rw [← Option.some.inj hentry] at hlow
      exact absurd hlow (by decide)
    | i + 2 => cases hentry
  intro h
  obtain ⟨entries, hown, hincreasing⟩ := h.mp haccepted
  obtain ⟨rfl, -⟩ := hparses.unique hown
  apply strictlyIncreasing_iff.mp hincreasing
  exact ⟨0, _, _, rfl, rfl, Nat.le_refl _⟩

end VedDb
