import VedDb.Protocol.Wire

/-!
# Reading commands

`Connection::read_command`: the header, a check of the announced length, the payload, and
`Command::from_bytes` on the two.  When the decoder panics, and what is accepted.
-/

namespace VedDb

open LittleEndian
open Durable (Outcome)
open SelfDelimiting

/-- The errors of `read_command`. -/
inductive ReadError where
  /-- The bytes do not come in time, or the stream ends. -/
  | incomplete
  | payloadTooLarge
  | protocolError (cause : String)
deriving DecidableEq

/-- The limit on the payload, 16 MiB. -/
def maxPayload : Nat := 16 * 1024 * 1024

/-- `read_command`, with what is left of the stream. -/
def readCommand (overflowChecks : Bool) (stream : Bytes) : Outcome ReadError (Command × Bytes) :=
  match readExact CmdHeader.size stream with
  | none => .error .incomplete
  | some (headerBuf, stream) =>
    match (CmdHeader.read headerBuf).totalPayloadLen overflowChecks with
    | none => .crashed
    | some payloadSize =>
      if maxPayload < payloadSize then .error .payloadTooLarge
      else
        match readExact payloadSize stream with
        | none => .error .incomplete
        | some (payloadBuf, stream) =>
          match Command.fromBytes overflowChecks (headerBuf ++ payloadBuf) with
          | .error e => .error (.protocolError e)
          | .crashed => .crashed
          | .ok command => .ok (command, stream)

variable {overflowChecks : Bool} {bytes stream rest : Bytes} {command : Command}

/-! ## The decoder -/

/-- Only the first bytes are looked at for the header. -/
theorem CmdHeader.read_append_of_length (h : bytes.length = size) :
    read (bytes ++ rest) = read bytes := by
  rw [size] at h
  rw [read, read]
  simp (disch := simp only [word_snd_length, h, Nat.reduceSub, Nat.reduceLeDiff]) only
    [word_append_of_le]

namespace Command

/-- Without an overflow the decoder does not panic: it reads what the header announces, or refuses
what is too short for it. -/
theorem fromBytes_of_announced_lt (hsize : CmdHeader.size ≤ bytes.length)
    (h : (CmdHeader.read bytes).announced < 2 ^ 32) :
    fromBytes overflowChecks bytes =
      if bytes.length < CmdHeader.size + (CmdHeader.read bytes).announced then
        .error "Buffer too small for payload"
      else
        let header := CmdHeader.read bytes
        let keyEnd := CmdHeader.size + header.keyLen.toNat
        .ok
          { header := header
            key := (bytes.take keyEnd).drop CmdHeader.size
            value := (bytes.take (keyEnd + header.valLen.toNat)).drop keyEnd } := by
  rw [fromBytes, if_neg (Nat.not_lt.mpr hsize)]
  dsimp only
  rw [CmdHeader.totalPayloadLen_of_lt h]
  dsimp only
  split
  next => rfl
  next hlen =>
    rw [CmdHeader.announced] at hlen
    rw [slice, if_pos (by omega), slice, if_pos (by omega)]

/-- Overflow checks panic on the sum. -/
theorem fromBytes_checked_crashed (hsize : CmdHeader.size ≤ bytes.length)
    (h : 2 ^ 32 ≤ (CmdHeader.read bytes).announced) : fromBytes true bytes = .crashed := by
  rw [fromBytes, if_neg (Nat.not_lt.mpr hsize)]
  dsimp only
  rw [CmdHeader.totalPayloadLen_checked h]

/-- Without them the low bits of the sum pass the check, and the slices panic past the end. -/
theorem fromBytes_wrapping_crashed_iff (hsize : CmdHeader.size ≤ bytes.length)
    (h : 2 ^ 32 ≤ (CmdHeader.read bytes).announced) :
    fromBytes false bytes = .crashed ↔
      CmdHeader.size + ((CmdHeader.read bytes).announced - 2 ^ 32) ≤ bytes.length ∧
        bytes.length < CmdHeader.size + (CmdHeader.read bytes).announced := by
  rw [fromBytes, if_neg (Nat.not_lt.mpr hsize)]
  dsimp only
  rw [CmdHeader.totalPayloadLen_wrapping h]
  dsimp only
  split
  next hshort =>
    refine iff_of_false ?_ (by omega)
    intro h
    cases h
  next hlong =>
    by_cases hend : bytes.length < CmdHeader.size + (CmdHeader.read bytes).announced
    · refine iff_of_true ?_ ⟨by omega, hend⟩
      rw [CmdHeader.announced, ← Nat.add_assoc] at hend
      rw [slice_eq_none hend]
      split
      next hvalue => cases hvalue
      next => rfl
    · refine iff_of_false ?_ (by omega)
      rw [CmdHeader.announced] at hend
      rw [slice, if_pos (by omega), slice, if_pos (by omega)]
      intro h
      cases h

/-- Where the header has arrived, a build of one kind or the other panics exactly when the sum of
the lengths overflows. -/
theorem fromBytes_ne_crashed_iff (hsize : CmdHeader.size ≤ bytes.length) :
    (∀ overflowChecks, fromBytes overflowChecks bytes ≠ .crashed) ↔
      (CmdHeader.read bytes).announced < 2 ^ 32 := by
  constructor
  · intro h
    by_contra hoverflow
    exact h true (fromBytes_checked_crashed hsize (Nat.not_lt.mp hoverflow))
  · intro h overflowChecks
    rw [fromBytes_of_announced_lt hsize h]
    split <;> intro hcrashed <;> cases hcrashed

theorem header_of_fromBytes (h : fromBytes overflowChecks bytes = .ok command) :
    command.header = CmdHeader.read bytes := by
  rw [fromBytes] at h
  split at h
  · cases h
  · dsimp only at h
    split at h
    · cases h
    · split at h
      · cases h
      · split at h
        · cases h
          rfl
        · cases h

end Command

/-! ## The connection -/

theorem readCommand_of_short (h : stream.length < CmdHeader.size) :
    readCommand overflowChecks stream = .error .incomplete := by
  rw [readCommand, readExact_eq_none_iff.mpr h]

/-- The header that a stream begins with, and what comes after it. -/
theorem exists_header (h : CmdHeader.size ≤ stream.length) :
    ∃ headerBuf tail, readExact CmdHeader.size stream = some (headerBuf, tail) ∧
      headerBuf.length = CmdHeader.size ∧ stream = headerBuf ++ tail ∧
      CmdHeader.read headerBuf = CmdHeader.read stream := by
  cases hread : readExact CmdHeader.size stream with
  | none => exact absurd (readExact_eq_none_iff.mp hread) (Nat.not_lt.mpr h)
  | some parts =>
    obtain ⟨headerBuf, tail⟩ := parts
    obtain ⟨hstream, hlen⟩ := readExact_eq_some hread
    refine ⟨headerBuf, tail, rfl, hlen, hstream, ?_⟩
    rw [hstream, CmdHeader.read_append_of_length hlen]

theorem readCommand_checked_crashed (hsize : CmdHeader.size ≤ stream.length)
    (h : 2 ^ 32 ≤ (CmdHeader.read stream).announced) : readCommand true stream = .crashed := by
  obtain ⟨headerBuf, tail, hread, _, _, hheader⟩ := exists_header hsize
  rw [readCommand, hread]
  dsimp only
  rw [hheader, CmdHeader.totalPayloadLen_checked h]

/-- Without an overflow nothing panics. -/
theorem readCommand_ne_crashed (hsize : CmdHeader.size ≤ stream.length)
    (h : (CmdHeader.read stream).announced < 2 ^ 32) :
    readCommand overflowChecks stream ≠ .crashed := by
  obtain ⟨headerBuf, tail, hread, hlen, _, hheader⟩ := exists_header hsize
  rw [readCommand, hread]
  dsimp only
  rw [hheader, CmdHeader.totalPayloadLen_of_lt h]
  dsimp only
  split
  next => exact fun h => (nomatch h)
  next =>
    split
    next => exact fun h => (nomatch h)
    next payloadBuf _ _ =>
      have hfull : CmdHeader.size ≤ (headerBuf ++ payloadBuf).length := by
        rw [List.length_append, hlen]
        exact Nat.le_add_right _ _
      have hannounced : (CmdHeader.read (headerBuf ++ payloadBuf)).announced < 2 ^ 32 := by
        rw [CmdHeader.read_append_of_length hlen, hheader]
        exact h
      have hdecode := (Command.fromBytes_ne_crashed_iff hfull).mpr hannounced overflowChecks
      split
      next => exact fun h => (nomatch h)
      next hcrashed => exact absurd hcrashed hdecode
      next => exact fun h => (nomatch h)

/-- A sum that overflows to a length that passes the limit and arrives panics in the decoder. -/
theorem readCommand_wrapping_crashed (hsize : CmdHeader.size ≤ stream.length)
    (h : 2 ^ 32 ≤ (CmdHeader.read stream).announced)
    (hlimit : (CmdHeader.read stream).announced - 2 ^ 32 ≤ maxPayload)
    (hlen : CmdHeader.size + ((CmdHeader.read stream).announced - 2 ^ 32) ≤ stream.length) :
    readCommand false stream = .crashed := by
  obtain ⟨headerBuf, tail, hread, hheaderLen, hstream, hheader⟩ := exists_header hsize
  rw [readCommand, hread]
  dsimp only
  rw [hheader, CmdHeader.totalPayloadLen_wrapping h]
  dsimp only
  rw [if_neg (Nat.not_lt.mpr hlimit)]
  cases hpayload : readExact ((CmdHeader.read stream).announced - 2 ^ 32) tail with
  | none =>
    have hshort := readExact_eq_none_iff.mp hpayload
    rw [hstream, List.length_append, ← hstream, hheaderLen] at hlen
    omega
  | some parts =>
    obtain ⟨payloadBuf, tail⟩ := parts
    have hfull : (headerBuf ++ payloadBuf).length =
        CmdHeader.size + ((CmdHeader.read stream).announced - 2 ^ 32) := by
      rw [List.length_append, hheaderLen, (readExact_eq_some hpayload).2]
    have hsame : CmdHeader.read (headerBuf ++ payloadBuf) = CmdHeader.read stream := by
      rw [CmdHeader.read_append_of_length hheaderLen, hheader]
    have hsum : 2 ^ 32 ≤ (CmdHeader.read (headerBuf ++ payloadBuf)).announced := hsame ▸ h
    dsimp only
    rw [(Command.fromBytes_wrapping_crashed_iff (by omega) hsum).mpr (by rw [hsame]; omega)]

theorem readCommand_eq_ok (h : readCommand overflowChecks stream = .ok (command, rest)) :
    ∃ headerBuf payloadBuf, stream = headerBuf ++ (payloadBuf ++ rest) ∧
      headerBuf.length = CmdHeader.size ∧ payloadBuf.length ≤ maxPayload ∧
      (CmdHeader.read headerBuf).totalPayloadLen overflowChecks = some payloadBuf.length ∧
      Command.fromBytes overflowChecks (headerBuf ++ payloadBuf) = .ok command := by
  rw [readCommand] at h
  split at h
  · cases h
  · rename_i headerBuf tail hread
    obtain ⟨hstream, hlen⟩ := readExact_eq_some hread
    split at h
    · cases h
    · rename_i payloadSize htotal
      split at h
      · cases h
      · rename_i hlimit
        split at h
        · cases h
        · rename_i payloadBuf tail' hpayload
          obtain ⟨htail, hpayloadLen⟩ := readExact_eq_some hpayload
          split at h
          · cases h
          · cases h
          · rename_i decoded hdecode
            cases h
            refine ⟨headerBuf, payloadBuf, ?_, hlen, ?_, ?_, hdecode⟩
            · rw [hstream, htail]
            · rw [hpayloadLen]
              exact Nat.not_lt.mp hlimit
            · rw [hpayloadLen]
              exact htotal

/-- What is accepted announces no more than the limit, whatever the arithmetic: a sum that
overflows to little makes the slices panic. -/
theorem announced_le_of_readCommand
    (h : readCommand overflowChecks stream = .ok (command, rest)) :
    command.header.announced ≤ maxPayload := by
  obtain ⟨headerBuf, payloadBuf, _, hlen, hlimit, htotal, hdecode⟩ := readCommand_eq_ok h
  have hheader : CmdHeader.read (headerBuf ++ payloadBuf) = CmdHeader.read headerBuf :=
    CmdHeader.read_append_of_length hlen
  rw [Command.header_of_fromBytes hdecode]
  rw [← hheader] at htotal
  by_cases hsum : (CmdHeader.read (headerBuf ++ payloadBuf)).announced < 2 ^ 32
  · rw [CmdHeader.totalPayloadLen_of_lt hsum] at htotal
    rw [Option.some.inj htotal]
    exact hlimit
  · have hsum := Nat.not_lt.mp hsum
    cases overflowChecks with
    | true =>
      rw [CmdHeader.totalPayloadLen_checked hsum] at htotal
      cases htotal
    | false =>
      rw [CmdHeader.totalPayloadLen_wrapping hsum] at htotal
      have hfull : (headerBuf ++ payloadBuf).length = CmdHeader.size +
          ((CmdHeader.read (headerBuf ++ payloadBuf)).announced - 2 ^ 32) := by
        rw [List.length_append, hlen, Option.some.inj htotal]
      have hcrashed :=
        (Command.fromBytes_wrapping_crashed_iff (by omega) hsum).mpr (by omega)
      rw [hdecode] at hcrashed
      cases hcrashed

/-- A framed command within the limit is taken off the stream, and nothing behind it. -/
theorem readCommand_toBytes (h : command.Framed)
    (hlimit : command.key.length + command.value.length ≤ maxPayload) (rest : Bytes) :
    readCommand overflowChecks (command.toBytes ++ rest) = .ok (command, rest) := by
  have hheader := readExact_append command.header.toBytes (command.key ++ command.value ++ rest)
  have hpayload := readExact_append (command.key ++ command.value) rest
  rw [CmdHeader.toBytes_length] at hheader
  rw [List.length_append] at hpayload
  have hread : CmdHeader.read command.header.toBytes = command.header := by
    have hread := CmdHeader.read_append command.header []
    rw [List.append_nil] at hread
    exact hread
  have hdecode : Command.fromBytes overflowChecks (command.toBytes ++ []) = .ok command :=
    Command.fromBytes_toBytes h []
  rw [List.append_nil] at hdecode
  rw [readCommand, Command.toBytes, List.append_assoc, hheader]
  dsimp only
  rw [hread, CmdHeader.totalPayloadLen_of_lt (h.announced.trans_lt h.announced_lt), h.announced]
  dsimp only
  rw [if_neg (Nat.not_lt.mpr hlimit), hpayload]
  dsimp only
  rw [← Command.toBytes, hdecode]

theorem CmdHeader.toBytes_read {bytes : Bytes} (h : bytes.length = size) :
    (read bytes).toBytes = bytes := by
  rw [size] at h
  have hu8 (b : Bytes) : (UInt8.ofNat (word 1 b).1).toNat = (word 1 b).1 :=
    UInt8.toNat_ofNat_of_lt' (word_lt 1 b)
  have hu32 (b : Bytes) : (UInt32.ofNat (word 4 b).1).toNat = (word 4 b).1 :=
    UInt32.toNat_ofNat_of_lt' (word_lt 4 b)
  have hu64 (b : Bytes) : (UInt64.ofNat (word 8 b).1).toNat = (word 8 b).1 :=
    UInt64.toNat_ofNat_of_lt' (word_lt 8 b)
  simp only [read, toBytes, hu8, hu32, hu64]
  have hlast {b : Bytes} (hb : b.length = 8) : leBytes 8 (word 8 b).1 = b := by
    have hb' := leBytes_word (w := 8) hb.ge
    have hnil : (word 8 b).2 = [] := by
      apply List.eq_nil_of_length_eq_zero
      rw [word_snd_length]
      omega
    rw [hnil, List.append_nil] at hb'
    exact hb'
  rw [hlast (by simp only [word_snd_length, h])]
  repeat rw [leBytes_word (by simp only [word_snd_length, h]; omega)]

/-- What `read_command` takes off a stream is a framed command within the limit. -/
theorem readCommand_eq_ok_iff :
    readCommand overflowChecks stream = .ok (command, rest) ↔
      stream = command.toBytes ++ rest ∧ command.Framed ∧
        command.key.length + command.value.length ≤ maxPayload := by
  constructor
  · intro h
    have hlimit := announced_le_of_readCommand h
    obtain ⟨headerBuf, payloadBuf, hstream, hlen, -, htotal, hdecode⟩ := readCommand_eq_ok h
    have hread : CmdHeader.read (headerBuf ++ payloadBuf) = CmdHeader.read headerBuf :=
      CmdHeader.read_append_of_length hlen
    have hheader := Command.header_of_fromBytes hdecode
    rw [hheader] at hlimit
    have hsum : (CmdHeader.read (headerBuf ++ payloadBuf)).announced < 2 ^ 32 :=
      hlimit.trans_lt (by decide)
    have hfull : (headerBuf ++ payloadBuf).length = CmdHeader.size + payloadBuf.length := by
      rw [List.length_append, hlen]
    rw [← hread, CmdHeader.totalPayloadLen_of_lt hsum] at htotal
    have hannounced := Option.some.inj htotal
    rw [Command.fromBytes_of_announced_lt (by omega) hsum, if_neg (by omega)] at hdecode
    rw [CmdHeader.announced] at hannounced
    rw [hread] at hdecode hannounced
    rw [hread, CmdHeader.announced, hannounced] at hlimit hsum
    have hall : CmdHeader.size + (CmdHeader.read headerBuf).keyLen.toNat +
        (CmdHeader.read headerBuf).valLen.toNat = (headerBuf ++ payloadBuf).length := by omega
    have hkey : ((headerBuf ++ payloadBuf).take
        (CmdHeader.size + (CmdHeader.read headerBuf).keyLen.toNat)).drop CmdHeader.size =
          payloadBuf.take (CmdHeader.read headerBuf).keyLen.toNat := by
      rw [← hlen, List.take_length_add_append, List.drop_left]
    have hvalue : (headerBuf ++ payloadBuf).drop
        (CmdHeader.size + (CmdHeader.read headerBuf).keyLen.toNat) =
          payloadBuf.drop (CmdHeader.read headerBuf).keyLen.toNat := by
      rw [← hlen, List.drop_length_add_append]
    dsimp only at hdecode
    rw [hkey, hall, List.take_length, hvalue] at hdecode
    cases hdecode
    refine ⟨?_, ⟨?_, ?_, ?_⟩, ?_⟩
    · rw [Command.toBytes, CmdHeader.toBytes_read hlen, List.take_append_drop, hstream,
        List.append_assoc]
    all_goals
      simp only [List.length_take, List.length_drop]
      omega
  · rintro ⟨hstream, hframed, hlimit⟩
    rw [hstream]
    exact readCommand_toBytes hframed hlimit rest

/-- The decoders answer on every byte string, in either arithmetic, and accept no more than the
limit, exactly when the header has not arrived or the sum of its two lengths fits 32 bits. -/
theorem decoder_safe_iff (bytes : Bytes) :
    ((∀ overflowChecks, Command.fromBytes overflowChecks bytes ≠ .crashed ∧
        readCommand overflowChecks bytes ≠ .crashed) ∧
      ∀ overflowChecks command rest, readCommand overflowChecks bytes = .ok (command, rest) →
        command.header.announced ≤ maxPayload) ↔
      bytes.length < CmdHeader.size ∨ (CmdHeader.read bytes).announced < 2 ^ 32 := by
  constructor
  · rintro ⟨hsafe, _⟩
    by_cases hsize : bytes.length < CmdHeader.size
    · exact Or.inl hsize
    · refine Or.inr ?_
      exact (Command.fromBytes_ne_crashed_iff (Nat.not_lt.mp hsize)).mp fun overflowChecks =>
        (hsafe overflowChecks).1
  · intro h
    refine ⟨fun overflowChecks => ?_, fun overflowChecks command rest =>
      announced_le_of_readCommand⟩
    by_cases hsize : bytes.length < CmdHeader.size
    · rw [Command.fromBytes_of_short hsize, readCommand_of_short hsize]
      exact ⟨fun h => (nomatch h), fun h => (nomatch h)⟩
    · have hsum := h.resolve_left hsize
      have hsize := Nat.not_lt.mp hsize
      exact ⟨(Command.fromBytes_ne_crashed_iff hsize).mpr hsum overflowChecks,
        readCommand_ne_crashed hsize hsum⟩

/-- A header of lengths whose sum is 0 in 32 bits. -/
def overflowingHeader : CmdHeader := (CmdHeader.new .set 0).withKeyVal 0xFFFFFFFF 1

theorem read_overflowingHeader :
    CmdHeader.read overflowingHeader.toBytes = overflowingHeader := by
  have hread := CmdHeader.read_append overflowingHeader []
  rw [List.append_nil] at hread
  exact hread

/-- A header alone makes both builds panic: one at the sum, the other at the slice. -/
theorem overflowingHeader_crashes :
    (∀ overflowChecks, Command.fromBytes overflowChecks overflowingHeader.toBytes = .crashed) ∧
      ∀ overflowChecks, readCommand overflowChecks overflowingHeader.toBytes = .crashed := by
  have hsize := Nat.le_of_eq overflowingHeader.toBytes_length.symm
  have hannounced : (CmdHeader.read overflowingHeader.toBytes).announced = 2 ^ 32 := by
    rw [read_overflowingHeader]
    simp [overflowingHeader, CmdHeader.withKeyVal, CmdHeader.announced]
  constructor <;> intro overflowChecks <;> cases overflowChecks
  · rw [Command.fromBytes_wrapping_crashed_iff hsize hannounced.ge, hannounced,
      CmdHeader.toBytes_length]
    decide
  · exact Command.fromBytes_checked_crashed hsize hannounced.ge
  · apply readCommand_wrapping_crashed hsize hannounced.ge
    · rw [hannounced]
      decide
    · rw [hannounced, CmdHeader.toBytes_length]
      decide
  · exact readCommand_checked_crashed hsize hannounced.ge

end VedDb
