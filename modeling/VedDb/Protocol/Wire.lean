import VedDb.Lib.Durable
import VedDb.Lib.SelfDelimiting
import VedDb.Protocol.Command

/-!
# The wire format

`to_bytes` and `from_bytes` of `protocol.rs`, and `read_command` of `protocol/connection.rs`.  The
headers are packed and little-endian.  The sum of the two lengths of a command is one of 32 bits:
where it overflows, a build with overflow checks panics and one without goes on with the low bits,
so the decoders are given which of the two they are.
-/

namespace VedDb

open LittleEndian
open Durable (Outcome)
open SelfDelimiting

/-! ## Headers -/

namespace CmdHeader

def size : Nat := 24

def toBytes (header : CmdHeader) : Bytes :=
  leBytes 1 header.op.toNat ++ (leBytes 1 header.flags.toNat ++
    (leBytes 1 header.version.toNat ++ (leBytes 1 header.reserved.toNat ++
      (leBytes 4 header.seq.toNat ++ (leBytes 4 header.keyLen.toNat ++
        (leBytes 4 header.valLen.toNat ++ leBytes 8 header.extra.toNat))))))

/-- `ptr::read_unaligned` at a header. -/
def read (bytes : Bytes) : CmdHeader :=
  let (op, bytes) := word 1 bytes
  let (flags, bytes) := word 1 bytes
  let (version, bytes) := word 1 bytes
  let (reserved, bytes) := word 1 bytes
  let (seq, bytes) := word 4 bytes
  let (keyLen, bytes) := word 4 bytes
  let (valLen, bytes) := word 4 bytes
  let (extra, _) := word 8 bytes
  { op := UInt8.ofNat op
    flags := UInt8.ofNat flags
    version := UInt8.ofNat version
    reserved := UInt8.ofNat reserved
    seq := UInt32.ofNat seq
    keyLen := UInt32.ofNat keyLen
    valLen := UInt32.ofNat valLen
    extra := UInt64.ofNat extra }

/-- The number of bytes that the header announces. -/
def announced (header : CmdHeader) : Nat := header.keyLen.toNat + header.valLen.toNat

/-- `total_payload_len`, which panics where the sum overflows and overflows are checked. -/
def totalPayloadLen (overflowChecks : Bool) (header : CmdHeader) : Option Nat :=
  if overflowChecks = true ∧ 2 ^ 32 ≤ header.announced then none
  else some (header.keyLen + header.valLen).toNat

@[simp] theorem toBytes_length (header : CmdHeader) : header.toBytes.length = size := by
  simp [toBytes, size]

theorem read_append (header : CmdHeader) (rest : Bytes) :
    read (header.toBytes ++ rest) = header := by
  rw [read, toBytes]
  simp only [List.append_assoc, word_uint8, word_uint32, word_uint64, UInt8.ofNat_toNat,
    UInt32.ofNat_toNat, UInt64.ofNat_toNat]

/-- The sum of the two lengths, in 32 bits. -/
theorem toNat_add (header : CmdHeader) :
    (header.keyLen + header.valLen).toNat = header.announced % 2 ^ 32 := by
  rw [UInt32.toNat_add]
  rfl

theorem totalPayloadLen_of_lt {header : CmdHeader} (h : header.announced < 2 ^ 32)
    (overflowChecks : Bool) : header.totalPayloadLen overflowChecks = some header.announced := by
  rw [totalPayloadLen, if_neg fun h' => Nat.not_le.mpr h h'.2, toNat_add, Nat.mod_eq_of_lt h]

theorem totalPayloadLen_checked {header : CmdHeader} (h : 2 ^ 32 ≤ header.announced) :
    header.totalPayloadLen true = none := if_pos ⟨rfl, h⟩

/-- A sum that overflows is less than either length. -/
theorem totalPayloadLen_wrapping {header : CmdHeader} (h : 2 ^ 32 ≤ header.announced) :
    header.totalPayloadLen false = some (header.announced - 2 ^ 32) := by
  have hkeyLen := header.keyLen.toNat_lt
  have hvalLen := header.valLen.toNat_lt
  have hlt : header.announced - 2 ^ 32 < 2 ^ 32 := by
    rw [announced]
    omega
  rw [totalPayloadLen, if_neg fun h' => Bool.noConfusion h'.1, toNat_add,
    Nat.mod_eq_sub_mod h, Nat.mod_eq_of_lt hlt]

end CmdHeader

def Status.code : Status → UInt8
  | .ok => 0x00
  | .error => 0x01
  | .notFound => 0x02
  | .full => 0x03
  | .timeout => 0x04
  | .versionMismatch => 0x05
  | .authRequired => 0x06
  | .authFailed => 0x07
  | .permissionDenied => 0x08
  | .invalidQuery => 0x09
  | .collectionExists => 0x0A
  | .collectionNotFound => 0x0B
  | .indexExists => 0x0C
  | .indexNotFound => 0x0D

/-- `RespHeader` as it lies in memory: the status is any byte. -/
structure PackedRespHeader where
  status : UInt8
  flags : UInt8
  reserved : UInt16
  seq : UInt32
  payloadLen : UInt32
  padding : UInt32
deriving DecidableEq

namespace PackedRespHeader

def size : Nat := 16

def toBytes (header : PackedRespHeader) : Bytes :=
  leBytes 1 header.status.toNat ++ (leBytes 1 header.flags.toNat ++
    (leBytes 2 header.reserved.toNat ++ (leBytes 4 header.seq.toNat ++
      (leBytes 4 header.payloadLen.toNat ++ leBytes 4 header.padding.toNat))))

/-- `ptr::read_unaligned` at a header. -/
def read (bytes : Bytes) : PackedRespHeader :=
  let (status, bytes) := word 1 bytes
  let (flags, bytes) := word 1 bytes
  let (reserved, bytes) := word 2 bytes
  let (seq, bytes) := word 4 bytes
  let (payloadLen, bytes) := word 4 bytes
  let (padding, _) := word 4 bytes
  { status := UInt8.ofNat status
    flags := UInt8.ofNat flags
    reserved := UInt16.ofNat reserved
    seq := UInt32.ofNat seq
    payloadLen := UInt32.ofNat payloadLen
    padding := UInt32.ofNat padding }

@[simp] theorem toBytes_length (header : PackedRespHeader) :
    header.toBytes.length = size := by
  simp [toBytes, size]

theorem read_append (header : PackedRespHeader) (rest : Bytes) :
    read (header.toBytes ++ rest) = header := by
  rw [read, toBytes]
  simp only [List.append_assoc, word_uint8, word_uint16, word_uint32, UInt8.ofNat_toNat,
    UInt16.ofNat_toNat, UInt32.ofNat_toNat]

end PackedRespHeader

/-! ## Slices -/

/-- `bytes[start..stop]`, which panics outside the bytes. -/
def slice (bytes : Bytes) (start stop : Nat) : Option Bytes :=
  if start ≤ stop ∧ stop ≤ bytes.length then some ((bytes.take stop).drop start) else none

theorem slice_append (before middle after : Bytes) :
    slice (before ++ (middle ++ after)) before.length (before.length + middle.length) =
      some middle := by
  have hlen : before.length + middle.length ≤ (before ++ (middle ++ after)).length := by
    simp only [List.length_append]
    omega
  rw [slice, if_pos ⟨Nat.le_add_right _ _, hlen⟩, ← List.append_assoc,
    List.take_left' List.length_append, List.drop_left]

theorem slice_eq_none {bytes : Bytes} {start stop : Nat} (h : bytes.length < stop) :
    slice bytes start stop = none := if_neg fun h' => Nat.not_le.mpr h h'.2

/-! ## Commands -/

namespace Command

def toBytes (command : Command) : Bytes := command.header.toBytes ++ (command.key ++ command.value)

def fromBytes (overflowChecks : Bool) (bytes : Bytes) : Outcome String Command :=
  if bytes.length < CmdHeader.size then .error "Buffer too small for header"
  else
    let header := CmdHeader.read bytes
    match header.totalPayloadLen overflowChecks with
    | none => .crashed
    | some totalPayload =>
      if bytes.length < CmdHeader.size + totalPayload then .error "Buffer too small for payload"
      else
        let keyEnd := CmdHeader.size + header.keyLen.toNat
        let valEnd := keyEnd + header.valLen.toNat
        match slice bytes CmdHeader.size keyEnd, slice bytes keyEnd valEnd with
        | some key, some value => .ok { header := header, key := key, value := value }
        | _, _ => .crashed

structure Framed (command : Command) : Prop where
  keyLen : command.header.keyLen.toNat = command.key.length
  valLen : command.header.valLen.toNat = command.value.length
  announced_lt : command.key.length + command.value.length < 2 ^ 32

variable {command : Command} {overflowChecks : Bool} {bytes : Bytes}

theorem Framed.announced (h : command.Framed) :
    command.header.announced = command.key.length + command.value.length := by
  rw [CmdHeader.announced, h.keyLen, h.valLen]

/-- What the constructors make is framed. -/
theorem framed_new (op : OpCode) (seq : UInt32) {key value : Bytes}
    (h : key.length + value.length < 2 ^ 32) : (new op seq key value).Framed where
  keyLen := UInt32.toNat_ofNat_of_lt' (by simp only [UInt32.size]; omega)
  valLen := UInt32.toNat_ofNat_of_lt' (by simp only [UInt32.size]; omega)
  announced_lt := h

theorem toBytes_length (command : Command) :
    command.toBytes.length = CmdHeader.size + (command.key.length + command.value.length) := by
  rw [toBytes, List.length_append, List.length_append, CmdHeader.toBytes_length]

theorem fromBytes_of_short (h : bytes.length < CmdHeader.size) :
    fromBytes overflowChecks bytes = .error "Buffer too small for header" := if_pos h

/-- A command that is all there is read, and nothing behind it. -/
theorem fromBytes_toBytes (h : command.Framed) (rest : Bytes) :
    fromBytes overflowChecks (command.toBytes ++ rest) = .ok command := by
  have hread : CmdHeader.read (command.toBytes ++ rest) = command.header := by
    rw [toBytes, List.append_assoc]
    exact CmdHeader.read_append _ _
  have htotal := CmdHeader.totalPayloadLen_of_lt (h.announced.trans_lt h.announced_lt)
    overflowChecks
  have hkey := slice_append command.header.toBytes command.key (command.value ++ rest)
  have hvalue := slice_append (command.header.toBytes ++ command.key) command.value rest
  rw [CmdHeader.toBytes_length] at hkey
  rw [List.length_append, CmdHeader.toBytes_length] at hvalue
  have hlen : CmdHeader.size + (command.key.length + command.value.length) ≤
      (command.toBytes ++ rest).length := by
    rw [List.length_append, toBytes_length]
    exact Nat.le_add_right _ _
  rw [fromBytes, if_neg (by omega), hread]
  dsimp only
  rw [htotal, h.announced]
  dsimp only
  rw [if_neg (Nat.not_lt.mpr hlen), h.keyLen, h.valLen, toBytes]
  simp only [List.append_assoc] at hvalue ⊢
  rw [hkey, hvalue]

/-- A command that is not all there is refused. -/
theorem fromBytes_prefix (h : command.Framed) {front : Bytes}
    (hfront : front <+: command.toBytes) (hne : front ≠ command.toBytes) :
    ∃ e, fromBytes overflowChecks front = .error e := by
  have hlt : front.length < command.toBytes.length :=
    Nat.lt_of_le_of_ne hfront.length_le fun hlen => hne (hfront.eq_of_length hlen)
  by_cases hshort : front.length < CmdHeader.size
  · exact ⟨_, fromBytes_of_short hshort⟩
  · -- the header has arrived, and what it announces has not
    have hheader : command.header.toBytes <+: front := by
      apply List.prefix_of_prefix_length_le (List.prefix_append _ _) hfront
      rw [CmdHeader.toBytes_length]
      exact Nat.not_lt.mp hshort
    obtain ⟨tail, htail⟩ := hheader
    have hread : CmdHeader.read front = command.header := by
      rw [← htail]
      exact CmdHeader.read_append _ _
    have htotal := CmdHeader.totalPayloadLen_of_lt (h.announced.trans_lt h.announced_lt)
      overflowChecks
    rw [toBytes_length, ← h.announced] at hlt
    refine ⟨"Buffer too small for payload", ?_⟩
    rw [fromBytes, if_neg hshort, hread]
    dsimp only
    rw [htotal]
    exact if_pos hlt

/-- Commands in a stream. -/
def code (overflowChecks : Bool) : Code Command where
  encode := toBytes
  decode bytes :=
    match fromBytes overflowChecks bytes with
    | .ok command => some command
    | _ => none
  encode_ne_nil command := by
    intro hnil
    have hlen := toBytes_length command
    rw [hnil, CmdHeader.size] at hlen
    simp only [List.length_nil] at hlen
    omega

theorem code_reads (h : command.Framed) : (code overflowChecks).Reads command := by
  intro rest
  simp only [code, fromBytes_toBytes h]

end Command

/-! ## Responses -/

/-- `Response` as the wire has it. -/
structure PackedResponse where
  header : PackedRespHeader
  payload : Bytes
deriving DecidableEq

/-- The response in memory. -/
def Response.packed (response : Response) : PackedResponse :=
  { header :=
      { status := response.header.status.code
        flags := response.header.flags
        reserved := response.header.reserved
        seq := response.header.seq
        payloadLen := response.header.payloadLen
        padding := response.header.padding }
    payload := response.payload }

namespace PackedResponse

def toBytes (response : PackedResponse) : Bytes := response.header.toBytes ++ response.payload

def fromBytes (bytes : Bytes) : Outcome String PackedResponse :=
  if bytes.length < PackedRespHeader.size then .error "Buffer too small for header"
  else
    let header := PackedRespHeader.read bytes
    if bytes.length < PackedRespHeader.size + header.payloadLen.toNat then
      .error "Buffer too small for payload"
    else
      match slice bytes PackedRespHeader.size
          (PackedRespHeader.size + header.payloadLen.toNat) with
      | some payload => .ok { header := header, payload := payload }
      | none => .crashed

def Framed (response : PackedResponse) : Prop :=
  response.header.payloadLen.toNat = response.payload.length

variable {response : PackedResponse} {bytes : Bytes}

theorem toBytes_length (response : PackedResponse) :
    response.toBytes.length = PackedRespHeader.size + response.payload.length := by
  rw [toBytes, List.length_append, PackedRespHeader.toBytes_length]

theorem fromBytes_toBytes (h : response.Framed) (rest : Bytes) :
    fromBytes (response.toBytes ++ rest) = .ok response := by
  have hread : PackedRespHeader.read (response.toBytes ++ rest) = response.header := by
    rw [toBytes, List.append_assoc]
    exact PackedRespHeader.read_append _ _
  have hpayload := slice_append response.header.toBytes response.payload rest
  rw [PackedRespHeader.toBytes_length, ← List.append_assoc, ← toBytes] at hpayload
  have hlen : PackedRespHeader.size + response.payload.length ≤
      (response.toBytes ++ rest).length := by
    rw [List.length_append, toBytes_length]
    exact Nat.le_add_right _ _
  rw [fromBytes, if_neg (by omega), hread]
  dsimp only
  rw [h, if_neg (Nat.not_lt.mpr hlen), hpayload]

theorem fromBytes_prefix (h : response.Framed) {front : Bytes}
    (hfront : front <+: response.toBytes) (hne : front ≠ response.toBytes) :
    ∃ e, fromBytes front = .error e := by
  have hlt : front.length < response.toBytes.length :=
    Nat.lt_of_le_of_ne hfront.length_le fun hlen => hne (hfront.eq_of_length hlen)
  by_cases hshort : front.length < PackedRespHeader.size
  · exact ⟨_, if_pos hshort⟩
  · have hheader : response.header.toBytes <+: front := by
      apply List.prefix_of_prefix_length_le (List.prefix_append _ _) hfront
      rw [PackedRespHeader.toBytes_length]
      exact Nat.not_lt.mp hshort
    obtain ⟨tail, htail⟩ := hheader
    have hread : PackedRespHeader.read front = response.header := by
      rw [← htail]
      exact PackedRespHeader.read_append _ _
    rw [toBytes_length, ← h] at hlt
    refine ⟨"Buffer too small for payload", ?_⟩
    rw [fromBytes, if_neg hshort, hread]
    exact if_pos hlt

/-- Responses in a stream. -/
def code : Code PackedResponse where
  encode := toBytes
  decode bytes :=
    match fromBytes bytes with
    | .ok response => some response
    | _ => none
  encode_ne_nil response := by
    intro hnil
    have hlen := toBytes_length response
    rw [hnil, PackedRespHeader.size] at hlen
    simp only [List.length_nil] at hlen
    omega

theorem code_reads (h : response.Framed) : code.Reads response := by
  intro rest
  simp only [code, fromBytes_toBytes h]

/-- What the constructors make is framed. -/
theorem framed_new (status : Status) (seq : UInt32) {payload : Bytes}
    (h : payload.length < 2 ^ 32) : (Response.new status seq payload).packed.Framed :=
  UInt32.toNat_ofNat_of_lt' h

end PackedResponse

/-! ## Round trips -/

/-- Commands and responses whose headers announce what they carry are read back whatever follows,
and refused where anything of them is missing; concatenated, they are taken apart again. -/
theorem wire_roundTrip (overflowChecks : Bool) {commands : List Command}
    {responses : List PackedResponse} (hcommands : ∀ command ∈ commands, command.Framed)
    (hresponses : ∀ response ∈ responses, response.Framed) :
    (∀ command ∈ commands,
      (∀ rest, Command.fromBytes overflowChecks (command.toBytes ++ rest) = .ok command) ∧
        ∀ front, front <+: command.toBytes → front ≠ command.toBytes →
          ∃ e, Command.fromBytes overflowChecks front = .error e) ∧
      (∀ response ∈ responses,
        (∀ rest, PackedResponse.fromBytes (response.toBytes ++ rest) = .ok response) ∧
          ∀ front, front <+: response.toBytes → front ≠ response.toBytes →
            ∃ e, PackedResponse.fromBytes front = .error e) ∧
      (Command.code overflowChecks).split (commands.map Command.toBytes).flatten =
        some commands ∧
      PackedResponse.code.split (responses.map PackedResponse.toBytes).flatten =
        some responses := by
  refine ⟨?_, ?_, ?_, ?_⟩
  · intro command hmem
    have hframed := hcommands command hmem
    exact ⟨Command.fromBytes_toBytes hframed, fun front => Command.fromBytes_prefix hframed⟩
  · intro response hmem
    have hframed := hresponses response hmem
    exact ⟨PackedResponse.fromBytes_toBytes hframed,
      fun front => PackedResponse.fromBytes_prefix hframed⟩
  · exact Code.split_flatten fun command hmem => Command.code_reads (hcommands command hmem)
  · exact Code.split_flatten fun response hmem =>
      PackedResponse.code_reads (hresponses response hmem)

/-- A `Set` and a `Get`, and their answers. -/
theorem wire_roundTrip_session :
    (Command.code true).split
        ([Command.set 1 [7] [8, 9], Command.get 2 [7]].map Command.toBytes).flatten =
      some [Command.set 1 [7] [8, 9], Command.get 2 [7]] ∧
      PackedResponse.code.split
        ([(Response.ok 1 []).packed, (Response.ok 2 [8, 9]).packed].map
          PackedResponse.toBytes).flatten =
        some [(Response.ok 1 []).packed, (Response.ok 2 [8, 9]).packed] := by
  have hcommands : ∀ command ∈ [Command.set 1 [7] [8, 9], Command.get 2 [7]], command.Framed := by
    rw [List.forall_mem_cons, List.forall_mem_singleton]
    exact ⟨Command.framed_new .set 1 (by decide), Command.framed_new .get 2 (by decide)⟩
  have hresponses : ∀ response ∈ [(Response.ok 1 []).packed, (Response.ok 2 [8, 9]).packed],
      response.Framed := by
    rw [List.forall_mem_cons, List.forall_mem_singleton]
    exact ⟨PackedResponse.framed_new .ok 1 (by decide), PackedResponse.framed_new .ok 2 (by decide)⟩
  exact (wire_roundTrip true hcommands hresponses).2.2

end VedDb
