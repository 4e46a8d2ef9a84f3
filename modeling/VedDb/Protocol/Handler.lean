import VedDb.Lib.Runs
import VedDb.Protocol.Command
import VedDb.Replication.Agreement
import VedDb.Serde.Document
import VedDb.Storage.Reading

/-!
# The key-value handler

`ProtocolHandler` of `protocol.rs`: `SET`, `GET` and `DEL` on the documents of one collection.  A
`SET` stores its document under the random identifier of `Document::new`; the other two look for the
identifier that is derived from the key.
-/

namespace VedDb

open LittleEndian (Bytes)

/-! ## Text from bytes -/

namespace Utf8

/-- Bytes that continue a character after its first byte. -/
def isContinuation (b : UInt8) : Bool := b &&& 0xC0 = 0x80

/-- `utf8_char_width`: the bytes of a character that starts with this one. -/
def charWidth (b : UInt8) : Nat :=
  if b < 0x80 then 1
  else if b < 0xC2 then 0
  else if b < 0xE0 then 2
  else if b < 0xF0 then 3
  else if b < 0xF5 then 4
  else 0

/-- The second byte rules out overlong forms, surrogates and what lies above U+10FFFF. -/
def isSecond (first b : UInt8) : Bool :=
  if first = 0xE0 then 0xA0 ≤ b && b ≤ 0xBF
  else if first = 0xED then 0x80 ≤ b && b ≤ 0x9F
  else if first = 0xF0 then 0x90 ≤ b && b ≤ 0xBF
  else if first = 0xF4 then 0x80 ≤ b && b ≤ 0x8F
  else isContinuation b

/-- The bytes after the first that belong to its character, as far as they are well formed. -/
def tail (first : UInt8) (bs : Bytes) : Bytes :=
  match bs.take (charWidth first - 1) with
  | [] => []
  | b :: rest => if isSecond first b then b :: rest.takeWhile isContinuation else []

/-- The number that the bytes of a character hold. -/
def codePoint (first : UInt8) (tail : Bytes) : Nat :=
  tail.foldl (fun n b => 64 * n + b.toNat % 64) (first.toNat % 2 ^ (6 - tail.length))

/-- The first character, and the bytes behind it.  An incomplete one is replaced. -/
def first (b : UInt8) (bs : Bytes) : Char × Bytes :=
  let rest := tail b bs
  (if b < 0x80 then Char.ofNat b.toNat
    else if rest.length + 1 = charWidth b then Char.ofNat (codePoint b rest)
    else '\uFFFD',
    bs.drop rest.length)

/-- The characters of at most so many bytes. -/
def chars : Nat → Bytes → List Char
  | 0, _ => []
  | _, [] => []
  | n + 1, b :: bs => (first b bs).1 :: chars n (first b bs).2

/-- `String::from_utf8_lossy`. -/
def lossy (bs : Bytes) : String := String.ofList (chars bs.length bs)

end Utf8

example : Utf8.lossy [0x6B, 0xC3, 0xA9, 0xE2, 0x82, 0x41, 0xFF] = "k\u00E9\uFFFDA\uFFFD" := by
  decide +kernel

/-! ## Requests -/

/-- `ProtocolRequest`, without the flags and the number that nothing reads. -/
structure ProtocolRequest where
  opcode : OpCode
  key : Bytes
  value : Bytes

inductive ProtocolStatus where
  | ok
  | error
  | notFound
deriving DecidableEq

structure ProtocolResponse where
  status : ProtocolStatus
  flags : UInt8
  payload : Bytes
deriving DecidableEq

/-- The responses of the handler, which sets no flag. -/
def ProtocolResponse.of (status : ProtocolStatus) (payload : Bytes) : ProtocolResponse :=
  { status := status, flags := 0, payload := payload }

/-- `get_version_num` of the UUID. -/
def DocumentId.version (id : DocumentId) : Nat := id.uuid.toNat / 2 ^ 76 % 16

/-- What the handler rests on: the storage, `Uuid::new_v5` in the namespace of object identifiers,
and `serde_json` on values. -/
structure HandlerEnv (C : Type) where
  storage : StorageEnv C
  newV5 : String → DocumentId
  valueToVec : Value → Except String Bytes

/-- What a request draws from outside: the clock, and the identifier of `Document::new`. -/
structure HandlerMoment where
  now : DateTime
  documentId : DocumentId

/-- The collection of all keys. -/
def defaultCollection : String := "default"

namespace ProtocolHandler

variable {C : Type} (env : HandlerEnv C) (moment : HandlerMoment)
variable (engine : HybridStorageEngine C) (request : ProtocolRequest)

def derivedId (key : Bytes) : DocumentId := env.newV5 (Utf8.lossy key)

/-- The document of a `SET`. -/
def document : Document :=
  let empty : Document :=
    { id := moment.documentId, fields := ∅, metadata := .default moment.now }
  ((empty.insert moment.now "_key" (.string (Utf8.lossy request.key))).insert moment.now "value"
    (.string (Utf8.lossy request.value))).insert moment.now "_id"
      (.string (derivedId env request.key).toString)

def failed (error : StorageError) : ProtocolResponse :=
  .of .error (utf8 ("error: " ++ error.message))

def handleSet : ProtocolResponse × HybridStorageEngine C :=
  match engine.insertDocument env.storage.cache env.storage.json moment.now defaultCollection
      (document env moment request) with
  | (.ok _, engine) => (.of .ok [], engine)
  | (.error error, engine) => (failed error, engine)

/-- The answer to a `GET` that found a document. -/
def valueOf (doc : Document) : ProtocolResponse :=
  match doc.fields["value"]? with
  | some (.string s) => .of .ok (utf8 s)
  | some value => .of .ok ((env.valueToVec value).toOption.getD [])
  | none => .of .notFound []

def handleGet : ProtocolResponse × HybridStorageEngine C :=
  match engine.getDocument env.storage.cache env.storage.json moment.now defaultCollection
      (derivedId env request.key) with
  | (.ok (some doc), engine) => (valueOf env doc, engine)
  | (.ok none, engine) => (.of .notFound [], engine)
  | (.error error, engine) => (failed error, engine)

def handleDelete : ProtocolResponse × HybridStorageEngine C :=
  match engine.deleteDocument env.storage.cache moment.now defaultCollection
      (derivedId env request.key) with
  | (true, engine) => (.of .ok [], engine)
  | (false, engine) => (.of .notFound [], engine)

def handleRequest : ProtocolResponse × HybridStorageEngine C :=
  match request.opcode with
  | .ping => (.of .ok (utf8 "pong"), engine)
  | .set => handleSet env moment engine request
  | .get => handleGet env moment engine request
  | .del => handleDelete env moment engine request
  | _ => (.of .error (utf8 "unsupported operation"), engine)

end ProtocolHandler

/-! ## The map of the keys -/

/-- What a request makes of a map from keys to values. -/
def ProtocolRequest.onMap (map : Std.ExtTreeMap Bytes Bytes) (request : ProtocolRequest) :
    Std.ExtTreeMap Bytes Bytes :=
  match request.opcode with
  | .set => map.insert request.key request.value
  | .del => map.erase request.key
  | _ => map

/-- The response to a `GET` is what the map holds under the key. -/
def ProtocolResponse.Finds (map : Std.ExtTreeMap Bytes Bytes) (key : Bytes)
    (response : ProtocolResponse) : Prop :=
  match map[key]? with
  | some value => response.status = .ok ∧ response.payload = value
  | none => response.status = .notFound

instance {map : Std.ExtTreeMap Bytes Bytes} {key : Bytes} {response : ProtocolResponse} :
    Decidable (response.Finds map key) :=
  match h : map[key]? with
  | none => decidable_of_iff (response.status = .notFound) (by rw [ProtocolResponse.Finds, h])
  | some value =>
    decidable_of_iff (response.status = .ok ∧ response.payload = value)
      (by rw [ProtocolResponse.Finds, h])

namespace ProtocolHandler

variable {C : Type} (env : HandlerEnv C)

/-- A handler beside the map it should agree with. -/
def step (both : HybridStorageEngine C × Std.ExtTreeMap Bytes Bytes)
    (call : HandlerMoment × ProtocolRequest) :
    HybridStorageEngine C × Std.ExtTreeMap Bytes Bytes :=
  ((handleRequest env call.1 both.1 call.2).2, call.2.onMap both.2)

/-- A `GET` is answered from the map. -/
def Answers (both : HybridStorageEngine C × Std.ExtTreeMap Bytes Bytes)
    (call : HandlerMoment × ProtocolRequest) : Prop :=
  call.2.opcode = .get → (handleRequest env call.1 both.1 call.2).1.Finds both.2 call.2.key

instance {both : HybridStorageEngine C × Std.ExtTreeMap Bytes Bytes}
    {call : HandlerMoment × ProtocolRequest} : Decidable (Answers env both call) :=
  inferInstanceAs (Decidable (_ → _))

/-- The request is no `GET` of a key that the map holds. -/
def Missing (map : Std.ExtTreeMap Bytes Bytes) (call : HandlerMoment × ProtocolRequest) : Prop :=
  call.2.opcode = .get → map[call.2.key]? = none

/-! ## No derived identifier is ever stored -/

/-- No document of the collection has a derived identifier. -/
structure Unnamed (engine : HybridStorageEngine C) : Prop where
  plain : engine.Plain
  unnamed : ∀ id : DocumentId, id.version = 5 →
    engine.persistentLayer.documents[PersistentLayer.makeDocumentKey defaultCollection id]? = none

theorem unnamed_new (cacheLayer : C) :
    Unnamed (HybridStorageEngine.new cacheLayer PersistentLayer.empty) where
  plain := HybridStorageEngine.plain_new cacheLayer PersistentLayer.empty
  unnamed _ _ := Std.ExtTreeMap.getElem?_empty

variable {env} {engine : HybridStorageEngine C} {call : HandlerMoment × ProtocolRequest}

-- The identifier that a `SET` stores its document under is random, not derived.
theorem Unnamed.handleSet (h : Unnamed engine) (hrandom : call.1.documentId.version = 4) :
    Unnamed (handleSet env call.1 engine call.2).2 := by
  have hengine : (ProtocolHandler.handleSet env call.1 engine call.2).2 =
      (engine.insertDocument env.storage.cache env.storage.json call.1.now defaultCollection
        (document env call.1 call.2)).2 := by
    rw [ProtocolHandler.handleSet]
    split
    next heq => rw [heq]
    next heq => rw [heq]
  rw [hengine, h.plain.insertDocument_eq, PersistentLayer.insertDocument]
  refine ⟨h.plain.persist _, fun id hid => ?_⟩
  split
  next => exact h.unnamed id hid
  next value _ =>
    have hne : PersistentLayer.makeDocumentKey defaultCollection call.1.documentId ≠
        PersistentLayer.makeDocumentKey defaultCollection id := by
      intro heq
      have hsame := (PersistentLayer.makeDocumentKey_injective heq).2
      rw [← hsame, hrandom] at hid
      cases hid
    show (engine.persistentLayer.documents.insert
      (PersistentLayer.makeDocumentKey defaultCollection call.1.documentId) value)[_]? = none
    rw [lookup_insert, if_neg hne]
    exact h.unnamed id hid

/-- A `GET` of a derived identifier finds nothing. -/
theorem Unnamed.handleGet (h : Unnamed engine)
    (hderived : (derivedId env call.2.key).version = 5) :
    handleGet env call.1 engine call.2 = (.of .notFound [], engine) := by
  have hnone : engine.persistentLayer.getDocument env.storage.json call.1.now defaultCollection
      (derivedId env call.2.key) = .ok none :=
    PersistentLayer.getDocument_eq_none_iff.mpr (h.unnamed _ hderived)
  simp only [ProtocolHandler.handleGet, h.plain.getDocument_eq, hnone]

theorem Unnamed.handleDelete (h : Unnamed engine) :
    Unnamed (handleDelete env call.1 engine call.2).2 := by
  have hengine : (ProtocolHandler.handleDelete env call.1 engine call.2).2 =
      (engine.deleteDocument env.storage.cache call.1.now defaultCollection
        (derivedId env call.2.key)).2 := by
    rw [ProtocolHandler.handleDelete]
    split
    next heq => rw [heq]
    next heq => rw [heq]
  rw [hengine, h.plain.deleteDocument_eq]
  refine ⟨⟨h.plain.schemas_eq, h.plain.queue_eq⟩, fun id hid => ?_⟩
  show (engine.persistentLayer.documents.erase _)[_]? = none
  rw [lookup_erase]
  split
  · rfl
  · exact h.unnamed id hid

theorem Unnamed.handleRequest (h : Unnamed engine) (hrandom : call.1.documentId.version = 4)
    (hderived : (derivedId env call.2.key).version = 5) :
    Unnamed (handleRequest env call.1 engine call.2).2 := by
  rw [ProtocolHandler.handleRequest]
  split
  next => exact h
  next => exact h.handleSet hrandom
  next =>
    rw [h.handleGet hderived]
    exact h
  next => exact h.handleDelete
  next => exact h

/-! ## Which answers are right -/

variable {map : Std.ExtTreeMap Bytes Bytes}

theorem finds_notFound_iff {key : Bytes} :
    (ProtocolResponse.of .notFound []).Finds map key ↔ map[key]? = none := by
  rw [ProtocolResponse.Finds]
  cases map[key]? with
  | none => simp [ProtocolResponse.of]
  | some value => simp [ProtocolResponse.of]

theorem Unnamed.answers_iff (h : Unnamed engine)
    (hderived : (derivedId env call.2.key).version = 5) :
    Answers env (engine, map) call ↔ Missing map call := by
  rw [Answers, Missing]
  apply imp_congr_right
  intro hget
  rw [ProtocolHandler.handleRequest, hget]
  show (ProtocolHandler.handleGet env call.1 engine call.2).1.Finds map call.2.key ↔ _
  rw [h.handleGet hderived]
  exact finds_notFound_iff

/-- Exactly the runs that never ask for a key they hold are answered from the map: what a `SET`
stored is not found. -/
theorem gets_right_iff {calls : List (HandlerMoment × ProtocolRequest)} (h : Unnamed engine)
    (hrandom : ∀ call ∈ calls, call.1.documentId.version = 4)
    (hderived : ∀ key, (env.newV5 key).version = 5) :
    MeetsAlong (step env) (Answers env) (engine, map) calls ↔
      MeetsAlong (fun map call => call.2.onMap map) Missing map calls := by
  induction calls generalizing engine map with
  | nil => exact Iff.rfl
  | cons call calls ih =>
    have hnext : Unnamed (handleRequest env call.1 engine call.2).2 :=
      h.handleRequest (hrandom call List.mem_cons_self) (hderived _)
    apply and_congr (h.answers_iff (hderived _))
    exact ih hnext fun call hcall => hrandom call (List.mem_cons_of_mem _ hcall)

/-! ## A session -/

/-- The storage of one process without a cache, and the identifier that is derived from `k`. -/
def sessionEnv : HandlerEnv Unit where
  storage := { plainEnv with json := JsonText.documents [] }
  newV5 _ := ⟨0xa1e2a18d32955d01b2f6f2b71f7cbf8b⟩
  valueToVec _ := .error "no values"

def sessionMoment : HandlerMoment :=
  { now := 0, documentId := ⟨0x6f1b3c0e9d5a4c2b8e7f0a1b2c3d4e5f⟩ }

def setCall : HandlerMoment × ProtocolRequest :=
  (sessionMoment, { opcode := .set, key := utf8 "k", value := utf8 "v" })

def getCall : HandlerMoment × ProtocolRequest :=
  (sessionMoment, { opcode := .get, key := utf8 "k", value := [] })

def delCall : HandlerMoment × ProtocolRequest :=
  (sessionMoment, { opcode := .del, key := utf8 "k", value := [] })

def freshEngine : HybridStorageEngine Unit := .new () .empty

/-- The value of an acknowledged `SET` is not found. -/
theorem set_then_get_notFound :
    (handleRequest sessionEnv sessionMoment freshEngine setCall.2).1.status = .ok ∧
      ¬MeetsAlong (step sessionEnv) (Answers sessionEnv) (freshEngine, ∅) [setCall, getCall] := by
  decide +kernel

theorem gets_right_iff_deleted :
    (∀ call ∈ [setCall, delCall, getCall], call.1.documentId.version = 4) ∧
      (∀ key, (sessionEnv.newV5 key).version = 5) ∧
      (MeetsAlong (step sessionEnv) (Answers sessionEnv) (freshEngine, ∅)
          [setCall, delCall, getCall] ↔
        MeetsAlong (fun map call => call.2.onMap map) Missing ∅ [setCall, delCall, getCall]) := by
  have hrandom : ∀ call ∈ [setCall, delCall, getCall], call.1.documentId.version = 4 := by
    decide
  have hderived (key : String) : (sessionEnv.newV5 key).version = 5 := by
    show (⟨0xa1e2a18d32955d01b2f6f2b71f7cbf8b⟩ : DocumentId).version = 5
    decide
  exact ⟨hrandom, hderived, gets_right_iff (unnamed_new ()) hrandom hderived⟩

end ProtocolHandler

end VedDb
