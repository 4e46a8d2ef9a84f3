import VedDb.Kv.Commands
import VedDb.Protocol.Authorization
import VedDb.Protocol.LegacyDocuments
import VedDb.Serde.Document

/-!
# Version 1 clients

A version 1 client has its commands translated, processed as commands on documents, and the
responses translated back.  It gets the responses of a versioned map as long as its keys are texts,
it sets no key that has a value, deletes none that has not, and swaps nothing: a second `SET` adds a
second document, a `CAS` looks for a field that no document has, and both it and a `DEL` are
acknowledged whatever they found.
-/

namespace VedDb

open LittleEndian (Bytes)
open Durable (Outcome)
open SharedKv (Request)
open LegacyKv (Stores StandsFor Scanned)

/-! ## Version 1 commands -/

def SharedKv.Request.legacyCommand (request : Request) : Command :=
  { request.command with header := { request.command.header with version := protocolV1 } }

theorem SharedKv.Request.legacyCommand_version (request : Request) :
    request.legacyCommand.header.version = protocolV1 := rfl

def SharedKv.Request.translated (request : Request) (op : OpCode) (payload : Bytes) : Command :=
  { header :=
      { request.command.header.withKeyVal 0 (UInt32.ofNat payload.length) with
        version := protocolV2, op := op.code }
    key := []
    value := payload }

namespace ConnectionManager

variable {C : Type}

section

variable (env : ServerEnv C) (moment : ServerMoment) (manager : ConnectionManager C)

def translatedBack (command : Command) (response : Response) : Outcome ConnectionError Response :=
  match command.header.opcode with
  | none => .ok response
  | some op =>
    match CompatibilityHandler.translateResponse env.wire response op with
    | .error error => .error (.protocolError error)
    | .ok response => .ok response

def serveLegacy (id : Uuid) (command : Command) : Served C :=
  match CompatibilityHandler.translateCommand env.wire moment.now moment.documentId command with
  | .error error => (.error (.protocolError error), manager)
  | .ok translated =>
    match processCommand env moment manager id translated with
    | (.ok response, manager) => (translatedBack env command response, manager)
    | served => served

end

end ConnectionManager

/-! ## What the JSON carries -/

def Wire.Decodes (wire : Wire) (now : DateTime) (payload : Bytes) : LegacyRequest → Prop
  | .insertDoc request => wire.insertDoc now payload = .ok request
  | .query request => wire.query payload = .ok request
  | .deleteDoc request => wire.deleteDoc payload = .ok request
  | .updateDoc request => wire.updateDoc payload = .ok request

def Wire.Carries (wire : Wire) (now : DateTime) (request : LegacyRequest) : Prop :=
  ∃ payload, wire.legacyRequest request = .ok payload ∧ wire.Decodes now payload request

/-- An answer is read back as it was written. -/
def Wire.Reads (wire : Wire) (operation : OperationResponse) : Prop :=
  ∃ payload, wire.answer (.operation operation) = .ok payload ∧
    wire.operationResponse payload = .ok operation

/-- The JSON of what a request makes the two sides exchange is read back: the translated request,
the document of a `SET` where it is stored and where it answers a `GET`, and the answers. -/
def ServerEnv.Carries {C : Type} (env : ServerEnv C) (moment : ServerMoment) : Request → Prop
  | .set _ key value => ∀ text, CompatibilityHandler.keyText key = .ok text →
      let document := CompatibilityHandler.setDocument moment.now moment.documentId text value
      env.wire.Carries moment.now
          (CompatibilityHandler.setRequest moment.now moment.documentId text value) ∧
        env.storage.json.RoundTrips document ∧ env.wire.Reads (.ofData none) ∧
        env.wire.Reads (.ofData (some (.array [DocumentCommand.answered document])))
  | .get _ key => ∀ text, CompatibilityHandler.keyText key = .ok text →
      env.wire.Carries moment.now (CompatibilityHandler.getRequest text) ∧
        env.wire.Reads (.ofData (some (.array [])))
  | .del _ key => ∀ text, CompatibilityHandler.keyText key = .ok text →
      env.wire.Carries moment.now (CompatibilityHandler.delRequest text) ∧
        env.wire.Reads (.ofCount 1)
  | .cas _ _ _ _ => True

namespace CompatibilityHandler

/-! ## Translation -/

variable {wire : Wire} {now : DateTime} {id : DocumentId} {seq : UInt32} {key value : Bytes}
  {text : String} {payload : Bytes}

theorem utf8_of_keyText (h : keyText key = .ok text) : utf8 text = key := by
  rw [keyText] at h
  split at h
  next => cases h
  next heq =>
    cases h
    exact utf8_of_fromUTF8? heq

theorem translateCommand_set (hkey : keyText key = .ok text)
    (hpayload : wire.legacyRequest (setRequest now id text value) = .ok payload) :
    translateCommand wire now id (Request.set seq key value).legacyCommand =
      .ok ((Request.set seq key value).translated .insertDoc payload) := by
  rw [translateCommand, if_neg (not_not.mpr (SharedKv.Request.legacyCommand_version _))]
  show (keyText key >>= fun key => rewritten wire _ _ (setRequest now id key value)) = _
  rw [hkey]
  show rewritten wire _ _ (setRequest now id text value) = _
  rw [rewritten, hpayload]
  rfl

theorem translateCommand_get (hkey : keyText key = .ok text)
    (hpayload : wire.legacyRequest (getRequest text) = .ok payload) :
    translateCommand wire now id (Request.get seq key).legacyCommand =
      .ok ((Request.get seq key).translated .query payload) := by
  rw [translateCommand, if_neg (not_not.mpr (SharedKv.Request.legacyCommand_version _))]
  show (keyText key >>= fun key => rewritten wire _ _ (getRequest key)) = _
  rw [hkey]
  show rewritten wire _ _ (getRequest text) = _
  rw [rewritten, hpayload]
  rfl

theorem translateCommand_del (hkey : keyText key = .ok text)
    (hpayload : wire.legacyRequest (delRequest text) = .ok payload) :
    translateCommand wire now id (Request.del seq key).legacyCommand =
      .ok ((Request.del seq key).translated .deleteDoc payload) := by
  rw [translateCommand, if_neg (not_not.mpr (SharedKv.Request.legacyCommand_version _))]
  show (keyText key >>= fun key => rewritten wire _ _ (delRequest key)) = _
  rw [hkey]
  show rewritten wire _ _ (delRequest text) = _
  rw [rewritten, hpayload]
  rfl

theorem translateCommand_translated (request : Request) (op : OpCode) (payload : Bytes) :
    translateCommand wire now id (request.translated op payload) =
      .ok (request.translated op payload) := by
  have hversion : protocolV2 ≠ protocolV1 := by decide
  rw [translateCommand]
  exact if_pos hversion

/-- A query that answers a `GET`. -/
theorem translateResponse_get (seq : UInt32) {operation : OperationResponse} {docs : List Value}
    {payload : Bytes}
    (hsuccess : operation = .ofData (some (.array docs)))
    (hreads : wire.operationResponse payload = .ok operation) :
    translateResponse wire (Response.ok seq payload) .get =
      .ok (match firstValue (some (.array docs)) with
        | some value => Response.ok seq value
        | none => Response.notFound seq) := by
  subst hsuccess
  have hstatus : (Response.ok seq payload).header.status = .ok := rfl
  have hpayload : (Response.ok seq payload).payload = payload := rfl
  have hsucceeded : (OperationResponse.ofData (some (.array docs))).success ≠ false := by
    show true ≠ false
    decide
  have hdata : (OperationResponse.ofData (some (.array docs))).data = some (.array docs) := rfl
  rw [translateResponse, translateQueryResponseToGet, if_neg (not_not.mpr hstatus), hpayload,
    hreads]
  dsimp only
  rw [if_neg hsucceeded, hdata]
  cases firstValue (some (.array docs)) with
  | none => rfl
  | some value => rfl

theorem firstValue_answered {doc : Document} (docs : List Document)
    (hfields : doc.fields = LegacyKv.fields text value) :
    firstValue (some (.array ((doc :: docs).map DocumentCommand.answered))) = some value := by
  rw [List.map_cons, DocumentCommand.answered, hfields]
  rfl

end CompatibilityHandler

namespace ConnectionManager

variable {C : Type} {env : ServerEnv C} {moment : ServerMoment} {manager : ConnectionManager C}
  {id : Uuid} {seq : UInt32} {key value payload : Bytes} {text : String}

/-! ## Processing -/

theorem serveLegacy_eq {request : Request} {op : OpCode}
    (hopen : manager.access.isAuthenticated id = true)
    (htranslate : CompatibilityHandler.translateCommand env.wire moment.now moment.documentId
      request.legacyCommand = .ok (request.translated op payload)) :
    serveLegacy env moment manager id request.legacyCommand =
      match handle env moment manager id (request.translated op payload) op with
      | (.ok response, manager) => (translatedBack env request.legacyCommand response, manager)
      | served => served := by
  have hprocess : processCommand env moment manager id (request.translated op payload) =
      handle env moment manager id (request.translated op payload) op := by
    have hop : (request.translated op payload).header.opcode = some op := OpCode.tryFrom_code op
    rw [processCommand, CompatibilityHandler.translateCommand_translated]
    dsimp only
    rw [hop]
    dsimp only
    rw [hopen]
    exact if_neg fun h => Bool.noConfusion h.2
  rw [serveLegacy, htranslate]
  dsimp only
  rw [hprocess]

theorem respond_eq {operation : OperationResponse} {command : Command}
    (h : env.wire.answer (.operation operation) = .ok payload) :
    respond env command (.operation operation) = .ok (Response.ok command.header.seq payload) := by
  rw [respond, h]

theorem serveLegacy_set (seq : UInt32) {engine : HybridStorageEngine C} {answer : Bytes}
    (hopen : manager.access.isAuthenticated id = true)
    (hkey : CompatibilityHandler.keyText key = .ok text)
    (hwritten : env.wire.legacyRequest
      (CompatibilityHandler.setRequest moment.now moment.documentId text value) = .ok payload)
    (hread : env.wire.insertDoc moment.now payload = .ok
      { collection := legacyKvCollection
        document := CompatibilityHandler.setDocument moment.now moment.documentId text value })
    (hinsert : DocumentCommand.insert env.storage moment.now manager.storage
      { collection := legacyKvCollection
        document := CompatibilityHandler.setDocument moment.now moment.documentId text value } =
      (.ok (), engine))
    (hanswer : env.wire.answer (.operation (.ofData none)) = .ok answer) :
    serveLegacy env moment manager id (Request.set seq key value).legacyCommand =
      (.ok (Response.ok seq answer), { manager with storage := engine }) := by
  rw [serveLegacy_eq hopen (CompatibilityHandler.translateCommand_set hkey hwritten), handle,
    insertDoc]
  show (match serving manager (decoded "" (env.wire.insertDoc moment.now payload)) _ with
    | (.ok response, manager) => _
    | served => _) = _
  rw [hread, decoded, serving, hinsert, stored, answering, succeed, respond_eq hanswer]
  rfl

theorem serveLegacy_get (seq : UInt32) {docs : List Value} {answer : Bytes}
    (hopen : manager.access.isAuthenticated id = true)
    (hkey : CompatibilityHandler.keyText key = .ok text)
    (hwritten : env.wire.legacyRequest (CompatibilityHandler.getRequest text) = .ok payload)
    {request : QueryRequest} (hread : env.wire.query payload = .ok request)
    (hquery : DocumentCommand.query env.storage env.regex moment.now manager.storage request =
      .ok (.array docs))
    (hanswer : env.wire.answer (.operation (.ofData (some (.array docs)))) = .ok answer)
    (hanswered : env.wire.operationResponse answer = .ok (.ofData (some (.array docs)))) :
    serveLegacy env moment manager id (Request.get seq key).legacyCommand =
      (.ok (match CompatibilityHandler.firstValue (some (.array docs)) with
        | some value => Response.ok seq value
        | none => Response.notFound seq), manager) := by
  have hserved : query env moment manager ((Request.get seq key).translated .query payload) =
      .ok (Response.ok seq answer) := by
    rw [query]
    show answering (decoded "" (env.wire.query payload)) _ = _
    rw [hread, decoded, answering, hquery, answering, succeed, respond_eq hanswer]
    rfl
  have hop : (Request.get seq key).legacyCommand.header.opcode = some .get := rfl
  rw [serveLegacy_eq hopen (CompatibilityHandler.translateCommand_get hkey hwritten), handle,
    unchanged, hserved]
  dsimp only
  rw [translatedBack, hop]
  dsimp only
  rw [CompatibilityHandler.translateResponse_get seq rfl hanswered]

theorem serveLegacy_del (seq : UInt32) {engine : HybridStorageEngine C} {answer : Bytes}
    {count : Nat}
    (hopen : manager.access.isAuthenticated id = true)
    (hkey : CompatibilityHandler.keyText key = .ok text)
    (hwritten : env.wire.legacyRequest (CompatibilityHandler.delRequest text) = .ok payload)
    {request : DeleteDocRequest} (hread : env.wire.deleteDoc payload = .ok request)
    (hdelete : DocumentCommand.delete env.storage env.regex moment.now manager.storage request =
      (.ok count, engine))
    (hanswer : env.wire.answer (.operation (.ofCount count)) = .ok answer) :
    serveLegacy env moment manager id (Request.del seq key).legacyCommand =
      (.ok (Response.ok seq answer), { manager with storage := engine }) := by
  rw [serveLegacy_eq hopen (CompatibilityHandler.translateCommand_del hkey hwritten), handle,
    deleteDoc]
  show (match serving manager (decoded "" (env.wire.deleteDoc payload)) _ with
    | (.ok response, manager) => _
    | served => _) = _
  rw [hread, decoded, serving, hdelete, stored, answering, respond_eq hanswer]
  rfl

/-! ## The simulation -/

/-- A response to a `GET` is the one that is expected; one to a write has its status. -/
def Agrees : Request → Response → Response → Prop
  | .get _ _, expected, response => response = expected
  | _, expected, response =>
    response.header.status = expected.header.status ∧ response.header.seq = expected.header.seq

variable (env id) in
/-- A server beside the map that its version 1 clients should see. -/
def legacyStep (both : ConnectionManager C × VersionedMap Bytes Bytes)
    (call : ServerMoment × Request) : ConnectionManager C × VersionedMap Bytes Bytes :=
  ((serveLegacy env call.1 both.1 id call.2.legacyCommand).2, (call.2.onMap both.2).2)

variable (env id) in
def Simulated (both : ConnectionManager C × VersionedMap Bytes Bytes)
    (call : ServerMoment × Request) : Prop :=
  ∃ response, (serveLegacy env call.1 both.1 id call.2.legacyCommand).1 = .ok response ∧
    Agrees call.2 (call.2.onMap both.2).1 response

/-- The key is a text; a `SET` is of a key without a value, a `DEL` of one with a value, and there
is no `CAS`. -/
def Supported (map : VersionedMap Bytes Bytes) (call : ServerMoment × Request) : Prop :=
  match call.2 with
  | .set _ key _ => (∃ text, CompatibilityHandler.keyText key = .ok text) ∧ map[key]? = none
  | .get _ key => ∃ text, CompatibilityHandler.keyText key = .ok text
  | .del _ key =>
    (∃ text, CompatibilityHandler.keyText key = .ok text) ∧ ∃ value, map.get key = some value
  | .cas _ _ _ _ => False

variable (env id) in
/-- The connection is authenticated, the storage has the documents of the keys, and the answer to a
query for one of them is read back. -/
structure Linked (manager : ConnectionManager C) (docs : DocumentId → Option (String × Bytes))
    (map : VersionedMap Bytes Bytes) : Prop where
  authenticated : manager.access.isAuthenticated id = true
  standsFor : ∃ db, Stores env.storage manager.storage db ∧ StandsFor db docs map
  reads : ∀ doc key value, docs doc.id = some (key, value) →
    doc.fields = LegacyKv.fields key value →
    env.wire.Reads (.ofData (some (.array [DocumentCommand.answered doc])))

variable {docs : DocumentId → Option (String × Bytes)} {map : VersionedMap Bytes Bytes}

theorem Linked.set (h : Linked env id manager docs map)
    (hcarries : env.Carries moment (.set seq key value))
    (hkey : CompatibilityHandler.keyText key = .ok text) (hmissing : map[key]? = none)
    (hfresh : docs moment.documentId = none) :
    Simulated env id (manager, map) (moment, .set seq key value) ∧
      Linked env id (serveLegacy env moment manager id (Request.set seq key value).legacyCommand).2
        (Function.update docs moment.documentId (some (text, value))) (map.put key value) := by
  have ⟨⟨payload, hwritten, hread⟩, hround, ⟨answer, hanswer, _⟩, hreads⟩ := hcarries text hkey
  have ⟨db, hstores, hmap⟩ := h.standsFor
  have ⟨engine, hinsert, hstores'⟩ := hstores.insert hround
  have hserve := serveLegacy_set seq h.authenticated hkey hwritten hread hinsert hanswer
  have hutf8 := CompatibilityHandler.utf8_of_keyText hkey
  refine ⟨⟨_, congrArg Prod.fst hserve, rfl, rfl⟩, ?_⟩
  rw [hserve]
  refine ⟨h.authenticated, ⟨_, hstores', ?_⟩, ?_⟩
  · rw [← hutf8] at hmissing ⊢
    exact hmap.insert hfresh hmissing
  · intro doc key' value' hdocs hfields
    rw [Function.update_apply] at hdocs
    split at hdocs
    next heq =>
      cases hdocs
      have hsame : DocumentCommand.answered doc = DocumentCommand.answered
          (CompatibilityHandler.setDocument moment.now moment.documentId text value) := by
        rw [DocumentCommand.answered, hfields, heq]
        rfl
      rw [hsame]
      exact hreads
    next => exact h.reads doc key' value' hdocs hfields

theorem Linked.get (h : Linked env id manager docs map)
    (hcarries : env.Carries moment (.get seq key))
    (hkey : CompatibilityHandler.keyText key = .ok text) :
    Simulated env id (manager, map) (moment, .get seq key) ∧
      (serveLegacy env moment manager id (Request.get seq key).legacyCommand).2 = manager := by
  rcases hcarries text hkey with ⟨⟨payload, hwritten, hread⟩, hnone⟩
  rcases h.standsFor with ⟨db, hstores, hmap⟩
  obtain ⟨found, hfound, hquery⟩ :=
    hstores.query env.regex moment.now text hmap
  have hutf8 := CompatibilityHandler.utf8_of_keyText hkey
  cases hvalue : map.get key with
  | none =>
    have hmissing : map[utf8 text]? = none := by
      rw [hutf8]
      exact Option.map_eq_none_iff.mp hvalue
    rw [LegacyKv.filter_hasKey_of_missing hmap hfound hmissing] at hquery
    rcases hnone with ⟨answer, hanswer, hanswered⟩
    have hserve := serveLegacy_get seq h.authenticated hkey hwritten hread hquery hanswer
      hanswered
    refine ⟨⟨_, congrArg Prod.fst hserve, ?_⟩, congrArg Prod.snd hserve⟩
    show _ = (Request.onMap map (.get seq key)).1
    rw [Request.onMap, hvalue]
    rfl
  | some value =>
    rw [← hutf8] at hvalue
    rcases LegacyKv.filter_hasKey_of_held hmap hfound hvalue with ⟨doc, hdoc, hdocs, hfields⟩
    rw [hdoc] at hquery
    rcases h.reads doc text value hdocs hfields with ⟨answer, hanswer, hanswered⟩
    have hserve := serveLegacy_get seq h.authenticated hkey hwritten hread hquery hanswer
      hanswered
    have hvalues := CompatibilityHandler.firstValue_answered [] hfields
    refine ⟨⟨_, congrArg Prod.fst hserve, ?_⟩, congrArg Prod.snd hserve⟩
    show _ = (Request.onMap map (.get seq key)).1
    rw [hvalues, Request.onMap, ← hutf8, hvalue]

theorem Linked.del (h : Linked env id manager docs map)
    (hcarries : env.Carries moment (.del seq key))
    (hkey : CompatibilityHandler.keyText key = .ok text) (hheld : map.get key = some value) :
    Simulated env id (manager, map) (moment, .del seq key) ∧
      ∃ gone, Linked env id
        (serveLegacy env moment manager id (Request.del seq key).legacyCommand).2
        (Function.update docs gone none) (map.erase key) := by
  rcases hcarries text hkey with ⟨⟨payload, hwritten, hread⟩, ⟨answer, hanswer, _⟩⟩
  rcases h.standsFor with ⟨db, hstores, hmap⟩
  have hutf8 := CompatibilityHandler.utf8_of_keyText hkey
  rw [← hutf8] at hheld
  obtain ⟨gone, engine, hdocs, hdelete, hstores'⟩ :=
    hstores.delete env.regex moment.now hmap hheld
  have hserve := serveLegacy_del seq h.authenticated hkey hwritten hread hdelete hanswer
  refine ⟨⟨_, congrArg Prod.fst hserve, ?_⟩, gone, ?_⟩
  · have hcontains : map.contains key = true := by
      rw [Std.ExtTreeMap.contains_eq_isSome_getElem?, ← hutf8]
      rw [VersionedMap.get, Option.map_eq_some_iff] at hheld
      rcases hheld with ⟨current, hcurrent, _⟩
      rw [hcurrent]
      rfl
    have hexpected : (Request.onMap map (.del seq key)).1 = Response.ok seq [] := by
      rw [Request.onMap, hcontains]
      rfl
    have hagrees : Agrees (.del seq key) (Response.ok seq []) (Response.ok seq answer) := ⟨rfl, rfl⟩
    rw [← hexpected] at hagrees
    exact hagrees
  · rw [hserve]
    refine ⟨h.authenticated, ⟨_, hstores', ?_⟩, ?_⟩
    · rw [← hutf8]
      exact hmap.erase hdocs
    · intro doc key' value' hdocs' hfields
      rw [Function.update_apply] at hdocs'
      split at hdocs'
      · cases hdocs'
      · exact h.reads doc key' value' hdocs' hfields

/-- A command that is supported is answered as by the map, and keeps the two together. -/
theorem Linked.step {call : ServerMoment × Request} (h : Linked env id manager docs map)
    (hcarries : env.Carries call.1 call.2) (hsupported : Supported map call)
    (hfresh : docs call.1.documentId = none) :
    Simulated env id (manager, map) call ∧
      ∃ docs', Linked env id (serveLegacy env call.1 manager id call.2.legacyCommand).2 docs'
          (call.2.onMap map).2 ∧
        ∀ other, other ≠ call.1.documentId → docs other = none → docs' other = none := by
  rcases call with ⟨moment, request⟩
  cases request with
  | set seq key value =>
    rcases hsupported with ⟨⟨text, hkey⟩, hmissing⟩
    rcases h.set hcarries hkey hmissing hfresh with ⟨hsimulated, hlinked⟩
    refine ⟨hsimulated, _, hlinked, fun other hne hother => ?_⟩
    rw [Function.update_of_ne hne]
    exact hother
  | get seq key =>
    rcases hsupported with ⟨text, hkey⟩
    rcases h.get hcarries hkey with ⟨hsimulated, hsame⟩
    refine ⟨hsimulated, docs, ?_, fun other _ hother => hother⟩
    have hmap : (Request.onMap map (.get seq key)).2 = map := by
      rw [Request.onMap]
      split
      · rfl
      · rfl
    show Linked env id (serveLegacy env moment manager id _).2 docs _
    rw [hsame, hmap]
    exact h
  | del seq key =>
    rcases hsupported with ⟨⟨text, hkey⟩, value, hheld⟩
    rcases h.del hcarries hkey hheld with ⟨hsimulated, gone, hlinked⟩
    refine ⟨hsimulated, _, hlinked, fun other _ hother => ?_⟩
    rw [Function.update_apply]
    split
    · rfl
    · exact hother
  | cas seq key value expectedVersion => exact hsupported.elim

theorem legacy_run {calls : List (ServerMoment × Request)} (h : Linked env id manager docs map)
    (hcarries : ∀ call ∈ calls, env.Carries call.1 call.2)
    (hfresh : ∀ call ∈ calls, docs call.1.documentId = none)
    (hdistinct : calls.Pairwise fun a b => b.1.documentId ≠ a.1.documentId)
    (hsupported : MeetsAlong (fun map call => (call.2.onMap map).2) Supported map calls) :
    MeetsAlong (legacyStep env id) (Simulated env id) (manager, map) calls := by
  induction calls generalizing manager docs map with
  | nil => exact trivial
  | cons call calls ih =>
    rw [List.forall_mem_cons] at hcarries hfresh
    rw [List.pairwise_cons] at hdistinct
    have ⟨hsimulated, docs', hlinked, hkept⟩ := h.step hcarries.1 hsupported.1 hfresh.1
    refine ⟨hsimulated, ih hlinked hcarries.2 ?_ hdistinct.2 hsupported.2⟩
    intro other hother
    exact hkept _ (hdistinct.1 other hother) (hfresh.2 other hother)

/-- On an authenticated connection, with no documents of keys at first, supported commands are
answered as by a versioned map. -/
theorem legacy_simulates_versionedMap {db : Database} {calls : List (ServerMoment × Request)}
    (hopen : manager.access.isAuthenticated id = true)
    (hstores : Stores env.storage manager.storage db) (hempty : ¬db.Holds legacyKvCollection)
    (hseparate : ∀ other, db.Holds other → ¬(legacyKvCollection ++ ":").toList <+: other.toList)
    (hcarries : ∀ call ∈ calls, env.Carries call.1 call.2)
    (hdistinct : calls.Pairwise fun a b => b.1.documentId ≠ a.1.documentId)
    (hsupported : MeetsAlong (fun map call => (call.2.onMap map).2) Supported ∅ calls) :
    MeetsAlong (legacyStep env id) (Simulated env id) (manager, ∅) calls := by
  have hlinked : Linked env id manager (fun _ => none) ∅ :=
    ⟨hopen, ⟨db, hstores, .empty hempty hseparate⟩, nofun⟩
  exact legacy_run hlinked hcarries (fun _ _ => rfl) hdistinct hsupported

end ConnectionManager

/-! ## A session

The JSON of the requests and answers of a session, as `serde_json` writes it. -/

namespace JsonText

/-- The value whose text this is, among some whose texts differ. -/
theorem find?_text {α : Type} {text : α → Bytes} {known : List α} (h : (known.map text).Nodup)
    {a : α} (ha : a ∈ known) : known.find? (fun b => text b = text a) = some a := by
  cases hfind : known.find? fun b => text b = text a with
  | none =>
    have hne := List.find?_eq_none.mp hfind a ha
    exact absurd (decide_eq_true rfl) hne
  | some b =>
    have htext := of_decide_eq_true
      (List.find?_some (p := fun b => decide (text b = text a)) hfind)
    rw [List.inj_on_of_nodup_map h (List.mem_of_find?_eq_some hfind) ha htext]

def optional {α : Type} (json : α → Json F64) : Option α → Json F64
  | none => .null
  | some a => json a

def valueJson : Value → Json F64 := encodeValue (serde [])

def documentJson (doc : Document) : Json F64 := encodeDocument (serde []) doc.id doc.fields

def requestJson : LegacyRequest → Json F64
  | .insertDoc request =>
    .object [("collection", .string request.collection),
      ("document", documentJson request.document)]
  | .query request =>
    .object [("collection", .string request.collection),
      ("filter", optional valueJson request.filter),
      ("projection", optional valueJson request.projection),
      ("sort", optional valueJson request.sort),
      ("skip", optional (fun n => .integer n.toNat) request.skip),
      ("limit", optional (fun n => .integer n.toNat) request.limit)]
  | .deleteDoc request =>
    .object [("collection", .string request.collection), ("filter", valueJson request.filter)]
  | .updateDoc request =>
    .object [("collection", .string request.collection), ("filter", valueJson request.filter),
      ("update", valueJson request.update), ("upsert", .bool request.upsert)]

def operationJson (response : OperationResponse) : Json F64 :=
  .object [("success", .bool response.success), ("data", optional valueJson response.data),
    ("error", optional .string response.error),
    ("affected_count", optional (fun n => .integer n) response.affectedCount)]

def requestText (request : LegacyRequest) : Bytes := write (requestJson request)

def operationText (response : OperationResponse) : Bytes := write (operationJson response)

/-- The JSON of version 1 clients, which reads these requests and answers. -/
def legacyWire (requests : List LegacyRequest) (operations : List OperationResponse) : Wire :=
  { noRequests with
    query := fun bytes =>
      match requests.find? fun request => requestText request = bytes with
      | some (.query request) => .ok request
      | _ => .error "expected value"
    insertDoc := fun now bytes =>
      match requests.find? fun request => requestText request = bytes with
      | some (.insertDoc request) =>
        .ok { request with document := { request.document with metadata := .default now } }
      | _ => .error "expected value"
    deleteDoc := fun bytes =>
      match requests.find? fun request => requestText request = bytes with
      | some (.deleteDoc request) => .ok request
      | _ => .error "expected value"
    updateDoc := fun bytes =>
      match requests.find? fun request => requestText request = bytes with
      | some (.updateDoc request) => .ok request
      | _ => .error "expected value"
    legacyRequest := fun request => .ok (requestText request)
    answer := fun answer =>
      match answer with
      | .operation response => .ok (operationText response)
      | _ => .error "no other answers"
    operationResponse := fun bytes =>
      match operations.find? fun response => operationText response = bytes with
      | some response => .ok response
      | none => .error "expected value" }

theorem legacyWire_reads {requests : List LegacyRequest} {operations : List OperationResponse}
    (h : (operations.map operationText).Nodup) {response : OperationResponse}
    (hmem : response ∈ operations) : (legacyWire requests operations).Reads response := by
  refine ⟨operationText response, rfl, ?_⟩
  show (match operations.find? fun other => operationText other = operationText response with
    | some response => Except.ok response
    | none => .error "expected value") = _
  rw [find?_text h hmem]

theorem legacyWire_carries {requests : List LegacyRequest} {operations : List OperationResponse}
    (h : (requests.map requestText).Nodup) {request : LegacyRequest} (hmem : request ∈ requests)
    {now : DateTime}
    (hnow : ∀ own, request = .insertDoc own → own.document.metadata = .default now) :
    (legacyWire requests operations).Carries now request := by
  have hfind := find?_text h hmem
  refine ⟨requestText request, rfl, ?_⟩
  cases request with
  | insertDoc own =>
    show (match requests.find? fun other => requestText other = requestText (.insertDoc own) with
      | some (.insertDoc request) => Except.ok
        { request with document := { request.document with metadata := .default now } }
      | _ => .error "expected value") = .ok own
    rw [hfind, ← hnow own rfl]
  | query own =>
    show (match requests.find? fun other => requestText other = requestText (.query own) with
      | some (.query request) => Except.ok request
      | _ => .error "expected value") = .ok own
    rw [hfind]
  | deleteDoc own =>
    show (match requests.find? fun other => requestText other = requestText (.deleteDoc own) with
      | some (.deleteDoc request) => Except.ok request
      | _ => .error "expected value") = .ok own
    rw [hfind]
  | updateDoc own =>
    show (match requests.find? fun other => requestText other = requestText (.updateDoc own) with
      | some (.updateDoc request) => Except.ok request
      | _ => .error "expected value") = .ok own
    rw [hfind]

end JsonText

namespace ConnectionManager

open CompatibilityHandler (setDocument setRequest getRequest delRequest)

/-- The documents of two `SET`s of the key `k`. -/
def firstDocument : Document := setDocument 0 ⟨1⟩ "k" [118]

def secondDocument : Document := setDocument 0 ⟨2⟩ "k" [119]

def sessionRequests : List LegacyRequest :=
  [setRequest 0 ⟨1⟩ "k" [118], setRequest 0 ⟨2⟩ "k" [119], getRequest "k", delRequest "k"]

def sessionAnswers : List OperationResponse :=
  [.ofData none, .ofCount 1, .ofData (some (.array [])),
    .ofData (some (.array [DocumentCommand.answered firstDocument])),
    .ofData (some (.array ([firstDocument, secondDocument].map DocumentCommand.answered)))]

/-- The small server, for clients of version 1. -/
def legacyServer : ServerEnv Unit :=
  { smallServer with
    wire := JsonText.legacyWire sessionRequests sessionAnswers
    storage :=
      { plainEnv with
        json := JsonText.documents
          [JsonText.documentJson firstDocument, JsonText.documentJson secondDocument] } }

def drawing (id : DocumentId) : ServerMoment := { servedAt 0 with documentId := id }

/-- A key that is set, asked for, deleted and asked for again. -/
def oneKey : List (ServerMoment × Request) :=
  [(drawing ⟨1⟩, .set 1 [107] [118]), (drawing ⟨3⟩, .get 2 [107]), (drawing ⟨4⟩, .del 3 [107]),
    (drawing ⟨5⟩, .get 4 [107])]

theorem keyText_k : CompatibilityHandler.keyText [107] = .ok "k" := by
  have htext := fromUTF8?_utf8 "k"
  have hbytes : utf8 "k" = [107] := by decide
  rw [hbytes] at htext
  rw [CompatibilityHandler.keyText, htext]

theorem sessionRequests_nodup : (sessionRequests.map JsonText.requestText).Nodup := by
  decide +kernel

theorem sessionAnswers_nodup : (sessionAnswers.map JsonText.operationText).Nodup := by
  decide +kernel

theorem firstDocument_roundTrips : legacyServer.storage.json.RoundTrips firstDocument := by
  exact ⟨_, rfl, rfl⟩

theorem oneKey_carried : ∀ call ∈ oneKey, legacyServer.Carries call.1 call.2 := by
  have hcarries {request : LegacyRequest} (hmem : request ∈ sessionRequests)
      (hnow : ∀ own, request = .insertDoc own → own.document.metadata = .default 0) :
      legacyServer.wire.Carries 0 request :=
    JsonText.legacyWire_carries sessionRequests_nodup hmem hnow
  have hreads {response : OperationResponse} (hmem : response ∈ sessionAnswers) :
      legacyServer.wire.Reads response :=
    JsonText.legacyWire_reads sessionAnswers_nodup hmem
  have htext {text : String} (h : CompatibilityHandler.keyText [107] = .ok text) : "k" = text := by
    rw [keyText_k] at h
    exact Except.ok.inj h
  have hget : ∀ text, CompatibilityHandler.keyText [107] = .ok text →
      legacyServer.wire.Carries 0 (getRequest text) ∧
        legacyServer.wire.Reads (.ofData (some (.array []))) := by
    intro text hkey
    rw [← htext hkey]
    exact ⟨hcarries (by simp [sessionRequests]) nofun, hreads (by simp [sessionAnswers])⟩
  rw [oneKey, List.forall_mem_cons, List.forall_mem_cons, List.forall_mem_cons,
    List.forall_mem_singleton]
  refine ⟨fun text hkey => ?_, hget, fun text hkey => ?_, hget⟩
  · rw [← htext hkey]
    refine ⟨hcarries (by simp [sessionRequests, drawing, servedAt]) ?_, firstDocument_roundTrips,
      hreads (by simp [sessionAnswers]),
      hreads (by simp [sessionAnswers, firstDocument, drawing, servedAt])⟩
    intro own hown
    cases hown
    rfl
  · rw [← htext hkey]
    exact ⟨hcarries (by simp [sessionRequests]) nofun, hreads (by simp [sessionAnswers])⟩

theorem legacy_simulates_versionedMap_oneKey :
    MeetsAlong (fun map call => (call.2.onMap map).2) Supported ∅ oneKey ∧
      MeetsAlong (legacyStep legacyServer 1) (Simulated legacyServer 1) (loggedIn .admin, ∅)
        oneKey := by
  have hsupported : MeetsAlong (fun map call => (call.2.onMap map).2) Supported ∅ oneKey :=
    ⟨⟨⟨"k", keyText_k⟩, rfl⟩, ⟨"k", keyText_k⟩, ⟨⟨"k", keyText_k⟩, [118], rfl⟩, ⟨"k", keyText_k⟩,
      trivial⟩
  have hstores : Stores legacyServer.storage (loggedIn .admin).storage Database.empty :=
    ⟨HybridStorageEngine.plain_new () .empty, .empty⟩
  refine ⟨hsupported, legacy_simulates_versionedMap rfl hstores ?_ ?_ oneKey_carried (by decide)
    hsupported⟩
  · exact fun ⟨id, hid⟩ => hid rfl
  · exact fun other ⟨id, hid⟩ => absurd rfl hid

/-! ## A key that is set twice -/

def twice : List (ServerMoment × Request) :=
  [(drawing ⟨1⟩, .set 1 [107] [118]), (drawing ⟨2⟩, .set 2 [107] [119])]

/-- The first value is still the answer after a second one was set. -/
theorem second_set_is_lost :
    (serveLegacy legacyServer (drawing ⟨3⟩)
        (twice.foldl (legacyStep legacyServer 1) (loggedIn .admin, ∅)).1 1
        (Request.get 3 [107]).legacyCommand).1 = .ok (Response.ok 3 [118]) ∧
      ¬MeetsAlong (legacyStep legacyServer 1) (Simulated legacyServer 1) (loggedIn .admin, ∅)
        (twice ++ [(drawing ⟨3⟩, .get 3 [107])]) := by
  have hfirst : (serveLegacy legacyServer (drawing ⟨3⟩)
      (twice.foldl (legacyStep legacyServer 1) (loggedIn .admin, ∅)).1 1
      (Request.get 3 [107]).legacyCommand).1 = .ok (Response.ok 3 [118]) := by
    decide +kernel
  refine ⟨hfirst, fun ⟨_, _, ⟨response, hserve, hagrees⟩, _⟩ => ?_⟩
  have hresponse : (.ok (Response.ok 3 [118]) : Outcome ConnectionError Response) = .ok response :=
    hfirst.symm.trans hserve
  cases hresponse
  have hexpected : Response.ok 3 [118] = Response.ok 3 [119] := hagrees
  exact absurd hexpected (by decide)

end ConnectionManager

end VedDb
