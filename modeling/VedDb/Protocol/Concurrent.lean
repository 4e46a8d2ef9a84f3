import VedDb.Lib.Interleaving
import VedDb.Protocol.Gate
import VedDb.Storage.Calls

/-!
# Concurrent commands

The commands that write documents and indexes, as the single steps they take on the persistent
layer.  A server runs the commands of its connections at the same time, and nothing keeps the steps
of one command together.
-/

namespace VedDb

open LittleEndian (Bytes)
open Durable (Outcome)
open Interleaving

/-! ## The steps of a command -/

/-- A command as its steps on the persistent layer. -/
abbrev StorageProgram := Program StorageCall StorageCall.Answer

/-- What a command reports: an error, or the number of documents if it counts them. -/
abbrev Reported := Except ConnectionError (Option Nat)

namespace StorageProgram

variable {C : Type} (env : StorageEnv C) (regex : RegexCrate) (now : DateTime)

def insertDoc (request : InsertDocRequest) : StorageProgram Reported :=
  .call (.insertDocument request.collection request.document.id request.document) fun
    | .error error => .done (.error (.protocolError error.message))
    | .ok () => .done (.ok none)

/-- The loop of `OpCode::UpdateDoc`. -/
def updateMatching (collection : String) (filter : Filter) (update : Value) :
    List Document → Nat → StorageProgram Reported
  | [], count => .done (.ok (some count))
  | doc :: docs, count =>
    match matchesFilter regex doc filter with
    | .error error => .done (.error (DocumentCommand.matchingError error))
    | .ok false => updateMatching collection filter update docs count
    | .ok true =>
      match DocumentCommand.replacement now update doc with
      | none => updateMatching collection filter update docs count
      | some new =>
        .call (.insertDocument collection doc.id new) fun
          | .error _ => updateMatching collection filter update docs count
          | .ok () => updateMatching collection filter update docs (count + 1)

/-- The loop of `OpCode::DeleteDoc`. -/
def deleteMatching (collection : String) (filter : Filter) :
    List Document → Nat → StorageProgram Reported
  | [], count => .done (.ok (some count))
  | doc :: docs, count =>
    match matchesFilter regex doc filter with
    | .error error => .done (.error (DocumentCommand.matchingError error))
    | .ok false => deleteMatching collection filter docs count
    | .ok true =>
      .call (.deleteDocument collection doc.id) fun
        | true => deleteMatching collection filter docs (count + 1)
        | false => deleteMatching collection filter docs count

/-- What follows a scan, unless it fails. -/
def afterScan (next : List Document → StorageProgram Reported) :
    Except StorageError (List Document) → StorageProgram Reported
  | .error error => .done (.error (.protocolError error.message))
  | .ok documents => next documents

/-- The scan of an update or a deletion, and what follows it. -/
def scanning (collection : String) (filter : Value)
    (next : Filter → List Document → StorageProgram Reported) :
    StorageProgram Reported :=
  match DocumentCommand.parsedFilter filter with
  | .error error => .done (.error error)
  | .ok filter => .call (.scanCollection now collection) (afterScan (next filter))

def updateDoc (request : UpdateDocRequest) : StorageProgram Reported :=
  scanning now request.collection request.filter fun filter documents =>
    updateMatching regex now request.collection filter request.update documents 0

def deleteDoc (request : DeleteDocRequest) : StorageProgram Reported :=
  scanning now request.collection request.filter fun filter documents =>
    deleteMatching regex request.collection filter documents 0

/-- `save_indexes_list`, where there is a new list. -/
def savingIndexes (collection : String) : Option (List JsonValue) → StorageProgram Reported
  | none => .done (.ok none)
  | some indexes =>
    match env.catalogue.indexesToVec indexes with
    | .error error =>
      .done (.error (.protocolError (StorageError.serializeIndexesList error).message))
    | .ok data => .call (.storeMetadata ("indexes:" ++ collection) data) fun _ => .done (.ok none)

/-- `get_indexes_list`, and what is made of the list. -/
def changingIndexes (collection : String) (change : List JsonValue → Option (List JsonValue)) :
    StorageProgram Reported :=
  .call (.getMetadata ("indexes:" ++ collection)) fun
    | none => savingIndexes env collection (change [])
    | some data =>
      match env.catalogue.indexesFromSlice data with
      | .error error =>
        .done (.error (.protocolError (StorageError.parseIndexesList error).message))
      | .ok indexes => savingIndexes env collection (change indexes)

def createIndex (request : CreateIndexRequest) :
    StorageProgram Reported :=
  changingIndexes env request.collection fun indexes =>
    if indexes.any (isIndexNamed request.name) then none
    else some (indexes ++ [indexJson request.name request.fields request.unique])

def dropIndex (request : DropIndexRequest) :
    StorageProgram Reported :=
  changingIndexes env request.collection fun indexes =>
    (indexes.findIdx? (isIndexNamed request.name)).map indexes.eraseIdx

end StorageProgram

/-- The requests of the commands that write documents and indexes. -/
inductive StoreRequest where
  | insertDoc (request : InsertDocRequest)
  | updateDoc (request : UpdateDocRequest)
  | deleteDoc (request : DeleteDocRequest)
  | createIndex (request : CreateIndexRequest)
  | dropIndex (request : DropIndexRequest)

namespace StoreRequest

def collection : StoreRequest → String
  | .insertDoc request => request.collection
  | .updateDoc request => request.collection
  | .deleteDoc request => request.collection
  | .createIndex request => request.collection
  | .dropIndex request => request.collection

/-- The steps of the command; an update and a deletion report a count. -/
def program {C : Type} (env : StorageEnv C) (regex : RegexCrate) (now : DateTime) :
    StoreRequest → StorageProgram Reported
  | .insertDoc request => StorageProgram.insertDoc request
  | .updateDoc request => StorageProgram.updateDoc regex now request
  | .deleteDoc request => StorageProgram.deleteDoc regex now request
  | .createIndex request => StorageProgram.createIndex env request
  | .dropIndex request => StorageProgram.dropIndex env request

end StoreRequest

/-! ## A command alone -/

def HybridStorageEngine.Uncached {C : Type} (e : HybridStorageEngine C) (collection : String) :
    Prop :=
  ∀ schema, e.schemas[collection]? = some schema → schema.cacheConfig.strategy = .none

namespace HybridStorageEngine

variable {C : Type} {e : HybridStorageEngine C} {collection : String}

theorem Uncached.writeDocument_eq (h : e.Uncached collection) (cache : CacheOps C)
    (json : DocumentJson) (now : DateTime) (docId : DocumentId) (doc : Document) :
    e.writeDocument cache json now collection docId doc =
      e.persist (e.persistentLayer.insertDocument json collection docId doc) := by
  rw [writeDocument]
  cases hschema : e.schemas[collection]? with
  | none => rfl
  | some schema => simp only [h schema hschema]

theorem Uncached.deleteDocument_eq (h : e.Uncached collection) (cache : CacheOps C)
    (now : DateTime) (docId : DocumentId) :
    e.deleteDocument cache now collection docId =
      ((e.persistentLayer.deleteDocument collection docId).1,
        { e with persistentLayer := (e.persistentLayer.deleteDocument collection docId).2 }) := by
  rw [deleteDocument]
  cases hschema : e.schemas[collection]? with
  | none => rfl
  | some schema => simp only [h schema hschema]

end HybridStorageEngine

namespace StorageProgram

variable {C : Type} (env : StorageEnv C) (regex : RegexCrate) (now : DateTime)

/-- What the steps of a command alone make of an engine. -/
def runOn {α : Type} (program : StorageProgram α) (e : HybridStorageEngine C) :
    α × HybridStorageEngine C :=
  let (result, layer) := program.run (StorageCall.exec env.json) e.persistentLayer
  (result, { e with persistentLayer := layer })

variable {e : HybridStorageEngine C} {collection : String}

section

variable (h : e.Uncached collection)

include h

theorem runOn_updateMatching (filter : Filter) (update : Value) (docs : List Document)
    (count : Nat) :
    (updateMatching regex now collection filter update docs count).runOn env e =
      let result :=
        DocumentCommand.updateMatching env regex now collection filter update docs count e
      (result.1.map some, result.2) := by
  induction docs generalizing count e with
  | nil => rfl
  | cons doc docs ih =>
    rw [updateMatching, DocumentCommand.updateMatching]
    cases matchesFilter regex doc filter with
    | error error => rfl
    | ok found =>
      cases found with
      | false => exact ih h count
      | true =>
        dsimp only
        cases hnew : DocumentCommand.replacement now update doc with
        | none => exact ih h count
        | some new =>
          dsimp only
          rw [HybridStorageEngine.updateDocument, h.writeDocument_eq]
          cases hinsert :
              e.persistentLayer.insertDocument env.json collection doc.id new with
          | error error =>
            rw [runOn, Program.run, StorageCall.exec, hinsert]
            exact ih h count
          | ok layer =>
            rw [runOn, Program.run, StorageCall.exec, hinsert]
            exact ih (e := { e with persistentLayer := layer }) h (count + 1)

theorem runOn_deleteMatching (filter : Filter) (docs : List Document) (count : Nat) :
    (deleteMatching regex collection filter docs count).runOn env e =
      let result := DocumentCommand.deleteMatching env regex now collection filter docs count e
      (result.1.map some, result.2) := by
  induction docs generalizing count e with
  | nil => rfl
  | cons doc docs ih =>
    rw [deleteMatching, DocumentCommand.deleteMatching]
    cases matchesFilter regex doc filter with
    | error error => rfl
    | ok found =>
      cases found with
      | false => exact ih h count
      | true =>
        dsimp only
        rw [h.deleteDocument_eq]
        cases hdelete : e.persistentLayer.deleteDocument collection doc.id with
        | mk deleted layer =>
          rw [runOn, Program.run, StorageCall.exec, hdelete]
          cases deleted with
          | false => exact ih (e := { e with persistentLayer := layer }) h count
          | true => exact ih (e := { e with persistentLayer := layer }) h (count + 1)

end

theorem runOn_scanning (filter : Value)
    (next : Filter → List Document → StorageProgram Reported) :
    (scanning now collection filter next).runOn env e =
      match DocumentCommand.parsedFilter filter with
      | .error error => (.error error, e)
      | .ok filter =>
        match DocumentCommand.scanned env now e collection with
        | .error error => (.error error, e)
        | .ok documents => (next filter documents).runOn env e := by
  rw [scanning]
  cases DocumentCommand.parsedFilter filter with
  | error error => rfl
  | ok filter =>
    dsimp only
    rw [DocumentCommand.scanned, HybridStorageEngine.scanCollection]
    show (afterScan (next filter)
      (e.persistentLayer.scanCollection env.json now collection)).runOn env e = _
    cases e.persistentLayer.scanCollection env.json now collection with
    | error error | ok documents => rfl

theorem runOn_changingIndexes
    (change : List JsonValue → Option (List JsonValue)) :
    (changingIndexes env collection change).runOn env e =
      let result := e.persist
        (match e.persistentLayer.getIndexesList env.catalogue collection with
        | .error error => .error error
        | .ok indexes =>
          match change indexes with
          | none => .ok e.persistentLayer
          | some indexes =>
            e.persistentLayer.saveIndexesList env.catalogue collection indexes)
      ((ConnectionManager.ofStorage result.1).map fun _ => none, result.2) := by
  have hrest (indexes : List JsonValue) :
      (savingIndexes env collection (change indexes)).runOn env e =
        let result := e.persist
          (match change indexes with
          | none => .ok e.persistentLayer
          | some indexes =>
            e.persistentLayer.saveIndexesList env.catalogue collection indexes)
        ((ConnectionManager.ofStorage result.1).map fun _ => none, result.2) := by
    cases change indexes with
    | none => rfl
    | some indexes =>
      dsimp only
      rw [savingIndexes, PersistentLayer.saveIndexesList]
      cases env.catalogue.indexesToVec indexes with
      | error error | ok data => rfl
  rw [changingIndexes, runOn, Program.run, StorageCall.exec, PersistentLayer.getIndexesList]
  dsimp only
  cases e.persistentLayer.metadata["indexes:" ++ collection]? with
  | none => exact hrest []
  | some data =>
    dsimp only
    cases env.catalogue.indexesFromSlice data with
    | error error => rfl
    | ok indexes => exact hrest indexes

theorem runOn_insertDoc {request : InsertDocRequest} (h : e.Uncached request.collection) :
    (insertDoc request).runOn env e =
      let result := DocumentCommand.insert env now e request
      (result.1.map fun _ => none, result.2) := by
  rw [insertDoc, DocumentCommand.insert, HybridStorageEngine.insertDocument, h.writeDocument_eq,
    runOn, Program.run, StorageCall.exec]
  cases e.persistentLayer.insertDocument env.json request.collection request.document.id
    request.document with
  | error error | ok layer => rfl

theorem runOn_updateDoc {request : UpdateDocRequest} (h : e.Uncached request.collection) :
    (updateDoc regex now request).runOn env e =
      let result := DocumentCommand.update env regex now e request
      (result.1.map some, result.2) := by
  rw [updateDoc, runOn_scanning, DocumentCommand.update]
  cases DocumentCommand.parsedFilter request.filter with
  | error error => rfl
  | ok filter =>
    dsimp only
    cases DocumentCommand.scanned env now e request.collection with
    | error error => rfl
    | ok documents => exact runOn_updateMatching env regex now h filter request.update documents 0

theorem runOn_deleteDoc {request : DeleteDocRequest} (h : e.Uncached request.collection) :
    (deleteDoc regex now request).runOn env e =
      let result := DocumentCommand.delete env regex now e request
      (result.1.map some, result.2) := by
  rw [deleteDoc, runOn_scanning, DocumentCommand.delete]
  cases DocumentCommand.parsedFilter request.filter with
  | error error => rfl
  | ok filter =>
    dsimp only
    cases DocumentCommand.scanned env now e request.collection with
    | error error => rfl
    | ok documents => exact runOn_deleteMatching env regex now h filter documents 0

theorem runOn_createIndex {request : CreateIndexRequest} :
    (createIndex env request).runOn env e =
      let result := e.createIndex env.catalogue request.collection request.name request.fields
        request.unique
      ((ConnectionManager.ofStorage result.1).map fun _ => none, result.2) := by
  rw [createIndex, runOn_changingIndexes, HybridStorageEngine.createIndex,
    PersistentLayer.createIndex]
  cases e.persistentLayer.getIndexesList env.catalogue request.collection with
  | error error => rfl
  | ok indexes =>
    dsimp only
    by_cases hnamed : indexes.any (isIndexNamed request.name) = true
    · rw [if_pos hnamed, if_pos hnamed]
    · rw [if_neg hnamed, if_neg hnamed]

theorem runOn_dropIndex {request : DropIndexRequest} :
    (dropIndex env request).runOn env e =
      let result := e.dropIndex env.catalogue request.collection request.name
      ((ConnectionManager.ofStorage result.1).map fun _ => none, result.2) := by
  rw [dropIndex, runOn_changingIndexes, HybridStorageEngine.dropIndex, PersistentLayer.dropIndex]
  cases e.persistentLayer.getIndexesList env.catalogue request.collection with
  | error error => rfl
  | ok indexes =>
    dsimp only
    cases indexes.findIdx? (isIndexNamed request.name) with
    | none | some pos => rfl

end StorageProgram

namespace ConnectionManager

variable {C : Type} (env : ServerEnv C)

def replied (command : Command) (result : Reported) :
    Outcome ConnectionError Response :=
  answering result fun
    | none => succeed env command none
    | some count => respond env command (.operation (.ofCount count))

/-- The request of a command that writes documents or indexes, as the payload has it. -/
def storeRequest (moment : ServerMoment) (command : Command) :
    OpCode → Option (Except ConnectionError StoreRequest)
  | .insertDoc =>
    some ((decoded "" (env.wire.insertDoc moment.now command.value)).map .insertDoc)
  | .updateDoc => some ((decoded "" (env.wire.updateDoc command.value)).map .updateDoc)
  | .deleteDoc => some ((decoded "" (env.wire.deleteDoc command.value)).map .deleteDoc)
  | .createIndex => some ((decoded "" (env.wire.createIndex command.value)).map .createIndex)
  | .dropIndex => some ((decoded "" (env.wire.dropIndex command.value)).map .dropIndex)
  | _ => none

/-- The server with another persistent layer. -/
def withLayer (manager : ConnectionManager C) (layer : PersistentLayer) : ConnectionManager C :=
  { manager with storage := { manager.storage with persistentLayer := layer } }

variable {env} {moment : ServerMoment} {manager : ConnectionManager C} {id : Uuid}
  {command : Command} {op : OpCode}

theorem handle_of_storeRequest_error {error : ConnectionError}
    (hrequest : storeRequest env moment command op = some (.error error)) :
    handle env moment manager id command op = (.error error, manager) := by
  have hserving {α : Type} {result : Except ConnectionError α} {wrap : α → StoreRequest}
      {serve : α → Served C} (h : some (result.map wrap) = some (.error error)) :
      serving manager result serve = (.error error, manager) := by
    cases result with
    | error own =>
      cases h
      rfl
    | ok value => cases h
  cases op with
  | insertDoc | updateDoc | deleteDoc | createIndex | dropIndex => exact hserving hrequest
  | _ => cases hrequest

theorem serving_stored {α β : Type} {result : Except ConnectionError α} {request : StoreRequest}
    (wrap : α → StoreRequest) (serve : α → Except ConnectionError β × HybridStorageEngine C)
    (count : β → Option Nat) (answer : β → Outcome ConnectionError Response)
    (hrequest : some (result.map wrap) = some (.ok request))
    (hanswer : ∀ value, answer value = replied env command (.ok (count value)))
    (hserve : ∀ own, wrap own = request →
      (request.program env.storage env.regex moment.now).runOn env.storage manager.storage =
        ((serve own).1.map count, (serve own).2)) :
    (serving manager result fun own => stored manager (serve own) answer) =
      let result := (request.program env.storage env.regex moment.now).runOn env.storage
        manager.storage
      (replied env command result.1, { manager with storage := result.2 }) := by
  cases result with
  | error error => cases hrequest
  | ok own =>
    cases hrequest
    rw [hserve own rfl, serving, stored]
    cases (serve own).1 with
    | error error => rfl
    | ok value => exact congrArg (·, _) (hanswer value)

theorem handle_of_storeRequest {request : StoreRequest}
    (hrequest : storeRequest env moment command op = some (.ok request))
    (huncached : manager.storage.Uncached request.collection) :
    handle env moment manager id command op =
      let result := (request.program env.storage env.regex moment.now).runOn env.storage
        manager.storage
      (replied env command result.1, { manager with storage := result.2 }) := by
  cases op with
  | insertDoc =>
    rw [storeRequest] at hrequest
    rw [handle, insertDoc]
    refine serving_stored .insertDoc (DocumentCommand.insert env.storage moment.now manager.storage)
      (fun _ => none) (fun _ => succeed env command none) hrequest (fun _ => rfl) ?_
    intro own hown
    cases hown
    exact StorageProgram.runOn_insertDoc env.storage moment.now huncached
  | updateDoc =>
    rw [storeRequest] at hrequest
    rw [handle, updateDoc]
    refine serving_stored .updateDoc
      (DocumentCommand.update env.storage env.regex moment.now manager.storage)
      some (fun count => respond env command (.operation (.ofCount count))) hrequest
      (fun _ => rfl) ?_
    intro own hown
    cases hown
    exact StorageProgram.runOn_updateDoc env.storage env.regex moment.now huncached
  | deleteDoc =>
    rw [storeRequest] at hrequest
    rw [handle, deleteDoc]
    refine serving_stored .deleteDoc
      (DocumentCommand.delete env.storage env.regex moment.now manager.storage)
      some (fun count => respond env command (.operation (.ofCount count))) hrequest
      (fun _ => rfl) ?_
    intro own hown
    cases hown
    exact StorageProgram.runOn_deleteDoc env.storage env.regex moment.now huncached
  | createIndex =>
    rw [storeRequest] at hrequest
    rw [handle, createIndex]
    refine serving_stored .createIndex
      (fun own =>
        (ofStorage (manager.storage.createIndex env.storage.catalogue own.collection own.name
            own.fields own.unique).1,
          (manager.storage.createIndex env.storage.catalogue own.collection own.name own.fields
            own.unique).2))
      (fun _ => none) (fun _ => succeed env command none) hrequest (fun _ => rfl) ?_
    intro own hown
    cases hown
    exact StorageProgram.runOn_createIndex env.storage
  | dropIndex =>
    rw [storeRequest] at hrequest
    rw [handle, dropIndex]
    refine serving_stored .dropIndex
      (fun own =>
        (ofStorage (manager.storage.dropIndex env.storage.catalogue own.collection own.name).1,
          (manager.storage.dropIndex env.storage.catalogue own.collection own.name).2))
      (fun _ => none) (fun _ => succeed env command none) hrequest (fun _ => rfl) ?_
    intro own hown
    cases hown
    exact StorageProgram.runOn_dropIndex env.storage
  | _ => cases hrequest

/-- The command that `process_command` serves, and its request, if it is one that writes documents
or indexes. -/
def requestOf (env : ServerEnv C) (moment : ServerMoment) (command : Command) :
    Option (Command × Except ConnectionError StoreRequest) :=
  match CompatibilityHandler.translateCommand env.wire moment.now moment.documentId command with
  | .error _ => none
  | .ok command =>
    match command.header.opcode with
    | none => none
    | some op => (storeRequest env moment command op).map (command, ·)

end ConnectionManager

/-- A command of a connection that writes documents or indexes. -/
structure StoreCommand {C : Type} (env : ServerEnv C) where
  connection : Uuid
  moment : ServerMoment
  command : Command
  translated : Command
  request : Except ConnectionError StoreRequest
  requestOf_eq : ConnectionManager.requestOf env moment command = some (translated, request)

namespace StoreCommand

variable {C : Type} {env : ServerEnv C} (own : StoreCommand env)

/-- The steps of the command, and its answer. -/
def program : StorageProgram (Outcome ConnectionError Response) :=
  match own.request with
  | .error error => .done (.error error)
  | .ok request =>
    (request.program env.storage env.regex own.moment.now).map
      (ConnectionManager.replied env own.translated)

structure Admitted (manager : ConnectionManager C) : Prop where
  authenticated : manager.access.isAuthenticated own.connection = true
  uncached : ∀ request, own.request = .ok request → manager.storage.Uncached request.collection

/-- `process_command`. -/
def serve (manager : ConnectionManager C) : Served C :=
  ConnectionManager.processCommand env own.moment manager own.connection own.command

variable {own} {manager : ConnectionManager C}

/-- Served alone, a command takes its steps one after another. -/
theorem serve_eq (h : own.Admitted manager) :
    own.serve manager =
      let result := own.program.run (StorageCall.exec env.storage.json)
        manager.storage.persistentLayer
      (result.1, manager.withLayer result.2) := by
  have hrequest := own.requestOf_eq
  rw [ConnectionManager.requestOf] at hrequest
  rw [serve, ConnectionManager.processCommand]
  cases htranslated : CompatibilityHandler.translateCommand env.wire own.moment.now
      own.moment.documentId own.command with
  | error error =>
    rw [htranslated] at hrequest
    cases hrequest
  | ok translated =>
    rw [htranslated] at hrequest
    dsimp only at hrequest ⊢
    cases hopcode : translated.header.opcode with
    | none =>
      rw [hopcode] at hrequest
      cases hrequest
    | some op =>
      rw [hopcode] at hrequest
      dsimp only at hrequest ⊢
      rw [Option.map_eq_some_iff] at hrequest
      obtain ⟨request, hstore, heq⟩ := hrequest
      rw [Prod.mk.injEq] at heq
      have hopen : ¬(op ≠ .auth ∧
          manager.access.isAuthenticated own.connection = false) := by
        rw [h.authenticated]
        exact fun hclosed => absurd hclosed.2 (by decide)
      rw [if_neg hopen, heq.1]
      rw [heq.1, heq.2] at hstore
      cases hown : own.request with
      | error error =>
        rw [hown] at hstore
        rw [ConnectionManager.handle_of_storeRequest_error hstore, program, hown]
        rfl
      | ok request =>
        rw [hown] at hstore
        rw [ConnectionManager.handle_of_storeRequest hstore (h.uncached request hown),
          program, hown]
        dsimp only
        rw [Program.run_map]
        rfl

end StoreCommand

end VedDb
