import VedDb.Protocol.Authentication
import VedDb.Protocol.Requests
import VedDb.Replication.Apply

/-!
# The document commands

`Query`, `InsertDoc`, `UpdateDoc` and `DeleteDoc` of `process_command` on a storage engine.  The
last two scan the collection first and then write document by document.
-/

namespace VedDb

/-- The fields of an object. -/
def Fields.ofMembers (members : List (String × Value)) : Fields := .ofList members

/-- `Display for QueryExecutionError`. -/
def QueryExecutionError.message : QueryExecutionError → String
  | .invalidRegex message => "Invalid regex pattern: " ++ message

namespace DocumentCommand

variable {C : Type} (env : StorageEnv C) (regex : RegexCrate) (now : DateTime)

/-- The filter of an update or a deletion. -/
def parsedFilter (filter : Value) : Except ConnectionError Filter :=
  match QueryParser.parseFilter filter.toPlainJson with
  | .error error => .error (.protocolError ("Invalid filter: " ++ error.toString))
  | .ok filter => .ok filter

/-- A scan of the collection, with its error as the command reports it. -/
def scanned (engine : HybridStorageEngine C) (collection : String) :
    Except ConnectionError (List Document) :=
  match engine.scanCollection env.json now collection with
  | .error error => .error (.protocolError error.message)
  | .ok documents => .ok documents

/-- A document of an answer: its fields with the identifier among them. -/
def answered (doc : Document) : Value :=
  .object (doc.fields.insert "_id" (.string doc.id.toString)).toList

/-- The documents of a query.  The projection, the order and the limit of the request are not looked
at. -/
def found (engine : HybridStorageEngine C) (request : QueryRequest) :
    Except ConnectionError (List Document) :=
  match (request.filter.map Value.toPlainJson).getD (.object []) with
  | .object [] => scanned env now engine request.collection
  | .object members =>
    match QueryParser.parseFilter (.object members) with
    | .error error => .error (.protocolError ("Invalid filter: " ++ error.toString))
    | .ok filter =>
      match scanned env now engine request.collection with
      | .error error => .error error
      | .ok documents =>
        match executeCollectionScan regex filter documents with
        | .error error => .error (.protocolError error.message)
        | .ok matched => .ok matched
  | _ => .ok []

def query (engine : HybridStorageEngine C) (request : QueryRequest) :
    Except ConnectionError Value :=
  (found env regex now engine request).map fun documents => .array (documents.map answered)

/-- `OpCode::InsertDoc`. -/
def insert (engine : HybridStorageEngine C) (request : InsertDocRequest) :
    Except ConnectionError Unit × HybridStorageEngine C :=
  match engine.insertDocument env.cache env.json now request.collection request.document with
  | (.error error, engine) => (.error (.protocolError error.message), engine)
  | (.ok _, engine) => (.ok (), engine)

/-- The error that a filter meets on a document. -/
def matchingError (error : QueryExecutionError) : ConnectionError :=
  .protocolError ("Filter matching error: " ++ error.message)

/-- What an update puts in the place of a document: an object replaces all fields, and anything else
changes nothing. -/
def replacement (update : Value) (doc : Document) : Option Document :=
  match update with
  | .object members =>
    some { id := doc.id, fields := .ofMembers members, metadata := .default now }
  | _ => none

/-- The loop of `OpCode::UpdateDoc`: a document that cannot be written is not counted. -/
def updateMatching (collection : String) (filter : Filter) (update : Value) :
    List Document → Nat → HybridStorageEngine C →
      Except ConnectionError Nat × HybridStorageEngine C
  | [], count, engine => (.ok count, engine)
  | doc :: docs, count, engine =>
    match matchesFilter regex doc filter with
    | .error error => (.error (matchingError error), engine)
    | .ok false => updateMatching collection filter update docs count engine
    | .ok true =>
      match replacement now update doc with
      | none => updateMatching collection filter update docs count engine
      | some new =>
        match engine.updateDocument env.cache env.json now collection doc.id new with
        | (.error _, engine) =>
          updateMatching collection filter update docs count engine
        | (.ok (), engine) =>
          updateMatching collection filter update docs (count + 1) engine

/-- `OpCode::UpdateDoc`: the number of documents that were written. -/
def update (engine : HybridStorageEngine C) (request : UpdateDocRequest) :
    Except ConnectionError Nat × HybridStorageEngine C :=
  match parsedFilter request.filter with
  | .error error => (.error error, engine)
  | .ok filter =>
    match scanned env now engine request.collection with
    | .error error => (.error error, engine)
    | .ok documents =>
      updateMatching env regex now request.collection filter request.update documents 0 engine

/-- The loop of `OpCode::DeleteDoc`: a document that is gone by now is not counted. -/
def deleteMatching (collection : String) (filter : Filter) :
    List Document → Nat → HybridStorageEngine C →
      Except ConnectionError Nat × HybridStorageEngine C
  | [], count, engine => (.ok count, engine)
  | doc :: docs, count, engine =>
    match matchesFilter regex doc filter with
    | .error error => (.error (matchingError error), engine)
    | .ok false => deleteMatching collection filter docs count engine
    | .ok true =>
      match engine.deleteDocument env.cache now collection doc.id with
      | (true, engine) => deleteMatching collection filter docs (count + 1) engine
      | (false, engine) => deleteMatching collection filter docs count engine

/-- `OpCode::DeleteDoc`: the number of documents that were deleted. -/
def delete (engine : HybridStorageEngine C) (request : DeleteDocRequest) :
    Except ConnectionError Nat × HybridStorageEngine C :=
  match parsedFilter request.filter with
  | .error error => (.error error, engine)
  | .ok filter =>
    match scanned env now engine request.collection with
    | .error error => (.error error, engine)
    | .ok documents =>
      deleteMatching env regex now request.collection filter documents 0 engine

end DocumentCommand

end VedDb
