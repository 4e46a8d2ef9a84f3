import VedDb.Storage.Poison

/-!
# Single steps on the persistent layer

The steps in which a command reaches the persistent layer, and what each of them reads and changes.
No lock is held from one step to the next.
-/

namespace VedDb

open LittleEndian (Bytes)
open PersistentLayer (makeDocumentKey decodeDocuments)

/-! ## Places -/

/-- A key of one of the two column families. -/
inductive Place where
  | document (key : Bytes)
  | metadata (key : String)
deriving DecidableEq

namespace PersistentLayer

/-- What is stored at a place. -/
def recordAt (layer : PersistentLayer) : Place → Option Bytes
  | .document key => layer.documents[key]?
  | .metadata key => layer.metadata[key]?

theorem ext_recordAt {a b : PersistentLayer} (h : ∀ place, a.recordAt place = b.recordAt place) :
    a = b := by
  cases a
  cases b
  congr
  · apply Std.ExtTreeMap.ext_getElem?
    intro key
    exact h (.document key)
  · apply Std.ExtTreeMap.ext_getElem?
    intro key
    exact h (.metadata key)

end PersistentLayer

/-! ## Steps -/

/-- The operations of the persistent layer that the commands on documents and indexes call.
`update_document` is the `insert_document` it calls. -/
inductive StorageCall where
  | scanCollection (now : DateTime) (collection : String)
  | insertDocument (collection : String) (docId : DocumentId) (doc : Document)
  | deleteDocument (collection : String) (docId : DocumentId)
  | getMetadata (key : String)
  | storeMetadata (key : String) (value : Bytes)

namespace StorageCall

def Answer : StorageCall → Type
  | .scanCollection _ _ => Except StorageError (List Document)
  | .insertDocument _ _ _ => Except StorageError Unit
  | .deleteDocument _ _ => Bool
  | .getMetadata _ => Option Bytes
  | .storeMetadata _ _ => Unit

variable (json : DocumentJson)

def exec : (call : StorageCall) → PersistentLayer → call.Answer × PersistentLayer
  | .scanCollection now collection, layer =>
    (layer.scanCollection json now collection, layer)
  | .insertDocument collection docId doc, layer =>
    match layer.insertDocument json collection docId doc with
    | .error error => (.error error, layer)
    | .ok layer => (.ok (), layer)
  | .deleteDocument collection docId, layer => layer.deleteDocument collection docId
  | .getMetadata key, layer => (layer.metadata[key]?, layer)
  | .storeMetadata key value, layer => ((), layer.storeMetadata key value)

end StorageCall

/-- What a step reads and changes: a collection is read as a whole, and a document that is written
or deleted had some record before it and has some record after it. -/
inductive Touch where
  | nothing
  | collection (name : String)
  | reads (place : Place)
  | changes (place : Place) (before after : Option Bytes)

def Touch.About (place : Place) : Touch → Prop
  | .nothing | .collection _ => False
  | .reads own | .changes own _ _ => own = place

def Touch.Changes (place : Place) : Touch → Prop
  | .nothing | .collection _ | .reads _ => False
  | .changes own _ _ => own = place

/-- The change of a place matters to the step.  To a scan it matters when the record before or the
record after is one that the scanning command looks for. -/
def Touch.Heeds (selects : Bytes → Bool) (place : Place) (before after : Option Bytes) :
    Touch → Prop
  | .nothing => False
  | .collection name =>
    match place with
    | .document key =>
      (utf8 (name ++ ":")).isPrefixOf key = true ∧
        (before.any selects = true ∨ after.any selects = true)
    | .metadata _ => False
  | .reads own | .changes own _ _ => own = place

/-- A step changes what matters to another one, whose command looks for some records. -/
def Touch.Disturbs (selects : Bytes → Bool) (own other : Touch) : Prop :=
  match own with
  | .changes place before after => other.Heeds selects place before after
  | _ => False

/-- Two steps, of commands that each look for some records, conflict. -/
def Touch.Conflicts (selects selects' : Bytes → Bool) (own other : Touch) : Prop :=
  own.Disturbs selects' other ∨ other.Disturbs selects own

instance (selects : Bytes → Bool) (place : Place) (before after : Option Bytes) (touch : Touch) :
    Decidable (touch.Heeds selects place before after) :=
  match touch, place with
  | .nothing, _ | .collection _, .metadata _ => .isFalse id
  | .collection _, .document _ => inferInstanceAs (Decidable (_ ∧ _))
  | .reads own, place | .changes own _ _, place => inferInstanceAs (Decidable (own = place))

instance (selects : Bytes → Bool) (own other : Touch) : Decidable (own.Disturbs selects other) :=
  match own with
  | .changes _ _ _ => inferInstanceAs (Decidable (other.Heeds selects _ _ _))
  | .nothing | .collection _ | .reads _ => .isFalse id

instance (selects selects' : Bytes → Bool) (own other : Touch) :
    Decidable (own.Conflicts selects selects' other) :=
  inferInstanceAs (Decidable (_ ∨ _))

namespace StorageCall

def touch (json : DocumentJson) (layer : PersistentLayer) : StorageCall → Touch
  | .scanCollection _ collection => .collection collection
  | .insertDocument collection docId doc =>
    match json.toVec doc.id doc.fields with
    | .error _ => .nothing
    | .ok value =>
      let place := .document (makeDocumentKey collection docId)
      .changes place (layer.recordAt place) (some value)
  | .deleteDocument collection docId =>
    let place := .document (makeDocumentKey collection docId)
    .changes place (layer.recordAt place) none
  | .getMetadata key => .reads (.metadata key)
  | .storeMetadata key value =>
    .changes (.metadata key) (layer.recordAt (.metadata key)) (some value)

/-! ## What a step does -/

variable {json : DocumentJson} {layer layer' : PersistentLayer} {call : StorageCall}

theorem recordAt_exec (call : StorageCall) (place : Place) :
    (call.exec json layer).2.recordAt place =
      match call.touch json layer with
      | .changes own _ after => if own = place then after else layer.recordAt place
      | _ => layer.recordAt place := by
  cases call with
  | scanCollection now collection => rfl
  | insertDocument collection docId doc =>
    rw [exec, touch, PersistentLayer.insertDocument]
    cases json.toVec doc.id doc.fields with
    | error error => rfl
    | ok value =>
      cases place with
      | document key =>
        show (layer.documents.insert (makeDocumentKey collection docId) value)[key]? = _
        rw [lookup_insert]
        simp [PersistentLayer.recordAt]
      | metadata key => simp [PersistentLayer.recordAt]
  | deleteDocument collection docId =>
    rw [exec, touch, PersistentLayer.deleteDocument]
    cases place with
    | document key =>
      show (layer.documents.erase (makeDocumentKey collection docId))[key]? = _
      rw [lookup_erase]
      simp [PersistentLayer.recordAt]
    | metadata key => simp [PersistentLayer.recordAt]
  | getMetadata key => rfl
  | storeMetadata own value =>
    rw [exec, touch, PersistentLayer.storeMetadata]
    cases place with
    | document key => simp [PersistentLayer.recordAt]
    | metadata key =>
      show (layer.metadata.insert own value)[key]? = _
      rw [lookup_insert]
      simp [PersistentLayer.recordAt]

theorem recordAt_exec_of_not_changes {place : Place} (h : ¬(call.touch json layer).Changes place) :
    (call.exec json layer).2.recordAt place = layer.recordAt place := by
  rw [recordAt_exec]
  cases htouch : call.touch json layer with
  | nothing | collection name | reads own => rfl
  | changes own before after =>
    rw [htouch] at h
    exact if_neg h

-- Which places a step is about does not depend on what is stored.
theorem about_touch {place : Place} :
    (call.touch json layer').About place ↔ (call.touch json layer).About place := by
  cases call with
  | insertDocument collection docId doc =>
    rw [touch, touch]
    cases json.toVec doc.id doc.fields with
    | error error | ok value => rfl
  | scanCollection now collection | deleteDocument collection docId => rfl
  | getMetadata key | storeMetadata key value => rfl

theorem changes_touch {place : Place} :
    (call.touch json layer').Changes place ↔ (call.touch json layer).Changes place := by
  cases call with
  | insertDocument collection docId doc =>
    rw [touch, touch]
    cases json.toVec doc.id doc.fields with
    | error error | ok value => rfl
  | scanCollection now collection | deleteDocument collection docId => rfl
  | getMetadata key | storeMetadata key value => rfl

theorem touch_congr (h : ∀ place, (call.touch json layer).About place →
    layer'.recordAt place = layer.recordAt place) :
    call.touch json layer' = call.touch json layer := by
  cases call with
  | insertDocument collection docId doc =>
    rw [touch] at h
    rw [touch, touch]
    cases htext : json.toVec doc.id doc.fields with
    | error error => rfl
    | ok value =>
      rw [htext] at h
      dsimp only
      rw [h _ rfl]
  | deleteDocument collection docId => rw [touch, touch, h _ rfl]
  | storeMetadata key value => rw [touch, touch, h _ rfl]
  | scanCollection now collection | getMetadata key => rfl

/-! ## Steps that do not conflict -/

/-- The step reads a whole collection. -/
def Scans (call : StorageCall) : Prop :=
  match call with
  | .scanCollection _ _ => True
  | _ => False

-- The answer of any other step is about its own place.
theorem answer_congr (hscan : ¬call.Scans) (h : ∀ place, (call.touch json layer).About place →
    layer'.recordAt place = layer.recordAt place) :
    (call.exec json layer').1 = (call.exec json layer).1 := by
  cases call with
  | scanCollection now collection => exact absurd trivial hscan
  | insertDocument collection docId doc =>
    rw [exec, exec, PersistentLayer.insertDocument, PersistentLayer.insertDocument]
    cases json.toVec doc.id doc.fields with
    | error error | ok value => rfl
  | deleteDocument collection docId =>
    have hsame : layer'.documents[makeDocumentKey collection docId]? =
        layer.documents[makeDocumentKey collection docId]? := h _ rfl
    show layer'.documents.contains _ = layer.documents.contains _
    rw [← Std.ExtTreeMap.isSome_getElem?_eq_contains, hsame,
      Std.ExtTreeMap.isSome_getElem?_eq_contains]
  | getMetadata key => exact h (.metadata key) rfl
  | storeMetadata key value => rfl

-- A change knows the record before it.
theorem before_eq {place : Place} {before after : Option Bytes}
    (h : call.touch json layer = .changes place before after) : before = layer.recordAt place := by
  cases call with
  | insertDocument collection docId doc =>
    rw [touch] at h
    cases htext : json.toVec doc.id doc.fields with
    | error error =>
      rw [htext] at h
      cases h
    | ok value =>
      rw [htext] at h
      cases h
      rfl
  | deleteDocument collection docId | storeMetadata key value =>
    cases h
    rfl
  | scanCollection now collection | getMetadata key => cases h

/-- The records a scan looks for are the same after a step that does not disturb it. -/
theorem records_exec {selects : Bytes → Bool} {name : String}
    (h : ¬(call.touch json layer).Disturbs selects (.collection name)) :
    ((call.exec json layer).2.records name).filter (fun entry => selects entry.2) =
      (layer.records name).filter fun entry => selects entry.2 := by
  have hrecords (layer : PersistentLayer) :
      (layer.records name).filter (fun entry => selects entry.2) =
        (layer.documents.filter fun key value =>
          (utf8 (name ++ ":")).isPrefixOf key && selects value).toList := by
    rw [PersistentLayer.records, List.filter_filter, Std.ExtTreeMap.toList_filter]
    apply List.filter_congr
    intro entry _
    exact Bool.and_comm _ _
  rw [hrecords, hrecords]
  apply congrArg
  apply Std.ExtTreeMap.ext_getElem?
  intro key
  rw [Std.ExtTreeMap.getElem?_filter', Std.ExtTreeMap.getElem?_filter']
  show ((call.exec json layer).2.recordAt (.document key)).filter _ =
    (layer.recordAt (.document key)).filter _
  by_cases hchanges : (call.touch json layer).Changes (.document key)
  · cases htouch : call.touch json layer with
    | nothing | collection name | reads own =>
      rw [htouch] at hchanges
      exact absurd hchanges id
    | changes own before after =>
      rw [htouch] at hchanges h
      cases hchanges
      rw [recordAt_exec, htouch, ← before_eq htouch]
      dsimp only
      rw [if_pos rfl]
      by_cases hpre : (utf8 (name ++ ":")).isPrefixOf key = true
      · have hnone {record : Option Bytes} (hrecord : ¬record.any selects = true) :
            record.filter (fun value =>
              (utf8 (name ++ ":")).isPrefixOf key && selects value) = none := by
          rw [Bool.not_eq_true, Option.any_eq_false] at hrecord
          rw [Option.filter_eq_none_iff]
          intro value hvalue h
          rw [Bool.and_eq_true] at h
          rw [hrecord value hvalue] at h
          cases h.2
        rw [hnone fun hbefore => h ⟨hpre, .inl hbefore⟩,
          hnone fun hafter => h ⟨hpre, .inr hafter⟩]
      · rw [Bool.not_eq_true] at hpre
        rw [hpre]
        simp
  · rw [recordAt_exec_of_not_changes hchanges]

/-- Neither of two steps changes a place that the other is about. -/
structure Apart (own other : Touch) : Prop where
  left : ∀ place, own.Changes place → ¬other.About place
  right : ∀ place, other.Changes place → ¬own.About place

theorem Apart.symm {own other : Touch} (h : Apart own other) : Apart other own :=
  ⟨h.right, h.left⟩

theorem Apart.of_not_conflicts {selects selects' : Bytes → Bool} {own other : Touch}
    (h : ¬own.Conflicts selects selects' other) : Apart own other := by
  have hdisturbs {selects : Bytes → Bool} {own other : Touch} {place : Place}
      (hchanges : own.Changes place) (habout : other.About place) :
      own.Disturbs selects other := by
    cases own with
    | nothing | collection name | reads own => exact absurd hchanges id
    | changes own before after =>
      cases hchanges
      cases other with
      | nothing | collection name => exact absurd habout id
      | reads other | changes other _ _ => exact habout
  exact ⟨fun _ hchanges habout => h (.inl (hdisturbs hchanges habout)),
    fun _ hchanges habout => h (.inr (hdisturbs hchanges habout))⟩

theorem about_of_changes {place : Place} {touch : Touch} (h : touch.Changes place) :
    touch.About place := by
  cases touch with
  | nothing | collection name | reads own => exact absurd h id
  | changes own before after => exact h

section

variable {own other : StorageCall}
  (hapart : Apart (own.touch json layer) (other.touch json layer))

include hapart

theorem recordAt_exec_of_about {place : Place} (habout : (other.touch json layer).About place) :
    (own.exec json layer).2.recordAt place = layer.recordAt place :=
  recordAt_exec_of_not_changes fun h => hapart.left place h habout

theorem touch_exec : other.touch json (own.exec json layer).2 = other.touch json layer :=
  touch_congr fun _ => recordAt_exec_of_about hapart

theorem answer_exec (hscan : ¬other.Scans) :
    (other.exec json (own.exec json layer).2).1 = (other.exec json layer).1 :=
  answer_congr hscan fun _ => recordAt_exec_of_about hapart

theorem exec_comm : (other.exec json (own.exec json layer).2).2 =
    (own.exec json (other.exec json layer).2).2 := by
  -- Off its own place a step leaves the record; on it, the other step changes nothing.
  have hown {own other : StorageCall}
      (hapart : Apart (own.touch json layer) (other.touch json layer)) {place : Place}
      (hnot : ¬(other.touch json layer).Changes place) :
      (other.exec json (own.exec json layer).2).2.recordAt place =
        (own.exec json (other.exec json layer).2).2.recordAt place := by
    have hnot' : ¬(other.touch json (own.exec json layer).2).Changes place := by
      rw [touch_exec hapart]
      exact hnot
    rw [recordAt_exec_of_not_changes hnot', recordAt_exec, recordAt_exec,
      touch_exec hapart.symm, recordAt_exec_of_not_changes hnot]
  apply PersistentLayer.ext_recordAt
  intro place
  by_cases hchanges : (other.touch json layer).Changes place
  · apply (hown hapart.symm _).symm
    exact fun h => hapart.left place h (about_of_changes hchanges)
  · exact hown hapart hchanges

end

end StorageCall

end VedDb
