import VedDb.Lib.Runs
import VedDb.Storage.Reading

/-!
# The persistent layer as a database

What the persistent layer is for: a map from a collection and an identifier to a document.  The
layer keeps all collections in one space of byte keys and finds the documents of one by the prefix
`name:` of their keys.  That prefix also starts the keys of every collection whose name goes on
behind the colon, so a scan and a drop reach into those.
-/

namespace VedDb

open LittleEndian (Bytes)
open PersistentLayer (makeDocumentKey)

/-- What a document is to its readers; its metadata is not stored. -/
def Document.content (doc : Document) : DocumentId × Fields := (doc.id, doc.fields)

/-! ## Databases -/

/-- A document for some of the identifiers of each collection. -/
def Database := String → DocumentId → Option (DocumentId × Fields)

namespace Database

variable (db : Database) (collection : String) (docId : DocumentId)

def empty : Database := fun _ _ => none

def insert (content : DocumentId × Fields) : Database :=
  fun name id => if name = collection ∧ id = docId then some content else db name id

def erase : Database :=
  fun name id => if name = collection ∧ id = docId then none else db name id

def drop : Database :=
  fun name id => if name = collection then none else db name id

def Holds : Prop := ∃ id, db collection id ≠ none

def Lists (contents : List (DocumentId × Fields)) : Prop :=
  ∃ ids : List DocumentId, ids.Nodup ∧ (∀ id, id ∈ ids ↔ db collection id ≠ none) ∧
    ids.map (db collection) = contents.map some

end Database

/-! ## Calls -/

/-- The calls on documents and collections that the layer serves. -/
inductive DocumentCall where
  | insert (collection : String) (docId : DocumentId) (doc : Document)
  | update (collection : String) (docId : DocumentId) (doc : Document)
  | get (collection : String) (docId : DocumentId)
  | delete (collection : String) (docId : DocumentId)
  | exists (collection : String) (docId : DocumentId)
  | scan (collection : String)
  | drop (collection : String)

inductive DocumentReply where
  | done (result : Except StorageError Unit)
  | found (result : Except StorageError (Option Document))
  | existed (existed : Bool)
  | scanned (result : Except StorageError (List Document))

def PersistentLayer.call (json : DocumentJson) (catalogue : CatalogueJson)
    (layer : PersistentLayer) (now : DateTime) : DocumentCall → DocumentReply × PersistentLayer
  | .insert collection docId doc =>
    match layer.insertDocument json collection docId doc with
    | .error e => (.done (.error e), layer)
    | .ok layer => (.done (.ok ()), layer)
  | .update collection docId doc =>
    match layer.updateDocument json collection docId doc with
    | .error e => (.done (.error e), layer)
    | .ok layer => (.done (.ok ()), layer)
  | .get collection docId => (.found (layer.getDocument json now collection docId), layer)
  | .delete collection docId =>
    let (existed, layer) := layer.deleteDocument collection docId
    (.existed existed, layer)
  | .exists collection docId => (.existed (layer.existsDocument collection docId), layer)
  | .scan collection => (.scanned (layer.scanCollection json now collection), layer)
  | .drop collection =>
    let (result, layer) := layer.dropCollection catalogue collection
    (.done result, layer)

namespace Database

def after (db : Database) : DocumentCall → Database
  | .insert collection docId doc | .update collection docId doc =>
    db.insert collection docId doc.content
  | .delete collection docId => db.erase collection docId
  | .drop collection => db.drop collection
  | .get _ _ | .exists _ _ | .scan _ => db

def Replies (db : Database) : DocumentCall → DocumentReply → Prop
  | .insert _ _ _, .done result => result = .ok ()
  | .update _ _ _, .done result => result = .ok ()
  | .get collection docId, .found result =>
    ∃ doc, result = .ok doc ∧ doc.map Document.content = db collection docId
  | .delete collection docId, .existed existed => existed = (db collection docId).isSome
  | .exists collection docId, .existed existed => existed = (db collection docId).isSome
  | .scan collection, .scanned result =>
    ∃ docs, result = .ok docs ∧ db.Lists collection (docs.map Document.content)
  | .drop _, .done result => result = .ok ()
  | _, _ => False

end Database

/-- The document the call writes, if any, is read back as written. -/
def DocumentCall.RoundTrips (json : DocumentJson) : DocumentCall → Prop
  | .insert _ _ doc | .update _ _ doc => json.RoundTrips doc
  | _ => True

/-- No collection whose name starts with the scanned or dropped one and a colon holds a
document. -/
def DocumentCall.Separate (db : Database) : DocumentCall → Prop
  | .scan collection | .drop collection =>
    ∀ other, db.Holds other → ¬(collection ++ ":").toList <+: other.toList
  | _ => True

-- A name with a colon appended is longer than the name.
theorem not_prefix_append_colon (name : String) : ¬(name ++ ":").toList <+: name.toList := by
  intro hpre
  have hlonger := hpre.length_le
  rw [String.toList_append, List.length_append] at hlonger
  have hcolon : (":".toList).length = 1 := by decide
  omega

/-! ## The layer and the database it stands for -/

/-- The layer holds the documents of the database and nothing else. -/
structure PersistentLayer.Represents (json : DocumentJson) (layer : PersistentLayer)
    (db : Database) : Prop where
  keyed : layer.Keyed
  decoded : ∀ collection docId,
    layer.decoded json (makeDocumentKey collection docId) = (db collection docId).map .ok

namespace PersistentLayer.Represents

variable {json : DocumentJson} {layer : PersistentLayer} {db : Database}

theorem empty : PersistentLayer.empty.Represents json Database.empty where
  keyed := keyed_empty
  decoded _ _ := by
    have hnone (key : Bytes) : PersistentLayer.empty.documents[key]? = none :=
      Std.ExtTreeMap.getElem?_empty
    simp only [PersistentLayer.decoded, hnone, Database.empty, Option.map_none]

variable (h : layer.Represents json db) (collection : String) (docId : DocumentId)

include h

theorem getDocument (now : DateTime) :
    ∃ doc, layer.getDocument json now collection docId = .ok doc ∧
      doc.map Document.content = db collection docId := by
  rw [getDocument_eq_documentOf, h.decoded]
  cases db collection docId with
  | none => exact ⟨none, rfl, rfl⟩
  | some content => exact ⟨some ⟨content.1, content.2, .default now⟩, rfl, rfl⟩

theorem contains :
    layer.documents.contains (makeDocumentKey collection docId) = (db collection docId).isSome := by
  have hread := congrArg Option.isSome (h.decoded collection docId)
  rw [PersistentLayer.decoded, Option.isSome_map, Option.isSome_map] at hread
  rw [← hread]
  exact Std.ExtTreeMap.contains_eq_isSome_getElem?

theorem insertDocument {doc : Document} (hround : json.RoundTrips doc) :
    ∃ layer', layer.insertDocument json collection docId doc = .ok layer' ∧
      layer'.Represents json (db.insert collection docId doc.content) := by
  obtain ⟨value, hto, hfrom⟩ := hround
  have hinsert : layer.insertDocument json collection docId doc = .ok { layer with
      documents := layer.documents.insert (makeDocumentKey collection docId) value } := by
    simp only [PersistentLayer.insertDocument, hto]
  refine ⟨_, hinsert, h.keyed.insertDocument hinsert, ?_⟩
  intro name id
  rw [decoded_insert, hfrom, h.decoded, Database.insert]
  by_cases hkey : name = collection ∧ id = docId
  · rw [if_pos hkey, hkey.1, hkey.2, if_pos rfl]
    rfl
  · rw [if_neg hkey, if_neg (fun heq => hkey ⟨(makeDocumentKey_injective heq).1.symm,
      (makeDocumentKey_injective heq).2.symm⟩)]

theorem deleteDocument :
    (layer.deleteDocument collection docId).2.Represents json (db.erase collection docId) := by
  refine ⟨h.keyed.deleteDocument collection docId, ?_⟩
  intro name id
  rw [decoded_deleteDocument, h.decoded, Database.erase]
  by_cases hkey : name = collection ∧ id = docId
  · rw [if_pos hkey, hkey.1, hkey.2, if_pos rfl]
    rfl
  · rw [if_neg hkey, if_neg (fun heq => hkey ⟨(makeDocumentKey_injective heq).1.symm,
      (makeDocumentKey_injective heq).2.symm⟩)]

/-! ### Scans -/

-- A scan finds the documents of the collection and of those whose names go on behind its colon.
theorem scanCollection (now : DateTime) :
    ∃ (keys : List (String × DocumentId)) (docs : List Document),
      layer.scanCollection json now collection = .ok docs ∧ keys.Nodup ∧
      (∀ key, key ∈ keys ↔ db key.1 key.2 ≠ none ∧
        (collection = key.1 ∨ (collection ++ ":").toList <+: key.1.toList)) ∧
      (keys.map fun key => db key.1 key.2) = docs.map (some ∘ Document.content) := by
  let entries := layer.documents.toList.filter fun entry =>
    (utf8 (collection ++ ":")).isPrefixOf entry.1
  have hread : ∀ entry ∈ entries, ∃ found : (String × DocumentId) × Document,
      entry.1 = makeDocumentKey found.1.1 found.1.2 ∧ Decodes json now entry found.2 ∧
        db found.1.1 found.1.2 = some found.2.content := by
    intro entry hentry
    have hstored := (mem_entries.mp hentry).1
    obtain ⟨name, id, hkey⟩ := h.keyed entry.1 entry.2 hstored
    have hdecoded := h.decoded name id
    rw [← hkey, PersistentLayer.decoded, hstored, Option.map_some] at hdecoded
    cases hdb : db name id with
    | none =>
      rw [hdb] at hdecoded
      cases hdecoded
    | some content =>
      rw [hdb, Option.map_some, Option.some.injEq] at hdecoded
      exact ⟨⟨(name, id), ⟨content.1, content.2, .default now⟩⟩, hkey, ⟨hdecoded, rfl⟩, hdb⟩
  obtain ⟨found, hfound⟩ := exists_forall₂ hread
  refine ⟨found.map Prod.fst, found.map Prod.snd, ?_, ?_, ?_, ?_⟩
  · have hdocs : List.Forall₂ (Decodes json now) entries (found.map Prod.snd) := by
      rw [List.forall₂_map_right_iff]
      exact hfound.imp fun _ _ hown => hown.2.1
    exact decodeDocuments_eq_ok_iff.mpr hdocs
  · have hkeys : (found.map Prod.fst).map (fun key => makeDocumentKey key.1 key.2) =
        entries.map Prod.fst := by
      rw [List.map_map]
      exact (map_eq_map_of_forall₂ (hfound.imp fun _ _ hown => hown.1)).symm
    have hnodup : (entries.map Prod.fst).Nodup := by
      refine List.Nodup.sublist (List.Sublist.map _ List.filter_sublist) ?_
      rw [Std.ExtTreeMap.map_fst_toList_eq_keys]
      exact Std.ExtTreeMap.nodup_keys
    rw [← hkeys] at hnodup
    exact hnodup.of_map _
  · intro key
    rw [List.mem_map]
    constructor
    · rintro ⟨own, hown, hkey⟩
      obtain ⟨entry, hentry, hname, -, hdb⟩ := exists_of_forall₂_right hfound hown
      have hpre := (mem_entries.mp hentry).2
      rw [hname, isPrefixOf_makeDocumentKey_iff] at hpre
      rw [← hkey, hdb]
      exact ⟨Option.some_ne_none _, hpre⟩
    · rintro ⟨hdb, hpre⟩
      have hdecoded := h.decoded key.1 key.2
      cases hstored : layer.documents[makeDocumentKey key.1 key.2]? with
      | none =>
        rw [PersistentLayer.decoded, hstored, Option.map_none, eq_comm,
          Option.map_eq_none_iff] at hdecoded
        exact absurd hdecoded hdb
      | some value =>
        obtain ⟨own, hown, hname, -, -⟩ := exists_of_forall₂_left hfound
          (mem_entries.mpr ⟨hstored, isPrefixOf_makeDocumentKey_iff.mpr hpre⟩)
        obtain ⟨hcollection, hid⟩ := makeDocumentKey_injective hname
        exact ⟨own, hown, Prod.ext hcollection.symm hid.symm⟩
  · rw [List.map_map, List.map_map]
    apply List.map_congr_left
    intro own hown
    obtain ⟨-, -, -, -, hdb⟩ := exists_of_forall₂_right hfound hown
    exact hdb

-- A scan that finds documents of other collections finds more than the collection holds.
theorem scanCollection_lists_iff (now : DateTime) :
    (∃ docs, layer.scanCollection json now collection = .ok docs ∧
        db.Lists collection (docs.map Document.content)) ↔
      ∀ other, db.Holds other → ¬(collection ++ ":").toList <+: other.toList := by
  obtain ⟨keys, docs, hscan, hnodup, hkeys, hdocs⟩ := h.scanCollection collection now
  rw [← List.map_map] at hdocs
  have hlists : (∃ docs, layer.scanCollection json now collection = .ok docs ∧
        db.Lists collection (docs.map Document.content)) ↔
      db.Lists collection (docs.map Document.content) := by
    rw [hscan]
    constructor
    · intro ⟨docs', hdocs', hlist⟩
      rw [Except.ok.inj hdocs']
      exact hlist
    · intro hlist
      exact ⟨docs, rfl, hlist⟩
  rw [hlists]
  constructor
  · intro ⟨ids, hids, hmem, hcontents⟩ other ⟨id, hid⟩ hpre
    have hcollection (id : DocumentId) : (collection, id) ∈ keys ↔ id ∈ ids := by
      rw [hkeys, hmem]
      exact and_iff_left (.inl rfl)
    have hlength : (ids.map (collection, ·)).length = keys.length := by
      have hsame := congrArg List.length (hcontents.trans hdocs.symm)
      rw [List.length_map, List.length_map] at hsame
      rw [List.length_map, hsame]
    have hown : (ids.map (collection, ·)).Subperm keys := by
      refine List.subperm_of_subset ?_ ?_
      · exact hids.map (fun a b hab => (Prod.mk.inj hab).2)
      · intro key hkey
        obtain ⟨id, hid, rfl⟩ := List.mem_map.mp hkey
        exact (hcollection id).mpr hid
    have hother : (other, id) ∈ keys := (hkeys (other, id)).mpr ⟨hid, .inr hpre⟩
    rw [← (hown.perm_of_length_le hlength.ge).mem_iff, List.mem_map] at hother
    obtain ⟨_, _, hsame⟩ := hother
    rw [← (Prod.mk.inj hsame).1] at hpre
    exact not_prefix_append_colon collection hpre
  · intro hseparate
    have hcollection : ∀ key ∈ keys, key.1 = collection := by
      intro key hkey
      have hown := (hkeys key).mp hkey
      exact (hown.2.resolve_right (hseparate key.1 ⟨key.2, hown.1⟩)).symm
    refine ⟨keys.map Prod.snd, ?_, ?_, ?_⟩
    · refine hnodup.map_on ?_
      intro key hkey key' hkey' hsame
      exact Prod.ext ((hcollection key hkey).trans (hcollection key' hkey').symm) hsame
    · intro id
      rw [List.mem_map]
      constructor
      · intro ⟨key, hkey, hid⟩
        have hown := ((hkeys key).mp hkey).1
        rw [hcollection key hkey, hid] at hown
        exact hown
      · intro hid
        exact ⟨(collection, id), (hkeys _).mpr ⟨hid, .inl rfl⟩, rfl⟩
    · rw [← hdocs, List.map_map]
      apply List.map_congr_left
      intro key hkey
      show db collection key.2 = db key.1 key.2
      rw [hcollection key hkey]

-- A drop that reaches into another collection removes documents that were to stay.
theorem dropCollection_iff (catalogue : CatalogueJson) :
    (layer.dropCollection catalogue collection).2.Represents json (db.drop collection) ↔
      ∀ other, db.Holds other → ¬(collection ++ ":").toList <+: other.toList := by
  have hread (name : String) (id : DocumentId) :
      (layer.dropCollection catalogue collection).2.decoded json (makeDocumentKey name id) =
        if collection = name ∨ (collection ++ ":").toList <+: name.toList then none
        else (db name id).map .ok := by
    rw [decoded_dropCollection, h.decoded]
    by_cases hpre : collection = name ∨ (collection ++ ":").toList <+: name.toList
    · rw [if_pos hpre, if_pos (isPrefixOf_makeDocumentKey_iff.mpr hpre)]
    · rw [if_neg hpre, if_neg (fun hown => hpre (isPrefixOf_makeDocumentKey_iff.mp hown))]
  constructor
  · intro hdropped other ⟨id, hid⟩ hpre
    have hgone := hdropped.decoded other id
    have hne : other ≠ collection := fun heq => not_prefix_append_colon collection (heq ▸ hpre)
    rw [hread, if_pos (.inr hpre), Database.drop, if_neg hne, eq_comm,
      Option.map_eq_none_iff] at hgone
    exact hid hgone
  · intro hseparate
    refine ⟨h.keyed.dropCollection catalogue collection, ?_⟩
    intro name id
    rw [hread, Database.drop]
    by_cases hname : name = collection
    · rw [if_pos hname, if_pos (.inl hname.symm)]
      rfl
    · rw [if_neg hname]
      by_cases hpre : (collection ++ ":").toList <+: name.toList
      · have hnone : db name id = none := by
          by_contra hid
          exact hseparate name ⟨id, hid⟩ hpre
        rw [if_pos (.inr hpre), hnone]
        rfl
      · rw [if_neg (not_or.mpr ⟨Ne.symm hname, hpre⟩)]

/-! ## Runs -/

variable (catalogue : CatalogueJson) (now : DateTime)

/-- A call is served as by the database exactly when it does not reach into other collections. -/
theorem call_iff {call : DocumentCall} (hround : call.RoundTrips json) :
    (db.Replies call (layer.call json catalogue now call).1 ∧
        (layer.call json catalogue now call).2.Represents json (db.after call)) ↔
      call.Separate db := by
  cases call with
  | insert collection docId doc =>
    obtain ⟨layer', hinsert, hrep⟩ := h.insertDocument collection docId hround
    simp only [call, hinsert]
    exact iff_of_true ⟨rfl, hrep⟩ trivial
  | update collection docId doc =>
    obtain ⟨layer', hinsert, hrep⟩ := h.insertDocument collection docId hround
    simp only [call, PersistentLayer.updateDocument, hinsert]
    exact iff_of_true ⟨rfl, hrep⟩ trivial
  | get collection docId => exact iff_of_true ⟨h.getDocument collection docId now, h⟩ trivial
  | delete collection docId =>
    exact iff_of_true ⟨h.contains collection docId, h.deleteDocument collection docId⟩ trivial
  | «exists» collection docId => exact iff_of_true ⟨h.contains collection docId, h⟩ trivial
  | scan collection =>
    exact (and_iff_left h).trans (h.scanCollection_lists_iff collection now)
  | drop collection =>
    have hdone : db.Replies (.drop collection) (layer.call json catalogue now
        (.drop collection)).1 := by
      show (layer.dropCollection catalogue collection).1 = .ok ()
      rw [dropCollection_eq]
    exact (and_iff_right hdone).trans (h.dropCollection_iff collection catalogue)

end PersistentLayer.Represents

/-- The layer, next to the database it is to stand for. -/
abbrev DocumentRun := PersistentLayer × Database

/-- One call, at an instant, made to both. -/
def DocumentRun.step (json : DocumentJson) (catalogue : CatalogueJson) (run : DocumentRun)
    (op : DateTime × DocumentCall) : DocumentRun :=
  ((run.1.call json catalogue op.1 op.2).2, run.2.after op.2)

/-- The layer replies as the database and goes on standing for it. -/
def DocumentRun.Refines (json : DocumentJson) (catalogue : CatalogueJson) (run : DocumentRun)
    (op : DateTime × DocumentCall) : Prop :=
  run.2.Replies op.2 (run.1.call json catalogue op.1 op.2).1 ∧
    (run.step json catalogue op).1.Represents json (run.step json catalogue op).2

/-- The persistent layer refines the database in exactly the runs that never scan or drop a
collection while one whose name goes on behind its colon holds a document. -/
theorem PersistentLayer.refines_database_iff {json : DocumentJson} (catalogue : CatalogueJson)
    {calls : List (DateTime × DocumentCall)} (hround : ∀ op ∈ calls, op.2.RoundTrips json) :
    MeetsAlong (DocumentRun.step json catalogue) (DocumentRun.Refines json catalogue)
        (PersistentLayer.empty, Database.empty) calls ↔
      MeetsAlong (DocumentRun.step json catalogue) (fun run op => op.2.Separate run.2)
        (PersistentLayer.empty, Database.empty) calls := by
  have hiff {run : DocumentRun} {op : DateTime × DocumentCall} (hop : op ∈ calls)
      (hrep : run.1.Represents json run.2) :
      run.Refines json catalogue op ↔ op.2.Separate run.2 :=
    hrep.call_iff catalogue op.1 (hround op hop)
  have hstep {run : DocumentRun} {op : DateTime × DocumentCall} (hop : op ∈ calls)
      (hrep : run.1.Represents json run.2) (hseparate : op.2.Separate run.2) :
      (run.step json catalogue op).1.Represents json (run.step json catalogue op).2 :=
    ((hiff hop hrep).mpr hseparate).2
  exact meetsAlong_iff hstep hiff .empty

/-- A document of one collection goes with another collection that is dropped. -/
theorem drop_reaches_other_collection :
    ¬MeetsAlong (DocumentRun.step nullDocuments plainCatalogue)
        (DocumentRun.Refines nullDocuments plainCatalogue)
        (PersistentLayer.empty, Database.empty)
        [(0, .insert "a:b" ⟨1⟩ (emptyDocument ⟨1⟩)), (1, .drop "a")] := by
  intro ⟨hinsert, hdrop, _⟩
  have hround : DocumentCall.RoundTrips nullDocuments (.drop "a") := trivial
  have hseparate := (hinsert.2.call_iff plainCatalogue 1 hround).mp hdrop
  refine hseparate "a:b" ⟨⟨1⟩, ?_⟩ (by decide)
  exact Option.some_ne_none _

/-- A run over two collections with unrelated names. -/
theorem users_and_orders_refine :
    (∀ op ∈ [((0 : DateTime), DocumentCall.insert "users" ⟨1⟩ (emptyDocument ⟨1⟩)),
        (1, .insert "orders" ⟨1⟩ (emptyDocument ⟨1⟩)), (2, .drop "users"), (3, .scan "orders")],
      op.2.RoundTrips nullDocuments) ∧
    MeetsAlong (DocumentRun.step nullDocuments plainCatalogue)
      (DocumentRun.Refines nullDocuments plainCatalogue)
      (PersistentLayer.empty, Database.empty)
      [(0, .insert "users" ⟨1⟩ (emptyDocument ⟨1⟩)), (1, .insert "orders" ⟨1⟩ (emptyDocument ⟨1⟩)),
        (2, .drop "users"), (3, .scan "orders")] := by
  have hround : ∀ op ∈ [((0 : DateTime), DocumentCall.insert "users" ⟨1⟩ (emptyDocument ⟨1⟩)),
      (1, .insert "orders" ⟨1⟩ (emptyDocument ⟨1⟩)), (2, .drop "users"), (3, .scan "orders")],
      op.2.RoundTrips nullDocuments := by
    simp only [List.forall_mem_cons, List.not_mem_nil, false_implies, implies_true, and_true]
    exact ⟨nullDocuments_roundTrips_empty _, nullDocuments_roundTrips_empty _, trivial, trivial⟩
  refine ⟨hround, (PersistentLayer.refines_database_iff plainCatalogue hround).mpr
    ⟨trivial, trivial, ?_, ?_, trivial⟩⟩
  all_goals
    intro other ⟨id, hid⟩
    by_cases husers : other = "users"
    · rw [husers]
      decide
    · by_cases horders : other = "orders"
      · rw [horders]
        decide
      · exact absurd (by simp [DocumentRun.step, Database.after, Database.insert, Database.drop,
          Database.empty, husers, horders]) hid

/-!
## The list of collections

What `list_collections` lists after a history of calls.  It reads the names off the document keys,
up to the first colon, so a collection that was created and holds nothing is not listed, and one
with a colon in its name is listed under another name.
-/

namespace PersistentLayer

def HoldsDocument (layer : PersistentLayer) (collection : String) : Prop :=
  ∃ docId, layer.existsDocument collection docId = true

-- A name is listed when it is that of a collection with a document, cut at its first colon.
theorem Keyed.mem_listCollections {layer : PersistentLayer} (hkeyed : layer.Keyed) {name : String} :
    name ∈ layer.listCollections ↔
      ∃ collection, layer.HoldsDocument collection ∧
        String.ofList (collection.toList.takeWhile (· ≠ ':')) = name := by
  rw [PersistentLayer.mem_listCollections]
  constructor
  · intro ⟨key, hkey, hname⟩
    rw [Std.ExtTreeMap.mem_keys] at hkey
    have hstored := Std.ExtTreeMap.getElem?_eq_some_getElem hkey
    obtain ⟨collection, docId, hown⟩ := hkeyed key _ hstored
    rw [hown, collectionOfKey_eq, Option.some.injEq] at hname
    refine ⟨collection, ⟨docId, ?_⟩, hname⟩
    rw [existsDocument, ← hown, ← Std.ExtTreeMap.mem_iff_contains]
    exact hkey
  · intro ⟨collection, ⟨docId, hexists⟩, hname⟩
    refine ⟨makeDocumentKey collection docId, ?_, ?_⟩
    · rw [Std.ExtTreeMap.mem_keys, Std.ExtTreeMap.mem_iff_contains]
      exact hexists
    · rw [collectionOfKey_eq, hname]

theorem createCollection_documents {catalogue : CatalogueJson} {layer layer' : PersistentLayer}
    {name : String} (h : layer.createCollection catalogue name = .ok layer') :
    layer'.documents = layer.documents := by
  unfold createCollection saveCollectionsList at h
  dsimp only at h
  split at h
  · cases h
    rfl
  · split at h
    · cases h
    · cases h
      rfl

end PersistentLayer

/-! ### Histories -/

inductive CollectionCall where
  | create (name : String)
  | drop (name : String)
  | insert (collection : String) (docId : DocumentId) (doc : Document)
  | delete (collection : String) (docId : DocumentId)

/-- The layer, next to the collections that were created and not dropped since. -/
abbrev CollectionRun := PersistentLayer × List String

/-- One call; one that fails leaves the layer as it was. -/
def CollectionRun.step (json : DocumentJson) (catalogue : CatalogueJson) (run : CollectionRun) :
    CollectionCall → CollectionRun
  | .create name =>
    match run.1.createCollection catalogue name with
    | .error _ => run
    | .ok layer => (layer, name :: run.2)
  | .drop name => ((run.1.dropCollection catalogue name).2, run.2.filter (· ≠ name))
  | .insert collection docId doc =>
    match run.1.insertDocument json collection docId doc with
    | .error _ => run
    | .ok layer => (layer, run.2)
  | .delete collection docId => ((run.1.deleteDocument collection docId).2, run.2)

theorem CollectionRun.step_keyed {json : DocumentJson} {catalogue : CatalogueJson}
    {run : CollectionRun} (hkeyed : run.1.Keyed) (call : CollectionCall) :
    (run.step json catalogue call).1.Keyed := by
  cases call with
  | create name =>
    rw [step]
    split
    · exact hkeyed
    · next layer hcreate =>
        intro key value hkey
        rw [PersistentLayer.createCollection_documents hcreate] at hkey
        exact hkeyed key value hkey
  | drop name => exact hkeyed.dropCollection catalogue name
  | insert collection docId doc =>
    rw [step]
    split
    · exact hkeyed
    · next layer hinsert => exact hkeyed.insertDocument hinsert
  | delete collection docId => exact hkeyed.deleteDocument collection docId

theorem CollectionRun.run_keyed {json : DocumentJson} {catalogue : CatalogueJson}
    {run : CollectionRun} (hkeyed : run.1.Keyed) (calls : List CollectionCall) :
    (calls.foldl (CollectionRun.step json catalogue) run).1.Keyed := by
  induction calls generalizing run with
  | nil => exact hkeyed
  | cons call calls ih => exact ih (step_keyed hkeyed call)

/-- The list names the collections that were created and not dropped since, and those that hold a
document, each once. -/
def CollectionRun.Lists (run : CollectionRun) : Prop :=
  run.1.listCollections.Nodup ∧
    ∀ name, name ∈ run.1.listCollections ↔ name ∈ run.2 ∨ run.1.HoldsDocument name

/-- The list is right exactly when every collection that was created and not dropped since holds a
document, and no collection with a colon in its name does. -/
theorem listCollections_exact_iff (json : DocumentJson) (catalogue : CatalogueJson)
    (calls : List CollectionCall) :
    let run := calls.foldl (CollectionRun.step json catalogue) (PersistentLayer.empty, [])
    run.Lists ↔ (∀ name ∈ run.2, run.1.HoldsDocument name) ∧
      ∀ name, run.1.HoldsDocument name → ':' ∉ name.toList := by
  intro run
  have hkeyed : run.1.Keyed := CollectionRun.run_keyed PersistentLayer.keyed_empty calls
  have hcut {name : String} (h : ':' ∉ name.toList) :
      String.ofList (name.toList.takeWhile (· ≠ ':')) = name := by
    rw [Separated.takeWhile_eq_self h, String.ofList_toList]
  constructor
  · intro ⟨_, hlist⟩
    have hcolon : ∀ name, run.1.HoldsDocument name → ':' ∉ name.toList := by
      intro name hholds
      obtain ⟨collection, -, hname⟩ :=
        hkeyed.mem_listCollections.mp ((hlist name).mpr (.inr hholds))
      rw [← hname, String.toList_ofList]
      intro hmem
      have hne := List.mem_takeWhile_imp hmem
      exact absurd hne (by decide)
    refine ⟨?_, hcolon⟩
    intro name hcreated
    obtain ⟨collection, hholds, hname⟩ :=
      hkeyed.mem_listCollections.mp ((hlist name).mpr (.inl hcreated))
    rw [hcut (hcolon collection hholds)] at hname
    rw [← hname]
    exact hholds
  · intro ⟨hcreated, hcolon⟩
    refine ⟨run.1.listCollections_nodup, ?_⟩
    intro name
    rw [hkeyed.mem_listCollections]
    constructor
    · intro ⟨collection, hholds, hname⟩
      rw [hcut (hcolon collection hholds)] at hname
      exact .inr (hname ▸ hholds)
    · intro h
      have hholds : run.1.HoldsDocument name := h.elim (hcreated name) id
      exact ⟨name, hholds, hcut (hcolon name hholds)⟩

/-- A collection that was created is not listed. -/
theorem created_collection_unlisted :
    ¬CollectionRun.Lists ([CollectionCall.create "users"].foldl
      (CollectionRun.step nullDocuments plainCatalogue) (PersistentLayer.empty, [])) := by
  intro ⟨_, hlist⟩
  have hlisted := (hlist "users").mpr (.inl (by decide))
  exact absurd hlisted (by decide)

end VedDb
