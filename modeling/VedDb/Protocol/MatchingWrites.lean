import VedDb.Protocol.Documents
import VedDb.Query.IndexScan
import VedDb.Storage.Hybrid
import VedDb.Storage.Scans

/-!
# The loops of updates and deletions

`UpdateDoc` and `DeleteDoc` decide on one document after the other and write as they go.  What they
have written and counted when they come to the end of a list of documents, and which documents of a
scan match.
-/

namespace VedDb

open LittleEndian (Bytes)
open PersistentLayer (makeDocumentKey WrittenUnder)
open QueryExecutor (surelyMatches)

namespace DocumentCommand

variable {C : Type} {env : StorageEnv C} {regex : RegexCrate} {now : DateTime}
  {collection : String} {filter : Filter}

/-! ## The loops -/

def matchedIds (regex : RegexCrate) (filter : Filter) (docs : List Document) : List DocumentId :=
  (docs.filter (surelyMatches regex filter)).map Document.id

theorem matchedIds_cons_of_match {doc : Document} (docs : List Document)
    (h : matchesFilter regex doc filter = .ok true) :
    matchedIds regex filter (doc :: docs) = doc.id :: matchedIds regex filter docs := by
  rw [matchedIds, List.filter_cons_of_pos (QueryExecutor.surelyMatches_iff.mpr h), List.map_cons]
  rfl

theorem matchedIds_cons_of_not_match {doc : Document} (docs : List Document)
    (h : matchesFilter regex doc filter = .ok false) :
    matchedIds regex filter (doc :: docs) = matchedIds regex filter docs := by
  rw [matchedIds, List.filter_cons_of_neg (by rw [surelyMatches, h]; simp)]
  rfl

/-- What an update with these members puts in the place of a document. -/
def newDocument (now : DateTime) (members : List (String × Value)) (id : DocumentId) : Document :=
  { id := id, fields := .ofMembers members, metadata := .default now }

variable (env now collection) in
theorem updateMatching_decided (hwrites : env.json.Writes) (members : List (String × Value))
    {docs : List Document}
    (hdocs : ∀ doc ∈ docs, ∃ found, matchesFilter regex doc filter = .ok found)
    (rest : List Document) (count : Nat) (e : HybridStorageEngine C) :
    ∃ count' e' added,
      updateMatching env regex now collection filter (.object members) (docs ++ rest) count e =
        updateMatching env regex now collection filter (.object members) rest count' e' ∧
      count' + HybridStorageEngine.refusals env.cache collection e.schemas[collection]?
        (newDocument now members) (matchedIds regex filter docs) e.cacheLayer =
          count + (matchedIds regex filter docs).length ∧
      e'.writeBehindQueue = e.writeBehindQueue ++ added ∧
      (added = [] ↔ e.queues collection = false ∨ count' = count) ∧
      WrittenUnder env.json collection
        (if e.queues collection then [] else matchedIds regex filter docs)
        (fun id => env.json.writtenAs (newDocument now members id)) e.persistentLayer
        e'.persistentLayer := by
  induction docs generalizing count e with
  | nil =>
    refine ⟨count, e, [], rfl, rfl, (List.append_nil _).symm, by simp, ?_⟩
    rw [show matchedIds regex filter [] = [] from rfl, ite_self]
    exact .refl _
  | cons doc docs ih =>
    obtain ⟨⟨found, hfound⟩, hrest⟩ := List.forall_mem_cons.mp hdocs
    rw [List.cons_append, updateMatching, hfound]
    cases found with
    | false =>
      rw [matchedIds_cons_of_not_match docs hfound]
      exact ih hrest count e
    | true =>
      obtain ⟨layer, hinsert, hlayer⟩ := PersistentLayer.exists_insertDocument hwrites
        e.persistentLayer collection doc.id (newDocument now members doc.id)
      obtain ⟨added, hupdate, hadded⟩ := e.updateDocument_spec env.cache collection env.json now
        doc.id hinsert
      rw [matchedIds_cons_of_match docs hfound, HybridStorageEngine.refusals,
        show replacement now (.object members) doc =
          some (newDocument now members doc.id) from rfl]
      dsimp only
      rw [hupdate, List.length_cons]
      generalize HybridStorageEngine.cacheWrite env.cache collection e.schemas[collection]?
        doc.id (newDocument now members doc.id) e.cacheLayer = said at hadded ⊢
      rcases said with ⟨error | ok, state⟩
      · obtain ⟨count', e', added', heq, hcount, hqueue, hadded', hlast⟩ := ih hrest count
          { e with
            cacheLayer := state
            persistentLayer := if e.queues collection then e.persistentLayer else layer
            writeBehindQueue := e.writeBehindQueue ++ added }
        have hnone : added = [] := hadded.mpr (.inr (by simp))
        refine ⟨count', e', added', heq, ?_, ?_, hadded', .cons_unless hlayer hlast⟩
        · dsimp only at hcount ⊢
          omega
        · rw [hqueue, hnone, List.append_nil]
      · obtain ⟨count', e', added', heq, hcount, hqueue, hadded', hlast⟩ := ih hrest (count + 1)
          { e with
            cacheLayer := state
            persistentLayer := if e.queues collection then e.persistentLayer else layer
            writeBehindQueue := e.writeBehindQueue ++ added }
        have hle := HybridStorageEngine.refusals_le env.cache collection e.schemas[collection]?
          (newDocument now members) (matchedIds regex filter docs) state
        refine ⟨count', e', added ++ added', heq, ?_, ?_, ?_, .cons_unless hlayer hlast⟩
        · dsimp only at hcount ⊢
          omega
        · rw [hqueue, List.append_assoc]
        · have hqueues : (e.queues collection = false ∨ Except.ok (ε := String) ok ≠ .ok ()) ↔
              e.queues collection = false := or_iff_left (not_not.mpr rfl)
          have hmore : count' ≠ count := by
            dsimp only at hcount
            omega
          rw [List.append_eq_nil_iff, hadded, hqueues, hadded', or_iff_left hmore]
          exact and_iff_left_of_imp .inl

variable (env now collection) in
theorem updateMatching_other {update : Value} (hupdate : ∀ members, update ≠ .object members)
    {docs : List Document}
    (hdocs : ∀ doc ∈ docs, ∃ found, matchesFilter regex doc filter = .ok found)
    (rest : List Document) (count : Nat) (e : HybridStorageEngine C) :
    updateMatching env regex now collection filter update (docs ++ rest) count e =
      updateMatching env regex now collection filter update rest count e := by
  induction docs with
  | nil => rfl
  | cons doc docs ih =>
    obtain ⟨⟨found, hfound⟩, hrest⟩ := List.forall_mem_cons.mp hdocs
    have hnone : replacement now update doc = none := by
      cases update with
      | object members => exact absurd rfl (hupdate members)
      | _ => rfl
    rw [List.cons_append, updateMatching, hfound]
    cases found with
    | false => exact ih hrest
    | true =>
      dsimp only
      rw [hnone]
      exact ih hrest

variable (collection) in
theorem contains_iff (json : DocumentJson) (layer : PersistentLayer) (id : DocumentId) :
    (layer.deleteDocument collection id).1 = true ↔
      layer.decoded json (makeDocumentKey collection id) ≠ none := by
  rw [PersistentLayer.deleteDocument, PersistentLayer.decoded,
    Std.ExtTreeMap.contains_eq_isSome_getElem?]
  cases layer.documents[makeDocumentKey collection id]? with
  | none => simp
  | some value => simp

variable (env now) in
theorem deleteMatching_decided {docs : List Document}
    (hdocs : ∀ doc ∈ docs, ∃ found, matchesFilter regex doc filter = .ok found)
    (rest : List Document) (count : Nat) (e : HybridStorageEngine C)
    (hqueues : e.queues collection = false) :
    ∃ (gone : List DocumentId) (e' : HybridStorageEngine C),
      deleteMatching env regex now collection filter (docs ++ rest) count e =
        deleteMatching env regex now collection filter rest (count + gone.length) e' ∧
      e'.writeBehindQueue = e.writeBehindQueue ∧ gone.Nodup ∧
      (∀ id, id ∈ gone ↔ id ∈ matchedIds regex filter docs ∧
        e.persistentLayer.decoded env.json (makeDocumentKey collection id) ≠ none) ∧
      WrittenUnder env.json collection (matchedIds regex filter docs) (fun _ => none)
        e.persistentLayer e'.persistentLayer := by
  induction docs generalizing count e with
  | nil => exact ⟨[], e, rfl, rfl, .nil, by simp [matchedIds], .refl _⟩
  | cons doc docs ih =>
    obtain ⟨⟨found, hfound⟩, hrest⟩ := List.forall_mem_cons.mp hdocs
    rw [List.cons_append, deleteMatching, hfound]
    cases found with
    | false =>
      rw [matchedIds_cons_of_not_match docs hfound]
      exact ih hrest count e hqueues
    | true =>
      obtain ⟨state, added, hdelete, hadded⟩ := e.deleteDocument_spec env.cache collection now
        doc.id
      rw [hqueues, Bool.false_or, if_neg Bool.false_ne_true, hadded.mpr hqueues,
        List.append_nil] at hdelete
      rw [matchedIds_cons_of_match docs hfound]
      dsimp only
      rw [hdelete]
      have hlayer := PersistentLayer.decoded_deleteDocument env.json e.persistentLayer
        collection doc.id
      have hcontains := contains_iff collection env.json e.persistentLayer doc.id
      generalize e.persistentLayer.deleteDocument collection doc.id = deleted
        at hlayer hcontains ⊢
      have hgone {gone : List DocumentId}
          (h : ∀ id, id ∈ gone ↔ id ∈ matchedIds regex filter docs ∧
            deleted.2.decoded env.json (makeDocumentKey collection id) ≠ none)
          (id : DocumentId) :
          id ∈ gone ↔ doc.id ≠ id ∧ id ∈ matchedIds regex filter docs ∧
            e.persistentLayer.decoded env.json (makeDocumentKey collection id) ≠ none := by
        rw [h, hlayer]
        by_cases hid : doc.id = id
        · simp [hid]
        · have hkey : makeDocumentKey collection doc.id ≠ makeDocumentKey collection id :=
            fun hkey => hid (PersistentLayer.makeDocumentKey_injective hkey).2
          simp [hid, hkey]
      rcases deleted with ⟨existed, layer⟩
      cases existed with
      | false =>
        obtain ⟨gone, e', heq, hqueue, hnodup, hmem, hlast⟩ := ih hrest count
          { e with cacheLayer := state, persistentLayer := layer } hqueues
        refine ⟨gone, e', heq, hqueue, hnodup, fun id => ?_, .cons hlayer hlast⟩
        have hnone := mt hcontains.mpr Bool.false_ne_true
        rw [not_not] at hnone
        rw [hgone hmem, List.mem_cons]
        constructor
        · rintro ⟨_, hid, hstored⟩
          exact ⟨.inr hid, hstored⟩
        · rintro ⟨hid, hstored⟩
          have hne : doc.id ≠ id := fun heq => hstored (heq ▸ hnone)
          exact ⟨hne, hid.resolve_left (Ne.symm hne), hstored⟩
      | true =>
        obtain ⟨gone, e', heq, hqueue, hnodup, hmem, hlast⟩ := ih hrest (count + 1)
          { e with cacheLayer := state, persistentLayer := layer } hqueues
        refine ⟨doc.id :: gone, e', ?_, hqueue, ?_, fun id => ?_, .cons hlayer hlast⟩
        · rw [List.length_cons, Nat.add_comm gone.length, ← Nat.add_assoc]
          exact heq
        · rw [List.nodup_cons, hgone hmem]
          exact ⟨fun h => h.1 rfl, hnodup⟩
        · have hstored := hcontains.mp rfl
          rw [List.mem_cons, hgone hmem, List.mem_cons]
          by_cases hid : id = doc.id
          · rw [hid]
            exact iff_of_true (.inl rfl) ⟨.inl rfl, hstored⟩
          · rw [or_iff_right hid, or_iff_right hid, and_iff_right (Ne.symm hid)]

variable (env now) in
theorem deleteMatching_queued {docs : List Document}
    (hdocs : ∀ doc ∈ docs, ∃ found, matchesFilter regex doc filter = .ok found)
    (rest : List Document) (count : Nat) (e : HybridStorageEngine C)
    (hqueues : e.queues collection = true) :
    ∃ e' added, deleteMatching env regex now collection filter (docs ++ rest) count e =
        deleteMatching env regex now collection filter rest
          (count + (matchedIds regex filter docs).length) e' ∧
      e'.writeBehindQueue = e.writeBehindQueue ++ added ∧
      (added = [] ↔ matchedIds regex filter docs = []) ∧
      e'.persistentLayer = e.persistentLayer := by
  induction docs generalizing count e with
  | nil => exact ⟨e, [], rfl, (List.append_nil _).symm, iff_of_true rfl rfl, rfl⟩
  | cons doc docs ih =>
    obtain ⟨⟨found, hfound⟩, hrest⟩ := List.forall_mem_cons.mp hdocs
    rw [List.cons_append, deleteMatching, hfound]
    cases found with
    | false =>
      rw [matchedIds_cons_of_not_match docs hfound]
      exact ih hrest count e hqueues
    | true =>
      obtain ⟨state, added, hdelete, hadded⟩ := e.deleteDocument_spec env.cache collection now
        doc.id
      rw [hqueues, Bool.true_or, if_pos rfl] at hdelete
      rw [matchedIds_cons_of_match docs hfound]
      dsimp only
      rw [hdelete]
      obtain ⟨e', added', heq, hqueue, -, hlayer⟩ := ih hrest (count + 1)
        { e with cacheLayer := state, writeBehindQueue := e.writeBehindQueue ++ added } hqueues
      have hsome : added ≠ [] := by
        rw [ne_eq, hadded, hqueues]
        exact Bool.noConfusion
      refine ⟨e', added ++ added', ?_, ?_, ?_, hlayer⟩
      · rw [List.length_cons, Nat.add_comm (matchedIds regex filter docs).length,
          ← Nat.add_assoc]
        exact heq
      · rw [hqueue, List.append_assoc]
      · rw [List.append_eq_nil_iff]
        exact iff_of_false (fun h => hsome h.1) (List.cons_ne_nil _ _)

/-! ## The documents that match -/

section

variable (env : StorageEnv C) (regex : RegexCrate) (now : DateTime) (filter : Filter)
  (layer : PersistentLayer) (collection : String)

/-- A document that matches is stored under the identifier. -/
def MatchesAt (name : String) (id : DocumentId) : Prop :=
  ∃ fields, layer.decoded env.json (makeDocumentKey name id) = some (.ok (id, fields)) ∧
    matchesFilter regex { id := id, fields := fields, metadata := .default now } filter = .ok true

def isForeignMatch (entry : Bytes × Bytes) : Bool :=
  match env.json.fromSlice entry.2 with
  | .error _ => false
  | .ok (id, fields) =>
    entry.1 ≠ makeDocumentKey collection id &&
      surelyMatches regex filter { id := id, fields := fields, metadata := .default now }

/-- How many of the documents that a scan of the collection goes through match but belong to another
collection. -/
def foreignMatches : Nat :=
  (layer.records collection).countP (isForeignMatch env regex now filter collection)

end

variable {layer : PersistentLayer}

theorem MatchesAt.stored {name : String} {id : DocumentId}
    (h : MatchesAt env regex now filter layer name id) :
    layer.decoded env.json (makeDocumentKey name id) ≠ none := by
  obtain ⟨fields, hstored, -⟩ := h
  rw [hstored]
  exact Option.some_ne_none _

section

variable {found : List (String × Document)}
  (hfound : List.Forall₂ (PersistentLayer.RecordOf env.json now) (layer.records collection) found)

include hfound

theorem matchesAt_iff_found {name : String} (id : DocumentId)
    (hname : collection = name ∨ (collection ++ ":").toList <+: name.toList) :
    MatchesAt env regex now filter layer name id ↔
      ∃ doc, (name, doc) ∈ found ∧ surelyMatches regex filter doc = true ∧ doc.id = id := by
  constructor
  · rintro ⟨fields, hstored, hmatch⟩
    exact ⟨⟨id, fields, .default now⟩,
      (PersistentLayer.mem_found_iff hfound).mpr ⟨hstored, rfl, hname⟩,
      QueryExecutor.surelyMatches_iff.mpr hmatch, rfl⟩
  · rintro ⟨doc, hmem, hmatch, rfl⟩
    obtain ⟨hstored, hmeta, -⟩ := (PersistentLayer.mem_found_iff hfound).mp hmem
    refine ⟨doc.fields, hstored, ?_⟩
    rw [← hmeta]
    exact QueryExecutor.surelyMatches_iff.mp hmatch

theorem mem_matchedIds_iff_found (id : DocumentId) :
    id ∈ matchedIds regex filter (found.map Prod.snd) ↔
      MatchesAt env regex now filter layer collection id ∨
        ∃ name, (collection ++ ":").toList <+: name.toList ∧
          MatchesAt env regex now filter layer name id := by
  simp only [matchedIds, List.mem_map, List.mem_filter]
  constructor
  · rintro ⟨doc, ⟨⟨⟨name, _⟩, hmem, rfl⟩, hmatch⟩, rfl⟩
    have hname := ((PersistentLayer.mem_found_iff hfound).mp hmem).2.2
    have hown := (matchesAt_iff_found hfound _ hname).mpr ⟨_, hmem, hmatch, rfl⟩
    rcases hname with rfl | hpre
    · exact .inl hown
    · exact .inr ⟨name, hpre, hown⟩
  · rintro (hown | ⟨name, hpre, hown⟩)
    · obtain ⟨doc, hmem, hmatch, rfl⟩ := (matchesAt_iff_found hfound id (.inl rfl)).mp hown
      exact ⟨doc, ⟨⟨_, hmem, rfl⟩, hmatch⟩, rfl⟩
    · obtain ⟨doc, hmem, hmatch, rfl⟩ := (matchesAt_iff_found hfound id (.inr hpre)).mp hown
      exact ⟨doc, ⟨⟨_, hmem, rfl⟩, hmatch⟩, rfl⟩

theorem foreignMatches_eq_countP :
    foreignMatches env regex now filter layer collection = found.countP fun own =>
      !decide (own.1 = collection) && surelyMatches regex filter own.2 := by
  refine countP_eq_of_forall₂ ?_ hfound
  rintro entry ⟨name, doc⟩ ⟨hkey, hfrom, hmeta⟩
  have hsame : (entry.1 = makeDocumentKey collection doc.id) ↔ name = collection := by
    rw [hkey]
    exact ⟨fun h => (PersistentLayer.makeDocumentKey_injective h).1, fun h => by rw [h]⟩
  rw [isForeignMatch, hfrom]
  dsimp only
  rw [← hmeta]
  simp only [ne_eq, hsame, decide_not]

end

variable (regex filter) in
theorem exists_own (hfiled : layer.Filed env.json) {docs : List Document}
    (hscan : layer.scanCollection env.json now collection = .ok docs) :
    ∃ own : List DocumentId, own.Nodup ∧
      (∀ id, id ∈ own ↔ MatchesAt env regex now filter layer collection id) ∧
      (∀ id, id ∈ matchedIds regex filter docs ↔
        MatchesAt env regex now filter layer collection id ∨
          ∃ name, (collection ++ ":").toList <+: name.toList ∧
            MatchesAt env regex now filter layer name id) ∧
      (matchedIds regex filter docs).length =
        own.length + foreignMatches env regex now filter layer collection := by
  obtain ⟨found, rfl, hfound⟩ := hfiled.exists_found hscan
  refine ⟨(found.filter fun own => own.1 = collection && surelyMatches regex filter own.2).map
    fun own => own.2.id, ?_, fun id => ?_, mem_matchedIds_iff_found hfound, ?_⟩
  · have hnodup := PersistentLayer.nodup_found hfound
    rw [List.Nodup, List.pairwise_map] at hnodup ⊢
    refine (hnodup.filter _).imp_of_mem ?_
    intro a b ha hb hne hsame
    rw [List.mem_filter, Bool.and_eq_true, decide_eq_true_iff] at ha hb
    exact hne (Prod.ext (ha.2.1.trans hb.2.1.symm) hsame)
  · rw [matchesAt_iff_found hfound id (.inl rfl), List.mem_map]
    constructor
    · rintro ⟨⟨name, doc⟩, hmem, rfl⟩
      rw [List.mem_filter, Bool.and_eq_true, decide_eq_true_iff] at hmem
      obtain ⟨hmem, rfl, hmatch⟩ := hmem
      exact ⟨doc, hmem, hmatch, rfl⟩
    · rintro ⟨doc, hmem, hmatch, rfl⟩
      refine ⟨(collection, doc), ?_, rfl⟩
      rw [List.mem_filter, Bool.and_eq_true, decide_eq_true_iff]
      exact ⟨hmem, rfl, hmatch⟩
  · rw [foreignMatches_eq_countP hfound, matchedIds, List.length_map, List.length_map,
      ← List.countP_eq_length_filter, ← List.countP_eq_length_filter, List.countP_map,
      List.countP_eq_countP_filter_add found _ fun own => decide (own.1 = collection),
      List.countP_filter, List.countP_filter]
    congr 1
    · simp only [Function.comp_def, Bool.and_comm]
    · simp only [Function.comp_def, Bool.and_comm]

end DocumentCommand

end VedDb
