import VedDb.Storage.Poison
import VedDb.Storage.Refinement

/-!
# The documents of a scan

In a store whose keys are those of the documents under them, a scan goes through documents of the
collection and of those whose names go on behind its colon.
-/

namespace VedDb

open LittleEndian (Bytes)
open PersistentLayer (makeDocumentKey)

/-!
## Writes under several identifiers

What a layer reads as after documents of one collection were written or deleted one after the other.
-/

/-- What is stored under a key, decoded. -/
abbrev Reading := Option (Except String (DocumentId × Fields))

namespace DocumentJson

variable (json : DocumentJson)

/-- Every document has a JSON. -/
def Writes : Prop := ∀ id fields, ∃ value, json.toVec id fields = .ok value

def writtenAs (doc : Document) : Reading :=
  (json.toVec doc.id doc.fields).toOption.map json.fromSlice

theorem roundTrips_iff {json : DocumentJson} {doc : Document} :
    json.RoundTrips doc ↔ json.writtenAs doc = some (.ok doc.content) := by
  rw [RoundTrips, writtenAs]
  cases json.toVec doc.id doc.fields with
  | error e => simp [Except.toOption]
  | ok value => simp [Except.toOption, Document.content]

end DocumentJson

namespace PersistentLayer

variable {json : DocumentJson} {collection : String} {left : DocumentId → Reading}

theorem exists_insertDocument (hwrites : json.Writes) (layer : PersistentLayer)
    (collection : String) (id : DocumentId) (doc : Document) :
    ∃ layer', layer.insertDocument json collection id doc = .ok layer' ∧ ∀ key,
      layer'.decoded json key = if makeDocumentKey collection id = key then json.writtenAs doc
        else layer.decoded json key := by
  obtain ⟨value, hvalue⟩ := hwrites doc.id doc.fields
  have hinsert : layer.insertDocument json collection id doc = .ok { layer with
      documents := layer.documents.insert (makeDocumentKey collection id) value } := by
    simp only [insertDocument, hvalue]
  refine ⟨_, hinsert, fun key => ?_⟩
  rw [decoded_insert, DocumentJson.writtenAs, hvalue]
  rfl

/-- The second layer was written under these identifiers, and elsewhere reads as the first. -/
structure WrittenUnder (json : DocumentJson) (collection : String) (ids : List DocumentId)
    (left : DocumentId → Reading) (before after : PersistentLayer) : Prop where
  there : ∀ id ∈ ids, after.decoded json (makeDocumentKey collection id) = left id
  elsewhere : ∀ key, (∀ id ∈ ids, key ≠ makeDocumentKey collection id) →
    after.decoded json key = before.decoded json key

theorem WrittenUnder.refl (layer : PersistentLayer) :
    WrittenUnder json collection [] left layer layer where
  there id hid := by cases hid
  elsewhere _ _ := rfl

theorem WrittenUnder.of_not_waiting {before after : PersistentLayer} {ids : List DocumentId}
    {waits : Bool} (hwaits : waits = false)
    (h : WrittenUnder json collection ids left before after) :
    WrittenUnder json collection (if waits then [] else ids) left before after := by
  rw [hwaits]
  exact h

theorem WrittenUnder.of_waiting {before after : PersistentLayer} (ids : List DocumentId)
    {waits : Bool} (hwaits : waits = true) (h : after = before) :
    WrittenUnder json collection (if waits then [] else ids) left before after := by
  rw [hwaits, h]
  exact .refl _

-- Nothing is written where the writes wait.
theorem WrittenUnder.decoded_of_waiting {before after : PersistentLayer} {ids : List DocumentId}
    {waits : Bool} (hwaits : waits = true)
    (h : WrittenUnder json collection (if waits then [] else ids) left before after) (key : Bytes) :
    after.decoded json key = before.decoded json key := by
  rw [hwaits] at h
  exact h.elsewhere key (List.forall_mem_nil _)

theorem WrittenUnder.cons {before between after : PersistentLayer} {id : DocumentId}
    {ids : List DocumentId}
    (hstep : ∀ key, between.decoded json key =
      if makeDocumentKey collection id = key then left id else before.decoded json key)
    (h : WrittenUnder json collection ids left between after) :
    WrittenUnder json collection (id :: ids) left before after where
  there id' hid' := by
    by_cases hmem : id' ∈ ids
    · exact h.there id' hmem
    · have hid : id' = id := (List.mem_cons.mp hid').resolve_right hmem
      have hother : ∀ own ∈ ids,
          makeDocumentKey collection id' ≠ makeDocumentKey collection own := by
        intro own hown hkey
        rw [(makeDocumentKey_injective hkey).2] at hmem
        exact hmem hown
      rw [h.elsewhere _ hother, hstep, hid, if_pos rfl]
  elsewhere key hkey := by
    rw [List.forall_mem_cons] at hkey
    rw [h.elsewhere key hkey.2, hstep, if_neg (Ne.symm hkey.1)]

theorem WrittenUnder.cons_unless {before between after : PersistentLayer} {id : DocumentId}
    {ids : List DocumentId} {waits : Bool}
    (hstep : ∀ key, between.decoded json key =
      if makeDocumentKey collection id = key then left id else before.decoded json key)
    (h : WrittenUnder json collection (if waits then [] else ids) left
      (if waits then before else between) after) :
    WrittenUnder json collection (if waits then [] else id :: ids) left before after := by
  cases waits with
  | true => exact h
  | false => exact .cons hstep h

end PersistentLayer

/-! ## What is found -/

namespace PersistentLayer

/-- Every key is that of a document, and what can be read under it is this document. -/
structure Filed (json : DocumentJson) (layer : PersistentLayer) : Prop where
  keyed : layer.Keyed
  own : ∀ collection id content,
    layer.decoded json (makeDocumentKey collection id) = some (.ok content) → content.1 = id

variable {json : DocumentJson} {now : DateTime} {layer : PersistentLayer} {collection : String}

theorem filed_empty : PersistentLayer.empty.Filed json where
  keyed := keyed_empty
  own collection id content h := by
    have hnone : PersistentLayer.empty.documents[makeDocumentKey collection id]? = none :=
      Std.ExtTreeMap.getElem?_empty
    rw [decoded, hnone] at h
    cases h

theorem Filed.insertDocument (h : layer.Filed json) {layer' : PersistentLayer} {id : DocumentId}
    {doc : Document} (hinsert : layer.insertDocument json collection id doc = .ok layer')
    (hread : ∀ value content, json.toVec doc.id doc.fields = .ok value →
      json.fromSlice value = .ok content → content.1 = id) : layer'.Filed json where
  keyed := h.keyed.insertDocument hinsert
  own name id' content hcontent := by
    obtain ⟨value, hvalue, hlayer⟩ := decoded_insertDocument hinsert
    rw [hlayer] at hcontent
    split at hcontent
    · next hkey =>
        rw [← (makeDocumentKey_injective hkey).2]
        exact hread value content hvalue (Option.some.inj hcontent)
    · exact h.own name id' content hcontent

/-- The record of a document, under the name of its collection. -/
def RecordOf (json : DocumentJson) (now : DateTime) (entry : Bytes × Bytes)
    (found : String × Document) : Prop :=
  entry.1 = makeDocumentKey found.1 found.2.id ∧ Decodes json now entry found.2

theorem Filed.exists_found (h : layer.Filed json) {docs : List Document}
    (hscan : layer.scanCollection json now collection = .ok docs) :
    ∃ found : List (String × Document), found.map Prod.snd = docs ∧
      List.Forall₂ (RecordOf json now) (layer.records collection) found := by
  have hdocs : List.Forall₂ (Decodes json now) (layer.records collection) docs :=
    decodeDocuments_eq_ok_iff.mp hscan
  have hread : ∀ entry ∈ layer.records collection, ∃ found, RecordOf json now entry found := by
    intro entry hentry
    obtain ⟨doc, -, hfrom, hmeta⟩ := exists_of_forall₂_left hdocs hentry
    have hstored := (mem_entries.mp hentry).1
    obtain ⟨name, id, hkey⟩ := h.keyed entry.1 entry.2 hstored
    have hdecoded : layer.decoded json (makeDocumentKey name id) =
        some (.ok (doc.id, doc.fields)) := by
      rw [← hkey, decoded, hstored, Option.map_some, hfrom]
    have hid : doc.id = id := h.own name id _ hdecoded
    exact ⟨(name, doc), by rw [hid]; exact hkey, hfrom, hmeta⟩
  obtain ⟨found, hfound⟩ := exists_forall₂ hread
  refine ⟨found, ?_, hfound⟩
  have hdecodes : List.Forall₂ (Decodes json now) (layer.records collection)
      (found.map Prod.snd) := by
    rw [List.forall₂_map_right_iff]
    exact hfound.imp fun _ _ hown => hown.2
  exact Except.ok.inj ((decodeDocuments_eq_ok_iff.mpr hdecodes).symm.trans
    (decodeDocuments_eq_ok_iff.mpr hdocs))

section

variable {found : List (String × Document)}
  (hfound : List.Forall₂ (RecordOf json now) (layer.records collection) found)

include hfound

theorem mem_found_iff {name : String} {doc : Document} :
    (name, doc) ∈ found ↔
      layer.decoded json (makeDocumentKey name doc.id) = some (.ok doc.content) ∧
        doc.metadata = .default now ∧
        (collection = name ∨ (collection ++ ":").toList <+: name.toList) := by
  constructor
  · intro hmem
    obtain ⟨entry, hentry, hkey, hfrom, hmeta⟩ := exists_of_forall₂_right hfound hmem
    obtain ⟨hstored, hpre⟩ := mem_entries.mp hentry
    dsimp only at hkey hfrom hmeta
    rw [hkey] at hstored hpre
    refine ⟨?_, hmeta, isPrefixOf_makeDocumentKey_iff.mp hpre⟩
    rw [decoded, hstored, Option.map_some, hfrom]
    rfl
  · rintro ⟨hdecoded, hmeta, hpre⟩
    rw [decoded, Option.map_eq_some_iff] at hdecoded
    obtain ⟨value, hstored, hfrom⟩ := hdecoded
    obtain ⟨⟨name', doc'⟩, hmem, hkey, hfrom', hmeta'⟩ := exists_of_forall₂_left hfound
      (mem_entries.mpr ⟨hstored, isPrefixOf_makeDocumentKey_iff.mpr hpre⟩)
    dsimp only at hkey hfrom' hmeta'
    rw [hfrom, Except.ok.injEq, Document.content, Prod.mk.injEq] at hfrom'
    have hsame : doc' = doc := by
      cases doc
      cases doc'
      simp only at hfrom' hmeta hmeta'
      rw [hfrom'.1, hfrom'.2, hmeta, hmeta']
    rw [hsame] at hkey hmem
    rw [(makeDocumentKey_injective hkey).1]
    exact hmem

theorem nodup_found : (found.map fun own => (own.1, own.2.id)).Nodup := by
  have hkeys : (layer.records collection).map Prod.fst =
      found.map fun own => makeDocumentKey own.1 own.2.id := by
    apply map_eq_map_of_forall₂
    exact hfound.imp fun _ _ hown => hown.1
  have hnodup : ((layer.records collection).map Prod.fst).Nodup := by
    rw [records]
    refine List.Nodup.sublist (List.Sublist.map _ List.filter_sublist) ?_
    rw [Std.ExtTreeMap.map_fst_toList_eq_keys]
    exact Std.ExtTreeMap.nodup_keys
  rw [hkeys] at hnodup
  have hcomp : (found.map fun own => (own.1, own.2.id)).map
      (fun key => makeDocumentKey key.1 key.2) =
        found.map fun own => makeDocumentKey own.1 own.2.id := by
    simp only [List.map_map, Function.comp_def]
  rw [← hcomp] at hnodup
  exact hnodup.of_map _

end

end PersistentLayer

end VedDb
