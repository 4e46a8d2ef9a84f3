import VedDb.Protocol.FieldQueries
import VedDb.Protocol.MatchingWrites
import VedDb.Query.Execution

/-!
# Updates and deletions as a whole

Whether an update or a deletion did what it answers: all of it after a success, and nothing after an
error.  An error of the filter ends the loop with the documents before it already written.
-/

namespace VedDb

open LittleEndian (Bytes)
open PersistentLayer (makeDocumentKey WrittenUnder)

namespace DocumentCommand

variable {C : Type} {env : StorageEnv C} {regex : RegexCrate} {now : DateTime}
  {collection : String} {filter : Filter}

/-! ## What a command does as a whole -/

section

variable (env : StorageEnv C) (regex : RegexCrate) (now : DateTime)
  (engine : HybridStorageEngine C) (collection : String)

def AllOrNothing (value : Value) (Done : DocumentId → Reading → Prop)
    (answer : Except ConnectionError Nat × HybridStorageEngine C) : Prop :=
  answer.2.writeBehindQueue = engine.writeBehindQueue ∧
    match answer.1 with
    | .ok count =>
      ∃ (filter : Filter) (ids : List DocumentId), parsedFilter value = .ok filter ∧ ids.Nodup ∧
        (∀ id, id ∈ ids ↔
          MatchesAt env regex now filter engine.persistentLayer collection id) ∧
        count = ids.length ∧
        (∀ id ∈ ids,
          Done id (answer.2.persistentLayer.decoded env.json (makeDocumentKey collection id))) ∧
        ∀ key, (∀ id ∈ ids, key ≠ makeDocumentKey collection id) →
          answer.2.persistentLayer.decoded env.json key =
            engine.persistentLayer.decoded env.json key
    | .error _ =>
      ∀ key, answer.2.persistentLayer.decoded env.json key =
        engine.persistentLayer.decoded env.json key

/-- A condition on the documents of a scan if the filter is decided on all of them, and else one on
those before the first on which it is not. -/
def OnScan (value : Value) (all stopped : Filter → List Document → Prop) : Prop :=
  ∀ filter docs, parsedFilter value = .ok filter →
    engine.scanCollection env.json now collection = .ok docs →
    ((∀ doc ∈ docs, ∃ found, matchesFilter regex doc filter = .ok found) → all filter docs) ∧
    ∀ before doc after error, docs = before ++ doc :: after →
      (∀ own ∈ before, ∃ found, matchesFilter regex own filter = .ok found) →
      matchesFilter regex doc filter = .error error → stopped filter before

end

section

variable {engine : HybridStorageEngine C} {value : Value} {Done : DocumentId → Reading → Prop}
  {answer : Except ConnectionError Nat × HybridStorageEngine C}

theorem allOrNothing_of_unchanged (error : ConnectionError) :
    AllOrNothing env regex now engine collection value Done (.error error, engine) :=
  ⟨rfl, fun _ => rfl⟩

theorem allOrNothing_iff_onScan {all stopped : Filter → List Document → Prop}
    (hfilter : ∀ error, parsedFilter value = .error error → answer = (.error error, engine))
    (hscan : ∀ filter error, parsedFilter value = .ok filter →
      engine.scanCollection env.json now collection = .error error →
      answer = (.error (.protocolError error.message), engine))
    (hall : ∀ filter docs, parsedFilter value = .ok filter →
      engine.scanCollection env.json now collection = .ok docs →
      (∀ doc ∈ docs, ∃ found, matchesFilter regex doc filter = .ok found) →
      (AllOrNothing env regex now engine collection value Done answer ↔ all filter docs))
    (hstopped : ∀ filter before doc after error, parsedFilter value = .ok filter →
      engine.scanCollection env.json now collection = .ok (before ++ doc :: after) →
      (∀ own ∈ before, ∃ found, matchesFilter regex own filter = .ok found) →
      matchesFilter regex doc filter = .error error →
      (AllOrNothing env regex now engine collection value Done answer ↔ stopped filter before)) :
    AllOrNothing env regex now engine collection value Done answer ↔
      OnScan env regex now engine collection value all stopped := by
  constructor
  · intro h filter docs hparse hdocs
    refine ⟨fun hdecided => (hall filter docs hparse hdocs hdecided).mp h, ?_⟩
    rintro before doc after error rfl hbefore hdoc
    exact (hstopped filter before doc after error hparse hdocs hbefore hdoc).mp h
  · intro h
    cases hparse : parsedFilter value with
    | error error =>
      rw [hfilter error hparse]
      exact allOrNothing_of_unchanged error
    | ok filter =>
      cases hdocs : engine.scanCollection env.json now collection with
      | error error =>
        rw [hscan filter error hparse hdocs]
        exact allOrNothing_of_unchanged _
      | ok docs =>
        obtain ⟨hdecided, hsplit⟩ := h filter docs hparse hdocs
        rcases QueryExecutor.decided_or_error regex filter docs with
          hown | ⟨before, doc, after, error, rfl, hbefore, hdoc⟩
        · exact (hall filter docs hparse hdocs hown).mpr (hdecided hown)
        · exact (hstopped filter before doc after error hparse hdocs hbefore hdoc).mpr
            (hsplit before doc after error rfl hbefore hdoc)

variable {after : HybridStorageEngine C} {left : DocumentId → Reading} {docs : List Document}
  (hwritten : WrittenUnder env.json collection
    (if engine.queues collection then [] else matchedIds regex filter docs) left
    engine.persistentLayer after.persistentLayer)

include hwritten

theorem allOrNothing_ok_iff (hparse : parsedFilter value = .ok filter) {own : List DocumentId}
    (hnodup : own.Nodup)
    (hown : ∀ id, id ∈ own ↔ MatchesAt env regex now filter engine.persistentLayer collection id)
    (hids : ∀ id, id ∈ matchedIds regex filter docs ↔
      MatchesAt env regex now filter engine.persistentLayer collection id ∨
        ∃ name, (collection ++ ":").toList <+: name.toList ∧
          MatchesAt env regex now filter engine.persistentLayer name id) (count : Nat) :
    AllOrNothing env regex now engine collection value Done (.ok count, after) ↔
      after.writeBehindQueue = engine.writeBehindQueue ∧ count = own.length ∧
      (∀ id, MatchesAt env regex now filter engine.persistentLayer collection id →
        Done id (if engine.queues collection then
          engine.persistentLayer.decoded env.json (makeDocumentKey collection id) else left id)) ∧
      (engine.queues collection = false → ∀ name id,
        (collection ++ ":").toList <+: name.toList →
        MatchesAt env regex now filter engine.persistentLayer name id →
        ¬MatchesAt env regex now filter engine.persistentLayer collection id →
        engine.persistentLayer.decoded env.json (makeDocumentKey collection id) = left id) := by
  have hthere {id : DocumentId}
      (hid : MatchesAt env regex now filter engine.persistentLayer collection id) :
      after.persistentLayer.decoded env.json (makeDocumentKey collection id) =
        if engine.queues collection then
          engine.persistentLayer.decoded env.json (makeDocumentKey collection id) else left id := by
    cases hqueues : engine.queues collection with
    | true => exact hwritten.decoded_of_waiting hqueues _
    | false =>
      rw [hqueues] at hwritten
      exact hwritten.there id ((hids id).mpr (.inl hid))
  constructor
  · rintro ⟨hqueue, filter', ids, hparse', hnodup', hmem, hcount, hdone, helse⟩
    obtain rfl : filter = filter' := Except.ok.inj (hparse.symm.trans hparse')
    have hperm : ids.Perm own := (List.perm_ext_iff_of_nodup hnodup' hnodup).mpr fun id =>
      (hmem id).trans (hown id).symm
    refine ⟨hqueue, hcount.trans hperm.length_eq, fun id hid => ?_, ?_⟩
    · rw [← hthere hid]
      exact hdone id ((hmem id).mpr hid)
    · intro hqueues name id hpre hforeign hnot
      rw [hqueues] at hwritten
      have hkey : ∀ own ∈ ids, makeDocumentKey collection id ≠ makeDocumentKey collection own := by
        intro own hown hsame
        rw [(PersistentLayer.makeDocumentKey_injective hsame).2] at hnot
        exact hnot ((hmem own).mp hown)
      rw [← hwritten.there id ((hids id).mpr (.inr ⟨name, hpre, hforeign⟩))]
      exact (helse _ hkey).symm
  · rintro ⟨hqueue, hcount, hdone, hforeign⟩
    refine ⟨hqueue, filter, own, hparse, hnodup, hown, hcount, fun id hid => ?_,
      fun key hkey => ?_⟩
    · show Done id (after.persistentLayer.decoded env.json (makeDocumentKey collection id))
      rw [hthere ((hown id).mp hid)]
      exact hdone id ((hown id).mp hid)
    · cases hqueues : engine.queues collection with
      | true => exact hwritten.decoded_of_waiting hqueues key
      | false =>
        rw [hqueues] at hwritten
        by_cases hmatched : ∃ id ∈ matchedIds regex filter docs,
            key = makeDocumentKey collection id
        · obtain ⟨id, hid, rfl⟩ := hmatched
          have hnot : ¬MatchesAt env regex now filter engine.persistentLayer collection id :=
            fun hmatch => hkey id ((hown id).mpr hmatch) rfl
          obtain ⟨name, hpre, hother⟩ := ((hids id).mp hid).resolve_left hnot
          exact (hwritten.there id hid).trans (hforeign hqueues name id hpre hother hnot).symm
        · exact hwritten.elsewhere key fun id hid hsame => hmatched ⟨id, hid, hsame⟩

theorem allOrNothing_error_iff (error : ConnectionError) :
    AllOrNothing env regex now engine collection value Done (.error error, after) ↔
      after.writeBehindQueue = engine.writeBehindQueue ∧
      (engine.queues collection = false → ∀ id ∈ matchedIds regex filter docs,
        engine.persistentLayer.decoded env.json (makeDocumentKey collection id) = left id) := by
  constructor
  · rintro ⟨hqueue, hsame⟩
    refine ⟨hqueue, fun hqueues id hid => ?_⟩
    rw [hqueues] at hwritten
    rw [← hwritten.there id hid]
    exact (hsame _).symm
  · rintro ⟨hqueue, hsame⟩
    refine ⟨hqueue, fun key => ?_⟩
    cases hqueues : engine.queues collection with
    | true => exact hwritten.decoded_of_waiting hqueues key
    | false =>
      rw [hqueues] at hwritten
      by_cases hmatched : ∃ id ∈ matchedIds regex filter docs,
          key = makeDocumentKey collection id
      · obtain ⟨id, hid, rfl⟩ := hmatched
        exact (hwritten.there id hid).trans (hsame hqueues id hid).symm
      · exact hwritten.elsewhere key fun id hid hkey => hmatched ⟨id, hid, hkey⟩

end

/-! ## When it is all or nothing -/

section

variable (env : StorageEnv C) (regex : RegexCrate) (now : DateTime)
  (engine : HybridStorageEngine C)

/-- An update leaves a document with these fields. -/
def Replaced (update : Value) (id : DocumentId) (reading : Reading) : Prop :=
  ∃ members, update = .object members ∧ reading = some (.ok (id, .ofMembers members))

def Erased (_ : DocumentId) (reading : Reading) : Prop := reading = none

/-- An update by an object on a scan that the filter decides: the cache refuses as many of the new
documents as documents of other collections match; what is written in the place of the documents
that match is written at once and read back; and no other document is written over. -/
structure ReplacesMatching (collection : String) (members : List (String × Value))
    (filter : Filter) (docs : List Document) : Prop where
  counted : HybridStorageEngine.refusals env.cache collection engine.schemas[collection]?
      (newDocument now members) (matchedIds regex filter docs) engine.cacheLayer =
    foreignMatches env regex now filter engine.persistentLayer collection
  written : ∀ id, MatchesAt env regex now filter engine.persistentLayer collection id →
    engine.queues collection = false ∧ env.json.RoundTrips (newDocument now members id)
  others : engine.queues collection = false → ∀ name id,
    (collection ++ ":").toList <+: name.toList →
    MatchesAt env regex now filter engine.persistentLayer name id →
    ¬MatchesAt env regex now filter engine.persistentLayer collection id →
    engine.persistentLayer.decoded env.json (makeDocumentKey collection id) =
      env.json.writtenAs (newDocument now members id)

/-- An update by anything but an object writes nothing, so no document must match. -/
def UpdateExact (request : UpdateDocRequest) (filter : Filter) (docs : List Document) : Prop :=
  match request.update with
  | .object members =>
    ReplacesMatching env regex now engine request.collection members filter docs
  | _ => ∀ id, ¬MatchesAt env regex now filter engine.persistentLayer request.collection id

/-- What an update writes before it stops is already there. -/
def UpdateHarmless (request : UpdateDocRequest) (filter : Filter) (before : List Document) :
    Prop :=
  match request.update with
  | .object members =>
    if engine.queues request.collection then
      HybridStorageEngine.refusals env.cache request.collection
        engine.schemas[request.collection]? (newDocument now members)
        (matchedIds regex filter before) engine.cacheLayer =
          (matchedIds regex filter before).length
    else ∀ id ∈ matchedIds regex filter before,
      engine.persistentLayer.decoded env.json (makeDocumentKey request.collection id) =
        env.json.writtenAs (newDocument now members id)
  | _ => True

/-- A deletion on a scan that the filter decides: where a document of another collection matches,
none is stored in this collection under its identifier, or one that matches too. -/
def DeletionExact (request : DeleteDocRequest) (filter : Filter) : Prop :=
  if engine.queues request.collection then
    ∀ name id, request.collection = name ∨ (request.collection ++ ":").toList <+: name.toList →
      ¬MatchesAt env regex now filter engine.persistentLayer name id
  else ∀ name id, (request.collection ++ ":").toList <+: name.toList →
    MatchesAt env regex now filter engine.persistentLayer name id →
    ¬MatchesAt env regex now filter engine.persistentLayer request.collection id →
    engine.persistentLayer.decoded env.json (makeDocumentKey request.collection id) = none

/-- A deletion that stops has found nothing to delete. -/
def DeletionHarmless (request : DeleteDocRequest) (filter : Filter) (before : List Document) :
    Prop :=
  if engine.queues request.collection then matchedIds regex filter before = []
  else ∀ id ∈ matchedIds regex filter before,
    engine.persistentLayer.decoded env.json (makeDocumentKey request.collection id) = none

end

variable {engine : HybridStorageEngine C}

theorem replaced_object_iff {members : List (String × Value)} {id : DocumentId}
    {reading : Reading} :
    Replaced (.object members) id reading ↔ reading = some (.ok (id, .ofMembers members)) := by
  constructor
  · rintro ⟨members', hsame, hreading⟩
    rw [hreading, Value.object.inj hsame]
  · intro hreading
    exact ⟨members, rfl, hreading⟩

theorem allOrNothing_zero_iff {value : Value} {Done : DocumentId → Reading → Prop}
    (hparse : parsedFilter value = .ok filter) :
    AllOrNothing env regex now engine collection value Done (.ok 0, engine) ↔
      ∀ id, ¬MatchesAt env regex now filter engine.persistentLayer collection id := by
  constructor
  · rintro ⟨-, filter', ids, hparse', -, hmem, hcount, -, -⟩ id hmatch
    obtain rfl : filter = filter' := Except.ok.inj (hparse.symm.trans hparse')
    have hid := (hmem id).mpr hmatch
    rw [List.length_eq_zero_iff.mp hcount.symm] at hid
    cases hid
  · intro h
    exact ⟨rfl, filter, [], hparse, .nil, fun id => iff_of_false List.not_mem_nil (h id), rfl,
      List.forall_mem_nil _, fun _ _ => rfl⟩

theorem update_eq {request : UpdateDocRequest} {docs : List Document}
    (hparse : parsedFilter request.filter = .ok filter)
    (hscan : engine.scanCollection env.json now request.collection = .ok docs) :
    update env regex now engine request =
      updateMatching env regex now request.collection filter request.update docs 0 engine := by
  rw [update, hparse]
  dsimp only
  rw [scanned, hscan]

theorem delete_eq {request : DeleteDocRequest} {docs : List Document}
    (hparse : parsedFilter request.filter = .ok filter)
    (hscan : engine.scanCollection env.json now request.collection = .ok docs) :
    delete env regex now engine request =
      deleteMatching env regex now request.collection filter docs 0 engine := by
  rw [delete, hparse]
  dsimp only
  rw [scanned, hscan]

section

variable (hfiled : engine.persistentLayer.Filed env.json)

include hfiled

theorem update_all_iff (hwrites : env.json.Writes) {request : UpdateDocRequest}
    {docs : List Document} (hparse : parsedFilter request.filter = .ok filter)
    (hscan : engine.scanCollection env.json now request.collection = .ok docs)
    (hdecided : ∀ doc ∈ docs, ∃ found, matchesFilter regex doc filter = .ok found) :
    AllOrNothing env regex now engine request.collection request.filter (Replaced request.update)
        (update env regex now engine request) ↔
      UpdateExact env regex now engine request filter docs := by
  obtain ⟨own, hnodup, hown, hids, hlength⟩ := exists_own regex filter hfiled hscan
  rw [update_eq hparse hscan, UpdateExact]
  by_cases hobject : ∃ members, request.update = .object members
  · obtain ⟨members, hmembers⟩ := hobject
    obtain ⟨count, after, added, heq, hcount, hqueue, hadded, hwritten⟩ :=
      updateMatching_decided env now request.collection hwrites members hdecided [] 0 engine
    rw [List.append_nil] at heq
    rw [hmembers, heq, updateMatching, allOrNothing_ok_iff hwritten hparse hnodup hown hids,
      hqueue, List.append_right_eq_self, hadded]
    constructor
    · rintro ⟨hnone, hown', hdone, hothers⟩
      refine ⟨by omega, fun id hid => ?_, hothers⟩
      have hpositive : 0 < own.length := List.length_pos_of_mem ((hown id).mpr hid)
      have hqueues := hnone.resolve_right (by omega)
      have hreplaced := hdone id hid
      rw [hqueues, if_neg Bool.false_ne_true, replaced_object_iff] at hreplaced
      exact ⟨hqueues, DocumentJson.roundTrips_iff.mpr hreplaced⟩
    · rintro ⟨hcounted, hwritten, hothers⟩
      refine ⟨?_, by omega, fun id hid => ?_, hothers⟩
      · rcases own.eq_nil_or_concat with rfl | ⟨_, id, rfl⟩
        · rw [List.length_nil] at hlength
          exact .inr (by omega)
        · exact .inl (hwritten id ((hown id).mp (by simp))).1
      · obtain ⟨hqueues, hround⟩ := hwritten id hid
        rw [hqueues, if_neg Bool.false_ne_true, replaced_object_iff]
        exact DocumentJson.roundTrips_iff.mp hround
  · rw [not_exists] at hobject
    have heq := updateMatching_other env now request.collection hobject hdecided [] 0 engine
    rw [List.append_nil, updateMatching] at heq
    rw [heq, allOrNothing_zero_iff hparse]
    cases hupdate : request.update with
    | object members => exact absurd hupdate (hobject members)
    | _ => exact Iff.rfl

omit hfiled in
theorem update_stopped_iff (hwrites : env.json.Writes) {request : UpdateDocRequest}
    {before after : List Document} {doc : Document} {error : QueryExecutionError}
    (hparse : parsedFilter request.filter = .ok filter)
    (hscan : engine.scanCollection env.json now request.collection = .ok (before ++ doc :: after))
    (hbefore : ∀ own ∈ before, ∃ found, matchesFilter regex own filter = .ok found)
    (hdoc : matchesFilter regex doc filter = .error error) :
    AllOrNothing env regex now engine request.collection request.filter (Replaced request.update)
        (update env regex now engine request) ↔
      UpdateHarmless env regex now engine request filter before := by
  rw [update_eq hparse hscan, UpdateHarmless]
  by_cases hobject : ∃ members, request.update = .object members
  · obtain ⟨members, hmembers⟩ := hobject
    obtain ⟨count, last, added, heq, hcount, hqueue, hadded, hwritten⟩ :=
      updateMatching_decided env now request.collection hwrites members hbefore (doc :: after) 0
        engine
    rw [hmembers, heq, updateMatching, hdoc, allOrNothing_error_iff hwritten, hqueue,
      List.append_right_eq_self, hadded]
    dsimp only
    cases hqueues : engine.queues request.collection with
    | true =>
      rw [if_pos rfl]
      simp only [Bool.true_eq_false, false_or, false_implies, and_true]
      omega
    | false =>
      rw [if_neg Bool.false_ne_true]
      simp only [true_or, true_and, forall_const]
  · rw [not_exists] at hobject
    have heq := updateMatching_other env now request.collection hobject hbefore
      (doc :: after) 0 engine
    rw [updateMatching, hdoc] at heq
    rw [heq]
    refine iff_of_true (allOrNothing_of_unchanged _) ?_
    cases hupdate : request.update with
    | object members => exact absurd hupdate (hobject members)
    | _ => trivial

theorem update_allOrNothing_iff (hwrites : env.json.Writes) (request : UpdateDocRequest) :
    AllOrNothing env regex now engine request.collection request.filter (Replaced request.update)
        (update env regex now engine request) ↔
      OnScan env regex now engine request.collection request.filter
        (UpdateExact env regex now engine request)
        (UpdateHarmless env regex now engine request) := by
  apply allOrNothing_iff_onScan
  · intro error hparse
    rw [update, hparse]
  · intro filter error hparse hscan
    rw [update, hparse]
    dsimp only
    rw [scanned, hscan]
  · exact fun filter docs => update_all_iff hfiled hwrites
  · exact fun filter before doc after error => update_stopped_iff hwrites

theorem delete_all_iff {request : DeleteDocRequest} {docs : List Document}
    (hparse : parsedFilter request.filter = .ok filter)
    (hscan : engine.scanCollection env.json now request.collection = .ok docs)
    (hdecided : ∀ doc ∈ docs, ∃ found, matchesFilter regex doc filter = .ok found) :
    AllOrNothing env regex now engine request.collection request.filter Erased
        (delete env regex now engine request) ↔
      DeletionExact env regex now engine request filter := by
  obtain ⟨own, hnodup, hown, hids, hlength⟩ := exists_own regex filter hfiled hscan
  rw [delete_eq hparse hscan, DeletionExact]
  cases hqueues : engine.queues request.collection with
  | true =>
    obtain ⟨after, added, heq, hqueue, hadded, hlayer⟩ :=
      deleteMatching_queued env now hdecided [] 0 engine hqueues
    have hwritten : WrittenUnder env.json request.collection _ (fun _ => none) _ _ :=
      .of_waiting (matchedIds regex filter docs) hqueues hlayer
    rw [List.append_nil, Nat.zero_add] at heq
    rw [heq, deleteMatching, allOrNothing_ok_iff hwritten hparse hnodup hown hids, hqueues,
      if_pos rfl, hqueue, List.append_right_eq_self, hadded]
    constructor
    · rintro ⟨hnone, -, -, -⟩ name id hname hmatch
      have hid : id ∈ matchedIds regex filter docs := by
        rw [hids]
        rcases hname with rfl | hpre
        · exact .inl hmatch
        · exact .inr ⟨name, hpre, hmatch⟩
      rw [hnone] at hid
      cases hid
    · intro h
      have hnone : matchedIds regex filter docs = [] := by
        rw [List.eq_nil_iff_forall_not_mem]
        intro id hid
        rcases (hids id).mp hid with hmatch | ⟨name, hpre, hmatch⟩
        · exact h request.collection id (.inl rfl) hmatch
        · exact h name id (.inr hpre) hmatch
      refine ⟨hnone, ?_, fun id hmatch => absurd hmatch (h _ id (.inl rfl)), Bool.noConfusion⟩
      rw [hnone, List.length_nil] at hlength ⊢
      omega
  | false =>
    obtain ⟨gone, after, heq, hqueue, hgone, hmem, hlast⟩ :=
      deleteMatching_decided env now hdecided [] 0 engine hqueues
    rw [List.append_nil, Nat.zero_add] at heq
    rw [heq, deleteMatching,
      allOrNothing_ok_iff (hlast.of_not_waiting hqueues) hparse hnodup hown hids, hqueues,
      if_neg Bool.false_ne_true]
    constructor
    · rintro ⟨-, -, -, hothers⟩
      exact hothers rfl
    · intro hothers
      refine ⟨hqueue, ?_, fun _ _ => rfl, fun _ => hothers⟩
      refine List.Perm.length_eq ((List.perm_ext_iff_of_nodup hgone hnodup).mpr fun id => ?_)
      rw [hmem, hids, hown]
      constructor
      · rintro ⟨hmatch | ⟨name, hpre, hmatch⟩, hstored⟩
        · exact hmatch
        · by_contra hnot
          exact hstored (hothers name id hpre hmatch hnot)
      · intro hmatch
        exact ⟨.inl hmatch, hmatch.stored⟩

omit hfiled in
theorem delete_stopped_iff {request : DeleteDocRequest} {before after : List Document}
    {doc : Document} {error : QueryExecutionError}
    (hparse : parsedFilter request.filter = .ok filter)
    (hscan : engine.scanCollection env.json now request.collection = .ok (before ++ doc :: after))
    (hbefore : ∀ own ∈ before, ∃ found, matchesFilter regex own filter = .ok found)
    (hdoc : matchesFilter regex doc filter = .error error) :
    AllOrNothing env regex now engine request.collection request.filter Erased
        (delete env regex now engine request) ↔
      DeletionHarmless env regex engine request filter before := by
  rw [delete_eq hparse hscan, DeletionHarmless]
  cases hqueues : engine.queues request.collection with
  | true =>
    obtain ⟨last, added, heq, hqueue, hadded, hlayer⟩ :=
      deleteMatching_queued env now hbefore (doc :: after) 0 engine hqueues
    have hwritten : WrittenUnder env.json request.collection _ (fun _ => none) _ _ :=
      .of_waiting (matchedIds regex filter before) hqueues hlayer
    rw [heq, deleteMatching, hdoc, allOrNothing_error_iff hwritten, hqueue,
      List.append_right_eq_self, hadded, hqueues, if_pos rfl]
    exact and_iff_left Bool.noConfusion
  | false =>
    obtain ⟨gone, last, heq, hqueue, -, -, hlast⟩ :=
      deleteMatching_decided env now hbefore (doc :: after) 0 engine hqueues
    rw [heq, deleteMatching, hdoc, allOrNothing_error_iff (hlast.of_not_waiting hqueues),
      hqueues, if_neg Bool.false_ne_true]
    exact ⟨fun h => h.2 rfl, fun h => ⟨hqueue, fun _ => h⟩⟩

theorem delete_allOrNothing_iff (request : DeleteDocRequest) :
    AllOrNothing env regex now engine request.collection request.filter Erased
        (delete env regex now engine request) ↔
      OnScan env regex now engine request.collection request.filter
        (fun filter _ => DeletionExact env regex now engine request filter)
        (DeletionHarmless env regex engine request) := by
  apply allOrNothing_iff_onScan
  · intro error hparse
    rw [delete, hparse]
  · intro filter error hparse hscan
    rw [delete, hparse]
    dsimp only
    rw [scanned, hscan]
  · exact fun filter docs => delete_all_iff hfiled
  · exact fun filter before doc after error => delete_stopped_iff

end

/-! ## Two documents -/

def numbered : Document := oneField "n" (.int32 5)

def named : Document :=
  { id := ⟨1⟩, fields := Std.ExtTreeMap.empty.insert "n" (.string "five"), metadata := .default 0 }

def pairEnv : StorageEnv Unit :=
  { plainEnv with
    json := JsonText.documents [encodeDocument (JsonText.serde []) numbered.id numbered.fields,
      encodeDocument (JsonText.serde []) named.id named.fields] }

/-- A regular expression that does not compile. -/
def unclosed : RegexCrate := { compile := fun _ => .error "unclosed group" }

def pair : HybridStorageEngine Unit :=
  (insert pairEnv 0 (insert pairEnv 0 (.new () .empty)
    { collection := "c", document := numbered }).2 { collection := "c", document := named }).2

theorem pairEnv_writes : pairEnv.json.Writes := fun _ _ => ⟨_, rfl⟩

theorem pair_inserted : ∃ layer,
    PersistentLayer.empty.insertDocument pairEnv.json "c" numbered.id numbered = .ok layer ∧
      layer.insertDocument pairEnv.json "c" named.id named = .ok pair.persistentLayer :=
  ⟨_, rfl, rfl⟩

theorem pairEnv_roundTrips {doc : Document} (hdoc : doc = numbered ∨ doc = named) :
    pairEnv.json.RoundTrips doc := by
  rcases hdoc with rfl | rfl
  · exact ⟨_, rfl, rfl⟩
  · exact ⟨_, rfl, rfl⟩

theorem pair_filed : pair.persistentLayer.Filed pairEnv.json := by
  have hread {doc : Document} (hdoc : doc = numbered ∨ doc = named) (value : Bytes)
      (content : DocumentId × Fields) (hvalue : pairEnv.json.toVec doc.id doc.fields = .ok value)
      (hcontent : pairEnv.json.fromSlice value = .ok content) : content.1 = doc.id := by
    obtain ⟨value', hvalue', hcontent'⟩ := pairEnv_roundTrips hdoc
    rw [Except.ok.inj (hvalue.symm.trans hvalue'), hcontent', Except.ok.injEq] at hcontent
    rw [← hcontent]
  obtain ⟨layer, hfirst, hsecond⟩ := pair_inserted
  exact (PersistentLayer.filed_empty.insertDocument hfirst (hread (.inl rfl))).insertDocument
    hsecond (hread (.inr rfl))

-- No other collection holds a document.
theorem pair_stored {name : String} {id : DocumentId}
    (h : pair.persistentLayer.decoded pairEnv.json (makeDocumentKey name id) ≠ none) :
    name = "c" := by
  by_contra hname
  have hkey (own : DocumentId) : makeDocumentKey name id ≠ makeDocumentKey "c" own :=
    fun hkey => hname (PersistentLayer.makeDocumentKey_injective hkey).1
  obtain ⟨layer, hfirst, hsecond⟩ := pair_inserted
  rw [PersistentLayer.decoded_insertDocument_other hsecond _ (hkey _),
    PersistentLayer.decoded_insertDocument_other hfirst _ (hkey _)] at h
  apply h
  rw [PersistentLayer.decoded, PersistentLayer.empty, Std.ExtTreeMap.getElem?_empty]
  rfl

/-- The deletion of the documents whose `n` is five. -/
def deleteFive : DeleteDocRequest := { collection := "c", filter := .object [("n", .int32 5)] }

/-- An update and a deletion are all or nothing exactly when the scan lets them. -/
theorem matching_writes_allOrNothing_iff (hfiled : engine.persistentLayer.Filed env.json)
    (hwrites : env.json.Writes) :
    (∀ request : UpdateDocRequest,
      AllOrNothing env regex now engine request.collection request.filter (Replaced request.update)
          (update env regex now engine request) ↔
        OnScan env regex now engine request.collection request.filter
          (UpdateExact env regex now engine request)
          (UpdateHarmless env regex now engine request)) ∧
    ∀ request : DeleteDocRequest,
      AllOrNothing env regex now engine request.collection request.filter Erased
          (delete env regex now engine request) ↔
        OnScan env regex now engine request.collection request.filter
          (fun filter _ => DeletionExact env regex now engine request filter)
          (DeletionHarmless env regex engine request) :=
  ⟨update_allOrNothing_iff hfiled hwrites, delete_allOrNothing_iff hfiled⟩

/-- The only document whose `n` is five is deleted and counted. -/
theorem deleteFive_allOrNothing :
    pair.persistentLayer.Filed pairEnv.json ∧ pairEnv.json.Writes ∧
      AllOrNothing pairEnv unclosed 0 pair "c" deleteFive.filter Erased
        (delete pairEnv unclosed 0 pair deleteFive) := by
  refine ⟨pair_filed, pairEnv_writes,
    ((matching_writes_allOrNothing_iff pair_filed pairEnv_writes).2 deleteFive).mpr ?_⟩
  intro filter docs hparse hscan
  have hfilter : filter = .eq "n" (.int32 5) := by
    have hown : parsedFilter deleteFive.filter = .ok (.eq "n" (.int32 5)) := rfl
    exact Except.ok.inj (hparse.symm.trans hown)
  have hdocs : docs = [numbered, named] := by
    have hown : pair.scanCollection pairEnv.json 0 "c" = .ok [numbered, named] := rfl
    exact Except.ok.inj (hscan.symm.trans hown)
  subst hfilter hdocs
  refine ⟨fun _ => ?_, fun before doc after error hsplit _ hdoc => ?_⟩
  · have hqueues : pair.queues deleteFive.collection = false := rfl
    show DeletionExact pairEnv unclosed 0 pair deleteFive (.eq "n" (.int32 5))
    rw [DeletionExact, hqueues, if_neg Bool.false_ne_true]
    intro name id hpre hmatch
    rw [pair_stored hmatch.stored] at hpre
    exact absurd hpre (not_prefix_append_colon "c")
  · have hmem : doc ∈ [numbered, named] := by
      rw [hsplit]
      simp
    rw [List.mem_pair] at hmem
    rcases hmem with rfl | rfl
    · cases hdoc
    · cases hdoc

/-- The deletion of the documents whose `n` is five or a text with a pattern in it that does not
compile. -/
def deleteFiveOrPattern : DeleteDocRequest :=
  { collection := "c"
    filter := .object [("$or", .array [.object [("n", .int32 5)],
      .object [("n", .object [("$regex", .string "(")])]])] }

/-- The deletion fails at the second document, and the first is gone. -/
theorem not_allOrNothing :
    (delete pairEnv unclosed 0 pair deleteFiveOrPattern).1 =
        .error (.protocolError "Filter matching error: Invalid regex pattern: unclosed group") ∧
      pair.scanCollection pairEnv.json 0 "c" = .ok [numbered, named] ∧
      (delete pairEnv unclosed 0 pair deleteFiveOrPattern).2.scanCollection pairEnv.json 0 "c" =
        .ok [named] ∧
      ¬AllOrNothing pairEnv unclosed 0 pair "c" deleteFiveOrPattern.filter Erased
        (delete pairEnv unclosed 0 pair deleteFiveOrPattern) := by
  have hbefore : pair.scanCollection pairEnv.json 0 "c" = .ok [numbered, named] := rfl
  have hafter : (delete pairEnv unclosed 0 pair deleteFiveOrPattern).2.scanCollection pairEnv.json 0
      "c" = .ok [named] := rfl
  refine ⟨rfl, hbefore, hafter, ?_⟩
  rintro ⟨-, hsame⟩
  have hscan : (delete pairEnv unclosed 0 pair deleteFiveOrPattern).2.scanCollection pairEnv.json 0
      "c" = pair.scanCollection pairEnv.json 0 "c" := scanCollection_congr hsame "c"
  rw [hbefore, hafter, Except.ok.injEq] at hscan
  cases hscan

end DocumentCommand

end VedDb
