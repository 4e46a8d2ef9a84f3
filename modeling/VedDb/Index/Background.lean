import VedDb.Index.Calls

/-!
# Builds in the background

A build works through a list of documents while the manager goes on serving calls.  The list is of
the documents present when the build starts; a document may have been changed or removed by the
time the build comes to it.  How the list is cut into batches makes no difference to the order of
these events.
-/

namespace VedDb

/-! ## Builds and calls in any order -/

/-- How far the build of the index is. -/
inductive BuildStatus where
  | idle
  | running (remaining : List Document)
  | finished (result : Except IndexError Unit)

structure BuildRun where
  manager : IndexManager
  status : BuildStatus
  documents : CurrentDocuments

inductive BuildStep where
  /-- `build_index`, or `rebuild_index`, is called. -/
  | start (rebuild : Bool) (list : List Document)
  /-- The build inserts its next document, or returns. -/
  | advance
  | insert (docId : DocumentId) (document : Document)
  | update (docId : DocumentId) (oldDocument newDocument : Document)
  | remove (docId : DocumentId) (document : Document)
  | optimize

namespace IndexManager

theorem getIndex_setIndex {manager : IndexManager} {indexName : String} {index : BTreeIndex}
    (h : manager.getIndex indexName = some index) (index' : BTreeIndex) :
    (manager.setIndex indexName index').getIndex indexName = some index' := by
  have hlookup (entries : List NamedIndex) (hentries : entries.lookup indexName = some index) :
      (replaceIndex indexName index' entries).lookup indexName = some index' := by
    induction entries with
    | nil => cases hentries
    | cons entry entries ih =>
      rw [replaceIndex, List.map_cons, ← replaceIndex, List.lookup_cons]
      rw [List.lookup_cons] at hentries
      by_cases hname : entry.1 = indexName
      · simp [hname]
      · have hne : (indexName == entry.1) = false := by simpa using Ne.symm hname
        rw [if_neg hname]
        simp only [hne] at hentries ⊢
        exact ih hentries
  exact hlookup manager.indexes h

theorem getIndex_optimizeIndexes (manager : IndexManager) (indexName : String) :
    manager.optimizeIndexes.getIndex indexName =
      (manager.getIndex indexName).map BTreeIndex.clear := by
  have hlookup (entries : List NamedIndex) :
      (entries.map fun entry => (entry.1, entry.2.clear)).lookup indexName =
        (entries.lookup indexName).map BTreeIndex.clear := by
    induction entries with
    | nil => rfl
    | cons entry entries ih =>
      rw [List.map_cons, List.lookup_cons, List.lookup_cons]
      cases indexName == entry.1 with
      | true => rfl
      | false => exact ih
  exact hlookup manager.indexes

end IndexManager

namespace BuildRun

/-- One event; `indexName` names the index that is built. -/
def step (indexName : String) (run : BuildRun) : BuildStep → BuildRun
  | .start rebuild list =>
    match run.manager.getIndex indexName with
    | none => run
    | some index =>
      { run with
        manager :=
          if rebuild then run.manager.setIndex indexName index.clear else run.manager
        status := .running list }
  | .advance =>
    match run.status, run.manager.getIndex indexName with
    | .running [], _ => { run with status := .finished (.ok ()) }
    | .running (document :: remaining), some index =>
      match index.insert document.id (createIndexEntry document index.fields) with
      | .error e => { run with status := .finished (.error e) }
      | .ok index =>
        { run with
          manager := run.manager.setIndex indexName index
          status := .running remaining }
    | _, _ => run
  | .insert docId document =>
    let (result, manager) := run.manager.insertDocument docId document
    { run with
      manager := manager
      documents :=
        match result with
        | .ok () => run.documents.insert docId document
        | .error _ => run.documents }
  | .update docId oldDocument newDocument =>
    let (result, manager) := run.manager.updateDocument docId oldDocument newDocument
    { run with
      manager := manager
      documents :=
        match result with
        | .ok () => run.documents.insert docId newDocument
        | .error _ => run.documents }
  | .remove docId document =>
    let (result, manager) := run.manager.removeDocument docId document
    { run with
      manager := manager
      documents :=
        match result with
        | .ok () => run.documents.remove docId
        | .error _ => run.documents }
  | .optimize => { run with manager := run.manager.optimizeIndexes }

variable (indexName : String) (run : BuildRun)

/-- The caller's part: one build at a time, over the documents present when it starts; a document
is inserted under a new identifier, and updated or removed with its current version. -/
def Proper : BuildStep → Prop
  | .start _ list =>
    (∀ remaining, run.status ≠ .running remaining) ∧ run.documents.Enumerates list
  | .advance => True
  | .insert docId _ => run.documents docId = none
  | .update docId oldDocument _ => run.documents docId = some oldDocument.fields
  | .remove docId document => run.documents docId = some document.fields
  | .optimize => True

/-- The document the build inserts next has no key in the index, or its current version still has
the key of the listed one and is not in the index yet, unless that is unique. -/
def Current (index : BTreeIndex) (document : Document) : Prop :=
  index.keyOf document.fields = none ∨
    (run.documents document.id).bind index.keyOf = index.keyOf document.fields ∧
      (index.unique = true ∨ ¬index.ListsDocument document.id)

def Harmless : BuildStep → Prop
  | .start _ list =>
    ∀ entry ∈ run.manager.indexes, ∀ document ∈ list, NumberKey entry.2.fields document
  | .advance =>
    ∀ document remaining index, run.status = .running (document :: remaining) →
      run.manager.getIndex indexName = some index → run.Current index document
  | .insert _ document => ∀ entry ∈ run.manager.indexes, NumberKey entry.2.fields document
  | .update docId oldDocument newDocument =>
    (run.manager.CanUpdate docId oldDocument newDocument ∨
      ∀ index, run.manager.getIndex indexName = some index → ¬index.ListsDocument docId) ∧
    ∀ entry ∈ run.manager.indexes, NumberKey entry.2.fields newDocument
  | .remove docId document =>
    run.manager.CanRemove document ∨
      ∀ index, run.manager.getIndex indexName = some index → ¬index.ListsDocument docId
  | .optimize => ∀ entry ∈ run.manager.indexes, entry.2.isEmpty = true

/-- What is asked of a step: once the build has returned `Ok` the index lists exactly the current
documents, and an optimization changes the result of no lookup. -/
def Sound (buildStep : BuildStep) : Prop :=
  let after := run.step indexName buildStep
  (after.status = .finished (.ok ()) →
    ∃ index, after.manager.getIndex indexName = some index ∧ index.Exact after.documents) ∧
  (buildStep = .optimize → ∀ name,
    (∀ key, after.manager.findWithIndex name key = run.manager.findWithIndex name key) ∧
    ∀ start stop includeStart includeEnd,
      after.manager.findRangeWithIndex name start stop includeStart includeEnd =
        run.manager.findRangeWithIndex name start stop includeStart includeEnd)

/-! ### The invariant -/

/-- Which current documents the index may still lack. -/
def Lacks (status : BuildStatus) (documents : CurrentDocuments) (docId : DocumentId) : Prop :=
  match status with
  | .idle => True
  | .running remaining =>
    ∃ document ∈ remaining, document.id = docId ∧ documents docId = some document.fields
  | .finished (.ok ()) => False
  | .finished (.error _) => True

structure Inv (index : BTreeIndex) (listed : CurrentDocuments) : Prop where
  found : run.manager.getIndex indexName = some index
  exact : index.Exact listed
  le : ∀ docId fields, listed docId = some fields → run.documents docId = some fields
  lacks : ∀ docId, listed docId = none → run.documents docId = none ∨
    Lacks run.status run.documents docId

namespace Inv

variable {indexName run} {index : BTreeIndex} {listed : CurrentDocuments} {docId : DocumentId}
  {document : Document} (h : run.Inv indexName index listed)

include h

theorem of_none (hnone : run.documents docId = none) : listed docId = none := by
  cases hlisted : listed docId with
  | none => rfl
  | some fields =>
    rw [h.le docId fields hlisted] at hnone
    cases hnone

-- The key a document is listed under is that of its current version.
theorem key_eq (hcurrent : run.documents docId = some document.fields) {key : IndexKey}
    (hkey : (listed docId).bind index.keyOf = some key) :
    index.keyOf document.fields = some key := by
  cases hlisted : listed docId with
  | none =>
    rw [hlisted] at hkey
    cases hkey
  | some fields =>
    have hsame := (h.le docId fields hlisted).symm.trans hcurrent
    rw [hlisted, Option.some.inj hsame] at hkey
    exact hkey

-- When a document changes in the collection and in the index, the others are as before.
theorem update_documents {index' : BTreeIndex} {manager : IndexManager} (value : Option Fields)
    (hfound : manager.getIndex indexName = some index')
    (hexact : index'.Exact (Function.update listed docId value)) :
    BuildRun.Inv indexName
      { run with manager := manager, documents := Function.update run.documents docId value } index'
      (Function.update listed docId value) := by
  refine ⟨hfound, hexact, ?_, ?_⟩
  · intro other fields hother
    show Function.update run.documents docId value other = some fields
    by_cases hid : other = docId
    · rw [hid, Function.update_self] at hother ⊢
      exact hother
    · rw [Function.update_of_ne hid] at hother ⊢
      exact h.le other fields hother
  · intro other hother
    show Function.update run.documents docId value other = none ∨
      Lacks run.status (Function.update run.documents docId value) other
    by_cases hid : other = docId
    · rw [hid, Function.update_self] at hother ⊢
      exact .inl hother
    · have hsame := Function.update_of_ne hid value run.documents
      unfold Lacks
      rw [hsame]
      rw [Function.update_of_ne hid] at hother
      exact h.lacks other hother

theorem start {rebuild : Bool} {list : List Document} (hlist : run.documents.Enumerates list) :
    ∃ index' listed', (run.step indexName (.start rebuild list)).Inv indexName index' listed' := by
  have hlacks (other : DocumentId) : run.documents other = none ∨
      Lacks (.running list) run.documents other := by
    by_cases hnone : run.documents other = none
    · exact .inl hnone
    · obtain ⟨document, hdocument, rfl⟩ := List.mem_map.mp (hlist.all other hnone)
      exact .inr ⟨document, hdocument, rfl, hlist.current document hdocument⟩
  simp only [step, h.found]
  cases rebuild with
  | false => exact ⟨index, listed, h.found, h.exact, h.le, fun other _ => hlacks other⟩
  | true =>
    refine ⟨index.clear, fun _ => none, IndexManager.getIndex_setIndex h.found _, ?_, nofun,
      fun other _ => hlacks other⟩
    exact .new index.name index.fields index.unique index.sparse

-- A document the index lacks is gone, is the next one of the build, or is still to come.
theorem lacks_next {remaining : List Document}
    (hstatus : run.status = .running (document :: remaining)) (hnone : listed docId = none) :
    run.documents docId = none ∨
      (docId = document.id ∧ run.documents docId = some document.fields) ∨
      Lacks (.running remaining) run.documents docId := by
  have hown := h.lacks docId hnone
  rw [hstatus] at hown
  obtain hgone | ⟨own, hmem, hid, hfields⟩ := hown
  · exact .inl hgone
  · cases hmem with
    | head => exact .inr (.inl ⟨hid.symm, hfields⟩)
    | tail _ hmem => exact .inr (.inr ⟨own, hmem, hid, hfields⟩)

theorem advance_listed {remaining : List Document} {index' : BTreeIndex} {fields : Fields}
    (hstatus : run.status = .running (document :: remaining))
    (hversion : run.documents document.id = some fields)
    (hexact : index'.Exact (Function.update listed document.id (some fields))) :
    BuildRun.Inv indexName
      { run with
        manager := run.manager.setIndex indexName index'
        status := .running remaining } index'
      (Function.update listed document.id (some fields)) := by
  refine ⟨IndexManager.getIndex_setIndex h.found index', hexact, ?_, ?_⟩
  · intro other own hother
    by_cases hid : other = document.id
    · rw [hid, Function.update_self] at hother
      rw [hid, ← hother]
      exact hversion
    · rw [Function.update_of_ne hid] at hother
      exact h.le other own hother
  · intro other hother
    by_cases hid : other = document.id
    · rw [hid, Function.update_self] at hother
      cases hother
    · rw [Function.update_of_ne hid] at hother
      obtain hgone | ⟨heq, -⟩ | hrest := h.lacks_next hstatus hother
      · exact .inl hgone
      · exact absurd heq hid
      · exact .inr hrest

-- A document without a key leaves the index as it is.
theorem advance_keyless {remaining : List Document}
    (hstatus : run.status = .running (document :: remaining))
    (hnokey : index.keyOf document.fields = none) :
    ∃ listed', BuildRun.Inv indexName
      { run with
        manager := run.manager.setIndex indexName index
        status := .running remaining } index listed' := by
  by_cases hown : listed document.id = none ∧ run.documents document.id = some document.fields
  · refine ⟨_, h.advance_listed hstatus hown.2 (h.exact.congr fun id => ?_)⟩
    by_cases hid : id = document.id
    · rw [hid, Function.update_self, hown.1, Option.bind_some, hnokey]
      rfl
    · rw [Function.update_of_ne hid]
  · refine ⟨listed, IndexManager.getIndex_setIndex h.found index, h.exact, h.le, ?_⟩
    intro other hother
    obtain hgone | ⟨rfl, hfields⟩ | hrest := h.lacks_next hstatus hother
    · exact .inl hgone
    · exact absurd ⟨hother, hfields⟩ hown
    · exact .inr hrest

-- The next document has the key of its current version.
theorem insert_current {index' : BTreeIndex} {fields : Fields}
    (hversion : run.documents document.id = some fields)
    (hkey : index.keyOf fields = index.keyOf document.fields)
    (hsome : index.keyOf document.fields ≠ none)
    (hallowed : index.unique = true ∨ ¬index.ListsDocument document.id)
    (hinsert : index.insert document.id (createIndexEntry document index.fields) = .ok index') :
    index'.Exact (Function.update listed document.id (some fields)) := by
  have hkind := (BTreeIndex.insert_cases hinsert).1
  cases hlisted : listed document.id with
  | none =>
    have hinserted := h.exact.insert (by rw [hlisted]; rfl) hinsert
    refine hinserted.congr fun id => ?_
    by_cases hid : id = document.id
    · rw [hid, Function.update_self, Function.update_self, Option.bind_some,
        Option.bind_some, hkind.keyOf, hkind.keyOf, hkey]
    · rw [Function.update_of_ne hid, Function.update_of_ne hid]
  | some own =>
    have hsame := Option.some.inj ((h.le _ _ hlisted).symm.trans hversion)
    have hbind : (listed document.id).bind index.keyOf = index.keyOf document.fields := by
      rw [hlisted, hsame]
      exact hkey
    -- listed already, so the index is unique and takes the entry again
    have hunique : index.unique = true := by
      apply hallowed.resolve_right
      intro hnot
      rw [h.exact.bind_eq_none fun key hmem => hnot ⟨key, hmem⟩] at hbind
      exact hsome hbind.symm
    rw [← hsame, ← hlisted, Function.update_eq_self]
    exact h.exact.insert_again hunique hbind hinsert

-- The next document is inserted as its current version, or makes no difference.
theorem advance_insert {remaining : List Document} {index' : BTreeIndex}
    (hstatus : run.status = .running (document :: remaining))
    (hcurrent : run.Current index document)
    (hinsert : index.insert document.id (createIndexEntry document index.fields) = .ok index') :
    ∃ listed', BuildRun.Inv indexName
      { run with
        manager := run.manager.setIndex indexName index'
        status := .running remaining } index' listed' := by
  by_cases hnokey : index.keyOf document.fields = none
  · obtain ⟨-, ⟨-, rfl⟩ | ⟨key, hkey, -⟩⟩ := BTreeIndex.insert_cases hinsert
    · exact h.advance_keyless hstatus hnokey
    · rw [hnokey] at hkey
      cases hkey
  · obtain ⟨hkey, hallowed⟩ := hcurrent.resolve_left hnokey
    cases hversion : run.documents document.id with
    | none =>
      rw [hversion] at hkey
      exact absurd hkey.symm hnokey
    | some fields =>
      rw [hversion, Option.bind_some] at hkey
      exact ⟨_, h.advance_listed hstatus hversion
        (h.insert_current hversion hkey hnokey hallowed hinsert)⟩

-- The build takes its next document, if it is running.
theorem advance (hharmless : run.Harmless indexName .advance) :
    ∃ index' listed', (run.step indexName .advance).Inv indexName index' listed' := by
  cases hstatus : run.status with
  | idle =>
    simp only [BuildRun.step, hstatus]
    exact ⟨index, listed, h⟩
  | finished result =>
    simp only [BuildRun.step, hstatus]
    exact ⟨index, listed, h⟩
  | running remaining =>
    cases remaining with
    | nil =>
      simp only [BuildRun.step, hstatus]
      refine ⟨index, listed, h.found, h.exact, h.le, ?_⟩
      intro other hother
      have hown := h.lacks other hother
      rw [hstatus] at hown
      obtain hgone | ⟨own, hmem, -⟩ := hown
      · exact .inl hgone
      · cases hmem
    | cons document remaining =>
      simp only [BuildRun.step, hstatus, h.found]
      split
      · exact ⟨index, listed, h.found, h.exact, h.le, fun _ _ => .inr trivial⟩
      · next index' hinsert =>
          exact ⟨index', h.advance_insert hstatus
            (hharmless document remaining index hstatus h.found) hinsert⟩

theorem step {buildStep : BuildStep} (hproper : run.Proper buildStep)
    (hharmless : run.Harmless indexName buildStep) :
    ∃ index' listed', (run.step indexName buildStep).Inv indexName index' listed' := by
  cases buildStep with
  | start rebuild list => exact h.start hproper.2
  | advance => exact h.advance hharmless
  | insert docId document =>
    obtain ⟨index', hindex', hkind, hinserted⟩ :=
      IndexManager.insertDocument_index h.found h.exact
        (by rw [h.of_none hproper]; rfl)
    simp only [BuildRun.step]
    split
    · next hok =>
        rw [hok] at hinserted
        exact ⟨index', _, h.update_documents _ hindex' hinserted⟩
    · next herror =>
        rw [herror] at hinserted
        exact ⟨index', listed, hindex', hinserted, h.le, h.lacks⟩
  | update docId oldDocument newDocument =>
    obtain ⟨index', hindex', hkind, hupdated⟩ :=
      IndexManager.updateDocument_index h.found h.exact
        (fun key hkey => h.key_eq hproper hkey)
    simp only [BuildRun.step]
    split
    · next hok =>
        rw [hok] at hupdated
        exact ⟨index', _, h.update_documents _ hindex' hupdated⟩
    · next herror =>
        rw [herror] at hupdated
        obtain hcan | hnot := hharmless.1
        · rw [hcan.updateDocument] at herror
          cases herror
        · exact ⟨index', listed, hindex', hupdated (hnot index h.found), h.le, h.lacks⟩
  | remove docId document =>
    obtain ⟨index', hindex', hkind, hremoved⟩ :=
      IndexManager.removeDocument_index h.found h.exact (fun key hkey => h.key_eq hproper hkey)
    simp only [BuildRun.step]
    split
    · next hok =>
        rw [hok] at hremoved
        exact ⟨index', _, h.update_documents _ hindex' hremoved⟩
    · next herror =>
        rw [herror] at hremoved
        obtain hcan | hnot := hharmless
        · rw [hcan.removeDocument] at herror
          cases herror
        · exact ⟨index', listed, hindex', hremoved (hnot index h.found), h.le, h.lacks⟩
  | optimize =>
    have hempty := hharmless _ (IndexManager.getIndex_mem h.found)
    refine ⟨index.clear, listed, ?_, h.exact.clear_of_isEmpty hempty, h.le, h.lacks⟩
    show run.manager.optimizeIndexes.getIndex indexName = some index.clear
    rw [IndexManager.getIndex_optimizeIndexes, h.found]
    rfl

-- Once the build has returned, nothing is lacking.
theorem exact_of_finished (hstatus : run.status = .finished (.ok ())) :
    index.Exact run.documents := by
  have hsame : listed = run.documents := by
    funext docId
    cases hlisted : listed docId with
    | some fields => exact (h.le docId fields hlisted).symm
    | none =>
      have hown := h.lacks docId hlisted
      rw [hstatus] at hown
      exact (hown.resolve_right not_false).symm
  rw [← hsame]
  exact h.exact

end Inv

-- Clearing indexes that are empty changes no lookup.
theorem lookups_optimize {manager : IndexManager}
    (hempty : ∀ entry ∈ manager.indexes, entry.2.isEmpty = true) (name : String) :
    (∀ key, manager.optimizeIndexes.findWithIndex name key = manager.findWithIndex name key) ∧
      ∀ start stop includeStart includeEnd,
        manager.optimizeIndexes.findRangeWithIndex name start stop includeStart includeEnd =
          manager.findRangeWithIndex name start stop includeStart includeEnd := by
  unfold IndexManager.findWithIndex IndexManager.findRangeWithIndex
  rw [IndexManager.getIndex_optimizeIndexes]
  cases hindex : manager.getIndex name with
  | none => exact ⟨fun _ => rfl, fun _ _ _ _ => rfl⟩
  | some index =>
    have htree : index.tree = ∅ :=
      Std.ExtTreeMap.isEmpty_iff.mp (hempty _ (IndexManager.getIndex_mem hindex))
    have hclear : index.clear.tree = index.tree := htree.symm
    simp only [Option.map_some, BTreeIndex.findExact, BTreeIndex.findRange, hclear,
      implies_true, and_self]

/-- From the creation of an index on, in every run of proper and harmless steps, the index lists
exactly the current documents once its build has returned `Ok`, and optimizations change no
lookup. -/
theorem background_build_sound (order : IterationOrder) (manager : IndexManager)
    (definition : IndexDefinition) (documents : CurrentDocuments) {steps : List BuildStep}
    (h : MeetsAlong (BuildRun.step definition.name)
      (fun run buildStep => run.Proper buildStep ∧ run.Harmless definition.name buildStep)
      ⟨manager.createIndex order definition, .idle, documents⟩ steps) :
    MeetsAlong (BuildRun.step definition.name) (BuildRun.Sound definition.name)
      ⟨manager.createIndex order definition, .idle, documents⟩ steps := by
  refine MeetsAlong.imp (I := fun run : BuildRun =>
    ∃ index listed, run.Inv definition.name index listed) ?_ ?_ ?_ h
  · intro run buildStep ⟨index, listed, hinv⟩ hstep
    exact hinv.step hstep.1 hstep.2
  · intro run buildStep ⟨index, listed, hinv⟩ hstep
    obtain ⟨index', listed', hinv'⟩ := hinv.step hstep.1 hstep.2
    refine ⟨fun hstatus => ⟨index', hinv'.found, hinv'.exact_of_finished hstatus⟩, ?_⟩
    intro hoptimize name
    subst hoptimize
    exact lookups_optimize hstep.2 name
  · refine ⟨_, fun _ => none, IndexManager.getIndex_createIndex order manager definition,
      .new _ _ _ _, nofun, fun _ _ => .inr trivial⟩

/-! ### Concrete runs -/

/-- The run before anything happens, over one document and a new index on its field. -/
def numberRun : BuildRun :=
  ⟨IndexManager.new.createIndex .given numberIndex, .idle,
    CurrentDocuments.insert (fun _ => none) ⟨1⟩ (numberDocument ⟨1⟩ 1)⟩

theorem numberRun_enumerates : numberRun.documents.Enumerates [numberDocument ⟨1⟩ 1] := by
  refine ⟨by decide, ?_, ?_⟩
  · intro document hdocument
    rw [List.mem_singleton.mp hdocument]
    rfl
  · intro docId hdocId
    by_cases hid : docId = ⟨1⟩
    · rw [hid]
      exact List.mem_singleton.mpr rfl
    · have hnone : numberRun.documents docId = none := by
        show CurrentDocuments.insert (fun _ => none) ⟨1⟩ (numberDocument ⟨1⟩ 1) docId = none
        rw [CurrentDocuments.insert, Function.update_of_ne hid]
      exact absurd hnone hdocId

/-- A document that is removed before the build comes to it is in the index afterwards. -/
theorem removed_document_listed :
    MeetsAlong (BuildRun.step "numbers") BuildRun.Proper numberRun
        [.start false [numberDocument ⟨1⟩ 1], .remove ⟨1⟩ (numberDocument ⟨1⟩ 1), .advance,
          .advance] ∧
      ¬MeetsAlong (BuildRun.step "numbers") (BuildRun.Sound "numbers") numberRun
        [.start false [numberDocument ⟨1⟩ 1], .remove ⟨1⟩ (numberDocument ⟨1⟩ 1), .advance,
          .advance] := by
  refine ⟨⟨⟨nofun, numberRun_enumerates⟩, rfl, trivial, trivial, trivial⟩, ?_⟩
  intro ⟨_, _, _, hreturned, _⟩
  obtain ⟨index, hindex, hexact⟩ := hreturned.1 rfl
  rw [← Option.some.inj hindex] at hexact
  obtain ⟨key, hkey, -⟩ :=
    (hexact.inverts.mem_iff { values := [.int 1] } ⟨1⟩).mp (by decide)
  cases hkey

/-- A document is inserted while another one waits for the build. -/
theorem inserted_document_listed :
    MeetsAlong (BuildRun.step "numbers")
        (fun run buildStep => run.Proper buildStep ∧ run.Harmless "numbers" buildStep) numberRun
        [.start false [numberDocument ⟨1⟩ 1], .insert ⟨2⟩ (numberDocument ⟨2⟩ 2), .advance,
          .advance] ∧
      MeetsAlong (BuildRun.step "numbers") (BuildRun.Sound "numbers") numberRun
        [.start false [numberDocument ⟨1⟩ 1], .insert ⟨2⟩ (numberDocument ⟨2⟩ 2), .advance,
          .advance] := by
  have hrun : MeetsAlong (BuildRun.step "numbers")
      (fun run buildStep => run.Proper buildStep ∧ run.Harmless "numbers" buildStep) numberRun
      [.start false [numberDocument ⟨1⟩ 1], .insert ⟨2⟩ (numberDocument ⟨2⟩ 2), .advance,
        .advance] := by
    refine ⟨⟨⟨nofun, numberRun_enumerates⟩, ?_⟩, ⟨rfl, numberDocument_numberKeys _ _ rfl⟩,
      ⟨trivial, ?_⟩, ⟨trivial, ?_⟩, trivial⟩
    · intro entry hentry document hdocument
      rw [List.mem_singleton.mp hdocument]
      exact numberDocument_numberKeys _ _ rfl entry hentry
    · intro document remaining index hstatus hindex
      cases hstatus
      cases hindex
      exact .inr ⟨rfl, .inl rfl⟩
    · intro document remaining index hstatus
      cases hstatus
  exact ⟨hrun, background_build_sound .given .new numberIndex _ hrun⟩

end BuildRun

end VedDb
