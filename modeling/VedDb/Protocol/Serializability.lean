import VedDb.Protocol.Concurrent
import VedDb.Protocol.LegacyKv

/-!
# Serializability

Commands whose conflicting steps are taken in one order of the commands end as if each had been
served after the other in that order.  Nothing on the server sees to such an order.
-/

namespace VedDb

open LittleEndian (Bytes)
open Durable (Outcome)
open Interleaving
open PersistentLayer (decodeDocuments)

/-! ## What a command looks for -/

/-- The loops of an update and a deletion do not stop at this document and do not pass it by. -/
def passes (regex : RegexCrate) (filter : Filter) (doc : Document) : Bool :=
  match matchesFilter regex doc filter with
  | .ok false => false
  | _ => true

/-- A scan meets its end at this record, or the filter does not pass its document by. -/
def selected (json : DocumentJson) (regex : RegexCrate) (now : DateTime) (filter : Filter)
    (value : Bytes) : Bool :=
  match json.fromSlice value with
  | .error _ => true
  | .ok (id, fields) =>
    passes regex filter { id := id, fields := fields, metadata := DocumentMetadata.default now }

/-- The records a filter looks for; one that cannot be read is an error before the scan. -/
def selectedBy (json : DocumentJson) (regex : RegexCrate) (now : DateTime) (filter : Value) :
    Bytes → Bool :=
  match DocumentCommand.parsedFilter filter with
  | .error _ => fun _ => false
  | .ok filter => selected json regex now filter

def StoreRequest.selects (json : DocumentJson) (regex : RegexCrate) (now : DateTime) :
    StoreRequest → Bytes → Bool
  | .updateDoc request => selectedBy json regex now request.filter
  | .deleteDoc request => selectedBy json regex now request.filter
  | .insertDoc _ | .createIndex _ | .dropIndex _ => fun _ => false

def StoreCommand.selects {C : Type} {env : ServerEnv C} (own : StoreCommand env) : Bytes → Bool :=
  match own.request with
  | .error _ => fun _ => false
  | .ok request => request.selects env.storage.json env.regex own.moment.now

theorem decodeDocuments_selected (json : DocumentJson) (regex : RegexCrate) (now : DateTime)
    (filter : Filter) (records : List (Bytes × Bytes)) :
    decodeDocuments json now
        (records.filter fun record => selected json regex now filter record.2) =
      (decodeDocuments json now records).map (List.filter (passes regex filter)) := by
  induction records with
  | nil => rfl
  | cons record records ih =>
    rw [List.filter_cons, selected, decodeDocuments]
    cases hread : json.fromSlice record.2 with
    | error error =>
      dsimp only
      rw [if_pos rfl, decodeDocuments, hread]
      rfl
    | ok read =>
      dsimp only
      by_cases hpasses : passes regex filter
          { id := read.1, fields := read.2, metadata := DocumentMetadata.default now } = true
      · rw [if_pos hpasses, decodeDocuments, hread, ih]
        cases decodeDocuments json now records with
        | error error => rfl
        | ok docs =>
          show Except.ok _ = Except.ok (List.filter _ (_ :: docs))
          rw [List.filter_cons_of_pos hpasses]
      · rw [if_neg hpasses, ih]
        cases decodeDocuments json now records with
        | error error => rfl
        | ok docs =>
          show Except.ok _ = Except.ok (List.filter _ (_ :: docs))
          rw [List.filter_cons_of_neg hpasses]

namespace StorageProgram

/-- The two layers hold the same records of those that a scan looks for. -/
def ScansAlike (selects : Bytes → Bool) (layer layer' : PersistentLayer) : StorageCall → Prop
  | .scanCollection _ name =>
    (layer'.records name).filter (fun record => selects record.2) =
      (layer.records name).filter fun record => selects record.2
  | _ => False

/-- What a program makes of a scan rests on some records only. -/
def LooksFor (json : DocumentJson) (selects : Bytes → Bool) {α : Type} : StorageProgram α → Prop
  | .done _ => True
  | .call operation next =>
    (∀ layer layer', ScansAlike selects layer layer' operation →
      next (operation.exec json layer').1 = next (operation.exec json layer).1) ∧
    ∀ answer, LooksFor json selects (next answer)

variable {json : DocumentJson} {selects : Bytes → Bool}

theorem LooksFor.map {α β : Type} {program : StorageProgram α} (f : α → β)
    (h : program.LooksFor json selects) :
    StorageProgram.LooksFor json selects (program.map f) := by
  induction program with
  | done result => exact trivial
  | call operation next ih =>
    refine ⟨fun layer layer' hlike => ?_, fun answer => ih answer (h.2 answer)⟩
    dsimp only
    rw [h.1 layer layer' hlike]

variable (regex : RegexCrate) (now : DateTime) (collection : String) (filter : Filter)

theorem updateMatching_looksFor (update : Value) (docs : List Document) (count : Nat) :
    (updateMatching regex now collection filter update docs count).LooksFor json selects := by
  induction docs generalizing count with
  | nil => exact trivial
  | cons doc docs ih =>
    rw [updateMatching]
    cases matchesFilter regex doc filter with
    | error error => exact trivial
    | ok found =>
      cases found with
      | false => exact ih count
      | true =>
        dsimp only
        cases DocumentCommand.replacement now update doc with
        | none => exact ih count
        | some new =>
          refine ⟨fun _ _ h => absurd h id, fun answer => ?_⟩
          cases answer with
          | error error => exact ih count
          | ok _ => exact ih (count + 1)

theorem deleteMatching_looksFor (docs : List Document) (count : Nat) :
    (deleteMatching regex collection filter docs count).LooksFor json selects := by
  induction docs generalizing count with
  | nil => exact trivial
  | cons doc docs ih =>
    rw [deleteMatching]
    cases matchesFilter regex doc filter with
    | error error => exact trivial
    | ok found =>
      cases found with
      | false => exact ih count
      | true =>
        refine ⟨fun _ _ h => absurd h id, fun answer => ?_⟩
        cases answer with
        | false => exact ih count
        | true => exact ih (count + 1)

-- The loops go past a document that the filter does not match.
theorem updateMatching_passes (update : Value) (docs : List Document) (count : Nat) :
    updateMatching regex now collection filter update (docs.filter (passes regex filter)) count =
      updateMatching regex now collection filter update docs count := by
  induction docs generalizing count with
  | nil => rfl
  | cons doc docs ih =>
    rw [List.filter_cons, passes, updateMatching]
    cases hmatches : matchesFilter regex doc filter with
    | error error =>
      dsimp only
      rw [if_pos rfl, updateMatching, hmatches]
    | ok found =>
      cases found with
      | false => exact ih count
      | true =>
        dsimp only
        rw [if_pos rfl, updateMatching, hmatches]
        dsimp only
        rw [ih count, ih (count + 1)]

theorem deleteMatching_passes (docs : List Document) (count : Nat) :
    deleteMatching regex collection filter (docs.filter (passes regex filter)) count =
      deleteMatching regex collection filter docs count := by
  induction docs generalizing count with
  | nil => rfl
  | cons doc docs ih =>
    rw [List.filter_cons, passes, deleteMatching]
    cases hmatches : matchesFilter regex doc filter with
    | error error =>
      dsimp only
      rw [if_pos rfl, deleteMatching, hmatches]
    | ok found =>
      cases found with
      | false => exact ih count
      | true =>
        dsimp only
        rw [if_pos rfl, deleteMatching, hmatches]
        dsimp only
        rw [ih count, ih (count + 1)]

variable {regex now collection filter}

theorem scanning_looksFor {text : Value}
    {next : Filter → List Document → StorageProgram Reported}
    (hparsed : DocumentCommand.parsedFilter text = .ok filter)
    (hnext : ∀ docs, (next filter docs).LooksFor json (selected json regex now filter))
    (hpasses : ∀ docs, next filter (docs.filter (passes regex filter)) = next filter docs) :
    (scanning now collection text next).LooksFor json (selected json regex now filter) := by
  rw [scanning, hparsed]
  refine ⟨fun layer layer' hlike => ?_, fun answer => ?_⟩
  · have hscan (layer : PersistentLayer) :
        afterScan (next filter) (layer.scanCollection json now collection) =
          afterScan (next filter) (decodeDocuments json now
            ((layer.records collection).filter fun record =>
              selected json regex now filter record.2)) := by
      rw [decodeDocuments_selected]
      show afterScan (next filter) (decodeDocuments json now (layer.records collection)) = _
      cases decodeDocuments json now (layer.records collection) with
      | error error => rfl
      | ok docs => exact (hpasses docs).symm
    show afterScan (next filter) (layer'.scanCollection json now collection) =
      afterScan (next filter) (layer.scanCollection json now collection)
    rw [hscan layer', hscan layer]
    exact congrArg (fun records => afterScan (next filter) (decodeDocuments json now records)) hlike
  · cases answer with
    | error error => exact trivial
    | ok docs => exact hnext docs

theorem changingIndexes_looksFor {C : Type} (env : StorageEnv C) (collection : String)
    (change : List JsonValue → Option (List JsonValue)) :
    (changingIndexes env collection change).LooksFor json selects := by
  have hsaving (indexes : Option (List JsonValue)) :
      (savingIndexes env collection indexes).LooksFor json selects := by
    cases indexes with
    | none => exact trivial
    | some indexes =>
      rw [savingIndexes]
      cases env.catalogue.indexesToVec indexes with
      | error error => exact trivial
      | ok data => exact ⟨fun _ _ h => absurd h id, fun _ => trivial⟩
  refine ⟨fun _ _ h => absurd h id, fun answer => ?_⟩
  cases answer with
  | none => exact hsaving _
  | some data =>
    dsimp only
    cases env.catalogue.indexesFromSlice data with
    | error error => exact trivial
    | ok indexes => exact hsaving _

end StorageProgram

theorem StoreRequest.program_looksFor {C : Type} (env : StorageEnv C) (regex : RegexCrate)
    (now : DateTime) (request : StoreRequest) :
    (request.program env regex now).LooksFor env.json (request.selects env.json regex now) := by
  have hscanning {collection : String} {filter : Value}
      {next : Filter → List Document → StorageProgram Reported}
      (hnext : ∀ filter docs,
        (next filter docs).LooksFor env.json (selected env.json regex now filter))
      (hpasses : ∀ filter docs,
        next filter (docs.filter (passes regex filter)) = next filter docs) :
      (StorageProgram.scanning now collection filter next).LooksFor env.json
        (selectedBy env.json regex now filter) := by
    rw [selectedBy]
    cases hparsed : DocumentCommand.parsedFilter filter with
    | error error =>
      rw [StorageProgram.scanning, hparsed]
      exact trivial
    | ok filter => exact StorageProgram.scanning_looksFor hparsed (hnext filter) (hpasses filter)
  cases request with
  | insertDoc request =>
    refine ⟨fun _ _ h => absurd h id, fun answer => ?_⟩
    cases answer with
    | error error | ok _ => exact trivial
  | updateDoc request =>
    exact hscanning
      (fun _ _ => StorageProgram.updateMatching_looksFor _ _ _ _ _ _ _)
      fun _ _ => StorageProgram.updateMatching_passes _ _ _ _ _ _ _
  | deleteDoc request =>
    exact hscanning
      (fun _ _ => StorageProgram.deleteMatching_looksFor _ _ _ _ _)
      fun _ _ => StorageProgram.deleteMatching_passes _ _ _ _ _
  | createIndex request =>
    rw [StoreRequest.program, StorageProgram.createIndex]
    exact StorageProgram.changingIndexes_looksFor env request.collection _
  | dropIndex request =>
    rw [StoreRequest.program, StorageProgram.dropIndex]
    exact StorageProgram.changingIndexes_looksFor env request.collection _

theorem StoreCommand.program_looksFor {C : Type} {env : ServerEnv C} (own : StoreCommand env) :
    own.program.LooksFor env.storage.json own.selects := by
  rw [StoreCommand.program, StoreCommand.selects]
  cases own.request with
  | error error => exact trivial
  | ok request =>
    exact StorageProgram.LooksFor.map _
      (StoreRequest.program_looksFor env.storage env.regex own.moment.now request)

/-! ## Commands at the same time -/

/-- Commands on their way, on one persistent layer. -/
abbrev Serving (ι : Type) :=
  Threads ι StorageCall StorageCall.Answer (Outcome ConnectionError Response) PersistentLayer

namespace Serving

variable {ι C : Type} {env : ServerEnv C} (commands : ι → StoreCommand env)

/-- No command has taken a step yet. -/
def start (manager : ConnectionManager C) : Serving ι :=
  { state := manager.storage.persistentLayer, programs := fun i => (commands i).program }

/-- A run of the commands, with what each step touches. -/
abbrev Runs [DecidableEq ι] (env : ServerEnv C) : Serving ι → List (ι × Touch) → Serving ι → Prop :=
  Run (StorageCall.exec env.storage.json) fun call layer => call.touch env.storage.json layer

/-- The steps of two commands conflict. -/
def Conflict (a b : ι × Touch) : Prop :=
  a.2.Conflicts (commands a.1).selects (commands b.1).selects b.2

/-- What is left of each command rests on a scan as the whole command does. -/
def Heeding (x : Serving ι) : Prop :=
  ∀ i, StorageProgram.LooksFor env.storage.json (commands i).selects (x.programs i)

theorem start_heeding (manager : ConnectionManager C) :
    Heeding commands (start commands manager) :=
  fun i => (commands i).program_looksFor

variable {commands}

-- What a command makes of an answer is the same after a step that does not disturb it.
theorem next_exec {json : DocumentJson} {selects : Bytes → Bool} {layer : PersistentLayer}
    {own other : StorageCall} {α : Type} {next : other.Answer → StorageProgram α}
    (hlooks : StorageProgram.LooksFor json selects (.call other next))
    (hapart : StorageCall.Apart (own.touch json layer) (other.touch json layer))
    (hfree : ¬(own.touch json layer).Disturbs selects (other.touch json layer)) :
    next (other.exec json (own.exec json layer).2).1 = next (other.exec json layer).1 := by
  by_cases hscans : other.Scans
  · apply hlooks.1
    cases other with
    | scanCollection now name => exact StorageCall.records_exec hfree
    | insertDocument _ _ _ | deleteDocument _ _ | getMetadata _ | storeMetadata _ _ =>
      exact absurd hscans id
  · exact congrArg next (StorageCall.answer_exec hapart hscans)

theorem swappable [DecidableEq ι] :
    Swappable (StorageCall.exec env.storage.json)
      (fun call layer => call.touch env.storage.json layer) (Conflict commands)
      (Heeding commands) where
  keeps {x x' i e} hlooks hstep := by
    obtain ⟨call, next, hprogram, _, _, hprograms⟩ := step_eq_some_iff.mp hstep
    intro j
    rw [hprograms]
    by_cases hij : j = i
    · rw [hij, Function.update_self]
      have hown := hlooks i
      rw [hprogram] at hown
      exact hown.2 _
    · rw [Function.update_of_ne hij]
      exact hlooks j
  swaps {x x' y i j e f} hlooks hne hfree hfirst hsecond := by
    obtain ⟨own, next, hown, hownTouch, hstate, hprograms⟩ := step_eq_some_iff.mp hfirst
    obtain ⟨other, next', hother, hotherTouch, hstate', hprograms'⟩ := step_eq_some_iff.mp hsecond
    rw [hprograms, Function.update_of_ne hne.symm] at hother
    rw [hstate] at hotherTouch hstate'
    have hownLooks := hlooks i
    rw [hown] at hownLooks
    have hotherLooks := hlooks j
    rw [hother] at hotherLooks
    rw [Conflict, ← hownTouch, ← hotherTouch] at hfree
    have hmoved := StorageCall.Apart.of_not_conflicts hfree
    have hapart : StorageCall.Apart (own.touch env.storage.json x.state)
        (other.touch env.storage.json x.state) :=
      ⟨fun place hchanges habout =>
          hmoved.left place hchanges (StorageCall.about_touch.mp habout),
        fun place hchanges => hmoved.right place (StorageCall.changes_touch.mp hchanges)⟩
    rw [StorageCall.touch_exec hapart] at hotherTouch hfree
    refine ⟨⟨(other.exec env.storage.json x.state).2,
      Function.update x.programs j (next' (other.exec env.storage.json x.state).1)⟩, ?_, ?_⟩
    · exact step_eq_some_iff.mpr ⟨other, next', hother, hotherTouch, rfl, rfl⟩
    · apply step_eq_some_iff.mpr
      refine ⟨own, next, ?_, ?_, ?_, ?_⟩
      · show Function.update x.programs j _ i = _
        rw [Function.update_of_ne hne, hown]
      · rw [StorageCall.touch_exec hapart.symm, hownTouch]
      · rw [hstate', StorageCall.exec_comm hapart]
      · rw [hprograms', hprograms, hstate, next_exec hotherLooks hapart fun h => hfree (.inl h),
          next_exec hownLooks hapart.symm fun h => hfree (.inr h), Function.update_comm hne]

instance : DecidableRel (Conflict commands) :=
  fun a b => inferInstanceAs
    (Decidable (a.2.Conflicts (commands a.1).selects (commands b.1).selects b.2))

/-! ## One after another -/

/-- The commands are served one after another: their answers, and the server after them. -/
def serveAll (commands : ι → StoreCommand env) : List ι → ConnectionManager C →
    List (ι × Outcome ConnectionError Response) × ConnectionManager C
  | [], manager => ([], manager)
  | i :: order, manager =>
    let (reply, manager) := (commands i).serve manager
    let (replies, manager) := serveAll commands order manager
    ((i, reply) :: replies, manager)

variable (commands) in
structure EndsAs (manager : ConnectionManager C) (order : List ι) (final : Serving ι) : Prop where
  once : order.Nodup
  each : ∀ i, i ∈ order
  layer_eq : final.state = (serveAll commands order manager).2.storage.persistentLayer
  replies : ∀ i, ∃ reply, final.programs i = .done reply ∧
    (i, reply) ∈ (serveAll commands order manager).1

theorem serially_eq_serveAll [DecidableEq ι] {manager : ConnectionManager C} {order : List ι}
    (hadmitted : ∀ i ∈ order, (commands i).Admitted manager) (hnodup : order.Nodup)
    {x : Serving ι} (hstate : x.state = manager.storage.persistentLayer)
    (hprograms : ∀ i ∈ order, x.programs i = (commands i).program) :
    let final := serially (StorageCall.exec env.storage.json) order x
    final.state = (serveAll commands order manager).2.storage.persistentLayer ∧
      ∀ i ∈ order, ∃ reply, final.programs i = .done reply ∧
        (i, reply) ∈ (serveAll commands order manager).1 := by
  induction order generalizing x manager with
  | nil => exact ⟨hstate, nofun⟩
  | cons i order ih =>
    rw [List.nodup_cons] at hnodup
    have hserve := StoreCommand.serve_eq (hadmitted i List.mem_cons_self)
    have hfinish : finish (StorageCall.exec env.storage.json) x i =
        ⟨((commands i).serve manager).2.storage.persistentLayer,
          Function.update x.programs i (.done ((commands i).serve manager).1)⟩ := by
      rw [finish, hprograms i List.mem_cons_self, hstate, hserve]
      rfl
    have hadmitted' : ∀ j ∈ order, (commands j).Admitted ((commands i).serve manager).2 := by
      intro j hj
      have hown := hadmitted j (List.mem_cons_of_mem _ hj)
      rw [hserve]
      exact ⟨hown.authenticated, hown.uncached⟩
    have hrest := ih hadmitted' hnodup.2 (congrArg Threads.state hfinish) ?_
    · refine ⟨hrest.1, ?_⟩
      rw [List.forall_mem_cons]
      constructor
      · refine ⟨((commands i).serve manager).1, ?_, List.mem_cons_self⟩
        rw [serially, List.foldl_cons]
        apply (serially_programs hnodup.1).trans
        rw [hfinish]
        exact Function.update_self _ _ _
      · intro j hj
        obtain ⟨reply, hreply, hmem⟩ := hrest.2 j hj
        exact ⟨reply, hreply, List.mem_cons_of_mem _ hmem⟩
    · intro j hj
      have hne : j ≠ i := fun h => hnodup.1 (h ▸ hj)
      rw [hfinish]
      show Function.update x.programs i _ j = _
      rw [Function.update_of_ne hne]
      exact hprograms j (List.mem_cons_of_mem _ hj)

/-- Commands that take all conflicting steps in one order end as if served in that order. -/
theorem endsAs_of_conflictsInOrder [DecidableEq ι] {manager : ConnectionManager C}
    (hadmitted : ∀ i, (commands i).Admitted manager) {trace : List (ι × Touch)}
    {final : Serving ι} {order : List ι} (hnodup : order.Nodup) (hmem : ∀ i, i ∈ order)
    (hrun : Runs env (start commands manager) trace final) (hdone : final.Finished)
    (horder : ConflictsInOrder (Conflict commands) order trace) :
    EndsAs commands manager order final := by
  have hserial : final = serially (StorageCall.exec env.storage.json) order
      (start commands manager) :=
    hrun.eq_serially swappable (start_heeding commands manager) hdone hmem horder
  obtain ⟨hlayer, hreplies⟩ := serially_eq_serveAll (x := start commands manager)
    (fun i _ => hadmitted i) hnodup rfl fun i _ => rfl
  rw [← hserial] at hlayer hreplies
  exact ⟨hnodup, hmem, hlayer, fun i => hreplies i (hmem i)⟩

end Serving

/-! ## Two clients

Every document of a collection is replaced, while another client deletes every document or inserts
one. -/

def replaceAll : UpdateDocRequest :=
  { collection := "c", filter := .object [], update := .object [("n", .null)], upsert := false }

def deleteAll : DeleteDocRequest := { collection := "c", filter := .object [] }

def insertSecond : InsertDocRequest :=
  { collection := "c", document := { id := ⟨2⟩, fields := ∅, metadata := .default 0 } }

def clientRequests : List LegacyRequest :=
  [.updateDoc replaceAll, .deleteDoc deleteAll, .insertDoc insertSecond]

def clientServer : ServerEnv Unit :=
  { smallServer with
    wire := JsonText.legacyWire clientRequests [.ofData none, .ofCount 0, .ofCount 1] }

def twoClients : ConnectionManager Unit :=
  let first := ConnectionManager.loggedIn .admin
  { first with
    access :=
      { first.access with
        connections := first.access.connections.insert 2
          ⟨"127.0.0.1:5", .authenticated (.new 8 0 (ConnectionManager.eve .admin) "127.0.0.1:5"
            protocolV2)⟩ }
    storage :=
      { first.storage with
        persistentLayer :=
          { PersistentLayer.empty with
            documents := (∅ : Std.ExtTreeMap Bytes Bytes).insert
              (PersistentLayer.makeDocumentKey "c" ⟨1⟩) (nullJson ⟨1⟩ false) } } }

def replacing : StoreCommand clientServer where
  connection := 1
  moment := servedAt 0
  command := .new .updateDoc 1 [] (JsonText.requestText (.updateDoc replaceAll))
  translated := .new .updateDoc 1 [] (JsonText.requestText (.updateDoc replaceAll))
  request := .ok (.updateDoc replaceAll)
  requestOf_eq := rfl

/-- The deletion, on the second one. -/
def deleting : StoreCommand clientServer where
  connection := 2
  moment := servedAt 0
  command := .new .deleteDoc 1 [] (JsonText.requestText (.deleteDoc deleteAll))
  translated := .new .deleteDoc 1 [] (JsonText.requestText (.deleteDoc deleteAll))
  request := .ok (.deleteDoc deleteAll)
  requestOf_eq := rfl

def inserting : StoreCommand clientServer where
  connection := 2
  moment := servedAt 0
  command := .new .insertDoc 1 [] (JsonText.requestText (.insertDoc insertSecond))
  translated := .new .insertDoc 1 [] (JsonText.requestText (.insertDoc insertSecond))
  request := .ok (.insertDoc insertSecond)
  requestOf_eq := rfl

namespace Serving

/-- The update and another command. -/
def withReplacing (other : StoreCommand clientServer) : Bool → StoreCommand clientServer
  | true => replacing
  | false => other

def along (other : StoreCommand clientServer) (schedule : List Bool) :
    List (Bool × Touch) × Serving Bool :=
  interleave (StorageCall.exec clientServer.storage.json)
    (fun call layer => call.touch clientServer.storage.json layer) schedule
    (start (withReplacing other) twoClients)

theorem along_finished {other : StoreCommand clientServer} {schedule : List Bool}
    (h : ∀ i, ((along other schedule).2.programs i).isDone = true) :
    (along other schedule).2.Finished :=
  fun i => Program.exists_of_isDone (h i)

theorem admitted_twoClients {other : StoreCommand clientServer}
    (h : twoClients.access.isAuthenticated other.connection = true) (i : Bool) :
    (withReplacing other i).Admitted twoClients := by
  have huncached (collection : String) : twoClients.storage.Uncached collection := by
    intro schema hschema
    rw [show twoClients.storage.schemas = ∅ from rfl, Std.ExtTreeMap.getElem?_empty] at hschema
    cases hschema
  cases i with
  | true =>
    exact ⟨show twoClients.access.isAuthenticated 1 = true by decide, fun _ _ => huncached _⟩
  | false => exact ⟨h, fun _ _ => huncached _⟩

theorem endsAs_of_conflictsInOrder_inserting :
    EndsAs (withReplacing inserting) twoClients [true, false]
      (along inserting [true, false, true]).2 :=
  endsAs_of_conflictsInOrder (admitted_twoClients (by decide)) (by decide) (by decide)
    (run_interleave _ _) (along_finished (by decide +kernel)) (by decide +kernel)

/-- A deleted document comes back: the update had read it before it was deleted. -/
theorem deleted_document_comes_back :
    (∀ i, (withReplacing deleting i).Admitted twoClients) ∧
      Runs clientServer (start (withReplacing deleting) twoClients)
        (along deleting [true, false, false, true]).1
        (along deleting [true, false, false, true]).2 ∧
      (along deleting [true, false, false, true]).2.Finished ∧
      ∀ order, ¬EndsAs (withReplacing deleting) twoClients order
        (along deleting [true, false, false, true]).2 := by
  refine ⟨admitted_twoClients (by decide), run_interleave _ _, along_finished (by decide +kernel),
    fun order h => ?_⟩
  have hstored : (along deleting [true, false, false, true]).2.state.documents.contains
      (PersistentLayer.makeDocumentKey "c" ⟨1⟩) = true := by
    decide +kernel
  -- Served one after the other, the two commands leave nothing behind.
  have hgone : ∀ first second, first ≠ second →
      (serveAll (withReplacing deleting) [first, second]
        twoClients).2.storage.persistentLayer.documents.contains
          (PersistentLayer.makeDocumentKey "c" ⟨1⟩) = false := by
    decide +kernel
  have hperm : order.Perm [true, false] := by
    rw [List.perm_ext_iff_of_nodup h.once (by decide)]
    intro i
    cases i with
    | true | false => simp [h.each]
  obtain ⟨first, second, horder⟩ := List.length_eq_two.mp hperm.length_eq
  have hne : first ≠ second := by
    have honce := h.once
    rw [horder] at honce
    simpa using honce
  have hlayer := h.layer_eq
  rw [horder] at hlayer
  rw [hlayer, hgone first second hne] at hstored
  cases hstored

end Serving

end VedDb
