import VedDb.Lib.Totals
import VedDb.Storage.Collection
import VedDb.Storage.Keys

/-!
# The statistics of a collection

`document_count` and `total_size_bytes` against the documents that are stored.  A collection does
not ask whether an insertion overwrites or an update finds anything, and what it reads back from the
store has a cached size of 0, so a deletion takes no bytes off.
-/

namespace VedDb

open LittleEndian (Bytes)
open PersistentLayer (makeDocumentKey)

/-- `update_metadata`'s size of a document: what its fields take now. -/
def Document.actualSize (doc : Document) : Nat := Value.sizeBytesObject doc.fields.toList

/-- The documents stored, each as it was last written, under their keys. -/
abbrev StoredDocuments := Std.ExtTreeMap Bytes Document

namespace Collection

variable (env : CollectionEnv)

/-- The stored documents after a call, by what the call returns. -/
def storedAfter (c : Collection) (stored : StoredDocuments) :
    DateTime × CollectionOperation → StoredDocuments
  | (now, .insert doc) =>
    match (c.insert env now doc).1 with
    | .ok docId =>
      stored.insert (makeDocumentKey c.name docId) (c.schema.applyDefaults now doc)
    | .error _ => stored
  | (now, .update docId doc) =>
    match (c.update env now docId doc).1 with
    | .ok () => stored.insert (makeDocumentKey c.name docId) doc
    | .error _ => stored
  | (now, .delete docId) =>
    match (c.delete env now docId).1 with
    | .ok true => stored.erase (makeDocumentKey c.name docId)
    | _ => stored

def step (s : Collection × StoredDocuments) (call : DateTime × CollectionOperation) :
    Collection × StoredDocuments :=
  (s.1.after env call, s.1.storedAfter env s.2 call)

structure Holds (c : Collection) (stored : StoredDocuments) : Prop where
  encoded : ∀ (key : Bytes) (doc : Document), stored[key]? = some doc →
    (∃ docId, key = makeDocumentKey c.name docId) ∧
      ∃ value, c.persistentLayer.documents[key]? = some value ∧
        env.json.toVec doc.id doc.fields = .ok value
  absent : ∀ docId, stored[makeDocumentKey c.name docId]? = none →
    c.persistentLayer.documents[makeDocumentKey c.name docId]? = none

/-- The counters are those of the documents in the layer. -/
structure Exact (s : Collection × StoredDocuments) : Prop where
  holds : s.1.Holds env s.2
  count : s.1.documentCount.toNat = s.2.size
  size : s.1.totalSizeBytes.toNat = total Document.actualSize s.2

/-- Both counters have room for the documents. -/
def Fits (stored : StoredDocuments) : Prop :=
  stored.size < 2 ^ 64 ∧ total Document.actualSize stored < 2 ^ 64

/-- The steps that keep the counters: an insertion fails or is of a new identifier and its cached
size is right; an update fails or finds a document, whose size and the cached size of the new one
make up the size of the new one; what is deleted has no size. -/
def Countable (s : Collection × StoredDocuments) : DateTime × CollectionOperation → Prop
  | (now, .insert doc) =>
    let d := s.1.schema.applyDefaults now doc
    (∃ value, s.1.Writable env d value) →
      s.2[makeDocumentKey s.1.name d.id]? = none ∧ d.sizeBytes = d.actualSize ∧
        Fits (s.2.insert (makeDocumentKey s.1.name d.id) d)
  | (_, .update docId doc) =>
    s.1.Readable env docId → (∃ value, s.1.Writable env doc value) →
      ∃ old, s.2[makeDocumentKey s.1.name docId]? = some old ∧
        (old.actualSize + doc.sizeBytes) % 2 ^ 64 = doc.actualSize % 2 ^ 64 ∧
        Fits (s.2.insert (makeDocumentKey s.1.name docId) doc)
  | (_, .delete docId) =>
    s.1.Readable env docId →
      ∀ old, s.2[makeDocumentKey s.1.name docId]? = some old → old.actualSize = 0

/-- Nothing is taken off a counter that is smaller: no more of the total size than it has, and a
deletion that succeeds takes one off a count that is not zero. -/
def NoUnderflow (s : Collection × StoredDocuments) : DateTime × CollectionOperation → Prop
  | (_, .insert _) => True
  | (now, .update docId doc) =>
    ∀ oldDoc, s.1.get env now docId = .ok oldDoc →
      (oldDoc.map Document.sizeBytes).getD 0 - doc.sizeBytes ≤ s.1.totalSizeBytes.toNat
  | (now, .delete docId) =>
    ((s.1.delete env now docId).1 = .ok true → s.1.documentCount ≠ 0) ∧
      ∀ doc, s.1.get env now docId = .ok (some doc) → doc.sizeBytes ≤ s.1.totalSizeBytes.toNat

/-! ## One call -/

variable {env}

namespace Holds

variable {c : Collection} {stored : StoredDocuments} {docId : DocumentId}

theorem lookup_iff (h : c.Holds env stored) :
    (∃ doc, stored[makeDocumentKey c.name docId]? = some doc) ↔
      ∃ value, c.persistentLayer.documents[makeDocumentKey c.name docId]? = some value := by
  constructor
  · rintro ⟨doc, hdoc⟩
    obtain ⟨-, value, hvalue, -⟩ := h.encoded _ doc hdoc
    exact ⟨value, hvalue⟩
  · rintro ⟨value, hvalue⟩
    cases hdoc : stored[makeDocumentKey c.name docId]? with
    | some doc => exact ⟨doc, rfl⟩
    | none =>
      rw [h.absent docId hdoc] at hvalue
      cases hvalue

theorem write (h : c.Holds env stored) {doc : Document} {value : Bytes}
    (hvalue : env.json.toVec doc.id doc.fields = .ok value) {c' : Collection}
    (hname : c'.name = c.name) (hlayer : c'.persistentLayer = c.write docId value) :
    c'.Holds env (stored.insert (makeDocumentKey c.name docId) doc) := by
  refine ⟨?_, ?_⟩
  · intro key d hd
    rw [hname, hlayer]
    simp only [Collection.write, lookup_insert] at hd ⊢
    split at hd
    · next hkey =>
        rw [if_pos hkey, ← Option.some.inj hd]
        exact ⟨⟨docId, hkey.symm⟩, value, rfl, hvalue⟩
    · next hkey =>
        rw [if_neg hkey]
        exact h.encoded key d hd
  · intro other hother
    rw [hname] at hother ⊢
    rw [hlayer]
    simp only [Collection.write, lookup_insert] at hother ⊢
    split at hother
    · cases hother
    · next hkey =>
        rw [if_neg hkey]
        exact h.absent other hother

theorem erase (h : c.Holds env stored) {c' : Collection} (hname : c'.name = c.name)
    (hlayer : c'.persistentLayer.documents =
      c.persistentLayer.documents.erase (makeDocumentKey c.name docId)) :
    c'.Holds env (stored.erase (makeDocumentKey c.name docId)) := by
  refine ⟨?_, ?_⟩
  · intro key d hd
    rw [hname, hlayer]
    rw [lookup_erase] at hd ⊢
    split at hd
    · cases hd
    · next hkey =>
        rw [if_neg hkey]
        exact h.encoded key d hd
  · intro other hother
    rw [hname] at hother ⊢
    rw [hlayer]
    rw [lookup_erase] at hother ⊢
    split
    · rfl
    · next hkey =>
        rw [if_neg hkey] at hother
        exact h.absent other hother

end Holds

section

variable {s : Collection × StoredDocuments} {now : DateTime} {docId : DocumentId}
variable {doc : Document}

theorem size_insert_of_none {stored : StoredDocuments} {key : Bytes} (h : stored[key]? = none)
    (doc : Document) : (stored.insert key doc).size = stored.size + 1 := by
  rw [Std.ExtTreeMap.size_insert, Std.ExtTreeMap.contains_eq_isSome_getElem?, h]
  rfl

theorem size_insert_of_some {stored : StoredDocuments} {key : Bytes} {old : Document}
    (h : stored[key]? = some old) (doc : Document) :
    (stored.insert key doc).size = stored.size := by
  rw [Std.ExtTreeMap.size_insert, Std.ExtTreeMap.contains_eq_isSome_getElem?, h]
  rfl

theorem size_erase_of_some {stored : StoredDocuments} {key : Bytes} {old : Document}
    (h : stored[key]? = some old) : (stored.erase key).size + 1 = stored.size := by
  have hnone : (stored.erase key)[key]? = none := by rw [lookup_erase, if_pos rfl]
  have hinsert := size_insert_of_none hnone old
  have hsame : (stored.erase key).insert key old = stored := by
    apply Std.ExtTreeMap.ext_getElem?
    intro other
    rw [lookup_insert, lookup_erase]
    by_cases hkey : key = other
    · rw [if_pos hkey, ← hkey, h]
    · rw [if_neg hkey, if_neg hkey]
  rw [hsame] at hinsert
  exact hinsert.symm

theorem exact_insert_iff (h : Exact env s) :
    Exact env (step env s (now, .insert doc)) ↔ Countable env s (now, .insert doc) := by
  obtain ⟨c, stored⟩ := s
  have hsize : c.totalSizeBytes.toNat = 0 + total Document.actualSize stored := by
    rw [Nat.zero_add]
    exact h.size
  have hcount : c.documentCount.toNat = stored.size := h.count
  rcases insert_cases env now c doc with
    ⟨hfails, e, heq⟩ | ⟨value, hwritable, heq⟩
  · have hstep : step env (c, stored) (now, .insert doc) = (c, stored) := by
      simp only [step, after, storedAfter, heq]
    rw [hstep]
    exact iff_of_true h fun hwrites => absurd hwrites hfails
  · unfold Countable
    simp only [step, after, storedAfter, heq]
    generalize c.schema.applyDefaults now doc = d at hwritable ⊢
    have hshort : d.sizeBytes ≤ 16 * 1024 * 1024 :=
      (Document.validate_eq_ok_iff.mp hwritable.document).1
    constructor
    · rintro ⟨-, hcount', hsize'⟩ -
      cases hold : stored[makeDocumentKey c.name d.id]? with
      | some old =>
        -- the count has grown by an overwrite
        exfalso
        rw [size_insert_of_some hold, ← hcount] at hcount'
        exact absurd hcount' (toNat_add_one_ne c.documentCount)
      | none =>
        rw [total_insert, erase_of_none hold] at hsize'
        obtain ⟨hsum, hfits⟩ := (toNat_add_eq_iff hsize).mp hsize'
        refine ⟨rfl, by omega, ?_, ?_⟩
        · rw [← hcount']
          exact UInt64.toNat_lt _
        · rw [total_insert, erase_of_none hold]
          exact hfits
    · intro hc
      obtain ⟨hnew, hcached, hfits⟩ := hc ⟨value, hwritable⟩
      refine ⟨h.holds.write hwritable.encoded rfl rfl, ?_, ?_⟩
      · have hroom := hfits.1
        rw [size_insert_of_none hnew, ← hcount] at hroom ⊢
        exact toNat_add_one hroom
      · have hroom := hfits.2
        rw [total_insert, erase_of_none hnew] at hroom ⊢
        exact (toNat_add_eq_iff hsize).mpr ⟨by omega, hroom⟩

theorem exact_update_iff (h : Exact env s) :
    Exact env (step env s (now, .update docId doc)) ↔
      Countable env s (now, .update docId doc) := by
  obtain ⟨c, stored⟩ := s
  have hcount : c.documentCount.toNat = stored.size := h.count
  rcases update_cases env now c docId doc with
    ⟨hfails, e, heq⟩ | ⟨hreadable, value, hwritable, heq⟩
  · have hstep : step env (c, stored) (now, .update docId doc) = (c, stored) := by
      simp only [step, after, storedAfter, heq]
    rw [hstep]
    exact iff_of_true h fun hreadable hwrites => absurd ⟨hreadable, hwrites⟩ hfails
  · unfold Countable
    simp only [step, after, storedAfter, heq]
    constructor
    · rintro ⟨-, hcount', hsize'⟩ - -
      cases hold : stored[makeDocumentKey c.name docId]? with
      | none =>
        -- there is one document more, which was not counted
        exfalso
        have hcount' : c.documentCount.toNat = _ := hcount'
        rw [size_insert_of_none hold] at hcount'
        omega
      | some old =>
        have hsize := h.size
        rw [total_of_some _ hold] at hsize
        rw [total_insert] at hsize'
        obtain ⟨hsum, hfits⟩ := (toNat_add_eq_iff hsize).mp hsize'
        refine ⟨old, rfl, hsum, ?_, ?_⟩
        · rw [size_insert_of_some hold, ← hcount]
          exact UInt64.toNat_lt _
        · rw [total_insert]
          exact hfits
    · intro hc
      obtain ⟨old, hold, hsum, hfits⟩ := hc hreadable ⟨value, hwritable⟩
      have hsize := h.size
      rw [total_of_some _ hold] at hsize
      refine ⟨h.holds.write hwritable.encoded rfl rfl, ?_, ?_⟩
      · rw [size_insert_of_some hold]
        exact hcount
      · have hroom := hfits.2
        rw [total_insert] at hroom ⊢
        exact (toNat_add_eq_iff hsize).mpr ⟨hsum, hroom⟩

theorem exact_delete_iff (h : Exact env s) :
    Exact env (step env s (now, .delete docId)) ↔ Countable env s (now, .delete docId) := by
  obtain ⟨c, stored⟩ := s
  have hcount : c.documentCount.toNat = stored.size := h.count
  rcases delete_cases env now c docId with
    ⟨hnothing, hresult, hsame⟩ | ⟨hreadable, hfound, heq⟩
  · have hstep : step env (c, stored) (now, .delete docId) = (c, stored) := by
      refine Prod.ext hsame ?_
      simp only [step, storedAfter]
    rw [hstep]
    refine iff_of_true h ?_
    intro hreadable old hold
    obtain ⟨value, hvalue⟩ := h.holds.lookup_iff.mp ⟨old, hold⟩
    rw [hnothing.resolve_left (not_not_intro hreadable)] at hvalue
    cases hvalue
  · obtain ⟨old, hold⟩ := h.holds.lookup_iff.mpr hfound
    have hsize : c.totalSizeBytes.toNat =
        old.actualSize +
          total Document.actualSize (stored.erase (makeDocumentKey c.name docId)) := by
      rw [← total_of_some _ hold]
      exact h.size
    unfold Countable
    simp only [step, after, storedAfter, heq]
    constructor
    · rintro ⟨-, -, hsize'⟩ - other hother
      obtain rfl := Option.some.inj (hold.symm.trans hother)
      have hsize' : c.totalSizeBytes.toNat =
        total Document.actualSize (stored.erase (makeDocumentKey c.name docId)) := hsize'
      omega
    · intro hc
      have hzero := hc hreadable old hold
      refine ⟨h.holds.erase rfl rfl, ?_, ?_⟩
      · have hgone := size_erase_of_some hold
        dsimp only at hgone ⊢
        rw [toNat_sub_one (by omega)]
        omega
      · show c.totalSizeBytes.toNat =
          total Document.actualSize (stored.erase (makeDocumentKey c.name docId))
        omega

theorem exact_step_iff (h : Exact env s) (call : DateTime × CollectionOperation) :
    Exact env (step env s call) ↔ Countable env s call := by
  obtain ⟨now, call⟩ := call
  cases call with
  | insert doc => exact exact_insert_iff h
  | update docId doc => exact exact_update_iff h
  | delete docId => exact exact_delete_iff h

/-- What was read back has no size: its metadata is not stored. -/
theorem sizeBytes_of_get {c : Collection} {now : DateTime} {docId : DocumentId}
    {oldDoc : Option Document} (hget : c.get env now docId = .ok oldDoc) :
    (oldDoc.map Document.sizeBytes).getD 0 = 0 := by
  rcases get_cases env now c docId with ⟨-, e, herror⟩ | ⟨-, own, hown, hsize, -⟩
  · rw [herror] at hget
    cases hget
  · rw [hown] at hget
    cases hget
    exact hsize

theorem noUnderflow_of_exact (h : Exact env s) (call : DateTime × CollectionOperation) :
    NoUnderflow env s call := by
  obtain ⟨now, call⟩ := call
  cases call with
  | insert doc => exact trivial
  | update docId doc =>
    intro oldDoc hget
    rw [sizeBytes_of_get hget, Nat.zero_sub]
    exact Nat.zero_le _
  | delete docId =>
    constructor
    · intro hok
      rcases delete_cases env now s.1 docId with
        ⟨-, hresult, -⟩ | ⟨-, hfound, -⟩
      · exact absurd hok hresult
      · obtain ⟨old, hold⟩ := h.holds.lookup_iff.mpr hfound
        have hgone := size_erase_of_some hold
        have hcount := h.count
        intro hzero
        rw [hzero] at hcount
        have hzero : (0 : UInt64).toNat = 0 := rfl
        omega
    · intro doc hget
      have hsize : doc.sizeBytes = 0 := sizeBytes_of_get hget
      rw [hsize]
      exact Nat.zero_le _

end

/-! ## Runs -/

/-- After every call of a run the counters are those of the documents in the layer, and no call
takes more off one than it has. -/
def StatisticsExact (env : CollectionEnv) (start : Collection × StoredDocuments)
    (calls : List (DateTime × CollectionOperation)) : Prop :=
  (∀ n, Exact env ((calls.take n).foldl (step env) start)) ∧
    MeetsAlong (step env) (NoUnderflow env) start calls

theorem exact_new_iff {name : String} {schema : Schema} {layer : PersistentLayer}
    {stored : StoredDocuments} (h : (Collection.new name schema layer).Holds env stored) :
    Exact env (Collection.new name schema layer, stored) ↔ stored = ∅ := by
  constructor
  · intro hexact
    have hcount : 0 = stored.size := hexact.count
    apply Std.ExtTreeMap.eq_empty_iff_size_eq_zero.mpr hcount.symm
  · rintro rfl
    exact ⟨h, rfl, (total_empty _).symm⟩

/-- The statistics of a new collection are exact along a run exactly when nothing was stored under
its name before and every call is one the counters follow. -/
theorem statisticsExact_iff (env : CollectionEnv) (name : String) (schema : Schema)
    (layer : PersistentLayer) (stored : StoredDocuments)
    (hholds : (Collection.new name schema layer).Holds env stored)
    (calls : List (DateTime × CollectionOperation)) :
    StatisticsExact env (Collection.new name schema layer, stored) calls ↔
      stored = ∅ ∧ MeetsAlong (step env) (Countable env)
        (Collection.new name schema layer, stored) calls := by
  rw [← exact_new_iff hholds]
  constructor
  · intro ⟨hexact, _⟩
    have hstart := hexact 0
    exact ⟨hstart, (forall_take_iff_meetsAlong (Exact env) (fun _ => True) (fun _ _ => trivial)
      (fun _ hI => exact_step_iff hI _) trivial hstart).mp hexact⟩
  · intro ⟨hstart, hcalls⟩
    refine ⟨(forall_take_iff_meetsAlong (Exact env) (fun _ => True) (fun _ _ => trivial)
      (fun _ hI => exact_step_iff hI _) trivial hstart).mpr hcalls, ?_⟩
    exact hcalls.imp (I := Exact env) (fun hI hP => (exact_step_iff hI _).mpr hP)
      (fun hI _ => noUnderflow_of_exact hI _) hstart

/-- A collection without declared fields, over an empty layer. -/
def fresh : Collection × StoredDocuments := (.new "users" (.ofFields []) .empty, ∅)

theorem fresh_holds : fresh.1.Holds plainCollectionEnv fresh.2 where
  encoded key doc h := absurd h (by simp [fresh])
  absent docId _ := by simp [fresh, new, PersistentLayer.empty]

theorem fresh_insert_exact : StatisticsExact plainCollectionEnv fresh
    [(0, .insert ((emptyDocument ⟨7⟩).insert 0 "n" .null))] := by
  apply (statisticsExact_iff plainCollectionEnv "users" (.ofFields []) .empty ∅ fresh_holds _).mpr
  refine ⟨rfl, ?_, trivial⟩
  intro _
  exact ⟨by simp, by rfl, by decide +kernel, by decide +kernel⟩

/-- An identifier that is inserted twice is counted twice. -/
theorem overwritten_counted_twice : ¬StatisticsExact plainCollectionEnv fresh
    [(0, .insert (emptyDocument ⟨7⟩)), (0, .insert (emptyDocument ⟨7⟩))] := by
  intro h
  exact absurd (h.1 2).count (by decide +kernel)

end Collection

end VedDb
