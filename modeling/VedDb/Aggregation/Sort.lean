import VedDb.Aggregation.Stages
import VedDb.Lib.SortRuns
import VedDb.Query.Queries

/-!
# The sort stage

`Pipeline::apply_sort` of `aggregation.rs` and `parse_sort` of `query/parser.rs`, under the keys
that a client wrote one after another.  The stage holds them in a hash map and goes through them in
the order of that map.  The sort of a query comes in an object, which lists them by their names.
Neither knows the order in which they were written.
-/

namespace VedDb

open Comparator

/-- The keys of a sort, in the order in which a client wrote them. -/
structure ClientKeys (α : Type) where
  entries : List (String × α)
  nodup : (entries.map Prod.fst).Nodup

/-- The map that they are read into. -/
def ClientKeys.received {α : Type} (keys : ClientKeys α) : HashMap α := .ofList keys.entries

namespace Pipeline

/-- `MAX_SORT_DOCS`. -/
def maxSortDocs : Nat := 1000000

/-- `apply_sort`; nothing where the sort panics. -/
def applySort (sortBy : SortBy Document) (order : MapOrder Int32) (docs : List Document)
    (fields : HashMap Int32) : Option (List Document) :=
  sortBy.sort (compareBy (order.arrange fields.toList)) (docs.take maxSortDocs)

end Pipeline

/-! ## What is received -/

namespace ClientKeys

variable {α β : Type} (keys : ClientKeys α)

def map (f : α → β) : ClientKeys β where
  entries := keys.entries.map fun entry => (entry.1, f entry.2)
  nodup := by
    rw [List.map_map]
    exact keys.nodup

/-- The keys arrive, in some order. -/
theorem received_perm : keys.received.toList.Perm keys.entries := toList_ofList_perm keys.nodup

/-- What is received is sorted by the names, whatever the values are. -/
theorem toList_received_map (f : α → β) : (keys.map f).received.toList =
    keys.received.toList.map fun entry => (entry.1, f entry.2) := by
  have hordered : (keys.map f).received.toList.Pairwise fun a b => compare a.1 b.1 = .lt :=
    Std.ExtTreeMap.ordered_keys_toList
  have hordered' : (keys.received.toList.map fun entry => (entry.1, f entry.2)).Pairwise
      fun a b => compare a.1 b.1 = .lt := List.pairwise_map.mpr Std.ExtTreeMap.ordered_keys_toList
  refine List.Perm.eq_of_pairwise ?_ hordered hordered'
    ((keys.map f).received_perm.trans (keys.received_perm.map _).symm)
  intro a b _ _ hlt hgt
  rw [Std.OrientedCmp.gt_iff_lt.mpr hgt] at hlt
  cases hlt

end ClientKeys

def SortSpecification.byName (sort : SortSpecification) : SortSpecification :=
  { fields := (Std.ExtTreeMap.ofList sort.fields compare).toList }

namespace QueryParser

theorem parseOrders_eq_ok_iff {members : List (String × JsonValue)}
    {sort sort' : SortSpecification} : parseOrders members sort = .ok sort' ↔
      ∃ fields, sort'.fields = sort.fields ++ fields ∧
        members.map (fun member => (member.1, parseOrder member.2)) =
          fields.map fun field => (field.1, .ok field.2) := by
  induction members generalizing sort with
  | nil =>
    rw [parseOrders, Except.ok.injEq]
    constructor
    · rintro rfl
      exact ⟨[], (List.append_nil _).symm, rfl⟩
    · rintro ⟨fields, hfields, hmap⟩
      obtain ⟨own⟩ := sort
      obtain ⟨own'⟩ := sort'
      rw [List.map_nil] at hmap
      rw [List.map_eq_nil_iff.mp hmap.symm, List.append_nil] at hfields
      exact congrArg SortSpecification.mk hfields.symm
  | cons member members ih =>
    obtain ⟨field, val⟩ := member
    rw [parseOrders]
    cases hval : parseOrder val with
    | error error =>
      refine iff_of_false (by simp) ?_
      rintro ⟨fields, -, hmap⟩
      rw [List.map_cons, hval] at hmap
      obtain ⟨own, rest, -, hown, -⟩ := List.map_eq_cons_iff.mp hmap.symm
      cases (Prod.mk.inj hown).2
    | ok order =>
      refine ih.trans ?_
      constructor
      · rintro ⟨fields, hfields, hmap⟩
        refine ⟨(field, order) :: fields, ?_, ?_⟩
        · rw [hfields, SortSpecification.add, List.append_assoc, List.singleton_append]
        · rw [List.map_cons, List.map_cons, hval, hmap]
      · rintro ⟨fields, hfields, hmap⟩
        rw [List.map_cons, hval] at hmap
        obtain ⟨⟨name, own⟩, rest, rfl, hown, hrest⟩ := List.map_eq_cons_iff.mp hmap.symm
        obtain rfl : name = field := congrArg Prod.fst hown
        obtain rfl : own = order := Except.ok.inj (congrArg Prod.snd hown)
        refine ⟨rest, ?_, hrest.symm⟩
        rw [hfields, SortSpecification.add, List.append_assoc, List.singleton_append]

variable {keys : ClientKeys JsonValue} {client : SortSpecification}

theorem parseSort_received (hclient : parseSort (.object keys.entries) = .ok client) :
    parseSort (.object keys.received.toList) = .ok client.byName ∧
      client.byName.fields.Perm client.fields := by
  rw [parseSort, parseOrders_eq_ok_iff] at hclient
  obtain ⟨fields, hfields, hmap⟩ := hclient
  obtain rfl : client.fields = fields := hfields
  have hnames : keys.entries.map Prod.fst = client.fields.map Prod.fst := by
    have hfst := congrArg (List.map Prod.fst) hmap
    rwa [List.map_map, List.map_map] at hfst
  let own : ClientKeys SortOrder := ⟨client.fields, hnames ▸ keys.nodup⟩
  refine ⟨?_, own.received_perm⟩
  rw [parseSort, parseOrders_eq_ok_iff]
  refine ⟨client.byName.fields, rfl, ?_⟩
  have hsame : (keys.map parseOrder).received =
      (own.map (Except.ok (ε := QueryParseError))).received :=
    congrArg (Std.ExtTreeMap.ofList · compare) hmap
  rw [← keys.toList_received_map parseOrder, hsame]
  exact own.toList_received_map _

end QueryParser

/-! ## Sorting by the keys as they were written -/

/-- The order of the names turned round. -/
def MapOrder.reversed (α : Type) : MapOrder α :=
  { arrange := List.reverse, perm := List.reverse_perm }

/-- A hash map may be iterated in any order. -/
theorem MapOrder.exists_arrange {α : Type} {entries entries' : List (String × α)}
    (h : entries'.Perm entries) : ∃ order : MapOrder α, order.arrange entries = entries' := by
  classical
  refine ⟨⟨fun own => if own = entries then entries' else own, fun own => ?_⟩, if_pos rfl⟩
  split
  next heq => exact heq ▸ h
  next => exact .refl _

namespace Pipeline

theorem fields_sided (fields : List (String × Int32)) : Sided (compareBy fields) := by
  rw [compareBy_eq]
  exact compareBy_sided compareSome_orders

/-- The comparators of all orders of a map agree on two documents that no two keys put the opposite
way. -/
theorem arrangements_agree_iff (keys : ClientKeys Int32) (a b : Document) :
    (∀ order : MapOrder Int32,
      compareBy (order.arrange keys.received.toList) a b = compareBy keys.entries a b) ↔
      ¬Opposed compareField keys.entries a b := by
  rw [← lexicographic_perm_iff]
  constructor
  · intro h keys' hperm
    obtain ⟨order, horder⟩ := MapOrder.exists_arrange (hperm.trans keys.received_perm.symm)
    have hown := h order
    rwa [horder] at hown
  · intro h order
    exact h _ ((order.perm _).trans keys.received_perm)

/-- Every run of the stage sorts as the client wrote, and two of them alike, exactly when it takes
all the documents, the keys compare them by a total preorder, and no two keys put two of them the
opposite way. -/
theorem applySort_in_order_iff (keys : ClientKeys Int32) (docs : List Document) :
    ((∀ sortBy order, ∃ sorted, applySort sortBy order docs keys.received = some sorted ∧
        StableSort (compareBy keys.entries) docs sorted) ∧
      ∀ sortBy sortBy' order order',
        applySort sortBy order docs keys.received = applySort sortBy' order' docs keys.received) ↔
    docs.length ≤ maxSortDocs ∧ TotalPreorderOn (compareBy keys.entries) (· ∈ docs) ∧
      ∀ a ∈ docs, ∀ b ∈ docs, ¬Opposed compareField keys.entries a b := by
  by_cases hlen : docs.length ≤ maxSortDocs
  · have hnonempty : Nonempty (MapOrder Int32) := ⟨.sorted Int32⟩
    have hruns := runs_sort_iff
      (fun order : MapOrder Int32 => compareBy (order.arrange keys.received.toList))
      (fun order => fields_sided _) (fields_sided keys.entries)
      (fun order => lexicographic_ties_iff ((order.perm _).trans keys.received_perm)) docs
    simp only [applySort, List.take_of_length_le hlen]
    rw [and_iff_right hlen, hruns]
    simp only [← arrangements_agree_iff]
    exact and_congr_right' ⟨fun h a ha b hb order => h order a ha b hb,
      fun h order a ha b hb => h a ha b hb order⟩
  · refine iff_of_false (fun h => ?_) fun h => hlen h.1
    obtain ⟨sorted, hsort, hstable⟩ := h.1 (.merge Document) (.sorted Int32)
    have htaken : (docs.take maxSortDocs).length = docs.length :=
      (((SortBy.merge Document).perm hsort).symm.trans hstable.perm).length_eq
    rw [List.length_take] at htaken
    omega

end Pipeline

theorem QueryExecutor.sort_sided (sort : SortSpecification) : Sided (compareBy sort) := by
  rw [compareBy_eq]
  exact Comparator.compareBy_sided compareValues_orders

namespace ClientKeys

/-- The sort of a stage, and the sort of a query, are the sorts that the client wrote, in every run
alike, exactly when the keys compare the documents by a total preorder and the order of the keys
does not matter to any two of them: to the stage in any order, to a query in that of the names. -/
theorem sorted_as_written_iff (stageKeys : ClientKeys Int32) (queryKeys : ClientKeys JsonValue)
    {client : SortSpecification}
    (hclient : QueryParser.parseSort (.object queryKeys.entries) = .ok client)
    (docs : List Document) :
    (((∀ sortBy order, ∃ sorted,
        Pipeline.applySort sortBy order docs stageKeys.received = some sorted ∧
          StableSort (Pipeline.compareBy stageKeys.entries) docs sorted) ∧
      ∀ sortBy sortBy' order order',
        Pipeline.applySort sortBy order docs stageKeys.received =
          Pipeline.applySort sortBy' order' docs stageKeys.received) ↔
      docs.length ≤ Pipeline.maxSortDocs ∧
      TotalPreorderOn (Pipeline.compareBy stageKeys.entries) (· ∈ docs) ∧
      ∀ a ∈ docs, ∀ b ∈ docs, ¬Opposed Pipeline.compareField stageKeys.entries a b) ∧
    ((∃ sort, QueryParser.parseSort (.object queryKeys.received.toList) = .ok sort ∧
        (∀ sortBy, ∃ sorted, QueryExecutor.applySort sortBy docs sort = some sorted ∧
          StableSort (QueryExecutor.compareBy client) docs sorted) ∧
        ∀ sortBy sortBy', QueryExecutor.applySort sortBy docs sort =
          QueryExecutor.applySort sortBy' docs sort) ↔
      TotalPreorderOn (QueryExecutor.compareBy client) (· ∈ docs) ∧
      ∀ a ∈ docs, ∀ b ∈ docs,
        QueryExecutor.compareBy client.byName a b = QueryExecutor.compareBy client a b) := by
  refine ⟨Pipeline.applySort_in_order_iff stageKeys docs, ?_⟩
  obtain ⟨hreceived, hperm⟩ := QueryParser.parseSort_received hclient
  have hruns := runs_sort_iff (fun _ : Unit => QueryExecutor.compareBy client.byName)
    (fun _ => QueryExecutor.sort_sided _) (QueryExecutor.sort_sided client)
    (fun _ => lexicographic_ties_iff hperm) docs
  simp only [forall_const] at hruns
  rw [← hruns]
  simp only [hreceived, Except.ok.injEq, exists_eq_left', QueryExecutor.applySort]

/-- A document with two numbers. -/
def scored (a b : Int32) : Document where
  id := ⟨0⟩
  fields := ((∅ : Fields).insert "a" (.int32 a)).insert "b" (.int32 b)
  metadata := .default 0

/-- Two documents that their fields put the opposite way. -/
def crossed : List Document := [scored 1 2, scored 2 1]

def bothUp : ClientKeys Int32 where
  entries := [("a", 1), ("b", 1)]
  nodup := by decide

def bThenA : ClientKeys JsonValue where
  entries := [("b", .number (.posInt 1)), ("a", .number (.posInt 1))]
  nodup := by decide

def bThenASort : SortSpecification := { fields := [("b", .ascending), ("a", .ascending)] }

theorem sorted_as_written_iff_crossed :
    ¬∃ sort, QueryParser.parseSort (.object bThenA.received.toList) = .ok sort ∧
      (∀ sortBy, ∃ sorted, QueryExecutor.applySort sortBy crossed sort = some sorted ∧
        StableSort (QueryExecutor.compareBy bThenASort) crossed sorted) ∧
      ∀ sortBy sortBy', QueryExecutor.applySort sortBy crossed sort =
        QueryExecutor.applySort sortBy' crossed sort := by
  have hclient : QueryParser.parseSort (.object bThenA.entries) = .ok bThenASort := rfl
  rw [(sorted_as_written_iff ⟨[], .nil⟩ bThenA hclient crossed).2]
  rintro ⟨-, h⟩
  have hsame : Ordering.lt = .gt :=
    h (scored 1 2) List.mem_cons_self (scored 2 1) (List.mem_cons_of_mem _ List.mem_cons_self)
  cases hsame

/-- A query that is to sort by the second field and then by the first one sorts by the first one.
Two runs of a stage that sorts by both fields put the documents the opposite way. -/
theorem sorted_by_name :
    QueryParser.parseSort (.object bThenA.received.toList) = .ok bThenASort.byName ∧
      (¬∃ sorted,
        QueryExecutor.applySort (.merge Document) crossed bThenASort.byName = some sorted ∧
          StableSort (QueryExecutor.compareBy bThenASort) crossed sorted) ∧
      Pipeline.applySort (.merge Document) (.sorted Int32) crossed bothUp.received ≠
        Pipeline.applySort (.merge Document) (.reversed Int32) crossed bothUp.received := by
  have hpair (cmp : Document → Document → Ordering) : (SortBy.merge Document).sort cmp crossed =
      some (if cmp (scored 1 2) (scored 2 1) = .gt then crossed.reverse else crossed) :=
    SortBy.merge_pair cmp _ _
  refine ⟨rfl, ?_, fun hsame => ?_⟩
  · rintro ⟨sorted, hsort, hstable⟩
    rw [QueryExecutor.applySort, hpair, if_neg (by decide)] at hsort
    have hordered := hstable.ordered
    rw [← Option.some.inj hsort] at hordered
    exact List.rel_of_pairwise_cons hordered List.mem_cons_self rfl
  · rw [Pipeline.applySort, Pipeline.applySort, List.take_of_length_le (by decide), hpair, hpair,
      if_neg (by decide), if_pos (by decide)] at hsame
    have hfirst : some (Value.int32 1) = some (.int32 2) := congrArg
      (fun docs => (docs.bind List.head?).bind fun doc => doc.fields["a"]?) hsame
    cases hfirst

end ClientKeys

end VedDb
