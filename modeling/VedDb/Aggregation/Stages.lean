import VedDb.Limits
import VedDb.Query.Queries

/-!
# Stages

The stages of an aggregation pipeline, from `aggregation.rs`.  A run of one draws the orders in
which its hash maps are iterated, and the identifiers and instants of the documents it makes.
-/

namespace VedDb

/-- `HashMap<String, V>`. -/
abbrev HashMap (α : Type) := Std.ExtTreeMap String α

inductive AggregateOp where
  | sum (fieldRef : JsonValue)
  | count
  | avg (field : String)
  | min (field : String)
  | max (field : String)

inductive PipelineStage where
  /-- `Match`. -/
  | matching (filter : JsonValue)
  | project (fields : HashMap Int32)
  | sort (fields : HashMap Int32)
  | limit (count : UInt64)
  | skip (count : UInt64)
  | group (groupBy : JsonValue) (fields : HashMap AggregateOp)

structure Pipeline where
  stages : List PipelineStage

inductive AggregationError where
  | invalidStage (message : String)
  | invalidOperation (message : String)
  | executionError (message : String)
deriving DecidableEq

/-- The order in which a hash map is iterated. -/
structure MapOrder (α : Type) where
  arrange : List (String × α) → List (String × α)
  perm : ∀ entries, (arrange entries).Perm entries

/-- The order of the names. -/
def MapOrder.sorted (α : Type) : MapOrder α := { arrange := id, perm := fun _ => .refl _ }

namespace MapOrder

variable {α β : Type} (order : MapOrder α) (map : HashMap α)

theorem mem_arrange_iff {key : String} {value : α} :
    (key, value) ∈ order.arrange map.toList ↔ map[key]? = some value :=
  (order.perm _).mem_iff.trans Std.ExtTreeMap.mem_toList_iff_getElem?_eq_some

theorem keys_nodup : ((order.arrange map.toList).map Prod.fst).Nodup := by
  rw [((order.perm _).map Prod.fst).nodup_iff, Std.ExtTreeMap.map_fst_toList_eq_keys]
  exact Std.ExtTreeMap.nodup_keys

theorem lookup_insertMany (f : α → β) (base : HashMap β) (key : String) :
    (base.insertMany ((order.arrange map.toList).map fun entry => (entry.1, f entry.2)))[key]? =
      ((map[key]?).map f).or base[key]? := by
  have hkeys : ((order.arrange map.toList).map fun entry => (entry.1, f entry.2)).map Prod.fst =
      (order.arrange map.toList).map Prod.fst := by
    rw [List.map_map]
    rfl
  have hnodup := order.keys_nodup map
  cases hown : map[key]? with
  | none =>
    rw [Std.ExtTreeMap.getElem?_insertMany_list_of_contains_eq_false]
    · rfl
    · rw [hkeys, List.contains_eq_mem, decide_eq_false_iff_not]
      intro hmem
      obtain ⟨entry, hentry, rfl⟩ := List.mem_map.mp hmem
      rw [(order.mem_arrange_iff map).mp hentry] at hown
      cases hown
  | some value =>
    have hmem : (key, f value) ∈
        (order.arrange map.toList).map fun entry => (entry.1, f entry.2) :=
      List.mem_map.mpr ⟨(key, value), (order.mem_arrange_iff map).mpr hown, rfl⟩
    rw [← hkeys, List.Nodup, List.pairwise_map] at hnodup
    refine Std.ExtTreeMap.getElem?_insertMany_list_of_mem Std.ReflOrd.compare_self ?_ hmem
    exact hnodup.imp fun hne heq => hne (Std.LawfulEqOrd.eq_of_compare heq)

end MapOrder

/-- What a new document draws: its identifier, and the instants at which its clock is read. -/
structure DocumentDraw where
  id : DocumentId
  clock : Nat → DateTime

end VedDb
