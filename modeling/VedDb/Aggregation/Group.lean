import Mathlib.Algebra.BigOperators.Ring.Finset
import VedDb.Aggregation.Stages
import VedDb.Lib.Totals

/-!
# The group stage

`Pipeline::apply_group` of `aggregation.rs`.  Documents are grouped by the text of a field.  Each
group has an accumulator for each output name, into which its documents go one after the other.
-/

namespace VedDb

open Groups (ofKey)

/-- The arithmetic of `f64`. -/
structure FloatArithmetic where
  add : F64 → F64 → F64
  div : F64 → F64 → F64
  min : F64 → F64 → F64
  max : F64 → F64 → F64

/-- The texts that `Debug` gives to values and to JSON. -/
structure DebugTexts where
  value : Value → String
  json : JsonValue → String

/-- `s.strip_prefix('$')`. -/
def stripDollar (s : String) : Option String :=
  match s.toList with
  | '$' :: rest => some (.ofList rest)
  | _ => none

/-- The field that is summed, if the reference is to a field. -/
def sumField (fieldRef : JsonValue) : Option String := fieldRef.asStr.bind stripDollar

structure AccumulatorState where
  op : AggregateOp
  sum : F64
  count : UInt64
  min : Option F64
  max : Option F64

namespace AccumulatorState

def new (op : AggregateOp) : AccumulatorState :=
  { op, sum := ⟨0⟩, count := 0, min := none, max := none }

def toNumber : Value → F64
  | .int32 i => .ofInt i.toInt
  | .int64 i => .ofInt i.toInt
  | .float64 f => f
  | _ => ⟨0⟩

variable (floats : FloatArithmetic)

/-- `add`.  Nothing in it fails. -/
def add (doc : Document) (state : AccumulatorState) :
    Except AggregationError AccumulatorState :=
  match state.op with
  | .sum fieldRef =>
    match (sumField fieldRef).bind (doc.fields[·]?) with
    | some val => .ok { state with sum := floats.add state.sum (toNumber val) }
    | none => .ok state
  | .count => .ok { state with count := state.count + 1 }
  | .avg field =>
    match doc.fields[field]? with
    | some val =>
      .ok { state with sum := floats.add state.sum (toNumber val), count := state.count + 1 }
    | none => .ok state
  | .min field =>
    match doc.fields[field]? with
    | some val =>
      let num := toNumber val
      .ok { state with min := some (state.min.elim num fun m => floats.min m num) }
    | none => .ok state
  | .max field =>
    match doc.fields[field]? with
    | some val =>
      let num := toNumber val
      .ok { state with max := some (state.max.elim num fun m => floats.max m num) }
    | none => .ok state

def value (state : AccumulatorState) : Value :=
  match state.op with
  | .sum _ => .float64 state.sum
  | .count => .int64 state.count.toInt64
  | .avg _ =>
    if 0 < state.count then .float64 (floats.div state.sum (.ofInt state.count.toNat))
    else .float64 ⟨0⟩
  | .min _ => .float64 (state.min.getD ⟨0⟩)
  | .max _ => .float64 (state.max.getD ⟨0⟩)

end AccumulatorState

structure GroupAccumulator where
  groupKey : String
  fields : HashMap AccumulatorState

namespace GroupAccumulator

def new (groupKey : String) : GroupAccumulator := { groupKey, fields := ∅ }

variable (floats : FloatArithmetic)

def accumulate (field : String) (op : AggregateOp) (doc : Document) (acc : GroupAccumulator) :
    Except AggregationError GroupAccumulator :=
  (((acc.fields[field]?).getD (.new op)).add floats doc).map fun state =>
    { acc with fields := acc.fields.insert field state }

/-- The loop of `apply_group` over the accumulators. -/
def accumulateAll (doc : Document) : List (String × AggregateOp) → GroupAccumulator →
    Except AggregationError GroupAccumulator
  | [], acc => .ok acc
  | (field, op) :: accumulators, acc =>
    match acc.accumulate floats field op doc with
    | .error e => .error e
    | .ok acc => accumulateAll doc accumulators acc

/-- The loop of `to_document` over the accumulators. -/
def insertValues (clock : Nat → DateTime) : List (String × AccumulatorState) → Nat → Document →
    Document
  | [], _, doc => doc
  | (field, state) :: fields, reads, doc =>
    insertValues clock fields (reads + 1) (doc.insert (clock reads) field (state.value floats))

def toDocument (order : MapOrder AccumulatorState) (draw : DocumentDraw) (acc : GroupAccumulator) :
    Document :=
  let doc := Document.new (draw.clock 0) draw.id
  let doc := doc.insert (draw.clock 1) "_id" (.string acc.groupKey)
  insertValues floats draw.clock (order.arrange acc.fields.toList) 2 doc

end GroupAccumulator

namespace Pipeline

/-- `MAX_GROUP_SIZE`. -/
def maxGroupSize : Nat := 100000

def extractGroupKey (debug : DebugTexts) (groupBy : JsonValue) (doc : Document) : String :=
  match groupBy with
  | .string s =>
    match (stripDollar s).bind (doc.fields[·]?) with
    | some val => debug.value val
    | none => s
  | _ => debug.json groupBy

/-- What a run of `apply_group` draws: the orders of its hash maps, and of each document it makes
what that draws. -/
structure GroupRun where
  accumulators : MapOrder AggregateOp
  groups : MapOrder GroupAccumulator
  fields : String → MapOrder AccumulatorState
  draws : Nat → DocumentDraw

variable (floats : FloatArithmetic) (debug : DebugTexts) (run : GroupRun)

/-- The loop of `apply_group` over the documents. -/
def groupDocuments (groupBy : JsonValue) (accumulators : HashMap AggregateOp) : List Document →
    HashMap GroupAccumulator → Except AggregationError (HashMap GroupAccumulator)
  | [], groups => .ok groups
  | doc :: docs, groups =>
    let groupKey := extractGroupKey debug groupBy doc
    if !groups.contains groupKey && decide (maxGroupSize ≤ groups.size) then
      .error (.executionError "Group size limit exceeded (max: 100000)")
    else
      let acc := (groups[groupKey]?).getD (.new groupKey)
      match acc.accumulateAll floats doc (run.accumulators.arrange accumulators.toList) with
      | .error e => .error e
      | .ok acc => groupDocuments groupBy accumulators docs (groups.insert groupKey acc)

def applyGroup (docs : List Document) (groupBy : JsonValue) (accumulators : HashMap AggregateOp) :
    Except AggregationError (List Document) :=
  (groupDocuments floats debug run groupBy accumulators docs ∅).map fun groups =>
    (run.groups.arrange groups.toList).mapIdx fun i group =>
      group.2.toDocument floats (run.fields group.1) (run.draws i)

end Pipeline

/-! ## What a group is to hold -/

/-- The number that an operation takes from a document. -/
def AggregateOp.number (op : AggregateOp) (doc : Document) : Option F64 :=
  match op with
  | .sum fieldRef => ((sumField fieldRef).bind (doc.fields[·]?)).map AccumulatorState.toNumber
  | .count => none
  | .avg field | .min field | .max field => (doc.fields[field]?).map AccumulatorState.toNumber

/-- One number after the other, taken together from the first one on. -/
def foldNumbers (f : F64 → F64 → F64) : List F64 → F64
  | [] => ⟨0⟩
  | n :: ns => ns.foldl f n

/-- An operation over the documents of a group, in their order. -/
def AggregateOp.over (floats : FloatArithmetic) (op : AggregateOp) (docs : List Document) : Value :=
  let numbers := docs.filterMap op.number
  match op with
  | .sum _ => .float64 (numbers.foldl floats.add ⟨0⟩)
  | .count => .int64 (Int64.ofNat docs.length)
  | .avg _ =>
    if numbers.isEmpty then .float64 ⟨0⟩
    else .float64 (floats.div (numbers.foldl floats.add ⟨0⟩) (.ofInt numbers.length))
  | .min _ => .float64 (foldNumbers floats.min numbers)
  | .max _ => .float64 (foldNumbers floats.max numbers)

def groupFields (floats : FloatArithmetic) (accumulators : HashMap AggregateOp) (key : String)
    (docs : List Document) : Fields :=
  (accumulators.map fun _ op => op.over floats docs).insert "_id" (.string key)

/-! ## One accumulator -/

namespace AccumulatorState

def added (floats : FloatArithmetic) (state : AccumulatorState) (doc : Document) :
    AccumulatorState :=
  match state.add floats doc with
  | .ok state => state
  | .error _ => state

/-- The state after a number. -/
def took (floats : FloatArithmetic) (op : AggregateOp) (state : AccumulatorState) (num : F64) :
    AccumulatorState :=
  match op with
  | .sum _ => { state with sum := floats.add state.sum num }
  | .count => state
  | .avg _ => { state with sum := floats.add state.sum num, count := state.count + 1 }
  | .min _ => { state with min := some (state.min.elim num fun m => floats.min m num) }
  | .max _ => { state with max := some (state.max.elim num fun m => floats.max m num) }

variable {floats : FloatArithmetic} {state : AccumulatorState} {op : AggregateOp}

theorem add_eq_took (h : state.op = op) (hcount : op ≠ .count) (doc : Document) :
    state.add floats doc = .ok ((op.number doc).elim state (took floats op state)) := by
  obtain ⟨own, sum, count, min, max⟩ := state
  obtain rfl : own = op := h
  cases own with
  | count => exact absurd rfl hcount
  | sum fieldRef =>
    rw [add.eq_def, AggregateOp.number]
    dsimp only
    cases (sumField fieldRef).bind (doc.fields[·]?) with
    | none => rfl
    | some val => rfl
  | avg field | min field | max field =>
    rw [add.eq_def, AggregateOp.number]
    dsimp only
    cases doc.fields[field]? with
    | none => rfl
    | some val => rfl

theorem add_eq (state : AccumulatorState) (doc : Document) :
    state.add floats doc = .ok (state.added floats doc) := by
  rw [added]
  by_cases hcount : state.op = .count
  · rw [add, hcount]
  · rw [add_eq_took rfl hcount]

theorem added_eq_took (h : state.op = op) (hcount : op ≠ .count) (doc : Document) :
    state.added floats doc = (op.number doc).elim state (took floats op state) := by
  rw [added, add_eq_took h hcount]

theorem added_count (h : state.op = .count) (doc : Document) :
    state.added floats doc = { state with count := state.count + 1 } := by
  rw [added, add, h]

theorem took_op (num : F64) : (took floats op state num).op = state.op := by
  cases op with
  | _ => rfl

theorem foldl_added (h : state.op = op) (hcount : op ≠ .count) (docs : List Document) :
    docs.foldl (added floats) state = (docs.filterMap op.number).foldl (took floats op) state := by
  induction docs generalizing state with
  | nil => rfl
  | cons doc docs ih =>
    rw [List.foldl_cons, added_eq_took h hcount, List.filterMap_cons]
    cases op.number doc with
    | none => exact ih h
    | some num => exact ih ((took_op num).trans h)

theorem foldl_new (hcount : op ≠ .count) (docs : List Document) :
    docs.foldl (added floats) (new op) =
      (docs.filterMap op.number).foldl (took floats op) (new op) :=
  foldl_added rfl hcount docs

theorem foldl_took_sum {fieldRef : JsonValue} (numbers : List F64) :
    numbers.foldl (took floats (.sum fieldRef)) state =
      { state with sum := numbers.foldl floats.add state.sum } :=
  List.foldl_hom (fun sum => { state with sum := sum }) fun _ _ => rfl

theorem foldl_took_avg {field : String} (numbers : List F64) :
    numbers.foldl (took floats (.avg field)) state =
      { state with
        sum := numbers.foldl floats.add state.sum
        count := state.count + UInt64.ofNat numbers.length } := by
  induction numbers generalizing state with
  | nil =>
    have hzero : UInt64.ofNat 0 = 0 := rfl
    rw [List.foldl_nil, List.length_nil, hzero, UInt64.add_zero]
    rfl
  | cons num numbers ih =>
    have hcount : state.count + UInt64.ofNat (numbers.length + 1) =
        state.count + 1 + UInt64.ofNat numbers.length := by
      rw [Nat.add_comm, UInt64.ofNat_add, ← UInt64.add_assoc]
      rfl
    rw [List.foldl_cons, ih, List.length_cons, hcount]
    rfl

theorem foldl_added_count (h : state.op = .count) (docs : List Document) :
    docs.foldl (added floats) state =
      { state with count := state.count + UInt64.ofNat docs.length } := by
  induction docs generalizing state with
  | nil =>
    have hzero : UInt64.ofNat 0 = 0 := rfl
    rw [List.foldl_nil, List.length_nil, hzero, UInt64.add_zero]
  | cons doc docs ih =>
    have hcount : state.count + UInt64.ofNat (docs.length + 1) =
        state.count + 1 + UInt64.ofNat docs.length := by
      rw [Nat.add_comm, UInt64.ofNat_add, ← UInt64.add_assoc]
      rfl
    rw [List.foldl_cons, added_count h, List.length_cons, hcount]
    exact ih h

theorem foldl_took_min {field : String} (numbers : List F64) :
    numbers.foldl (took floats (.min field)) state =
      { state with
        min := numbers.foldl (fun least num => some (least.elim num fun m => floats.min m num))
          state.min } :=
  List.foldl_hom (fun least => { state with min := least }) fun _ _ => rfl

theorem foldl_took_max {field : String} (numbers : List F64) :
    numbers.foldl (took floats (.max field)) state =
      { state with
        max := numbers.foldl (fun most num => some (most.elim num fun m => floats.max m num))
          state.max } :=
  List.foldl_hom (fun most => { state with max := most }) fun _ _ => rfl

theorem foldl_some (f : F64 → F64 → F64) (n : F64) (numbers : List F64) :
    numbers.foldl (fun best num => some (best.elim num fun m => f m num)) (some n) =
      some (numbers.foldl f n) :=
  List.foldl_hom some fun _ _ => rfl

/-- From none on the first number is taken as it is. -/
theorem foldl_none (f : F64 → F64 → F64) (numbers : List F64) :
    (numbers.foldl (fun best num => some (best.elim num fun m => f m num)) none).getD ⟨0⟩ =
      foldNumbers f numbers := by
  cases numbers with
  | nil => rfl
  | cons num numbers =>
    rw [List.foldl_cons, Option.elim_none, foldl_some]
    rfl

/-- What a state holds after some documents is its operation over them. -/
theorem value_foldl_added (op : AggregateOp) {docs : List Document} (h : docs.length < 2 ^ 63) :
    (docs.foldl (added floats) (new op)).value floats = op.over floats docs := by
  cases op with
  | count =>
    rw [foldl_added_count rfl, value, AggregateOp.over]
    exact congrArg (fun n : UInt64 => Value.int64 n.toInt64) (UInt64.zero_add _)
  | sum fieldRef =>
    rw [foldl_new AggregateOp.noConfusion, foldl_took_sum]
    rfl
  | avg field =>
    have hlength : (docs.filterMap (AggregateOp.avg field).number).length < 2 ^ 64 :=
      (List.length_filterMap_le _ _).trans_lt (by omega)
    rw [foldl_new AggregateOp.noConfusion, foldl_took_avg, AggregateOp.over]
    generalize docs.filterMap (AggregateOp.avg field).number = numbers at hlength ⊢
    have hcount : (new (.avg field)).count + UInt64.ofNat numbers.length =
        UInt64.ofNat numbers.length := UInt64.zero_add _
    rw [hcount, value]
    dsimp only
    rw [UInt64.toNat_ofNat_of_lt' hlength]
    cases numbers with
    | nil => rfl
    | cons num numbers =>
      have hpos : 0 < UInt64.ofNat (num :: numbers).length := by
        rw [UInt64.lt_iff_toNat_lt, UInt64.toNat_ofNat_of_lt' hlength]
        exact Nat.succ_pos _
      rw [if_pos hpos]
      rfl
  | min field =>
    rw [foldl_new AggregateOp.noConfusion, foldl_took_min]
    exact congrArg Value.float64 (foldl_none floats.min _)
  | max field =>
    rw [foldl_new AggregateOp.noConfusion, foldl_took_max]
    exact congrArg Value.float64 (foldl_none floats.max _)

end AccumulatorState

/-! ## One group -/

namespace GroupAccumulator

/-- A document goes into the state of one output name. -/
def takeIn (floats : FloatArithmetic) (doc : Document) (acc : GroupAccumulator)
    (entry : String × AggregateOp) : GroupAccumulator :=
  { acc with
    fields := acc.fields.insert entry.1
      (((acc.fields[entry.1]?).getD (.new entry.2)).added floats doc) }

def takeAll (floats : FloatArithmetic) (entries : List (String × AggregateOp))
    (acc : GroupAccumulator) (doc : Document) : GroupAccumulator :=
  entries.foldl (takeIn floats doc) acc

variable {floats : FloatArithmetic} {entries : List (String × AggregateOp)}
  {acc : GroupAccumulator} {field : String}

theorem accumulateAll_eq (doc : Document) (entries : List (String × AggregateOp))
    (acc : GroupAccumulator) :
    acc.accumulateAll floats doc entries = .ok (takeAll floats entries acc doc) := by
  induction entries generalizing acc with
  | nil => rfl
  | cons entry entries ih =>
    rw [accumulateAll, accumulate, AccumulatorState.add_eq]
    exact ih _

theorem takeAll_groupKey (doc : Document) :
    (takeAll floats entries acc doc).groupKey = acc.groupKey := by
  induction entries generalizing acc with
  | nil => rfl
  | cons entry entries ih => exact ih

theorem takeAll_of_not_mem (h : field ∉ entries.map Prod.fst) (doc : Document) :
    (takeAll floats entries acc doc).fields[field]? = acc.fields[field]? := by
  induction entries generalizing acc with
  | nil => rfl
  | cons entry entries ih =>
    rw [List.map_cons, List.mem_cons, not_or] at h
    refine (ih h.2).trans ?_
    rw [takeIn, lookup_insert, if_neg (Ne.symm h.1)]

theorem takeAll_of_mem {op : AggregateOp} (hkeys : (entries.map Prod.fst).Nodup)
    (h : (field, op) ∈ entries) (doc : Document) :
    (takeAll floats entries acc doc).fields[field]? =
      some (((acc.fields[field]?).getD (.new op)).added floats doc) := by
  induction entries generalizing acc with
  | nil => cases h
  | cons entry entries ih =>
    rw [List.map_cons, List.nodup_cons] at hkeys
    rcases List.mem_cons.mp h with rfl | h
    · refine (takeAll_of_not_mem hkeys.1 doc).trans ?_
      rw [takeIn, lookup_insert, if_pos rfl]
    · have hne : entry.1 ≠ field := by
        rintro rfl
        exact hkeys.1 (List.mem_map.mpr ⟨_, h, rfl⟩)
      refine (ih hkeys.2 h).trans ?_
      rw [takeIn, lookup_insert, if_neg hne]

theorem foldl_takeAll_of_mem {op : AggregateOp} (hkeys : (entries.map Prod.fst).Nodup)
    (h : (field, op) ∈ entries) (docs : List Document) :
    ((docs.foldl (takeAll floats entries) acc).fields[field]?).getD (.new op) =
      docs.foldl (AccumulatorState.added floats) ((acc.fields[field]?).getD (.new op)) := by
  induction docs generalizing acc with
  | nil => rfl
  | cons doc docs ih =>
    rw [List.foldl_cons, ih, takeAll_of_mem hkeys h, List.foldl_cons, Option.getD_some]

theorem foldl_takeAll_of_not_mem (h : field ∉ entries.map Prod.fst) (docs : List Document) :
    (docs.foldl (takeAll floats entries) acc).fields[field]? = acc.fields[field]? := by
  induction docs generalizing acc with
  | nil => rfl
  | cons doc docs ih => rw [List.foldl_cons, ih, takeAll_of_not_mem h]

theorem foldl_takeAll_groupKey (docs : List Document) :
    (docs.foldl (takeAll floats entries) acc).groupKey = acc.groupKey := by
  induction docs generalizing acc with
  | nil => rfl
  | cons doc docs ih => rw [List.foldl_cons, ih, takeAll_groupKey]

theorem foldl_takeAll_fields {order : MapOrder AggregateOp} {accumulators : HashMap AggregateOp}
    {docs : List Document} (hdocs : docs ≠ []) (key : String) :
    (docs.foldl (takeAll floats (order.arrange accumulators.toList)) (new key)).fields =
      accumulators.map fun _ op =>
        docs.foldl (AccumulatorState.added floats) (AccumulatorState.new op) := by
  have hkeys := order.keys_nodup accumulators
  apply Std.ExtTreeMap.ext_getElem?
  intro field
  rw [Std.ExtTreeMap.getElem?_map]
  cases hop : accumulators[field]? with
  | none =>
    have hnot : field ∉ (order.arrange accumulators.toList).map Prod.fst := by
      intro hmem
      obtain ⟨entry, hentry, rfl⟩ := List.mem_map.mp hmem
      rw [(order.mem_arrange_iff accumulators).mp hentry] at hop
      cases hop
    exact foldl_takeAll_of_not_mem hnot docs
  | some op =>
    -- The last document leaves a state behind.
    obtain ⟨first, last, rfl⟩ := (List.eq_nil_or_concat' docs).resolve_left hdocs
    have hmem := (order.mem_arrange_iff accumulators).mpr hop
    rw [List.foldl_append, List.foldl_cons, List.foldl_nil, takeAll_of_mem hkeys hmem,
      foldl_takeAll_of_mem hkeys hmem, Option.map_some, List.foldl_append]
    rfl

theorem insertValues_fields (clock : Nat → DateTime) (fields : List (String × AccumulatorState))
    (reads : Nat) (doc : Document) :
    (insertValues floats clock fields reads doc).fields =
      doc.fields.insertMany (fields.map fun entry => (entry.1, entry.2.value floats)) := by
  induction fields generalizing reads doc with
  | nil => rw [insertValues, List.map_nil, Std.ExtTreeMap.insertMany_nil]
  | cons entry fields ih =>
    rw [insertValues, ih, List.map_cons, Std.ExtTreeMap.insertMany_cons, Document.insert_fields]

theorem toDocument_fields {order : MapOrder AccumulatorState} {draw : DocumentDraw}
    (h : acc.fields["_id"]? = none) :
    (acc.toDocument floats order draw).fields =
      (acc.fields.map fun _ state => state.value floats).insert "_id" (.string acc.groupKey) := by
  apply Std.ExtTreeMap.ext_getElem?
  intro field
  rw [toDocument, insertValues_fields, order.lookup_insertMany, Document.insert_fields,
    lookup_insert, lookup_insert, Std.ExtTreeMap.getElem?_map]
  by_cases hid : "_id" = field
  · subst hid
    rw [h, if_pos rfl, if_pos rfl]
    rfl
  · rw [if_neg hid, if_neg hid]
    exact Option.or_none

end GroupAccumulator

/-! ## All groups -/

namespace Pipeline

variable {floats : FloatArithmetic} {debug : DebugTexts} {run : GroupRun} {groupBy : JsonValue}
  {accumulators : HashMap AggregateOp} {docs : List Document}

theorem groupDocuments_eq (groups : HashMap GroupAccumulator) :
    groupDocuments floats debug run groupBy accumulators docs groups =
      match Groups.within (extractGroupKey debug groupBy) GroupAccumulator.new
        (GroupAccumulator.takeAll floats (run.accumulators.arrange accumulators.toList))
        maxGroupSize docs groups with
      | none => .error (.executionError "Group size limit exceeded (max: 100000)")
      | some groups => .ok groups := by
  induction docs generalizing groups with
  | nil => rfl
  | cons doc docs ih =>
    rw [groupDocuments, Groups.within]
    dsimp only
    split
    next => rfl
    next =>
      rw [GroupAccumulator.accumulateAll_eq]
      exact ih _

def groupKeys (debug : DebugTexts) (groupBy : JsonValue) (docs : List Document) : List String :=
  (docs.map (extractGroupKey debug groupBy)).dedup

def grouped (floats : FloatArithmetic) (debug : DebugTexts) (order : MapOrder AggregateOp)
    (groupBy : JsonValue) (accumulators : HashMap AggregateOp) (docs : List Document) :
    HashMap GroupAccumulator :=
  docs.foldl (Groups.step (extractGroupKey debug groupBy) GroupAccumulator.new
    (GroupAccumulator.takeAll floats (order.arrange accumulators.toList))) ∅

theorem applyGroup_eq :
    applyGroup floats debug run docs groupBy accumulators =
      if (groupKeys debug groupBy docs).length ≤ maxGroupSize then
        .ok ((run.groups.arrange (grouped floats debug run.accumulators groupBy accumulators
          docs).toList).mapIdx fun i group =>
            group.2.toDocument floats (run.fields group.1) (run.draws i))
      else .error (.executionError "Group size limit exceeded (max: 100000)") := by
  rw [applyGroup, groupDocuments_eq, Groups.within_eq (Nat.zero_le _), Groups.size_grouped,
    ← groupKeys, ← grouped]
  by_cases h : (groupKeys debug groupBy docs).length ≤ maxGroupSize
  · rw [if_pos h, if_pos h]
    rfl
  · rw [if_neg h, if_neg h]
    rfl

theorem applyGroup_error_iff :
    (∃ e, applyGroup floats debug run docs groupBy accumulators = .error e) ↔
      maxGroupSize < (groupKeys debug groupBy docs).length := by
  rw [applyGroup_eq]
  split
  next h =>
    refine iff_of_false ?_ (Nat.not_lt.mpr h)
    rintro ⟨e, he⟩
    cases he
  next h => exact iff_of_true ⟨_, rfl⟩ (Nat.not_le.mp h)

theorem ofKey_length_le (key : String) :
    (ofKey (extractGroupKey debug groupBy) docs key).length ≤ docs.length :=
  List.length_filter_le _ _

theorem ofKey_ne_nil {key : String} (h : key ∈ groupKeys debug groupBy docs) :
    ofKey (extractGroupKey debug groupBy) docs key ≠ [] := by
  obtain ⟨doc, hdoc, rfl⟩ := List.mem_map.mp (List.mem_dedup.mp h)
  have hmem : doc ∈ ofKey (extractGroupKey debug groupBy) docs
      (extractGroupKey debug groupBy doc) := List.mem_filter.mpr ⟨hdoc, decide_eq_true rfl⟩
  exact List.ne_nil_of_mem hmem

theorem toDocument_of_group (hid : accumulators["_id"]? = none) (hdocs : docs.length < 2 ^ 63)
    {key : String} (hkey : key ∈ groupKeys debug groupBy docs) (order : MapOrder AggregateOp)
    (order' : MapOrder AccumulatorState) (draw : DocumentDraw) :
    (GroupAccumulator.toDocument floats order' draw
      ((ofKey (extractGroupKey debug groupBy) docs key).foldl
        (GroupAccumulator.takeAll floats (order.arrange accumulators.toList)) (.new key))).fields =
      groupFields floats accumulators key (ofKey (extractGroupKey debug groupBy) docs key) := by
  have hfields : ((ofKey (extractGroupKey debug groupBy) docs key).foldl
      (GroupAccumulator.takeAll floats (order.arrange accumulators.toList)) (.new key)).fields =
      accumulators.map fun _ op => (ofKey (extractGroupKey debug groupBy) docs key).foldl
        (AccumulatorState.added floats) (.new op) :=
    GroupAccumulator.foldl_takeAll_fields (ofKey_ne_nil hkey) key
  rw [GroupAccumulator.toDocument_fields]
  · rw [hfields, GroupAccumulator.foldl_takeAll_groupKey, groupFields]
    congr 1
    apply Std.ExtTreeMap.ext_getElem?
    intro field
    rw [Std.ExtTreeMap.getElem?_map, Std.ExtTreeMap.getElem?_map, Std.ExtTreeMap.getElem?_map,
      Option.map_map]
    congr 1
    funext op
    exact AccumulatorState.value_foldl_added op ((ofKey_length_le key).trans_lt hdocs)
  · rw [hfields, Std.ExtTreeMap.getElem?_map, hid]
    rfl

theorem map_mapIdx_of_mem {α β γ : Type} {l : List α} {f : Nat → α → β} {g : β → γ} {h : α → γ}
    (heq : ∀ i, ∀ a ∈ l, g (f i a) = h a) : (l.mapIdx f).map g = l.map h := by
  apply List.ext_getElem?
  intro i
  rw [List.getElem?_map, List.getElem?_mapIdx, List.getElem?_map, Option.map_map]
  cases ha : l[i]? with
  | none => rfl
  | some a => exact congrArg some (heq i a (List.mem_of_getElem? ha))

theorem applyGroup_fields_perm (hid : accumulators["_id"]? = none) (hdocs : docs.length < 2 ^ 63)
    {results : List Document}
    (h : applyGroup floats debug run docs groupBy accumulators = .ok results) :
    (results.map Document.fields).Perm ((groupKeys debug groupBy docs).map fun key =>
      groupFields floats accumulators key (ofKey (extractGroupKey debug groupBy) docs key)) := by
  rw [applyGroup_eq] at h
  split at h
  next =>
    obtain rfl := Except.ok.inj h
    have hgroups : (run.groups.arrange
        (grouped floats debug run.accumulators groupBy accumulators docs).toList).Perm
        ((groupKeys debug groupBy docs).map fun key =>
          (key, (ofKey (extractGroupKey debug groupBy) docs key).foldl (GroupAccumulator.takeAll
            floats (run.accumulators.arrange accumulators.toList)) (.new key))) :=
      (run.groups.perm _).trans Groups.toList_grouped_perm
    rw [map_mapIdx_of_mem (h := fun group => groupFields floats accumulators group.1
      (ofKey (extractGroupKey debug groupBy) docs group.1))]
    · refine (hgroups.map _).trans ?_
      rw [List.map_map]
      exact .refl _
    · rintro i group hgroup
      obtain ⟨key, hkey, rfl⟩ := List.mem_map.mp (hgroups.mem_iff.mp hgroup)
      exact toDocument_of_group hid hdocs hkey _ _ _
  next => cases h

/-- The number that a count leaves under a name. -/
def countOf (name : String) (fields : Fields) : Int :=
  match fields[name]? with
  | some (.int64 n) => n.toInt
  | _ => 0

theorem sum_countOf (hid : accumulators["_id"]? = none) (hdocs : docs.length < 2 ^ 63)
    {name : String} (hname : accumulators[name]? = some .count) :
    ((groupKeys debug groupBy docs).map fun key => countOf name (groupFields floats accumulators
      key (ofKey (extractGroupKey debug groupBy) docs key))).sum = docs.length := by
  have hne : "_id" ≠ name := by
    rintro rfl
    rw [hid] at hname
    cases hname
  have hcount (key : String) :
      countOf name (groupFields floats accumulators key
        (ofKey (extractGroupKey debug groupBy) docs key)) =
      ((ofKey (extractGroupKey debug groupBy) docs key).length : Int) := by
    have hlt : (ofKey (extractGroupKey debug groupBy) docs key).length < 2 ^ 63 :=
      (ofKey_length_le key).trans_lt hdocs
    rw [countOf, groupFields, lookup_insert, if_neg hne, Std.ExtTreeMap.getElem?_map, hname]
    exact Int64.toInt_ofNat_of_lt hlt
  simp only [hcount]
  rw [← Groups.sum_length_ofKey (extractGroupKey debug groupBy) docs, groupKeys,
    Nat.cast_list_sum, List.map_map]
  rfl

/-- A run fails exactly when there are more keys than the limit.  One that does not fail makes one
document for each key, which holds the operations over the documents of that key; the counts come to
the number of documents, and the results of two runs are the same in another order. -/
theorem applyGroup_partitions (floats : FloatArithmetic) (debug : DebugTexts) (groupBy : JsonValue)
    {accumulators : HashMap AggregateOp} {docs : List Document}
    (hid : accumulators["_id"]? = none) (hdocs : docs.length < 2 ^ 63) :
    (∀ run, (∃ e, applyGroup floats debug run docs groupBy accumulators = .error e) ↔
      maxGroupSize < (groupKeys debug groupBy docs).length) ∧
    (∀ run results, applyGroup floats debug run docs groupBy accumulators = .ok results →
      (results.map Document.fields).Perm ((groupKeys debug groupBy docs).map fun key =>
        groupFields floats accumulators key (ofKey (extractGroupKey debug groupBy) docs key)) ∧
      ∀ name : String, accumulators[name]? = some .count →
        ((results.map Document.fields).map (countOf name)).sum = docs.length) ∧
    ∀ run run' results results',
      applyGroup floats debug run docs groupBy accumulators = .ok results →
      applyGroup floats debug run' docs groupBy accumulators = .ok results' →
        (results.map Document.fields).Perm (results'.map Document.fields) := by
  refine ⟨fun run => applyGroup_error_iff, fun run results h => ?_,
    fun run run' results results' h h' => ?_⟩
  · have hperm := applyGroup_fields_perm hid hdocs h
    refine ⟨hperm, fun name hname => ?_⟩
    rw [(hperm.map (countOf name)).sum_eq, List.map_map]
    exact sum_countOf hid hdocs hname
  · exact (applyGroup_fields_perm hid hdocs h).trans (applyGroup_fields_perm hid hdocs h').symm

/-- A run in the order of the names. -/
def plainRun : GroupRun where
  accumulators := .sorted AggregateOp
  groups := .sorted GroupAccumulator
  fields _ := .sorted AccumulatorState
  draws _ := { id := ⟨2⟩, clock := fun _ => 0 }

/-- An arithmetic for runs that do not calculate. -/
def idleFloats : FloatArithmetic :=
  ⟨fun a _ => a, fun a _ => a, fun a _ => a, fun a _ => a⟩

/-- The larger of two doubles that are not negative, which is the one with the larger bits. -/
def peakFloats : FloatArithmetic :=
  { idleFloats with max := fun a b => if a.bits < b.bits then b else a }

def kindTexts : DebugTexts where
  value
    | .string s => "String(\"" ++ s ++ "\")"
    | _ => ""
  json _ := "String(\"$kind\")"

def priced (id : Nat) (kind : String) (price : F64) : Document :=
  ((Document.new 0 ⟨id⟩).insert 0 "kind" (.string kind)).insert 0 "price" (.float64 price)

/-- Two documents of the kind `a`, at 1 and 2, and between them one of the kind `b`, at 3. -/
def twoKinds : List Document :=
  [priced 0 "a" ⟨0x3FF0000000000000⟩, priced 1 "b" ⟨0x4008000000000000⟩,
    priced 2 "a" ⟨0x4000000000000000⟩]

def countAndTop : HashMap AggregateOp :=
  (Std.ExtTreeMap.insert ∅ "n" .count).insert "top" (.max "price")

theorem applyGroup_partitions_kind :
    ∃ results, applyGroup peakFloats kindTexts plainRun twoKinds (.string "$kind") countAndTop =
        .ok results ∧
      (results.map fun doc => doc.fields.toList).Perm
        [[("_id", .string "String(\"b\")"), ("n", .int64 1),
            ("top", .float64 ⟨0x4008000000000000⟩)],
          [("_id", .string "String(\"a\")"), ("n", .int64 2),
            ("top", .float64 ⟨0x4000000000000000⟩)]] ∧
      ((results.map Document.fields).map (countOf "n")).sum = 3 := by
  obtain ⟨results, hrun⟩ : ∃ results, applyGroup peakFloats kindTexts plainRun twoKinds
      (.string "$kind") countAndTop = .ok results := ⟨_, rfl⟩
  have hpartitions := (applyGroup_partitions peakFloats kindTexts (.string "$kind") rfl
    (by decide : twoKinds.length < 2 ^ 63)).2.1 plainRun results hrun
  have hlists := hpartitions.1.map fun fields => fields.toList
  rw [List.map_map] at hlists
  exact ⟨results, hrun, hlists, hpartitions.2 "n" rfl⟩

end Pipeline

end VedDb
