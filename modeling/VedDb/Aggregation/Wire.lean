import VedDb.Aggregation.Json
import VedDb.Serde.Document

/-!
# Pipelines over the wire

A pipeline arrives as it was sent exactly when each of its accumulators counts, or sums an object
without a member `$`, and its JSON does not nest too deep.  The name of a field is no object: an
average, a minimum and a maximum cannot be sent, nor can a sum over a field.
-/

namespace VedDb

open Crossings
open LittleEndian (Bytes)

/-! ## What is to be sent -/

def AggregateOp.Valid : AggregateOp → Prop
  | .sum fieldRef => fieldRef.Valid
  | _ => True

namespace PipelineStage

/-- The JSON in a stage is such as the type can hold. -/
def Valid : PipelineStage → Prop
  | .matching filter => filter.Valid
  | .group groupBy fields =>
    groupBy.Valid ∧ ∀ (name : String) op, fields[name]? = some op → op.Valid
  | _ => True

end PipelineStage

/-- The JSON of an operation has a place for the tag. -/
def AggregateOp.HoldsTag : AggregateOp → Prop
  | .sum (.object members) => "$" ∉ members.map Prod.fst
  | .count => True
  | _ => False

def AggregateOp.containers : AggregateOp → Nat
  | .sum fieldRef => fieldRef.containers
  | _ => 1

namespace PipelineStage

def HoldsTags : PipelineStage → Prop
  | .group _ fields => ∀ (name : String) op, fields[name]? = some op → op.HoldsTag
  | _ => True

/-- A stage consists of so many containers at most, one inside the other. -/
def NestsWithin (n : Nat) : PipelineStage → Prop
  | .matching filter => filter.containers + 1 ≤ n
  | .project _ | .sort _ => 2 ≤ n
  | .limit _ | .skip _ => 1 ≤ n
  | .group groupBy fields =>
    groupBy.containers + 1 ≤ n ∧ 2 ≤ n ∧
      ∀ (name : String) op, fields[name]? = some op → op.containers + 2 ≤ n

end PipelineStage

/-! ## Tags -/

section

variable {T : Type} {ofName : String → Option T} {expected name : String} {type : T}
  {members : List (String × Json F64)}

theorem decodeTagged_taggedStruct (hname : ofName name = some type)
    (hmembers : "$" ∉ members.map Prod.fst) :
    decodeTagged ofName expected (taggedStruct name members) = .ok (type, .object members) := by
  have hother (member : String × Json F64) (hmember : member ∈ members) : member.1 ≠ "$" :=
    fun heq => hmembers (List.mem_map.mpr ⟨member, hmember, heq⟩)
  have hnone : members.filter (fun member => member.1 = "$") = [] := by
    rw [List.filter_eq_nil_iff]
    intro member hmember
    simpa using hother member hmember
  have hall : members.filter (fun member => member.1 ≠ "$") = members := by
    rw [List.filter_eq_self]
    intro member hmember
    simpa using hother member hmember
  rw [taggedStruct, decodeTagged, List.filter_cons_of_pos (by simp),
    List.filter_cons_of_neg (by simp), hnone, hall]
  simp only [hname]
  rfl

/-- A second tag is refused. -/
theorem decodeTagged_duplicate (hname : ofName name = some type)
    (hmembers : "$" ∈ members.map Prod.fst) :
    decodeTagged ofName expected (taggedStruct name members) = .error (.duplicateField "$") := by
  obtain ⟨member, hmember, heq⟩ := List.mem_map.mp hmembers
  have hothers : (members.filter fun member => member.1 = "$").isEmpty = false := by
    rw [List.isEmpty_eq_false_iff]
    exact List.ne_nil_of_mem (List.mem_filter.mpr ⟨hmember, by simpa using heq⟩)
  rw [taggedStruct, decodeTagged, List.filter_cons_of_pos (by simp)]
  simp only [hname, hothers]
  rfl

end

/-! ## Structs and maps -/

section

variable {α β : Type} {name name' : String} {decode : Json F64 → Except SerdeError α}
  {decode' : Json F64 → Except SerdeError β}

theorem decodeField_single (value : Json F64) :
    decodeField name decode (.object [(name, value)]) = decode value := by
  rw [decodeField, List.filter_cons_of_pos (by simp), List.filter_nil]
  dsimp only
  cases decode value with
  | _ => rfl

theorem decodeFields_pair {value value' : Json F64} {a : α} (hne : name' ≠ name)
    (ha : decode value = .ok a) :
    decodeFields name name' decode decode' (.object [(name, value), (name', value')]) =
      (decode' value').map fun b => (a, b) := by
  rw [decodeFields, decodeMembersOf, if_pos rfl, ha]
  simp only [decodeMembersOf, if_neg hne]
  cases decode' value' with
  | _ => rfl

theorem crosses_encodeMap_iff (order : MapOrder α) {encode : α → Except String (Json F64)}
    (map : HashMap α) : Crosses (encodeMap order encode) (decodeMap decode) map map ↔
      ∀ (key : String) a, map[key]? = some a → Crosses encode decode a a := by
  rw [← crosses_map_iff (order.perm map.toList)]
  have hread (members : List (String × Json F64)) : decodeMap decode (.object members) =
      ((members.mapM (keyed decode)).map (Std.ExtTreeMap.ofList · compare)).map id := by
    rw [decodeMap]
    cases members.mapM (keyed decode) with
    | _ => rfl
  have hentries (map : HashMap α) : encodeMap order encode map =
      ((order.arrange map.toList).mapM (keyed encode)).map .object := rfl
  exact crosses_within_iff Function.injective_id (hentries map) hread

theorem crosses_int32 (i : Int32) : Crosses encodeInt32 decodeInt32 i i :=
  ⟨.integer i.toInt, rfl, by rw [decodeInt32, if_pos ⟨i.le_toInt, i.toInt_lt⟩, Int32.ofInt_toInt]⟩

theorem decodeUsize_encodeUsize (n : UInt64) : decodeUsize (encodeUsize n) = .ok n := by
  have hn : n.toNat < 2 ^ 64 := n.toNat_lt
  rw [encodeUsize, decodeUsize, if_pos (by omega), Int.toNat_natCast, UInt64.ofNat_toNat]

end

/-! ## Operations -/

theorem decodeOp_taggedStruct {name : String} {type : OpType} {members : List (String × Json F64)}
    (hname : OpType.ofName name = some type) (hmembers : "$" ∉ members.map Prod.fst) :
    decodeOp (taggedStruct name members) = decodeOpContent (.object members) type := by
  rw [decodeOp, decodeTagged_taggedStruct hname hmembers]

theorem crosses_op_iff {op : AggregateOp} (h : op.Valid) :
    Crosses encodeOp decodeOp op op ↔ op.HoldsTag := by
  have hrefused {error : String} (hencode : encodeOp op = .error error) :
      ¬Crosses encodeOp decodeOp op op := by
    rintro ⟨json, hjson, -⟩
    rw [hencode] at hjson
    cases hjson
  cases op with
  | count => exact iff_of_true ⟨_, rfl, rfl⟩ trivial
  | avg field => exact iff_of_false (hrefused rfl) id
  | min field => exact iff_of_false (hrefused rfl) id
  | max field => exact iff_of_false (hrefused rfl) id
  | sum fieldRef =>
    cases fieldRef with
    | bool b => exact iff_of_false (hrefused rfl) id
    | string s => exact iff_of_false (hrefused rfl) id
    | array items => exact iff_of_false (hrefused rfl) id
    | number n =>
      cases n with
      | _ => exact iff_of_false (hrefused rfl) id
    | null =>
      refine iff_of_false ?_ id
      rintro ⟨json, hjson, hread⟩
      obtain rfl := Except.ok.inj hjson
      cases hread
    | object members =>
      have hnames := names_encodeJsonMembers members
      have hencode : encodeOp (.sum (.object members)) =
          .ok (taggedStruct "sum" (encodeJsonMembers members)) := rfl
      by_cases hmem : "$" ∈ members.map Prod.fst
      · refine iff_of_false ?_ (not_not_intro hmem)
        rintro ⟨json, hjson, hread⟩
        obtain rfl := Except.ok.inj (hencode.symm.trans hjson)
        have hname : OpType.ofName "sum" = some .sum := rfl
        rw [decodeOp, decodeTagged_duplicate hname (hnames ▸ hmem)] at hread
        cases hread
      · refine iff_of_true ⟨_, hencode, ?_⟩ hmem
        have hname : OpType.ofName "sum" = some .sum := rfl
        rw [decodeOp_taggedStruct hname (hnames ▸ hmem)]
        exact congrArg (Except.ok ∘ AggregateOp.sum)
          (decodeJsonValue_encodeJsonValue (.object members) h)

/-! ## Stages -/

theorem decodeStage_taggedStruct {name : String} {type : StageType}
    {members : List (String × Json F64)} (hname : StageType.ofName name = some type)
    (hmembers : "$" ∉ members.map Prod.fst) :
    decodeStage (taggedStruct name members) = decodeStageContent (.object members) type := by
  rw [decodeStage, decodeTagged_taggedStruct hname hmembers]

/-- A stage that holds a map of directions. -/
theorem crosses_fields_stage {orders : StageOrders} {name : String} {type : StageType}
    {outer : HashMap Int32 → PipelineStage} {fields : HashMap Int32}
    (houter : Function.Injective outer) (hname : StageType.ofName name = some type)
    (hencode : encodeStage orders (outer fields) =
      (encodeMap orders.fields encodeInt32 fields).map fun json =>
        taggedStruct name [("fields", json)])
    (hdecode : ∀ content, decodeStageContent content type =
      (decodeField "fields" (decodeMap decodeInt32) content).map outer) :
    Crosses (encodeStage orders) decodeStage (outer fields) (outer fields) := by
  have hread (json : Json F64) : decodeStage (taggedStruct name [("fields", json)]) =
      (decodeMap decodeInt32 json).map outer := by
    rw [decodeStage_taggedStruct hname (by simp), hdecode, decodeField_single]
  rw [crosses_within_iff houter hencode hread, crosses_encodeMap_iff]
  exact fun _ i _ => crosses_int32 i

theorem crosses_stage_iff (orders : StageOrders) {stage : PipelineStage} (h : stage.Valid) :
    Crosses (encodeStage orders) decodeStage stage stage ↔ stage.HoldsTags := by
  cases stage with
  | matching filter =>
    refine iff_of_true ⟨_, rfl, ?_⟩ trivial
    have hname : StageType.ofName "match" = some .matching := rfl
    rw [decodeStage_taggedStruct hname (by simp), decodeStageContent, decodeField_single,
      decodeJsonValue_encodeJsonValue filter h]
    rfl
  | limit count =>
    refine iff_of_true ⟨_, rfl, ?_⟩ trivial
    have hname : StageType.ofName "limit" = some .limit := rfl
    rw [decodeStage_taggedStruct hname (by simp), decodeStageContent, decodeField_single,
      decodeUsize_encodeUsize]
    rfl
  | skip count =>
    refine iff_of_true ⟨_, rfl, ?_⟩ trivial
    have hname : StageType.ofName "skip" = some .skip := rfl
    rw [decodeStage_taggedStruct hname (by simp), decodeStageContent, decodeField_single,
      decodeUsize_encodeUsize]
    rfl
  | project fields =>
    exact iff_of_true (crosses_fields_stage (fun _ _ => PipelineStage.project.inj) rfl rfl
      fun _ => rfl) trivial
  | sort fields =>
    exact iff_of_true (crosses_fields_stage (fun _ _ => PipelineStage.sort.inj) rfl rfl
      fun _ => rfl) trivial
  | group groupBy fields =>
    have hname : StageType.ofName "group" = some .group := rfl
    have hread (json : Json F64) : decodeStage
        (taggedStruct "group" [("_id", encodeJsonValue groupBy), ("fields", json)]) =
        (decodeMap decodeOp json).map (PipelineStage.group groupBy) := by
      have hid : (Except.ok (decodeJsonValue (encodeJsonValue groupBy)) :
          Except SerdeError JsonValue) = .ok groupBy :=
        congrArg Except.ok (decodeJsonValue_encodeJsonValue groupBy h.1)
      rw [decodeStage_taggedStruct hname (by simp), decodeStageContent,
        decodeFields_pair (by decide) hid]
      cases decodeMap decodeOp json with
      | _ => rfl
    have hfields : Crosses (encodeStage orders) decodeStage (.group groupBy fields)
        (.group groupBy fields) ↔
        Crosses (encodeMap orders.accumulators encodeOp) (decodeMap decodeOp) fields fields :=
      crosses_within_iff (fun _ _ heq => (PipelineStage.group.inj heq).2) rfl hread
    rw [hfields, crosses_encodeMap_iff]
    exact forall_congr' fun name => forall_congr' fun op => forall_congr' fun hop =>
      crosses_op_iff (h.2 name op hop)

/-! ## How deep a stage nests -/

theorem depth_encodeMap {α : Type} {order : MapOrder α} {encode : α → Except String (Json F64)}
    {map : HashMap α} {json : Json F64} (h : encodeMap order encode map = .ok json) {n : Nat} :
    json.depth ≤ n ↔ 1 ≤ n ∧ ∀ (key : String) a, map[key]? = some a → ∀ own,
      encode a = .ok own → own.depth + 1 ≤ n := by
  rw [encodeMap, map_eq_ok_iff] at h
  obtain ⟨members, hmembers, rfl⟩ := h
  have hdepth : (Json.object members).depth ≤ n ↔
      1 ≤ n ∧ ∀ member ∈ members, member.2.depth + 1 ≤ n := by
    cases n with
    | zero => exact iff_of_false (Nat.not_succ_le_zero _) fun h => Nat.not_succ_le_zero _ h.1
    | succ n =>
      have hpos : 1 ≤ n + 1 := Nat.le_add_left 1 n
      rw [Json.depth, Nat.add_le_add_iff_right, Json.depthMembers_le_iff, and_iff_right hpos]
      simp only [Nat.add_le_add_iff_right]
  rw [hdepth, forall_mem_of_mapM hmembers]
  refine and_congr_right'
    ⟨fun hall key a hown own hencode => ?_, fun hall entry hmem b hb => ?_⟩
  · exact hall (key, a) ((order.mem_arrange_iff map).mpr hown) (key, own)
      (keyed_eq_ok_iff.mpr ⟨rfl, hencode⟩)
  · exact hall entry.1 entry.2 ((order.mem_arrange_iff map).mp hmem) b.2
      (keyed_eq_ok_iff.mp hb).2

theorem exists_encodeOp {op : AggregateOp} (h : op.HoldsTag) :
    ∃ json, encodeOp op = .ok json ∧ json.depth = op.containers := by
  cases op with
  | count => exact ⟨_, rfl, rfl⟩
  | avg field => cases h
  | min field => cases h
  | max field => cases h
  | sum fieldRef =>
    cases fieldRef with
    | object members =>
      refine ⟨_, rfl, ?_⟩
      rw [Json.depth, Json.depthMembers, depth_encodeJsonMembers]
      exact congrArg (· + 1) (Nat.zero_max _)
    | _ => cases h

theorem depth_taggedStruct (name : String) (members : List (String × Json F64)) :
    (taggedStruct name members).depth = Json.depthMembers members + 1 := by
  rw [taggedStruct, Json.depth, Json.depthMembers]
  exact congrArg (· + 1) (Nat.zero_max _)

theorem depth_fields_stage {name : String} {order : MapOrder Int32} {fields : HashMap Int32}
    {json : Json F64} (h : (encodeMap order encodeInt32 fields).map (fun json =>
      taggedStruct name [("fields", json)]) = .ok json) {n : Nat} : json.depth ≤ n ↔ 2 ≤ n := by
  obtain ⟨own, hmap, rfl⟩ := map_eq_ok_iff.mp h
  have hdepth {m : Nat} : own.depth ≤ m ↔ 1 ≤ m := by
    rw [depth_encodeMap hmap]
    refine and_iff_left_of_imp fun hpos key i _ json hjson => ?_
    obtain rfl := Except.ok.inj hjson
    exact hpos
  rw [depth_taggedStruct, Json.depthMembers, Json.depthMembers, Nat.max_zero]
  cases n with
  | zero => exact iff_of_false (Nat.not_succ_le_zero _) (by decide)
  | succ n => rw [Nat.add_le_add_iff_right, hdepth, Nat.add_le_add_iff_right (n := 1)]

theorem depth_encodeStage {orders : StageOrders} {stage : PipelineStage} {json : Json F64}
    (h : encodeStage orders stage = .ok json) (htags : stage.HoldsTags) {n : Nat} :
    json.depth ≤ n ↔ stage.NestsWithin n := by
  cases stage with
  | matching filter =>
    obtain rfl := Except.ok.inj h
    rw [depth_taggedStruct, Json.depthMembers, Json.depthMembers, Nat.max_zero,
      depth_encodeJsonValue]
    rfl
  | limit count =>
    obtain rfl := Except.ok.inj h
    rfl
  | skip count =>
    obtain rfl := Except.ok.inj h
    rfl
  | project fields => exact depth_fields_stage h
  | sort fields => exact depth_fields_stage h
  | group groupBy fields =>
    obtain ⟨own, hmap, rfl⟩ := map_eq_ok_iff.mp h
    rw [depth_taggedStruct, Json.depthMembers, Json.depthMembers, Json.depthMembers,
      Nat.max_zero, depth_encodeJsonValue]
    cases n with
    | zero => exact iff_of_false (Nat.not_succ_le_zero _) fun h => Nat.not_succ_le_zero _ h.1
    | succ n =>
      have hops : own.depth ≤ n ↔ 1 ≤ n ∧ ∀ (name : String) op,
          fields[name]? = some op → op.containers + 1 ≤ n := by
        rw [depth_encodeMap hmap]
        refine and_congr_right' (forall_congr' fun name => forall_congr' fun op =>
          forall_congr' fun hop => ?_)
        obtain ⟨json, hjson, hdepth⟩ := exists_encodeOp (htags name op hop)
        rw [← hdepth, forall_eq_ok_iff hjson]
      rw [Nat.add_le_add_iff_right, Nat.max_le, hops]
      exact and_congr Nat.succ_le_succ_iff.symm (and_congr Nat.succ_le_succ_iff.symm
        (forall_congr' fun name => forall_congr' fun op => forall_congr' fun _ =>
          Nat.succ_le_succ_iff.symm))

/-! ## Pipelines -/

section

variable (orders : Nat → StageOrders)

theorem withOrders_stages (stages : List PipelineStage) :
    (withOrders orders stages).map Prod.fst = stages := by
  apply List.ext_getElem?
  intro i
  rw [withOrders, List.getElem?_map, List.getElem?_mapIdx, Option.map_map]
  exact Option.map_id'

theorem forall_withOrders_iff {P : PipelineStage → Prop} {stages : List PipelineStage} :
    (∀ entry ∈ withOrders orders stages, P entry.1) ↔ ∀ stage ∈ stages, P stage := by
  rw [← List.forall_mem_map (f := Prod.fst), withOrders_stages]

theorem crosses_stages_iff {stages : List PipelineStage} (h : ∀ stage ∈ stages, stage.Valid) :
    Crosses (encodeStages orders) decodeStages stages stages ↔
      ∀ stage ∈ stages, stage.HoldsTags := by
  have hread (items : List (Json F64)) : decodeStages (.array items) =
      (items.mapM decodeStage).map id := by
    rw [decodeStages]
    cases items.mapM decodeStage with
    | _ => rfl
  have hitems : Crosses (encodeStages orders) decodeStages stages stages ↔
      Crosses (List.mapM fun entry : PipelineStage × StageOrders => encodeStage entry.2 entry.1)
        (List.mapM decodeStage) (withOrders orders stages)
        ((withOrders orders stages).map Prod.fst) := by
    rw [withOrders_stages]
    exact crosses_within_iff Function.injective_id rfl hread
  rw [hitems, crosses_mapM_iff, ← forall_withOrders_iff orders]
  have hvalid := (forall_withOrders_iff orders).mpr h
  exact forall_congr' fun entry => forall_congr' fun hentry =>
    crosses_stage_iff entry.2 (hvalid entry hentry)

theorem depth_encodeStages {stages : List PipelineStage} {json : Json F64}
    (h : encodeStages orders stages = .ok json) (htags : ∀ stage ∈ stages, stage.HoldsTags)
    {n : Nat} : json.depth ≤ n + 1 ↔ ∀ stage ∈ stages, stage.NestsWithin n := by
  obtain ⟨items, hitems, rfl⟩ := map_eq_ok_iff.mp h
  rw [Json.depth, Nat.add_le_add_iff_right, Json.depthItems_le_iff, forall_mem_of_mapM hitems,
    ← forall_withOrders_iff orders]
  rw [← forall_withOrders_iff orders] at htags
  refine forall_congr' fun entry => forall_congr' fun hentry => ?_
  obtain ⟨json, hjson⟩ := exists_of_mem_mapM hitems entry hentry
  have hdepth : json.depth ≤ n ↔ entry.1.NestsWithin n :=
    depth_encodeStage hjson (htags entry hentry)
  rw [forall_eq_ok_iff hjson, hdepth]

theorem arrives_iff {α : Type} {env : SerdeEnv} {written : Except String (Json F64)}
    {decode : Json F64 → Except SerdeError α} {a : α}
    (htext : ∀ json, written = .ok json → env.text.Faithful recursionLimit json) :
    (∃ bytes, env.toVec written = .ok bytes ∧ env.fromSlice decode bytes = .ok a) ↔
      ∃ json, written = .ok json ∧ json.depth ≤ recursionLimit ∧ decode json = .ok a := by
  cases written with
  | error e =>
    refine iff_of_false ?_ ?_
    · rintro ⟨bytes, hbytes, -⟩
      cases hbytes
    · rintro ⟨json, hjson, -⟩
      cases hjson
  | ok json =>
    have hread := htext json rfl
    rw [Json.Text.Faithful] at hread
    have hvec : env.toVec (.ok json) = .ok (env.text.write json) := rfl
    simp only [hvec, Except.ok.injEq, exists_eq_left', SerdeEnv.fromSlice]
    split at hread
    next hdepth =>
      rw [hread, and_iff_right hdepth]
      dsimp only
      cases decode json with
      | error e => exact iff_of_false (by rintro ⟨⟩) (by rintro ⟨⟩)
      | ok own => exact Iff.of_eq (by rw [Except.ok.injEq, Except.ok.injEq])
    next hdeep =>
      obtain ⟨e, he⟩ := hread
      rw [he]
      exact iff_of_false (by rintro ⟨⟩) fun h => hdeep h.1

variable {orders} {stages : List PipelineStage}

/-- Stages inside of something else arrive exactly when their operations have a place for the tag
and they do not nest too deep. -/
theorem stages_arrive_iff {α : Type} {env : SerdeEnv} {around : Json F64 → Json F64}
    {outer : List PipelineStage → α} {decode : Json F64 → Except SerdeError α}
    (houter : Function.Injective outer) (hdepth : ∀ json, (around json).depth = json.depth + 1)
    (hread : ∀ json, decode (around json) = (decodeStages json).map outer)
    (hvalid : ∀ stage ∈ stages, stage.Valid)
    (htext : ∀ json, (encodeStages orders stages).map around = .ok json →
      env.text.Faithful recursionLimit json) :
    (∃ bytes, env.toVec ((encodeStages orders stages).map around) = .ok bytes ∧
        env.fromSlice decode bytes = .ok (outer stages)) ↔
      ∀ stage ∈ stages, stage.HoldsTags ∧ stage.NestsWithin (recursionLimit - 2) := by
  have hcrosses : Crosses (fun stages => (encodeStages orders stages).map around) decode stages
      (outer stages) ↔ Crosses (encodeStages orders) decodeStages stages stages :=
    crosses_within_iff houter rfl hread
  rw [crosses_stages_iff orders hvalid] at hcrosses
  have hnests {json : Json F64} (hjson : (encodeStages orders stages).map around = .ok json)
      (htags : ∀ stage ∈ stages, stage.HoldsTags) : json.depth ≤ recursionLimit ↔
        ∀ stage ∈ stages, stage.NestsWithin (recursionLimit - 2) := by
    obtain ⟨own, hstages, rfl⟩ := map_eq_ok_iff.mp hjson
    rw [hdepth, ← depth_encodeStages orders hstages htags]
    exact Nat.add_le_add_iff_right (n := 1)
  rw [arrives_iff htext]
  constructor
  · rintro ⟨json, hjson, hlimit, hdecode⟩
    have htags := hcrosses.mp ⟨json, hjson, hdecode⟩
    have hall := (hnests hjson htags).mp hlimit
    exact fun stage hstage => ⟨htags stage hstage, hall stage hstage⟩
  · intro h
    have htags (stage : PipelineStage) (hstage : stage ∈ stages) : stage.HoldsTags :=
      (h stage hstage).1
    obtain ⟨json, hjson, hdecode⟩ := hcrosses.mpr htags
    exact ⟨json, hjson, (hnests hjson htags).mpr fun stage hstage => (h stage hstage).2, hdecode⟩

end

namespace Pipeline

/-- A pipeline comes back from its JSON, and arrives in a request, exactly when each of its
operations has a place for the tag and its stages do not nest too deep. -/
theorem survives_wire_iff (env : SerdeEnv) (orders : Nat → StageOrders) (collection : String)
    {pipeline : Pipeline} (hvalid : ∀ stage ∈ pipeline.stages, stage.Valid)
    (htext : ∀ json, encodePipeline orders pipeline = .ok json →
      env.text.Faithful recursionLimit json)
    (hrequest : ∀ json, encodeAggregate orders collection pipeline.stages = .ok json →
      env.text.Faithful recursionLimit json) :
    ((∃ bytes, env.toVec (encodePipeline orders pipeline) = .ok bytes ∧
        env.fromSlice decodePipeline bytes = .ok pipeline) ↔
      ∀ stage ∈ pipeline.stages, stage.HoldsTags ∧ stage.NestsWithin (recursionLimit - 2)) ∧
    ((∃ bytes, env.toVec (encodeAggregate orders collection pipeline.stages) = .ok bytes ∧
        env.fromSlice decodeAggregate bytes = .ok (collection, pipeline.stages)) ↔
      ∀ stage ∈ pipeline.stages, stage.HoldsTags ∧ stage.NestsWithin (recursionLimit - 2)) := by
  have hread (json : Json F64) : decodePipeline (.object [("stages", json)]) =
      (decodeStages json).map Pipeline.mk := by
    rw [decodePipeline, decodeField_single]
  have hreadRequest (json : Json F64) : decodeAggregate
      (.object [("collection", .string collection), ("pipeline", json)]) =
      (decodeStages json).map fun stages => (collection, stages) :=
    decodeFields_pair (by decide) rfl
  constructor
  · exact stages_arrive_iff (fun _ _ => Pipeline.mk.inj)
      (fun json => congrArg (· + 1) (Nat.max_zero _)) hread hvalid htext
  · refine stages_arrive_iff (fun _ _ heq => (Prod.mk.inj heq).2) (fun json => ?_) hreadRequest
      hvalid hrequest
    rw [Json.depth, Json.depthMembers, Json.depthMembers, Json.depthMembers, Nat.max_zero]
    exact congrArg (· + 1) (Nat.zero_max _)

def sortedOrders : StageOrders where
  fields := .sorted Int32
  accumulators := .sorted AggregateOp

/-- All documents in one group, of which one number is asked. -/
def overall (op : AggregateOp) : Pipeline := ⟨[.group .null (.insert ∅ "n" op)]⟩

def countingStages : Json F64 :=
  .array [taggedStruct "group"
    [("_id", .null), ("fields", .object [("n", .object [("$", .string "count")])])]]

def knowsCounting : SerdeEnv :=
  JsonText.serde [.object [("stages", countingStages)],
    .object [("collection", .string "users"), ("pipeline", countingStages)]]

theorem survives_wire_iff_count :
    ∃ bytes, knowsCounting.toVec (encodePipeline (fun _ => sortedOrders) (overall .count)) =
        .ok bytes ∧ knowsCounting.fromSlice decodePipeline bytes = .ok (overall .count) := by
  have hcount {name : String} {op : AggregateOp}
      (hop : (Std.ExtTreeMap.insert ∅ "n" .count : HashMap AggregateOp)[name]? = some op) :
      op = .count := by
    rw [lookup_insert] at hop
    split at hop
    next => exact (Option.some.inj hop).symm
    next => cases hop
  have hvalid : ∀ stage ∈ (overall .count).stages, stage.Valid := by
    intro stage hstage
    obtain rfl := List.mem_singleton.mp hstage
    exact ⟨trivial, fun name op hop => hcount hop ▸ trivial⟩
  have htext : ∀ json, encodePipeline (fun _ => sortedOrders) (overall .count) = .ok json →
      knowsCounting.text.Faithful recursionLimit json := by
    intro json hjson
    obtain rfl := Except.ok.inj hjson
    rfl
  have hrequest : ∀ json, encodeAggregate (fun _ => sortedOrders) "users"
      (overall .count).stages = .ok json → knowsCounting.text.Faithful recursionLimit json := by
    intro json hjson
    obtain rfl := Except.ok.inj hjson
    rfl
  rw [(survives_wire_iff knowsCounting _ "users" hvalid htext hrequest).1]
  intro stage hstage
  obtain rfl := List.mem_singleton.mp hstage
  refine ⟨fun name op hop => hcount hop ▸ trivial, ?_, by decide, fun name op hop => ?_⟩
  · exact Nat.le_of_ble_eq_true rfl
  · rw [hcount hop]
    decide

/-- An average cannot be written. -/
theorem average_is_not_written :
    (JsonText.serde []).toVec (encodePipeline (fun _ => sortedOrders) (overall (.avg "age"))) =
      .error "cannot serialize tagged newtype variant AggregateOp::Avg containing a string" := by
  rfl

end Pipeline

end VedDb
