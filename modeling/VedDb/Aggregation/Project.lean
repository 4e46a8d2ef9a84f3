import VedDb.Aggregation.Stages

/-!
# The project stage

`Pipeline::apply_project` of `aggregation.rs` beside the projection of a query.  The stage makes a
new document, with a new identifier, and looks for the old one in a field.  It inserts what is asked
for and takes nothing away: a list of exclusions leaves nothing but that field.
-/

namespace VedDb

namespace Pipeline

/-- The loop of `apply_project` over the fields that are asked for. -/
def insertRequested (clock : Nat → DateTime) (doc : Document) :
    List (String × Int32) → Nat → Document → Document
  | [], _, projected => projected
  | (field, requested) :: fields, reads, projected =>
    if requested ≠ 0 ∧ field ≠ "_id" then
      match doc.fields[field]? with
      | some val =>
        insertRequested clock doc fields (reads + 1) (projected.insert (clock reads) field val)
      | none => insertRequested clock doc fields reads projected
    else insertRequested clock doc fields reads projected

/-- The new document, with the field of the identifier unless that is excluded. -/
def startProjected (fields : HashMap Int32) (draw : DocumentDraw) (doc : Document) : Document :=
  let projected := Document.new (draw.clock 0) draw.id
  if fields["_id"]? ≠ some 0 then
    match doc.fields["_id"]? with
    | some idVal => projected.insert (draw.clock 1) "_id" idVal
    | none => projected
  else projected

/-- `apply_project` on one document. -/
def projectDocument (order : MapOrder Int32) (fields : HashMap Int32) (draw : DocumentDraw)
    (doc : Document) : Document :=
  if fields.isEmpty then doc
  else
    insertRequested draw.clock doc (order.arrange fields.toList) 2 (startProjected fields draw doc)

/-- `apply_project`, with what is drawn for each document. -/
def applyProject (order : MapOrder Int32) (draws : Nat → DocumentDraw) (docs : List Document)
    (fields : HashMap Int32) : List Document :=
  docs.mapIdx fun i doc => projectDocument order fields (draws i) doc

/-! ## What the stage keeps -/

/-- The projection of a query as it is written in JSON. -/
def projectionJson (fields : HashMap Int32) : JsonValue :=
  .object (fields.toList.map fun entry => (entry.1, .number (.ofInt32 entry.2)))

/-- The values of a projection are 0 and 1. -/
def ZeroOne (fields : HashMap Int32) : Prop :=
  ∀ (field : String) value, fields[field]? = some value → value = 0 ∨ value = 1

def Keeps (projection : Projection) (doc result : Document) : Prop :=
  result.id = doc.id ∧
    result.fields = doc.fields.filter fun field _ => projection.shouldInclude field

/-! ## The fields -/

def asked (fields : List (String × Int32)) (key : String) : Bool :=
  fields.any fun entry => entry.1 = key && entry.2 ≠ 0

theorem getElem?_insertRequested (clock : Nat → DateTime) (doc : Document)
    (fields : List (String × Int32)) (reads : Nat) (projected : Document) (key : String) :
    (insertRequested clock doc fields reads projected).fields[key]? =
      if asked fields key = true ∧ key ≠ "_id" then doc.fields[key]?.or projected.fields[key]?
      else projected.fields[key]? := by
  induction fields generalizing reads projected with
  | nil => rfl
  | cons entry fields ih =>
    obtain ⟨field, requested⟩ := entry
    have hasked : asked ((field, requested) :: fields) key =
        ((decide (field = key) && decide (requested ≠ 0)) || asked fields key) := rfl
    rw [insertRequested, hasked]
    by_cases hkey : field = key
    · subst hkey
      by_cases hrequested : requested ≠ 0 ∧ field ≠ "_id"
      · have hhere : (decide (field = field) && decide (requested ≠ 0) || asked fields field) =
            true := by simp [hrequested.1]
        rw [if_pos hrequested, if_pos ⟨hhere, hrequested.2⟩]
        cases hfield : doc.fields[field]? with
        | none =>
          dsimp only
          rw [ih, hfield, Option.none_or, ite_self]
        | some val =>
          dsimp only
          rw [ih, hfield, Document.insert_fields, Std.ExtTreeMap.getElem?_insert_self,
            Option.some_or, Option.some_or, ite_self]
      · rw [if_neg hrequested, ih]
        by_cases hid : field = "_id"
        · rw [if_neg fun h => h.2 hid, if_neg fun h => h.2 hid]
        · have hzero : decide (requested ≠ 0) = false :=
            decide_eq_false fun hne => hrequested ⟨hne, hid⟩
          rw [hzero, Bool.and_false, Bool.false_or]
    · have hsame (projected' : Document) (reads : Nat)
          (h : projected'.fields[key]? = projected.fields[key]?) :
          (insertRequested clock doc fields reads projected').fields[key]? =
            if asked fields key = true ∧ key ≠ "_id" then
              doc.fields[key]?.or projected.fields[key]?
            else projected.fields[key]? := by
        rw [ih, h]
      rw [decide_eq_false hkey, Bool.false_and, Bool.false_or]
      split
      next =>
        split
        next val _ =>
          refine hsame _ _ ?_
          rw [Document.insert_fields, lookup_insert, if_neg hkey]
        next => exact hsame projected reads rfl
      next => exact hsame projected reads rfl

theorem insertRequested_id (clock : Nat → DateTime) (doc : Document)
    (fields : List (String × Int32)) (reads : Nat) (projected : Document) :
    (insertRequested clock doc fields reads projected).id = projected.id := by
  induction fields generalizing reads projected with
  | nil => rfl
  | cons entry fields ih =>
    rw [insertRequested]
    split
    next =>
      split
      next => exact ih _ _
      next => exact ih _ _
    next => exact ih _ _

/-- The stage keeps a field: it is asked for, or it is the identifier and not excluded. -/
def stageIncludes (fields : HashMap Int32) (field : String) : Bool :=
  if field = "_id" then fields["_id"]? ≠ some 0
  else (fields[field]?).any fun requested => requested ≠ 0

variable {order : MapOrder Int32} {fields : HashMap Int32} {draw : DocumentDraw} {doc : Document}

theorem asked_arrange (order : MapOrder Int32) (fields : HashMap Int32) (key : String) :
    asked (order.arrange fields.toList) key =
      (fields[key]?).any fun requested => requested ≠ 0 := by
  rw [Bool.eq_iff_iff, asked, List.any_eq_true, Option.any_eq_true]
  constructor
  · rintro ⟨⟨field, requested⟩, hmem, h⟩
    rw [Bool.and_eq_true, decide_eq_true_eq] at h
    obtain ⟨rfl, hne⟩ := h
    exact ⟨requested, (order.mem_arrange_iff fields).mp hmem, hne⟩
  · rintro ⟨requested, hrequested, hne⟩
    refine ⟨(key, requested), (order.mem_arrange_iff fields).mpr hrequested, ?_⟩
    rw [Bool.and_eq_true, decide_eq_true_eq]
    exact ⟨rfl, hne⟩

theorem projectDocument_of_ne (h : fields ≠ ∅) :
    projectDocument order fields draw doc =
      insertRequested draw.clock doc (order.arrange fields.toList) 2
        (startProjected fields draw doc) :=
  if_neg (mt Std.ExtTreeMap.isEmpty_iff.mp h)

theorem startProjected_id : (startProjected fields draw doc).id = draw.id := by
  rw [startProjected]
  split
  next =>
    split
    next => rfl
    next => rfl
  next => rfl

theorem getElem?_startProjected (key : String) :
    (startProjected fields draw doc).fields[key]? =
      if key = "_id" ∧ fields["_id"]? ≠ some 0 then doc.fields["_id"]? else none := by
  rw [startProjected]
  by_cases hid : fields["_id"]? ≠ some 0
  · rw [if_pos hid]
    cases hfield : doc.fields["_id"]? with
    | none => exact (ite_self none).symm
    | some idVal =>
      dsimp only
      rw [Document.insert_fields, lookup_insert]
      by_cases hkey : "_id" = key
      · rw [if_pos hkey, if_pos ⟨hkey.symm, hid⟩]
      · rw [if_neg hkey, if_neg fun h => hkey h.1.symm]
        rfl
  · rw [if_neg hid, if_neg fun h => hid h.2]
    rfl

/-- The result has a new identifier. -/
theorem projectDocument_id (h : fields ≠ ∅) :
    (projectDocument order fields draw doc).id = draw.id := by
  rw [projectDocument_of_ne h, insertRequested_id, startProjected_id]

theorem filter_const {α : Type} (keep : Bool) (x : Option α) :
    x.filter (fun _ => keep) = if keep then x else none := by
  cases x with
  | none => exact (ite_self none).symm
  | some a => rfl

theorem projectDocument_fields (h : fields ≠ ∅) :
    (projectDocument order fields draw doc).fields =
      doc.fields.filter fun field _ => stageIncludes fields field := by
  apply Std.ExtTreeMap.ext_getElem?
  intro key
  rw [projectDocument_of_ne h, getElem?_insertRequested, asked_arrange, getElem?_startProjected,
    Std.ExtTreeMap.getElem?_filter', filter_const, stageIncludes]
  by_cases hkey : key = "_id"
  · subst hkey
    rw [if_neg fun h => h.2 rfl, if_pos rfl]
    by_cases hid : fields["_id"]? ≠ some 0
    · rw [if_pos ⟨rfl, hid⟩, decide_eq_true hid, if_pos rfl]
    · rw [if_neg fun h => hid h.2, decide_eq_false hid, if_neg Bool.false_ne_true]
  · rw [if_neg hkey, if_neg (c := key = "_id" ∧ _) fun h => hkey h.1, Option.or_none]
    cases (fields[key]?).any fun requested => requested ≠ 0 with
    | true => rw [if_pos ⟨rfl, hkey⟩, if_pos rfl]
    | false => rw [if_neg fun h => absurd h.1 Bool.false_ne_true, if_neg Bool.false_ne_true]

/-! ## The projection of a query -/

/-- How a query reads a number of a projection. -/
def inclusionOf (requested : Int32) : ProjectionType :=
  if requested = 0 then .exclusion else .inclusion

theorem parseInclusion_ofInt32 {requested : Int32} (h : requested = 0 ∨ requested = 1) :
    QueryParser.parseInclusion (.number (.ofInt32 requested)) = .ok (inclusionOf requested) := by
  rcases h with rfl | rfl
  · rfl
  · rfl

theorem parseInclusions_eq {entries : List (String × Int32)}
    (h01 : ∀ entry ∈ entries, entry.2 = 0 ∨ entry.2 = 1) (projection : Projection) :
    QueryParser.parseInclusions
        (entries.map fun entry => (entry.1, .number (.ofInt32 entry.2))) projection =
      .ok ⟨projection.fields.insertMany
        (entries.map fun entry => (entry.1, inclusionOf entry.2))⟩ := by
  induction entries generalizing projection with
  | nil =>
    rw [List.map_nil, List.map_nil, Std.ExtTreeMap.insertMany_nil]
    rfl
  | cons entry entries ih =>
    rw [List.forall_mem_cons] at h01
    rw [List.map_cons, List.map_cons, QueryParser.parseInclusions, parseInclusion_ofInt32 h01.1]
    dsimp only
    rw [ih h01.2, Std.ExtTreeMap.insertMany_cons]
    rfl

def parsed (fields : HashMap Int32) : Projection :=
  { fields := fields.map fun _ requested => inclusionOf requested }

theorem parseProjection_projectionJson (h01 : ZeroOne fields) :
    QueryParser.parseProjection (projectionJson fields) = .ok (parsed fields) := by
  have hentries : ∀ entry ∈ fields.toList, entry.2 = 0 ∨ entry.2 = 1 := by
    intro entry hmem
    exact h01 entry.1 entry.2 (Std.ExtTreeMap.mem_toList_iff_getElem?_eq_some.mp hmem)
  rw [projectionJson, QueryParser.parseProjection, parseInclusions_eq hentries, parsed,
    ← insertMany_toList (fields.map fun _ requested => inclusionOf requested),
    Std.ExtTreeMap.toList_map]
  rfl

/-- Some field is asked for. -/
def asksFor (fields : HashMap Int32) : Bool := fields.toList.any fun entry => entry.2 ≠ 0

theorem zero_of_not_asksFor (h : asksFor fields = false) {field : String} {requested : Int32}
    (hfield : fields[field]? = some requested) : requested = 0 := by
  rw [asksFor, List.any_eq_false] at h
  have hentry := h (field, requested) (Std.ExtTreeMap.mem_toList_iff_getElem?_eq_some.mpr hfield)
  simpa using hentry

/-- A query keeps what is asked for and the identifier or, where nothing is asked for, what is not
listed. -/
theorem shouldInclude_eq (fields : HashMap Int32) (field : String) :
    (parsed fields).shouldInclude field =
      if asksFor fields then
        decide (field = "_id") || (fields[field]?).any fun requested => requested ≠ 0
      else (fields[field]?).isNone := by
  have hmode : (parsed fields).isInclusion = asksFor fields := by
    rw [Projection.isInclusion, parsed, values_eq_map_toList, Std.ExtTreeMap.toList_map, asksFor,
      List.map_map, List.any_map]
    congr 1
    funext entry
    simp only [Function.comp_apply, inclusionOf]
    split
    next h => simp [h]
    next h => simp [h]
  rw [Projection.shouldInclude, hmode, parsed, Std.ExtTreeMap.getElem?_map]
  cases hasks : asksFor fields with
  | true =>
    cases fields[field]? with
    | none => rfl
    | some requested =>
      simp only [Option.map_some, inclusionOf, Option.any_some]
      by_cases hzero : requested = 0
      · simp [hzero]
      · simp [hzero]
  | false =>
    cases hown : fields[field]? with
    | none => rfl
    | some requested =>
      have hzero := zero_of_not_asksFor hasks hown
      simp [hzero, inclusionOf]

/-! ## Agreement -/

/-- What a stage and a projection keep of the fields is the same: where something is asked for, an
identifier that is excluded is not there; and a list of exclusions names every field but the
identifier. -/
def FieldsAgree (fields : HashMap Int32) (doc : Document) : Prop :=
  if asksFor fields then fields["_id"]? = some 0 → doc.fields["_id"]? = none
  else fields = ∅ ∨ ∀ field : String, field ∈ doc.fields → field = "_id" ∨ field ∈ fields

theorem filter_eq_filter_iff {p q : String → Bool} {fields : Fields} :
    (fields.filter fun field _ => p field) = (fields.filter fun field _ => q field) ↔
      ∀ field : String, field ∈ fields → p field = q field := by
  constructor
  · intro h field hfield
    obtain ⟨value, hvalue⟩ :=
      Option.isSome_iff_exists.mp (Std.ExtTreeMap.mem_iff_isSome_getElem?.mp hfield)
    have hlookup := congrArg (fun fields : Fields => fields[field]?) h
    rw [Std.ExtTreeMap.getElem?_filter', Std.ExtTreeMap.getElem?_filter', hvalue, filter_const,
      filter_const] at hlookup
    cases hp : p field with
    | true =>
      cases hq : q field with
      | true => rfl
      | false => simp [hp, hq] at hlookup
    | false =>
      cases hq : q field with
      | true => simp [hp, hq] at hlookup
      | false => rfl
  · intro h
    apply Std.ExtTreeMap.ext_getElem?
    intro field
    rw [Std.ExtTreeMap.getElem?_filter', Std.ExtTreeMap.getElem?_filter', filter_const,
      filter_const]
    cases hvalue : fields[field]? with
    | none => rw [ite_self, ite_self]
    | some value => rw [h field (Std.ExtTreeMap.mem_iff_isSome_getElem?.mpr (by rw [hvalue]; rfl))]

theorem stageIncludes_agrees_iff (h : fields ≠ ∅) :
    (∀ field : String, field ∈ doc.fields →
      stageIncludes fields field = (parsed fields).shouldInclude field) ↔
      FieldsAgree fields doc := by
  simp only [shouldInclude_eq, FieldsAgree, or_iff_right h]
  cases hasks : asksFor fields with
  | true =>
    simp only [if_true]
    constructor
    · intro hall hid
      by_contra hthere
      have hmem : "_id" ∈ doc.fields :=
        Std.ExtTreeMap.mem_iff_isSome_getElem?.mpr (Option.isSome_iff_ne_none.mpr hthere)
      have hagree := hall "_id" hmem
      simp [stageIncludes, hid] at hagree
    · intro himp field hmem
      by_cases hkey : field = "_id"
      · subst hkey
        have hnot : fields["_id"]? ≠ some 0 := by
          intro hid
          rw [Std.ExtTreeMap.mem_iff_isSome_getElem?, himp hid] at hmem
          cases hmem
        simp [stageIncludes, hnot]
      · rw [stageIncludes, if_neg hkey, decide_eq_false hkey, Bool.false_or]
  | false =>
    simp only [Bool.false_eq_true, if_false]
    refine forall₂_congr fun field _ => ?_
    rw [stageIncludes]
    by_cases hkey : field = "_id"
    · subst hkey
      refine iff_of_true ?_ (.inl rfl)
      cases hown : fields["_id"]? with
      | none => rfl
      | some requested =>
        rw [zero_of_not_asksFor hasks hown]
        rfl
    · rw [if_neg hkey, or_iff_right hkey, Std.ExtTreeMap.mem_iff_isSome_getElem?]
      cases hown : fields[field]? with
      | none => simp
      | some requested =>
        rw [zero_of_not_asksFor hasks hown]
        simp

/-- Of a projection of zeros and ones the stage keeps what a query keeps, whatever it draws, exactly
when nothing is listed: otherwise the identifier is a new one.  The fields are kept alike exactly
when the two agree on them. -/
theorem projectDocument_keeps_iff (h01 : ZeroOne fields) {projection : Projection}
    (hparse : QueryParser.parseProjection (projectionJson fields) = .ok projection)
    (doc : Document) :
    ((∀ order draw, Keeps projection doc (projectDocument order fields draw doc)) ↔ fields = ∅) ∧
      ∀ order draw, (projectDocument order fields draw doc).fields =
        (doc.fields.filter fun field _ => projection.shouldInclude field) ↔
          FieldsAgree fields doc := by
  rw [parseProjection_projectionJson h01, Except.ok.injEq] at hparse
  subst hparse
  have hempty : (doc.fields.filter fun field _ => (parsed ∅).shouldInclude field) =
      doc.fields := by
    apply Std.ExtTreeMap.ext_getElem?
    intro field
    rw [Std.ExtTreeMap.getElem?_filter', filter_const, shouldInclude_eq]
    rfl
  constructor
  · constructor
    · intro hall
      by_contra hne
      have hid (draw : DocumentDraw) : draw.id = doc.id :=
        (projectDocument_id hne).symm.trans (hall (.sorted Int32) draw).1
      have h₀ := hid ⟨⟨0⟩, fun _ => 0⟩
      have h₁ := hid ⟨⟨1⟩, fun _ => 0⟩
      rw [← h₀] at h₁
      exact absurd h₁ (by decide)
    · rintro rfl order draw
      exact ⟨rfl, hempty.symm⟩
  · intro order draw
    by_cases hne : fields = ∅
    · subst hne
      exact iff_of_true hempty.symm (.inl rfl)
    · rw [projectDocument_fields hne, filter_eq_filter_iff, stageIncludes_agrees_iff hne]

/-- A document of which the stage is to keep a field. -/
def named : Document := (Document.new 0 ⟨0⟩).insert 0 "name" .null

theorem projectDocument_keeps_iff_name :
    ((∀ order draw, Keeps (parsed (.insert ∅ "name" 1)) named
        (projectDocument order (.insert ∅ "name" 1) draw named)) ↔
      (Std.ExtTreeMap.insert ∅ "name" 1 : HashMap Int32) = ∅) ∧
      ∀ order draw, (projectDocument order (.insert ∅ "name" 1) draw named).fields =
        (named.fields.filter fun field _ =>
          (parsed (.insert ∅ "name" 1)).shouldInclude field) ↔
          FieldsAgree (.insert ∅ "name" 1) named := by
  refine projectDocument_keeps_iff ?_ rfl named
  intro field value h
  rw [lookup_insert] at h
  split at h
  next => exact .inr (Option.some.inj h).symm
  next => cases h

/-- What the stage makes of a document when it is to leave out a field that is not there. -/
def withoutAge : Document :=
  projectDocument (.sorted Int32) (.insert ∅ "age" 0) ⟨⟨1⟩, fun _ => 0⟩ named

/-- A stage that is to leave out a field leaves out the others, under another identifier. -/
theorem projectDocument_excludes :
    QueryParser.parseProjection (projectionJson (.insert ∅ "age" 0)) =
        .ok (parsed (.insert ∅ "age" 0)) ∧
      (parsed (.insert ∅ "age" 0)).shouldInclude "name" = true ∧
      withoutAge.fields["name"]? = none ∧ ¬Keeps (parsed (.insert ∅ "age" 0)) named withoutAge := by
  refine ⟨rfl, rfl, rfl, ?_⟩
  rintro ⟨hid, _⟩
  exact absurd hid (by decide)

end Pipeline

end VedDb
