import VedDb.Aggregation.Group
import VedDb.Aggregation.Match
import VedDb.Aggregation.Project
import VedDb.Aggregation.Sort

/-!
# Executing a pipeline

`Pipeline::execute` of `aggregation.rs`, beside what its stages mean for whole lists of documents.
A group stage refuses what is too much for it.  A sort stage drops it, and so does the end of the
pipeline.  A sort may panic where its comparator is no total preorder.
-/

namespace VedDb

open Comparator
open Groups (ofKey)

structure StageRun where
  order : MapOrder Int32
  draws : Nat → DocumentDraw
  group : Pipeline.GroupRun

namespace Pipeline

/-- `MAX_RESULT_DOCS`. -/
def maxResultDocs : Nat := 100000

section

variable (floats : FloatArithmetic) (debug : DebugTexts) (sortBy : SortBy Document)

/-- A round of the loop in `execute`; nothing where a sort panics. -/
def applyStage (docs : List Document) (run : StageRun) :
    PipelineStage → Option (Except AggregationError (List Document))
  | .matching filter => some (.ok (applyMatch docs filter))
  | .project fields => some (.ok (applyProject run.order run.draws docs fields))
  | .sort fields => (applySort sortBy run.order docs fields).map .ok
  | .limit count => some (.ok (docs.take count.toNat))
  | .skip count => some (.ok (docs.drop count.toNat))
  | .group groupBy fields => some (applyGroup floats debug run.group docs groupBy fields)

/-- The loop of `execute`. -/
def applyStages : List (PipelineStage × StageRun) → List Document →
    Option (Except AggregationError (List Document))
  | [], docs => some (.ok docs)
  | (stage, run) :: stages, docs =>
    match applyStage floats debug sortBy docs run stage with
    | none => none
    | some (.error e) => some (.error e)
    | some (.ok docs) => applyStages stages docs

def drawn (runs : Nat → StageRun) (pipeline : Pipeline) : List (PipelineStage × StageRun) :=
  pipeline.stages.mapIdx fun i stage => (stage, runs i)

def execute (runs : Nat → StageRun) (pipeline : Pipeline) (documents : List Document) :
    Option (Except AggregationError (List Document)) :=
  (applyStages floats debug sortBy (drawn runs pipeline) documents).map
    (Except.map (·.take maxResultDocs))

/-! ## What the stages mean -/

def groupDocument (run : GroupRun) (draw : DocumentDraw) (groupBy : JsonValue)
    (accumulators : HashMap AggregateOp) (docs : List Document) (key : String) : Document :=
  ((ofKey (extractGroupKey debug groupBy) docs key).foldl
    (GroupAccumulator.takeAll floats (run.accumulators.arrange accumulators.toList))
      (.new key)).toDocument floats (run.fields key) draw

/-- What a stage makes of a list of documents: those that match, one for each document, the same
ones sorted, the first ones, those after the first ones, one for each group. -/
def Means (docs results : List Document) : PipelineStage → Prop
  | .matching filter => results = docs.filter fun doc => matchesFilter doc (jsonToDocValue filter)
  | .project fields =>
    List.Forall₂ (fun doc result => ∃ order draw, result = projectDocument order fields draw doc)
      docs results
  | .sort fields =>
    results.Perm docs ∧ ∃ order : MapOrder Int32,
      TotalPreorderOn (compareBy (order.arrange fields.toList)) (· ∈ docs) →
        StableSort (compareBy (order.arrange fields.toList)) docs results
  | .limit count => results = docs.take count.toNat
  | .skip count => results = docs.drop count.toNat
  | .group groupBy fields =>
    ∃ keys, keys.Perm (groupKeys debug groupBy docs) ∧
      List.Forall₂ (fun key result => ∃ run draw,
        result = groupDocument floats debug run draw groupBy fields docs key) keys results

def Composes : List PipelineStage → List Document → List Document → Prop
  | [], docs, results => results = docs
  | stage :: stages, docs, results =>
    ∃ rest, Means floats debug docs rest stage ∧ Composes stages rest results

def meaning (docs : List Document) (run : StageRun) : PipelineStage → List Document
  | .matching filter => applyMatch docs filter
  | .project fields => applyProject run.order run.draws docs fields
  | .sort fields => docs.mergeSort (notAfter (compareBy (run.order.arrange fields.toList)))
  | .limit count => docs.take count.toNat
  | .skip count => docs.drop count.toNat
  | .group groupBy fields =>
    (run.group.groups.arrange
      (grouped floats debug run.group.accumulators groupBy fields docs).toList).mapIdx
        fun i group => group.2.toDocument floats (run.group.fields group.1) (run.group.draws i)

def composed (stages : List (PipelineStage × StageRun)) (docs : List Document) : List Document :=
  stages.foldl (fun docs stage => meaning floats debug docs stage.2 stage.1) docs

def refuses (docs : List Document) : PipelineStage → Bool
  | .group groupBy _ => decide (maxGroupSize < (groupKeys debug groupBy docs).length)
  | _ => false

/-- A sort is given no more than it takes, and its comparator is a total preorder on that. -/
def SortFits (docs : List Document) (run : StageRun) (stage : PipelineStage) : Prop :=
  ∀ fields, stage = .sort fields → docs.length ≤ maxSortDocs ∧
    TotalPreorderOn (compareBy (run.order.arrange fields.toList)) (· ∈ docs)

/-- Every sort that is reached fits. -/
def SortsFit : List (PipelineStage × StageRun) → List Document → Prop
  | [], _ => True
  | (stage, run) :: stages, docs =>
    SortFits docs run stage ∧ (refuses debug docs stage = false →
      SortsFit stages (meaning floats debug docs run stage))

/-- Some stage fails. -/
def Refuses : List (PipelineStage × StageRun) → List Document → Prop
  | [], _ => False
  | (stage, run) :: stages, docs =>
    refuses debug docs stage = true ∨
      Refuses stages (meaning floats debug docs run stage)

def FailsOrGives (outcome : Option (Except AggregationError (List Document)))
    (docs : List Document) : Prop :=
  (∃ e, outcome = some (.error e)) ∨ outcome = some (.ok docs)

end

variable {floats : FloatArithmetic} {debug : DebugTexts} {sortBy : SortBy Document}
  {docs : List Document} {run : StageRun} {stage : PipelineStage}

/-! ## One stage -/

theorem forall₂_mapIdx {α β : Type} {R : α → β → Prop} {l : List α} {f : Nat → α → β}
    (h : ∀ i, ∀ a ∈ l, R a (f i a)) : List.Forall₂ R l (l.mapIdx f) := by
  induction l generalizing f with
  | nil => exact .nil
  | cons a l ih =>
    rw [List.mapIdx_cons]
    exact .cons (h 0 a List.mem_cons_self)
      (ih fun i b hb => h (i + 1) b (List.mem_cons_of_mem _ hb))

theorem means_meaning (docs : List Document) (run : StageRun) (stage : PipelineStage) :
    Means floats debug docs (meaning floats debug docs run stage) stage := by
  cases stage with
  | matching filter => rfl
  | project fields => exact forall₂_mapIdx fun i doc _ => ⟨run.order, run.draws i, rfl⟩
  | sort fields => exact ⟨List.mergeSort_perm _ _, run.order, stableSort_mergeSort⟩
  | limit count => rfl
  | skip count => rfl
  | group groupBy fields =>
    have hgroups := (run.group.groups.perm (grouped floats debug run.group.accumulators groupBy
      fields docs).toList).trans Groups.toList_grouped_perm
    have hkeys := hgroups.map Prod.fst
    rw [List.map_map] at hkeys
    refine ⟨_, hkeys.trans (.of_eq (List.map_id _)), ?_⟩
    rw [List.forall₂_map_left_iff]
    refine forall₂_mapIdx fun i group hgroup => ⟨run.group, run.group.draws i, ?_⟩
    obtain ⟨key, -, rfl⟩ := List.mem_map.mp (hgroups.mem_iff.mp hgroup)
    rfl

theorem applyStage_error_iff :
    (∃ e, applyStage floats debug sortBy docs run stage = some (.error e)) ↔
      refuses debug docs stage = true := by
  have hok {l : List Document}
      (happly : applyStage floats debug sortBy docs run stage = some (.ok l))
      (hfalse : refuses debug docs stage = false) :
      (∃ e, applyStage floats debug sortBy docs run stage = some (.error e)) ↔
        refuses debug docs stage = true := by
    rw [happly, hfalse]
    exact iff_of_false (by rintro ⟨e, he⟩; cases he) Bool.false_ne_true
  cases stage with
  | group groupBy fields =>
    simp only [applyStage, Option.some.injEq]
    exact applyGroup_error_iff.trans decide_eq_true_iff.symm
  | sort fields =>
    cases hsort : applySort sortBy run.order docs fields with
    | none =>
      rw [applyStage, hsort]
      exact iff_of_false (by rintro ⟨e, he⟩; cases he) Bool.false_ne_true
    | some sorted => exact hok (by rw [applyStage, hsort]; rfl) rfl
  | _ => exact hok rfl rfl

/-- A sort that fits gives its meaning, and the strict sort gives it to no other. -/
theorem applySort_eq_iff {fields : HashMap Int32} :
    (∀ sortBy, applySort sortBy run.order docs fields =
        some (docs.mergeSort (notAfter (compareBy (run.order.arrange fields.toList))))) ↔
      SortFits docs run (.sort fields) := by
  constructor
  · rintro h fields' ⟨⟩
    obtain ⟨hpre, heq⟩ := SortBy.strict_eq_some_iff.mp (h (.strict Document))
    have hlength := congrArg List.length heq
    rw [List.length_mergeSort, List.length_mergeSort, List.length_take] at hlength
    have hle : docs.length ≤ maxSortDocs := by omega
    rw [List.take_of_length_le hle] at hpre
    exact ⟨hle, hpre⟩
  · intro hfits sortBy
    obtain ⟨hle, hpre⟩ := hfits fields rfl
    rw [applySort, List.take_of_length_le hle, sortBy.sort_eq hpre]

theorem applyStage_eq_ok_iff (h : refuses debug docs stage = false) :
    (∀ sortBy, applyStage floats debug sortBy docs run stage =
      some (.ok (meaning floats debug docs run stage))) ↔ SortFits docs run stage := by
  cases stage with
  | matching filter => exact iff_of_true (fun _ => rfl) fun _ => PipelineStage.noConfusion
  | project fields => exact iff_of_true (fun _ => rfl) fun _ => PipelineStage.noConfusion
  | limit count => exact iff_of_true (fun _ => rfl) fun _ => PipelineStage.noConfusion
  | skip count => exact iff_of_true (fun _ => rfl) fun _ => PipelineStage.noConfusion
  | group groupBy fields =>
    have hle := Nat.not_lt.mp (of_decide_eq_false h)
    refine iff_of_true (fun sortBy => ?_) fun _ => PipelineStage.noConfusion
    rw [applyStage, applyGroup_eq, if_pos hle]
    rfl
  | sort fields =>
    rw [← applySort_eq_iff]
    refine forall_congr' fun sortBy => ?_
    rw [applyStage, meaning]
    cases applySort sortBy run.order docs fields with
    | none => simp
    | some sorted => simp

/-! ## A run of stages -/

variable {stages : List (PipelineStage × StageRun)}

theorem composes_composed (stages : List (PipelineStage × StageRun)) (docs : List Document) :
    Composes floats debug (stages.map Prod.fst) docs (composed floats debug stages docs) := by
  induction stages generalizing docs with
  | nil => rfl
  | cons stage stages ih => exact ⟨_, means_meaning docs stage.2 stage.1, ih _⟩

theorem applyStages_of_sortsFit (h : SortsFit floats debug stages docs) :
    (Refuses floats debug stages docs ∧
        ∃ e, applyStages floats debug sortBy stages docs = some (.error e)) ∨
      ¬Refuses floats debug stages docs ∧ applyStages floats debug sortBy stages docs =
        some (.ok (composed floats debug stages docs)) := by
  induction stages generalizing docs with
  | nil => exact .inr ⟨id, rfl⟩
  | cons drawn stages ih =>
    obtain ⟨stage, run⟩ := drawn
    cases hrefuses : refuses debug docs stage with
    | true =>
      obtain ⟨e, he⟩ : ∃ e, applyStage floats debug sortBy docs run stage = some (.error e) :=
        applyStage_error_iff.mpr hrefuses
      refine .inl ⟨.inl hrefuses, e, ?_⟩
      rw [applyStages, he]
    | false =>
      have happly : applyStage floats debug sortBy docs run stage =
          some (.ok (meaning floats debug docs run stage)) :=
        (applyStage_eq_ok_iff hrefuses).mpr h.1 sortBy
      rw [applyStages, happly]
      refine (ih (h.2 hrefuses)).imp (And.imp_left .inr) (And.imp_left fun hnot => ?_)
      exact not_or_intro (by rw [hrefuses]; exact Bool.false_ne_true) hnot

theorem applyStages_take_iff :
    (∀ sortBy n, FailsOrGives (applyStages floats debug sortBy (stages.take n) docs)
        (composed floats debug (stages.take n) docs)) ↔
      SortsFit floats debug stages docs := by
  induction stages generalizing docs with
  | nil => exact iff_of_true (fun _ n => by rw [List.take_nil]; exact .inr rfl) trivial
  | cons drawn stages ih =>
    obtain ⟨stage, run⟩ := drawn
    cases hrefuses : refuses debug docs stage with
    | true =>
      refine iff_of_true (fun sortBy n => ?_) ⟨?_, fun hfalse => ?_⟩
      · obtain ⟨e, he⟩ : ∃ e, applyStage floats debug sortBy docs run stage =
            some (.error e) := applyStage_error_iff.mpr hrefuses
        cases n with
        | zero => exact .inr rfl
        | succ n => exact .inl ⟨e, by rw [List.take_succ_cons, applyStages, he]⟩
      · rintro fields rfl
        cases hrefuses
      · rw [hrefuses] at hfalse
        cases hfalse
    | false =>
      rw [SortsFit, ← applyStage_eq_ok_iff hrefuses]
      constructor
      · intro h
        have happly (sortBy : SortBy Document) : applyStage floats debug sortBy docs run stage =
            some (.ok (meaning floats debug docs run stage)) := by
          have hone := h sortBy 1
          rw [List.take_succ_cons, List.take_zero, applyStages] at hone
          cases happly : applyStage floats debug sortBy docs run stage with
          | none =>
            rw [happly] at hone
            rcases hone with ⟨e, he⟩ | hone
            · cases he
            · cases hone
          | some outcome =>
            cases outcome with
            | error e =>
              rw [applyStage_error_iff.mp ⟨e, happly⟩] at hrefuses
              cases hrefuses
            | ok l =>
              rw [happly] at hone
              rcases hone with ⟨e, he⟩ | hone
              · cases he
              · exact hone
        refine ⟨happly, fun _ => ih.mp fun sortBy n => ?_⟩
        have hmore := h sortBy (n + 1)
        rwa [List.take_succ_cons, applyStages, happly] at hmore
      · rintro ⟨happly, hrest⟩ sortBy n
        cases n with
        | zero => exact .inr rfl
        | succ n =>
          rw [List.take_succ_cons, applyStages, happly]
          exact ih.mpr (hrest hrefuses) sortBy n

/-! ## A run of a pipeline -/

def Complete (floats : FloatArithmetic) (debug : DebugTexts) (sortBy : SortBy Document)
    (runs : Nat → StageRun) (pipeline : Pipeline) (documents : List Document) : Prop :=
  FailsOrGives (execute floats debug sortBy runs pipeline documents)
    (composed floats debug (drawn runs pipeline) documents)

theorem drawn_stages (runs : Nat → StageRun) (pipeline : Pipeline) :
    (drawn runs pipeline).map Prod.fst = pipeline.stages := by
  apply List.ext_getElem?
  intro i
  rw [drawn, List.getElem?_map, List.getElem?_mapIdx, Option.map_map]
  exact Option.map_id'

variable {runs : Nat → StageRun} {pipeline : Pipeline}

/-- A run gives no more than a result may be. -/
theorem length_execute_le {results : List Document}
    (h : execute floats debug sortBy runs pipeline docs = some (.ok results)) :
    results.length ≤ maxResultDocs := by
  obtain ⟨outcome, -, hresults⟩ := Option.map_eq_some_iff.mp h
  cases outcome with
  | error e => cases hresults
  | ok l =>
    rw [← Except.ok.inj hresults, List.length_take]
    exact Nat.min_le_left _ _

theorem complete_iff (h : SortsFit floats debug (drawn runs pipeline) docs) :
    Complete floats debug sortBy runs pipeline docs ↔
      Refuses floats debug (drawn runs pipeline) docs ∨
        (composed floats debug (drawn runs pipeline) docs).length ≤ maxResultDocs := by
  rcases applyStages_of_sortsFit h with ⟨hrefuses, e, he⟩ | ⟨hnot, hok⟩
  · refine iff_of_true (.inl ⟨e, ?_⟩) (.inl hrefuses)
    rw [execute, he]
    rfl
  · have hexecute : execute floats debug sortBy runs pipeline docs =
        some (.ok ((composed floats debug (drawn runs pipeline) docs).take maxResultDocs)) := by
      rw [execute, hok]
      rfl
    rw [Complete, FailsOrGives, hexecute, or_iff_right hnot,
      or_iff_right (by rintro ⟨e, he⟩; cases he), Option.some.injEq, Except.ok.injEq,
      List.take_eq_self_iff]

/-- What the stages of a run mean is what the stages mean one after another.  Whatever sorts, a run
has failed or has what the stages mean so far after each stage, and its result is all that they
mean, exactly when each sort that it reaches is given no more than it takes and documents that its
comparator orders, and some stage fails or the result is no longer than a result may be.  The last
is so wherever the result is all that the stages mean. -/
theorem execute_complete_iff (floats : FloatArithmetic) (debug : DebugTexts)
    (runs : Nat → StageRun) (pipeline : Pipeline) (documents : List Document) :
    Composes floats debug pipeline.stages documents
      (composed floats debug (drawn runs pipeline) documents) ∧
    ((∀ sortBy, Complete floats debug sortBy runs pipeline documents ∧
      ∀ n, FailsOrGives
        (applyStages floats debug sortBy ((drawn runs pipeline).take n) documents)
        (composed floats debug ((drawn runs pipeline).take n) documents)) ↔
      SortsFit floats debug (drawn runs pipeline) documents ∧
        (Refuses floats debug (drawn runs pipeline) documents ∨
          (composed floats debug (drawn runs pipeline) documents).length ≤ maxResultDocs)) ∧
    ∀ sortBy, Complete floats debug sortBy runs pipeline documents →
      (∃ e, execute floats debug sortBy runs pipeline documents = some (.error e)) ∨
        (composed floats debug (drawn runs pipeline) documents).length ≤ maxResultDocs := by
  refine ⟨?_, ?_, fun sortBy hcomplete => hcomplete.imp_right length_execute_le⟩
  · rw [← drawn_stages runs pipeline]
    exact composes_composed _ documents
  · constructor
    · intro h
      have hfit := applyStages_take_iff.mp fun sortBy => (h sortBy).2
      exact ⟨hfit, (complete_iff hfit).mp (h (.merge Document)).1⟩
    · rintro ⟨hfit, hends⟩ sortBy
      exact ⟨(complete_iff hfit).mpr hends, applyStages_take_iff.mpr hfit sortBy⟩

variable (floats debug sortBy runs)

theorem drops_last : ¬Complete floats debug sortBy runs ⟨[]⟩
    (List.replicate (maxResultDocs + 1) (Document.new 0 ⟨0⟩)) := by
  rintro (⟨e, he⟩ | hall)
  · cases he
  · have hlength := length_execute_le hall
    rw [composed, drawn, List.mapIdx_nil, List.foldl_nil, List.length_replicate] at hlength
    exact Nat.not_succ_le_self _ hlength

theorem drops_before_skip {count : UInt64} (hcount : count.toNat = maxSortDocs) :
    execute floats debug (.merge Document) runs ⟨[.sort ∅, .skip count]⟩
        (List.replicate (maxSortDocs + 1) (Document.new 0 ⟨0⟩)) = some (.ok []) ∧
      (composed floats debug (drawn runs ⟨[.sort ∅, .skip count]⟩)
        (List.replicate (maxSortDocs + 1) (Document.new 0 ⟨0⟩))).length = 1 := by
  have hdrawn : drawn runs ⟨[.sort ∅, .skip count]⟩ =
      [(.sort ∅, runs 0), (.skip count, runs 1)] := rfl
  rw [execute, composed, hdrawn, List.foldl_cons, List.foldl_cons, List.foldl_nil]
  simp only [applyStages, applyStage, meaning, applySort, SortBy.merge, Option.map_some]
  constructor
  · rw [List.drop_eq_nil_of_le]
    · rfl
    · rw [List.length_mergeSort, List.length_take, hcount]
      exact Nat.min_le_left _ _
  · rw [List.length_drop, List.length_mergeSort, List.length_replicate, hcount,
      Nat.add_sub_cancel_left]

def plainStage : StageRun where
  order := .sorted Int32
  draws _ := { id := ⟨0⟩, clock := fun _ => 0 }
  group := plainRun

theorem execute_drops_documents :
    ¬Complete idleFloats kindTexts (.merge Document) (fun _ => plainStage) ⟨[]⟩
        (List.replicate (maxResultDocs + 1) (Document.new 0 ⟨0⟩)) ∧
      execute idleFloats kindTexts (.merge Document) (fun _ => plainStage)
        ⟨[.sort ∅, .skip 1000000]⟩ (List.replicate (maxSortDocs + 1) (Document.new 0 ⟨0⟩)) =
          some (.ok []) ∧
      (composed idleFloats kindTexts (drawn (fun _ => plainStage) ⟨[.sort ∅, .skip 1000000]⟩)
        (List.replicate (maxSortDocs + 1) (Document.new 0 ⟨0⟩))).length = 1 :=
  ⟨drops_last _ _ _ _, drops_before_skip _ _ _ rfl⟩

end Pipeline

end VedDb
