import Mathlib.Data.List.Sort

/-!
# Interleaved programs

Programs that call operations on a shared state, one operation at a time, and the interleavings of
several of them.  An interleaving that takes every two conflicting steps in one order of the
programs ends where running the programs one after another in that order ends.
-/

namespace VedDb.Interleaving

inductive Program (Call : Type) (Answer : Call → Type) (α : Type) where
  | done (result : α)
  | call (operation : Call) (next : Answer operation → Program Call Answer α)

namespace Program

variable {Call : Type} {Answer : Call → Type} {α β S : Type}

def map (f : α → β) : Program Call Answer α → Program Call Answer β
  | .done result => .done (f result)
  | .call operation next => .call operation fun answer => (next answer).map f

variable (exec : (operation : Call) → S → Answer operation × S)

def run : Program Call Answer α → S → α × S
  | .done result, s => (result, s)
  | .call operation next, s => (next (exec operation s).1).run (exec operation s).2

def isDone : Program Call Answer α → Bool
  | .done _ => true
  | .call _ _ => false

theorem exists_of_isDone {program : Program Call Answer α} (h : program.isDone = true) :
    ∃ result, program = .done result := by
  cases program with
  | done result => exact ⟨result, rfl⟩
  | call operation next => cases h

theorem run_map (f : α → β) (program : Program Call Answer α) (s : S) :
    (program.map f).run exec s = (f (program.run exec s).1, (program.run exec s).2) := by
  induction program generalizing s with
  | done result => rfl
  | call operation next ih => exact ih _ _

end Program

/-! ## Threads -/

/-- Programs on one shared state. -/
structure Threads (ι Call : Type) (Answer : Call → Type) (α S : Type) where
  state : S
  programs : ι → Program Call Answer α

section

variable {ι Call α S E : Type} {Answer : Call → Type} [DecidableEq ι]
variable (exec : (operation : Call) → S → Answer operation × S) (label : Call → S → E)

def step (i : ι) (x : Threads ι Call Answer α S) : Option (E × Threads ι Call Answer α S) :=
  match x.programs i with
  | .done _ => none
  | .call operation next =>
    some (label operation x.state,
      { state := (exec operation x.state).2
        programs := Function.update x.programs i (next (exec operation x.state).1) })

/-- An interleaving, with the thread and the label of every step. -/
inductive Run :
    Threads ι Call Answer α S → List (ι × E) → Threads ι Call Answer α S → Prop where
  | nil (x : Threads ι Call Answer α S) : Run x [] x
  | cons {x x' y : Threads ι Call Answer α S} {i : ι} {e : E} {trace : List (ι × E)} :
      step exec label i x = some (e, x') → Run x' trace y → Run x ((i, e) :: trace) y

/-- The run along a schedule; a thread that is over is passed by. -/
def interleave : List ι → Threads ι Call Answer α S → List (ι × E) × Threads ι Call Answer α S
  | [], x => ([], x)
  | i :: schedule, x =>
    match step exec label i x with
    | none => interleave schedule x
    | some (e, x') =>
      let (trace, y) := interleave schedule x'
      ((i, e) :: trace, y)

/-- Every thread is over. -/
def Threads.Finished (x : Threads ι Call Answer α S) : Prop :=
  ∀ i, ∃ result, x.programs i = .done result

/-- One thread runs to its end. -/
def finish (x : Threads ι Call Answer α S) (i : ι) : Threads ι Call Answer α S :=
  { state := ((x.programs i).run exec x.state).2
    programs := Function.update x.programs i (.done ((x.programs i).run exec x.state).1) }

/-- The threads run to their ends one after another. -/
def serially (order : List ι) (x : Threads ι Call Answer α S) : Threads ι Call Answer α S :=
  order.foldl (finish exec) x

variable {exec label} {x x' y : Threads ι Call Answer α S} {i j : ι} {e f : E}
  {trace : List (ι × E)} {order : List ι}

/-! ## Steps -/

theorem step_eq_some_iff :
    step exec label i x = some (e, x') ↔
      ∃ operation next, x.programs i = .call operation next ∧ label operation x.state = e ∧
        x'.state = (exec operation x.state).2 ∧
        x'.programs = Function.update x.programs i (next (exec operation x.state).1) := by
  rw [step]
  cases hprogram : x.programs i with
  | done result =>
    refine ⟨nofun, ?_⟩
    intro ⟨_, _, h, _⟩
    cases h
  | call operation next =>
    constructor
    · intro h
      cases h
      exact ⟨operation, next, rfl, rfl, rfl, rfl⟩
    · intro ⟨_, _, h, hlabel, hstate, hprograms⟩
      cases h
      cases x'
      cases hlabel
      cases hstate
      cases hprograms
      rfl

-- A step is taken by its own thread only.
theorem step_programs_ne (h : step exec label i x = some (e, x')) (hne : j ≠ i) :
    x'.programs j = x.programs j := by
  obtain ⟨_, _, _, _, _, hprograms⟩ := step_eq_some_iff.mp h
  rw [hprograms, Function.update_of_ne hne]

-- A thread that has taken a step ends where it would have ended without.
theorem finish_of_step (h : step exec label i x = some (e, x')) :
    finish exec x' i = finish exec x i := by
  obtain ⟨operation, next, hprogram, _, hstate, hprograms⟩ := step_eq_some_iff.mp h
  rw [finish, finish, hprograms, hstate, hprogram, Function.update_self, Function.update_idem]
  rfl

-- A thread that is over has nothing left to run.
theorem finish_of_done {result : α} (h : x.programs i = .done result) : finish exec x i = x := by
  rw [finish, h]
  show ({ state := x.state, programs := Function.update x.programs i (.done result) } :
    Threads ι Call Answer α S) = x
  rw [← h, Function.update_eq_self]

theorem Run.programs_eq (hrun : Run exec label x trace y) (hi : ∀ event ∈ trace, event.1 ≠ i) :
    y.programs i = x.programs i := by
  induction hrun with
  | nil x => rfl
  | cons hstep _ ih =>
    rw [List.forall_mem_cons] at hi
    rw [ih hi.2, step_programs_ne hstep hi.1.symm]

theorem serially_programs (hi : i ∉ order) : (serially exec order x).programs i = x.programs i := by
  induction order generalizing x with
  | nil => rfl
  | cons j order ih =>
    rw [List.mem_cons, not_or] at hi
    rw [serially, List.foldl_cons]
    exact (ih hi.2).trans (Function.update_of_ne hi.1 _ _)

theorem serially_of_done (h : ∀ i ∈ order, ∃ result, x.programs i = .done result) :
    serially exec order x = x := by
  induction order with
  | nil => rfl
  | cons i order ih =>
    rw [List.forall_mem_cons] at h
    obtain ⟨result, hresult⟩ := h.1
    rw [serially, List.foldl_cons, finish_of_done hresult]
    exact ih h.2

theorem run_interleave (schedule : List ι) (x : Threads ι Call Answer α S) :
    Run exec label x (interleave exec label schedule x).1 (interleave exec label schedule x).2 := by
  induction schedule generalizing x with
  | nil => exact .nil x
  | cons i schedule ih =>
    rw [interleave]
    cases hstep : step exec label i x with
    | none => exact ih x
    | some next => exact .cons hstep (ih next.2)

/-! ## Serial runs -/

/-- The threads take their steps in an order, each all of its own before the next one starts. -/
def InTurn (order : List ι) (trace : List (ι × E)) : Prop :=
  trace.Pairwise fun a b => order.idxOf a.1 ≤ order.idxOf b.1

theorem Run.eq_serially_of_inTurn (hrun : Run exec label x trace y) (hdone : y.Finished)
    (hmem : ∀ i, i ∈ order) (hturn : InTurn order trace) : y = serially exec order x := by
  induction hrun with
  | nil x => exact (serially_of_done fun i _ => hdone i).symm
  | @cons x x' y i e trace hstep hrun ih =>
    rw [InTurn, List.pairwise_cons] at hturn
    obtain ⟨before, after, horder, hbefore⟩ := List.eq_append_cons_of_mem (hmem i)
    -- Whatever comes before the thread in the order takes no step from here on.
    have hover : ∀ k ∈ before, ∃ result, x.programs k = .done result := by
      intro k hk
      obtain ⟨result, hresult⟩ := hdone k
      refine ⟨result, ?_⟩
      have hlt : order.idxOf k < order.idxOf i := by
        rw [horder, List.idxOf_append_of_mem hk, List.idxOf_append_of_notMem hbefore,
          List.idxOf_cons_self]
        have hlength := List.idxOf_lt_length_of_mem hk
        omega
      have hquiet : ∀ event ∈ (i, e) :: trace, event.1 ≠ k := by
        rw [List.forall_mem_cons]
        constructor
        · intro h
          dsimp only at h
          rw [h] at hlt
          omega
        · intro event hevent h
          have hle := hturn.1 event hevent
          dsimp only at hle
          rw [h] at hle
          omega
      rw [← (Run.cons hstep hrun).programs_eq hquiet, hresult]
    have hover' : ∀ k ∈ before, ∃ result, x'.programs k = .done result := by
      intro k hk
      have hne : k ≠ i := fun h => hbefore (h ▸ hk)
      rw [step_programs_ne hstep hne]
      exact hover k hk
    have hskip (z : Threads ι Call Answer α S)
        (hz : ∀ k ∈ before, ∃ result, z.programs k = .done result) :
        serially exec order z = serially exec after (finish exec z i) := by
      rw [horder, serially, List.foldl_append, List.foldl_cons]
      exact congrArg (fun w => List.foldl (finish exec) (finish exec w i) after)
        (serially_of_done hz)
    rw [ih hdone hturn.2, hskip x hover, hskip x' hover', finish_of_step hstep]

/-! ## Conflicts -/

variable (exec label) in
/-- Where the invariant holds, two steps of different threads that do not conflict can be taken the
other way round. -/
structure Swappable (Conflict : ι × E → ι × E → Prop)
    (I : Threads ι Call Answer α S → Prop) : Prop where
  keeps {x x' : Threads ι Call Answer α S} {i : ι} {e : E} :
    I x → step exec label i x = some (e, x') → I x'
  swaps {x x' y : Threads ι Call Answer α S} {i j : ι} {e f : E} :
    I x → i ≠ j → ¬Conflict (i, e) (j, f) →
      step exec label i x = some (e, x') → step exec label j x' = some (f, y) →
      ∃ x'', step exec label j x = some (f, x'') ∧ step exec label i x'' = some (e, y)

/-- Two conflicting steps are taken in the order of their threads. -/
def ConflictsInOrder (Conflict : ι × E → ι × E → Prop) (order : List ι)
    (trace : List (ι × E)) : Prop :=
  trace.Pairwise fun a b =>
    a.1 ≠ b.1 → Conflict a b → order.idxOf a.1 < order.idxOf b.1

instance {Conflict : ι × E → ι × E → Prop} [DecidableRel Conflict] :
    Decidable (ConflictsInOrder Conflict order trace) :=
  inferInstanceAs (Decidable (List.Pairwise _ _))

section

variable {Conflict : ι × E → ι × E → Prop} {I : Threads ι Call Answer α S → Prop}
  (hswap : Swappable exec label Conflict I)

include hswap

/-- A step can be taken after the steps of threads before its own, if it conflicts with none. -/
theorem Run.orderedInsert {a : ι × E} (hI : I x) (hrun : Run exec label x (a :: trace) y)
    (ha : ∀ b ∈ trace, a.1 ≠ b.1 → Conflict a b → order.idxOf a.1 < order.idxOf b.1) :
    Run exec label x
      (trace.orderedInsert (fun a b => order.idxOf a.1 ≤ order.idxOf b.1) a) y := by
  induction trace generalizing x with
  | nil => exact hrun
  | cons b trace ih =>
    rw [List.forall_mem_cons] at ha
    rw [List.orderedInsert_cons]
    split
    · exact hrun
    · next hlt =>
        have hne : a.1 ≠ b.1 := fun h => hlt (le_of_eq (congrArg order.idxOf h))
        have hfree : ¬Conflict (a.1, a.2) (b.1, b.2) := by
          intro h
          have hle := ha.1 hne h
          omega
        cases hrun with
        | cons hfirst hrest =>
          cases hrest with
          | cons hsecond hrest =>
            obtain ⟨x'', hb, ha'⟩ := hswap.swaps hI hne hfree hfirst hsecond
            exact .cons hb (ih (hswap.keeps hI hb) (.cons ha' hrest) ha.2)

theorem Run.sort (hI : I x) (hrun : Run exec label x trace y)
    (horder : ConflictsInOrder Conflict order trace) :
    Run exec label x
      (trace.insertionSort fun a b => order.idxOf a.1 ≤ order.idxOf b.1) y := by
  induction hrun with
  | nil x => exact .nil x
  | @cons x x' y i e trace hstep _ ih =>
    rw [ConflictsInOrder, List.pairwise_cons] at horder
    rw [List.insertionSort_cons]
    apply Run.orderedInsert hswap hI (.cons hstep (ih (hswap.keeps hI hstep) horder.2))
    intro b hb
    exact horder.1 b ((List.mem_insertionSort _).mp hb)

/-- Conflict serializability. -/
theorem Run.eq_serially (hI : I x) (hrun : Run exec label x trace y) (hdone : y.Finished)
    (hmem : ∀ i, i ∈ order) (horder : ConflictsInOrder Conflict order trace) :
    y = serially exec order x := by
  apply (hrun.sort hswap hI horder).eq_serially_of_inTurn hdone hmem
  have htotal : Std.Total fun a b : ι × E => order.idxOf a.1 ≤ order.idxOf b.1 :=
    ⟨fun a b => Nat.le_total _ _⟩
  have htrans : IsTrans (ι × E) fun a b => order.idxOf a.1 ≤ order.idxOf b.1 :=
    ⟨fun a b c hab hbc => Nat.le_trans hab hbc⟩
  exact List.pairwise_insertionSort _ trace

end

end

end VedDb.Interleaving
