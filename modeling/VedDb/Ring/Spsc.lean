import Mathlib.Logic.Function.Basic
import VedDb.Ring.Slot

/-!
# The ring of one producer and one consumer

`ring/spsc.rs`, in the single steps that `try_push` and `try_pop` take on the shared memory: a load
or a store of an index, a read or a write of a slot.  The two parties take their steps in any
order.
-/

namespace VedDb

/-- A ring of `2 ^ bits` slots. -/
structure SpscRing (bits : Fin 64) where
  producerIndex : UInt64
  consumerIndex : UInt64
  slots : Fin (2 ^ bits.val) → Slot

namespace SpscRing

variable {bits : Fin 64}

def init (bits : Fin 64) : SpscRing bits :=
  { producerIndex := 0, consumerIndex := 0, slots := fun _ => .empty }

def capacity (bits : Fin 64) : UInt64 := UInt64.ofNat (2 ^ bits.val)

def write (ring : SpscRing bits) (index : UInt64) (slot : Slot) : SpscRing bits :=
  { ring with slots := Function.update ring.slots (slotAt bits index) slot }

theorem write_slots_self (ring : SpscRing bits) (index : UInt64) (slot : Slot) :
    (ring.write index slot).slots (place bits index.toNat) = slot := by
  rw [← slotAt_eq]
  exact Function.update_self _ _ _

theorem write_slots_ne (ring : SpscRing bits) {index : UInt64} (slot : Slot) {k : Nat}
    (hne : place bits k ≠ place bits index.toNat) :
    (ring.write index slot).slots (place bits k) = ring.slots (place bits k) := by
  rw [← slotAt_eq] at hne
  exact Function.update_of_ne hne _ _

/-- `try_push` in one go: nothing where the ring is full. -/
def tryPush (ring : SpscRing bits) (slot : Slot) : Option (SpscRing bits) :=
  if capacity bits ≤ ring.producerIndex - ring.consumerIndex then none
  else
    some { ring.write ring.producerIndex slot with producerIndex := ring.producerIndex + 1 }

end SpscRing

/-! ## Steps -/

/-- Where the producer stands in `try_push`. -/
inductive PushPc where
  | idle
  | called (slot : Slot)
  /-- Its own index is read. -/
  | loaded (slot : Slot) (producerIdx : UInt64)
  /-- There is room. -/
  | admitted (slot : Slot) (producerIdx : UInt64)
  | written (slot : Slot) (producerIdx : UInt64)
deriving DecidableEq

/-- Where the consumer stands in `try_pop`. -/
inductive PopPc where
  | idle
  | called
  /-- Its own index is read. -/
  | loaded (consumerIdx : UInt64)
  /-- There is an element. -/
  | admitted (consumerIdx : UInt64)
  | read (consumerIdx : UInt64) (slot : Slot)
  | cleared (consumerIdx : UInt64) (slot : Slot)
deriving DecidableEq

/-- A ring and its two parties, with the slots of the pushes and of the pops that succeeded. -/
structure SpscChannel (bits : Fin 64) where
  ring : SpscRing bits
  producer : PushPc
  consumer : PopPc
  pushed : List Slot
  popped : List Slot

namespace SpscChannel

variable {bits : Fin 64}

def start (bits : Fin 64) : SpscChannel bits :=
  { ring := .init bits, producer := .idle, consumer := .idle, pushed := [], popped := [] }

/-- The next step of the producer, and what `try_push` returns if it is the last one. -/
def push (c : SpscChannel bits) : Option Bool × SpscChannel bits :=
  match c.producer with
  | .idle => (none, c)
  | .called slot => (none, { c with producer := .loaded slot c.ring.producerIndex })
  | .loaded slot producerIdx =>
    if SpscRing.capacity bits ≤ producerIdx - c.ring.consumerIndex then
      (some false, { c with producer := .idle })
    else (none, { c with producer := .admitted slot producerIdx })
  | .admitted slot producerIdx =>
    (none,
      { c with ring := c.ring.write producerIdx slot, producer := .written slot producerIdx })
  | .written slot producerIdx =>
    (some true,
      { c with
        ring := { c.ring with producerIndex := producerIdx + 1 }
        producer := .idle
        pushed := c.pushed ++ [slot] })

/-- The next step of the consumer, and what `try_pop` returns if it is the last one. -/
def pop (c : SpscChannel bits) : Option (Option Slot) × SpscChannel bits :=
  match c.consumer with
  | .idle => (none, c)
  | .called => (none, { c with consumer := .loaded c.ring.consumerIndex })
  | .loaded consumerIdx =>
    if c.ring.producerIndex ≤ consumerIdx then (some none, { c with consumer := .idle })
    else (none, { c with consumer := .admitted consumerIdx })
  | .admitted consumerIdx =>
    (none, { c with consumer := .read consumerIdx (c.ring.slots (slotAt bits consumerIdx)) })
  | .read consumerIdx slot =>
    (none,
      { c with
        ring := c.ring.write consumerIdx .empty
        consumer := .cleared consumerIdx slot })
  | .cleared consumerIdx slot =>
    (some (some slot),
      { c with
        ring := { c.ring with consumerIndex := consumerIdx + 1 }
        consumer := .idle
        popped := c.popped ++ [slot] })

/-- What the scheduler lets a party do: call, or take the next step of its call. -/
inductive Move where
  | tryPush (slot : Slot)
  | push
  | tryPop
  | pop
deriving DecidableEq

def step (c : SpscChannel bits) : Move → SpscChannel bits
  | .tryPush slot => if c.producer = .idle then { c with producer := .called slot } else c
  | .push => c.push.2
  | .tryPop => if c.consumer = .idle then { c with consumer := .called } else c
  | .pop => c.pop.2

def run (bits : Fin 64) (moves : List Move) : SpscChannel bits := moves.foldl step (start bits)

/-! ## What a channel has to do -/

/-- The elements that the consumer has read but not yet given out. -/
def taken (c : SpscChannel bits) : Nat :=
  match c.consumer with
  | .read _ _ => 1
  | .cleared _ _ => 1
  | _ => 0

/-- Every element that is pushed and not yet read is in its slot. -/
def Unread (c : SpscChannel bits) : Prop :=
  ∀ k, c.popped.length + c.taken ≤ k → ∀ slot, c.pushed[k]? = some slot →
    c.ring.slots (place bits k) = slot

/-- As many elements are in flight as there are slots. -/
def Full (c : SpscChannel bits) : Prop := c.pushed.length = c.popped.length + 2 ^ bits.val

def Empty (c : SpscChannel bits) : Prop := c.popped = c.pushed

/-- The slot that the next step of a party writes holds no unread element. -/
def Spares (c : SpscChannel bits) : Prop :=
  ∀ k, c.popped.length + c.taken ≤ k → k < c.pushed.length →
    (∀ slot producerIdx, c.producer = .admitted slot producerIdx →
      slotAt bits producerIdx ≠ place bits k) ∧
    ∀ slot consumerIdx, c.consumer = .read consumerIdx slot →
      slotAt bits consumerIdx ≠ place bits k

structure IsFifo (c : SpscChannel bits) : Prop where
  inOrder : c.popped <+: c.pushed
  bounded : c.pushed.length ≤ c.popped.length + 2 ^ bits.val
  unread : c.Unread
  spares : c.Spares
  pushFails : c.push.1 = some false → c.Full
  popFails : c.pop.1 = some none → c.Empty

/-! ## The invariant -/

/-- What the producer knows. -/
def ProducerInv (c : SpscChannel bits) : Prop :=
  match c.producer with
  | .idle => True
  | .called _ => True
  | .loaded _ producerIdx => producerIdx = c.ring.producerIndex
  | .admitted _ producerIdx =>
    producerIdx = c.ring.producerIndex ∧ c.pushed.length < c.popped.length + 2 ^ bits.val
  | .written slot producerIdx =>
    producerIdx = c.ring.producerIndex ∧ c.pushed.length < c.popped.length + 2 ^ bits.val ∧
      c.ring.slots (place bits c.pushed.length) = slot

/-- What the consumer knows. -/
def ConsumerInv (c : SpscChannel bits) : Prop :=
  match c.consumer with
  | .idle => True
  | .called => True
  | .loaded consumerIdx => consumerIdx = c.ring.consumerIndex
  | .admitted consumerIdx =>
    consumerIdx = c.ring.consumerIndex ∧ c.popped.length < c.pushed.length
  | .read consumerIdx slot =>
    consumerIdx = c.ring.consumerIndex ∧ c.pushed[c.popped.length]? = some slot
  | .cleared consumerIdx slot =>
    consumerIdx = c.ring.consumerIndex ∧ c.pushed[c.popped.length]? = some slot

structure Inv (c : SpscChannel bits) : Prop where
  producerIndex : c.ring.producerIndex.toNat = c.pushed.length
  consumerIndex : c.ring.consumerIndex.toNat = c.popped.length
  isPrefix : c.popped <+: c.pushed
  room : c.pushed.length ≤ c.popped.length + 2 ^ bits.val
  producer : c.ProducerInv
  consumer : c.ConsumerInv
  unread : c.Unread

variable {c : SpscChannel bits}

theorem inv_start (bits : Fin 64) : (start bits).Inv where
  producerIndex := rfl
  consumerIndex := rfl
  isPrefix := List.prefix_refl _
  room := Nat.zero_le _
  producer := trivial
  consumer := trivial
  unread := by
    intro k _ slot hslot
    cases hslot

theorem Inv.le (h : c.Inv) : c.popped.length ≤ c.pushed.length := h.isPrefix.length_le

theorem append_singleton_prefix {α : Type} {xs ys : List α} {x : α} (h : xs <+: ys)
    (hx : ys[xs.length]? = some x) : xs ++ [x] <+: ys := by
  have ⟨rest, hrest⟩ := h
  subst hrest
  rw [List.getElem?_append_right le_rfl, Nat.sub_self] at hx
  cases rest with
  | nil => cases hx
  | cons y rest =>
    cases hx
    exact ⟨rest, List.append_assoc xs [x] rest⟩

theorem Inv.full_iff (h : c.Inv) :
    SpscRing.capacity bits ≤ c.ring.producerIndex - c.ring.consumerIndex ↔ c.Full := by
  have hle : c.ring.consumerIndex ≤ c.ring.producerIndex := by
    rw [UInt64.le_iff_toNat_le, h.producerIndex, h.consumerIndex]
    exact h.le
  rw [UInt64.le_iff_toNat_le, UInt64.toNat_sub_of_le _ _ hle, h.producerIndex, h.consumerIndex,
    SpscRing.capacity, toNat_ofNat_two_pow, Full]
  constructor
  · intro hfar
    exact le_antisymm h.room (Nat.add_le_of_le_sub' h.le hfar)
  · intro hfull
    exact Nat.le_sub_of_add_le' hfull.ge

theorem Inv.empty_iff (h : c.Inv) :
    c.ring.producerIndex ≤ c.ring.consumerIndex ↔ c.Empty := by
  rw [UInt64.le_iff_toNat_le, h.producerIndex, h.consumerIndex]
  constructor
  · exact h.isPrefix.eq_of_length_le
  · intro hempty
    rw [hempty]

theorem Inv.unread_write (h : c.Inv) {index : UInt64} (slot : Slot) {first : Nat}
    (hfirst : c.popped.length + c.taken ≤ first)
    (hapart : ∀ k, first ≤ k → k < c.pushed.length → place bits k ≠ place bits index.toNat) :
    ∀ k, first ≤ k → ∀ own, c.pushed[k]? = some own →
      (c.ring.write index slot).slots (place bits k) = own := by
  intro k hk own hown
  have hlt : k < c.pushed.length := (List.getElem?_eq_some_iff.mp hown).1
  rw [SpscRing.write_slots_ne _ _ (hapart k hk hlt)]
  exact h.unread k (hfirst.trans hk) own hown

/-! ## Steps of the producer -/

-- What the consumer knows stays true when an element is pushed.
theorem ConsumerInv.published (h : c.ConsumerInv) (slot : Slot) (producerIndex : UInt64)
    (producer : PushPc) :
    ConsumerInv { c with
      ring := { c.ring with producerIndex := producerIndex }
      producer := producer
      pushed := c.pushed ++ [slot] } := by
  unfold ConsumerInv at h ⊢
  dsimp only
  have hkept {own : Slot} (hown : c.pushed[c.popped.length]? = some own) :
      (c.pushed ++ [slot])[c.popped.length]? = some own := by
    rw [List.getElem?_append_left (List.getElem?_eq_some_iff.mp hown).1]
    exact hown
  cases hpc : c.consumer with
  | idle | called => trivial
  | loaded consumerIdx =>
    rw [hpc] at h
    exact h
  | admitted consumerIdx =>
    rw [hpc] at h
    refine ⟨h.1, ?_⟩
    rw [List.length_append]
    exact Nat.lt_add_right _ h.2
  | read consumerIdx own | cleared consumerIdx own =>
    rw [hpc] at h
    exact ⟨h.1, hkept h.2⟩

theorem Inv.push (h : c.Inv) (hlt : c.push.2.pushed.length < 2 ^ 64) : c.push.2.Inv := by
  have hproducer := h.producer
  rw [ProducerInv] at hproducer
  rw [SpscChannel.push] at hlt ⊢
  cases hpc : c.producer with
  | idle => exact h
  | called slot => exact { h with producer := rfl }
  | loaded slot producerIdx =>
    rw [hpc] at hproducer
    dsimp only at hproducer ⊢
    split
    next => exact { h with producer := trivial }
    next hroom =>
      rw [hproducer] at hroom
      have hnotFull : ¬c.Full := mt h.full_iff.mpr hroom
      exact { h with producer := ⟨hproducer, lt_of_le_of_ne h.room hnotFull⟩ }
  | admitted slot producerIdx =>
    rw [hpc] at hproducer
    have ⟨hindex, hroom⟩ := hproducer
    have hnat : producerIdx.toNat = c.pushed.length := hindex ▸ h.producerIndex
    refine
      { h with
        producer := ⟨hindex, hroom, ?_⟩
        unread := h.unread_write slot le_rfl ?_ }
    · show (c.ring.write producerIdx slot).slots (place bits c.pushed.length) = slot
      rw [← hnat]
      exact SpscRing.write_slots_self _ _ _
    · intro k hk hlt
      have hk : c.popped.length + c.taken ≤ k := hk
      rw [hnat]
      exact place_ne hlt (by omega)
  | written slot producerIdx =>
    rw [hpc] at hproducer hlt
    have ⟨hindex, hroom, hslot⟩ := hproducer
    have hnat : producerIdx.toNat = c.pushed.length := hindex ▸ h.producerIndex
    rw [List.length_append, List.length_singleton] at hlt
    exact
      { producerIndex := by
          show (producerIdx + 1).toNat = _
          rw [UInt64.toNat_add, hnat, List.length_append]
          exact Nat.mod_eq_of_lt hlt
        consumerIndex := h.consumerIndex
        isPrefix := h.isPrefix.trans (List.prefix_append _ _)
        room := by
          rw [List.length_append, List.length_singleton]
          exact hroom
        producer := trivial
        consumer := h.consumer.published slot _ _
        unread := by
          intro k hk own hown
          by_cases hlast : k < c.pushed.length
          · rw [List.getElem?_append_left hlast] at hown
            exact h.unread k hk own hown
          · have hlen := (List.getElem?_eq_some_iff.mp hown).1
            rw [List.length_append, List.length_singleton] at hlen
            rw [show k = c.pushed.length by omega] at hown ⊢
            rw [List.getElem?_append_right le_rfl, Nat.sub_self] at hown
            exact hslot.trans (Option.some.inj hown) }

/-! ## Steps of the consumer -/

-- What the producer knows stays true when its slot is written elsewhere and the consumer goes on.
theorem ProducerInv.cleared (h : c.ProducerInv) {index : UInt64} (consumer : PopPc)
    (hapart : c.pushed.length < c.popped.length + 2 ^ bits.val →
      place bits c.pushed.length ≠ place bits index.toNat) :
    ProducerInv { c with ring := c.ring.write index .empty, consumer := consumer } := by
  unfold ProducerInv at h ⊢
  dsimp only
  cases hpc : c.producer with
  | idle | called slot => trivial
  | loaded slot producerIdx | admitted slot producerIdx =>
    rw [hpc] at h
    exact h
  | written slot producerIdx =>
    rw [hpc] at h
    have ⟨hindex, hroom, hslot⟩ := h
    refine ⟨hindex, hroom, ?_⟩
    rw [SpscRing.write_slots_ne _ _ (hapart hroom)]
    exact hslot

-- It stays true as well when the consumer gives an element out.
theorem ProducerInv.given (h : c.ProducerInv) (slot : Slot) (consumerIndex : UInt64)
    (consumer : PopPc) :
    ProducerInv { c with
      ring := { c.ring with consumerIndex := consumerIndex }
      consumer := consumer
      popped := c.popped ++ [slot] } := by
  unfold ProducerInv at h ⊢
  dsimp only
  rw [List.length_append, List.length_singleton]
  cases hpc : c.producer with
  | idle | called own => trivial
  | loaded own producerIdx =>
    rw [hpc] at h
    exact h
  | admitted own producerIdx =>
    rw [hpc] at h
    exact ⟨h.1, by omega⟩
  | written own producerIdx =>
    rw [hpc] at h
    exact ⟨h.1, by omega, h.2.2⟩

theorem Inv.pop (h : c.Inv) : c.pop.2.Inv := by
  have hconsumer := h.consumer
  have hunread := h.unread
  rw [ConsumerInv] at hconsumer
  rw [Unread, taken] at hunread
  rw [SpscChannel.pop]
  cases hpc : c.consumer with
  | idle => exact h
  | called =>
    rw [hpc] at hunread
    exact { h with consumer := rfl, unread := hunread }
  | loaded consumerIdx =>
    rw [hpc] at hconsumer hunread
    dsimp only at hconsumer ⊢
    split
    next => exact { h with consumer := trivial, unread := hunread }
    next hsome =>
      rw [hconsumer] at hsome
      have hnotEmpty : ¬c.Empty := mt h.empty_iff.mpr hsome
      have hlt : c.popped.length < c.pushed.length :=
        lt_of_le_of_ne h.le fun hlen => hnotEmpty (h.isPrefix.eq_of_length hlen)
      exact { h with consumer := ⟨hconsumer, hlt⟩, unread := hunread }
  | admitted consumerIdx =>
    rw [hpc] at hconsumer hunread
    have ⟨hindex, hlt⟩ := hconsumer
    have hnat : consumerIdx.toNat = c.popped.length := hindex ▸ h.consumerIndex
    have hnext : c.pushed[c.popped.length]? = some c.pushed[c.popped.length] :=
      List.getElem?_eq_getElem hlt
    have hread : c.ring.slots (slotAt bits consumerIdx) = c.pushed[c.popped.length] := by
      rw [slotAt_eq, hnat]
      exact hunread _ le_rfl _ hnext
    refine { h with consumer := ⟨hindex, ?_⟩, unread := ?_ }
    · rw [hread]
      exact hnext
    · intro k hk
      exact hunread k (Nat.le_of_succ_le hk)
  | read consumerIdx slot =>
    rw [hpc] at hconsumer hunread
    have ⟨hindex, hslot⟩ := hconsumer
    have hnat : consumerIdx.toNat = c.popped.length := hindex ▸ h.consumerIndex
    have hlen : c.popped.length < c.pushed.length := (List.getElem?_eq_some_iff.mp hslot).1
    refine
      { h with
        producer := h.producer.cleared _ ?_
        consumer := ⟨hindex, hslot⟩
        unread := ?_ }
    · intro hroom
      rw [hnat]
      exact (place_ne hlen hroom).symm
    · intro k hk own hown
      have hk : c.popped.length + 1 ≤ k := hk
      have hlt : k < c.pushed.length := (List.getElem?_eq_some_iff.mp hown).1
      have hroom := h.room
      have hne : place bits k ≠ place bits consumerIdx.toNat := by
        rw [hnat]
        exact (place_ne hk (hlt.trans_le hroom)).symm
      show (c.ring.write consumerIdx .empty).slots (place bits k) = own
      rw [SpscRing.write_slots_ne _ _ hne]
      exact hunread k hk own hown
  | cleared consumerIdx slot =>
    rw [hpc] at hconsumer hunread
    have ⟨hindex, hslot⟩ := hconsumer
    have hnat : consumerIdx.toNat = c.popped.length := hindex ▸ h.consumerIndex
    have hlen : c.popped.length < c.pushed.length := (List.getElem?_eq_some_iff.mp hslot).1
    have hbound : c.popped.length + 1 < 2 ^ 64 := by
      have hproducer := c.ring.producerIndex.toNat_lt
      rw [h.producerIndex] at hproducer
      omega
    exact
      { producerIndex := h.producerIndex
        consumerIndex := by
          show (consumerIdx + 1).toNat = _
          rw [UInt64.toNat_add, hnat, List.length_append]
          exact Nat.mod_eq_of_lt hbound
        isPrefix := append_singleton_prefix h.isPrefix hslot
        room := by
          rw [List.length_append, List.length_singleton]
          exact h.room.trans (by omega)
        producer := h.producer.given slot _ _
        consumer := trivial
        unread := by
          intro k hk
          rw [List.length_append, List.length_singleton] at hk
          exact hunread k hk }

/-! ## Runs -/

theorem length_pushed_step (c : SpscChannel bits) (m : Move) :
    c.pushed.length ≤ (c.step m).pushed.length := by
  cases m with
  | tryPush slot =>
    rw [step]
    split <;> exact le_rfl
  | tryPop =>
    rw [step]
    split <;> exact le_rfl
  | push =>
    rw [step, SpscChannel.push]
    split <;> try split
    all_goals simp
  | pop =>
    rw [step, SpscChannel.pop]
    split <;> try split
    all_goals simp

theorem Inv.step (h : c.Inv) (m : Move) (hlt : (c.step m).pushed.length < 2 ^ 64) :
    (c.step m).Inv := by
  cases m with
  | tryPush slot =>
    rw [SpscChannel.step]
    split
    next => exact { h with producer := trivial }
    next => exact h
  | push => exact h.push hlt
  | tryPop =>
    rw [SpscChannel.step]
    split
    next hidle =>
      have hunread := h.unread
      rw [Unread, taken, hidle] at hunread
      exact { h with consumer := trivial, unread := hunread }
    next => exact h
  | pop => exact h.pop

theorem inv_run (bits : Fin 64) (moves : List Move)
    (hlt : (run bits moves).pushed.length < 2 ^ 64) : (run bits moves).Inv := by
  induction moves using List.reverseRecOn with
  | nil => exact inv_start bits
  | append_singleton moves m ih =>
    rw [run, List.foldl_concat] at hlt ⊢
    have hbefore := (length_pushed_step (run bits moves) m).trans_lt hlt
    exact (ih hbefore).step m hlt

theorem Inv.spares (h : c.Inv) : c.Spares := by
  intro k hk hlt
  have hroom := h.room
  constructor
  · intro slot producerIdx hpc
    have hproducer := h.producer
    rw [ProducerInv, hpc] at hproducer
    have ⟨hindex, hfree⟩ := hproducer
    rw [slotAt_eq, hindex, h.producerIndex]
    exact (place_ne hlt (by omega)).symm
  · intro slot consumerIdx hpc
    have hconsumer := h.consumer
    rw [ConsumerInv, hpc] at hconsumer
    rw [taken, hpc] at hk
    rw [slotAt_eq, hconsumer.1, h.consumerIndex]
    exact place_ne hk (by omega)

theorem Inv.push_fails (h : c.Inv) (hfails : c.push.1 = some false) : c.Full := by
  have hproducer := h.producer
  rw [ProducerInv] at hproducer
  rw [SpscChannel.push] at hfails
  cases hpc : c.producer with
  | idle | called slot | admitted slot producerIdx | written slot producerIdx =>
    rw [hpc] at hfails
    cases hfails
  | loaded slot producerIdx =>
    rw [hpc] at hproducer hfails
    dsimp only at hproducer hfails
    split at hfails
    next hfull =>
      rw [hproducer] at hfull
      exact h.full_iff.mp hfull
    next => cases hfails

theorem Inv.pop_fails (h : c.Inv) (hfails : c.pop.1 = some none) : c.Empty := by
  have hconsumer := h.consumer
  rw [ConsumerInv] at hconsumer
  rw [SpscChannel.pop] at hfails
  cases hpc : c.consumer with
  | idle | called | admitted consumerIdx | read consumerIdx slot | cleared consumerIdx slot =>
    rw [hpc] at hfails
    cases hfails
  | loaded consumerIdx =>
    rw [hpc] at hconsumer hfails
    dsimp only at hconsumer hfails
    split at hfails
    next hempty =>
      rw [hconsumer] at hempty
      exact h.empty_iff.mp hempty
    next => cases hfails

theorem Inv.isFifo (h : c.Inv) : c.IsFifo where
  inOrder := h.isPrefix
  bounded := h.room
  unread := h.unread
  spares := h.spares
  pushFails := h.push_fails
  popFails := h.pop_fails

/-- The ring is a channel, in whatever order its two parties take their steps. -/
theorem run_isFifo (bits : Fin 64) (moves : List Move)
    (hpushes : (run bits moves).pushed.length < 2 ^ 64) : (run bits moves).IsFifo :=
  (inv_run bits moves hpushes).isFifo

/-- A push that finds a ring of one slot still full, and the one after the pop. -/
theorem run_isFifo_lap :
    (run 0 [.tryPush (.arenaOffset 9 64), .push, .push, .push, .push, .tryPop, .pop,
      .tryPush (.arenaOffset 9 128), .push, .pop, .push, .pop, .pop, .pop,
      .tryPush (.arenaOffset 9 192), .push, .push, .push, .push]).IsFifo :=
  run_isFifo 0 _ (by decide +kernel)

end SpscChannel

end VedDb
