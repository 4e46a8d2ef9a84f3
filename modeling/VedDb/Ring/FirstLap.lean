import VedDb.Lib.Tickets
import VedDb.Ring.Mpmc

/-!
# The first lap of a ring of many producers and many consumers

A push takes its slot to be free when the slot's sequence is the slot's index, and a pop adds the
capacity to the sequence: a slot is granted once.  Calls that fail keep the position they have
taken.  As long as every call stays in the first lap, and no pop overtakes the push of its position,
the ring loses and duplicates nothing.
-/

namespace VedDb

namespace MpmcChannel

variable {τ : Type} [DecidableEq τ] {bits : Fin 64}

open MpmcRing (capacity slotIdx)

/-! ## The condition and the invariant -/

def PartyInFirstLap (c : MpmcChannel τ bits) : MpmcPc → Prop
  | .pushing _ => c.ring.head < capacity bits
  | .popping => c.ring.tail < capacity bits
  | .taken tail => (c.ring.slots (slotAt bits tail)).sequence = slotIdx bits tail + 1
  | _ => True

def InFirstLap (c : MpmcChannel τ bits) : Move τ → Prop
  | .tryPush _ _ => True
  | .tryPop _ => True
  | .next t => c.PartyInFirstLap (c.party t)

omit [DecidableEq τ] in
instance (c : MpmcChannel τ bits) : (pc : MpmcPc) → Decidable (c.PartyInFirstLap pc)
  | .pushing _ => inferInstanceAs (Decidable (_ < _))
  | .popping => inferInstanceAs (Decidable (_ < _))
  | .taken _ => inferInstanceAs (Decidable (_ = _))
  | .idle | .claimed .. | .granted .. | .written .. | .admitted .. | .read .. => .isTrue trivial

omit [DecidableEq τ] in
instance (c : MpmcChannel τ bits) : (m : Move τ) → Decidable (c.InFirstLap m)
  | .tryPush _ _ => .isTrue trivial
  | .tryPop _ => .isTrue trivial
  | .next t => inferInstanceAs (Decidable (c.PartyInFirstLap (c.party t)))

/-- The position that a push has taken. -/
def pushAt : MpmcPc → Option Nat
  | .claimed _ head _ => some head.toNat
  | .granted _ head _ => some head.toNat
  | .written _ head _ => some head.toNat
  | _ => none

def popAt : MpmcPc → Option Nat
  | .taken tail => some tail.toNat
  | .admitted tail => some tail.toNat
  | .read tail _ _ => some tail.toNat
  | _ => none

/-- The slot of a position. -/
def slot (c : MpmcChannel τ bits) (p : Nat) : MpmcSlot := c.ring.slots (place bits p)

/-- No push has written the slot of a position. -/
def Unwritten (c : MpmcChannel τ bits) (p : Nat) : Prop :=
  (c.slot p).sequence.toNat = p ∧ c.author (place bits p) = none

/-- What a party knows. -/
def PartyInv (c : MpmcChannel τ bits) : MpmcPc → Prop
  | .claimed _ head turn => turn = head.toNat ∧ c.Unwritten head.toNat
  | .granted _ head turn => turn = head.toNat ∧ c.Unwritten head.toNat
  | .written data head turn =>
    turn = head.toNat ∧ (c.slot head.toNat).sequence.toNat = head.toNat ∧
      (c.slot head.toNat).data = data ∧ c.author (place bits head.toNat) = some head.toNat
  | .admitted tail => tail.toNat ∈ c.pushed.map Prod.fst
  | .read tail data author => author = some tail.toNat ∧ (tail.toNat, data) ∈ c.pushed
  | _ => True

/-- What a successful push has left in its slot. -/
structure StoredInv (c : MpmcChannel τ bits) (e : Nat × Slot) : Prop where
  author : c.author (place bits e.1) = some e.1
  data : (c.slot e.1).data = e.2
  published : some e.1 ∉ c.popped.map Prod.fst → (c.slot e.1).sequence.toNat = e.1 + 1

structure Inv (c : MpmcChannel τ bits) : Prop where
  turns : c.turns = c.ring.head.toNat
  headLe : c.ring.head.toNat ≤ 2 ^ bits.val
  tailLe : c.ring.tail.toNat ≤ 2 ^ bits.val
  pushes : Tickets c.ring.head.toNat (pushAt ∘ c.party) (c.pushed.map Prod.fst)
  pops : ∃ taken : List (Nat × Slot), c.popped = taken.map (Prod.map some id) ∧
    taken ⊆ c.pushed ∧ Tickets c.ring.tail.toNat (popAt ∘ c.party) (taken.map Prod.fst)
  fresh : ∀ p, c.ring.head.toNat ≤ p → p < 2 ^ bits.val → c.Unwritten p
  party : ∀ t, c.PartyInv (c.party t)
  stored : ∀ e ∈ c.pushed, c.StoredInv e

omit [DecidableEq τ] in
theorem inv_start (τ : Type) (bits : Fin 64) : (start τ bits).Inv where
  turns := rfl
  headLe := Nat.zero_le _
  tailLe := Nat.zero_le _
  pushes := Tickets.start
  pops := ⟨[], rfl, List.nil_subset _, Tickets.start⟩
  fresh := by
    intro p _ hlt
    refine ⟨?_, rfl⟩
    show (UInt64.ofNat (p % 2 ^ bits.val)).toNat = p
    rw [Nat.mod_eq_of_lt hlt]
    exact UInt64.toNat_ofNat_of_lt' (hlt.trans (two_pow_lt_two_pow_64 bits))
  party := fun _ => trivial
  stored := nofun

variable {c c' : MpmcChannel τ bits} {t : τ}

/-! ## Frames -/

omit [DecidableEq τ] in
theorem slotIdx_toNat {index : UInt64} (hlt : index.toNat < 2 ^ bits.val) :
    (slotIdx bits index).toNat = index.toNat := by
  rw [slotIdx, ringMask, toNat_and_low_bits, Nat.mod_eq_of_lt hlt]

theorem place_ne_of_lt {p q : Nat} (hp : p < 2 ^ bits.val) (hq : q < 2 ^ bits.val) (hne : p ≠ q) :
    place bits p ≠ place bits q := by
  rcases Nat.lt_or_gt_of_ne hne with hlt | hlt
  · exact place_ne hlt (by omega)
  · exact (place_ne hlt (by omega)).symm

omit [DecidableEq τ] in
theorem PartyInv.frame {pc : MpmcPc} (h : c.PartyInv pc)
    (hslot : ∀ q, pushAt pc = some q →
      c'.slot q = c.slot q ∧ c'.author (place bits q) = c.author (place bits q))
    (hpushed : c.pushed ⊆ c'.pushed) : c'.PartyInv pc := by
  cases pc with
  | idle | pushing data | popping | taken tail => trivial
  | claimed data head turn | granted data head turn =>
    have ⟨hseq, hauthor⟩ := hslot head.toNat rfl
    rw [PartyInv, Unwritten] at h ⊢
    rw [hseq, hauthor]
    exact h
  | written data head turn =>
    have ⟨hseq, hauthor⟩ := hslot head.toNat rfl
    rw [PartyInv] at h ⊢
    rw [hseq, hauthor]
    exact h
  | admitted tail => exact List.map_subset _ hpushed h
  | read tail data author => exact ⟨h.1, hpushed h.2⟩

/-- One party goes on, and the slots of the others are left alone. -/
theorem Inv.party_goTo (h : c.Inv) {pc : MpmcPc} (hself : c'.PartyInv pc)
    (hslot : ∀ u q, u ≠ t → pushAt (c.party u) = some q →
      c'.slot q = c.slot q ∧ c'.author (place bits q) = c.author (place bits q))
    (hpushed : c.pushed ⊆ c'.pushed) :
    ∀ u, c'.PartyInv (Function.update c.party t pc u) := by
  intro u
  by_cases hu : u = t
  · subst hu
    rw [Function.update_self]
    exact hself
  · rw [Function.update_of_ne hu]
    exact (h.party u).frame (fun q => hslot u q hu) hpushed

theorem pushAt_goTo {pc : MpmcPc} (hpush : pushAt pc = pushAt (c.party t)) :
    pushAt ∘ Function.update c.party t pc = pushAt ∘ c.party := by
  rw [Function.comp_update, hpush]
  exact Function.update_eq_self t (pushAt ∘ c.party)

theorem popAt_goTo {pc : MpmcPc} (hpop : popAt pc = popAt (c.party t)) :
    popAt ∘ Function.update c.party t pc = popAt ∘ c.party := by
  rw [Function.comp_update, hpop]
  exact Function.update_eq_self t (popAt ∘ c.party)

/-- A party that goes on without touching its positions, the ring and the records. -/
theorem Inv.goTo (h : c.Inv) {pc : MpmcPc} (hpush : pushAt pc = pushAt (c.party t))
    (hpop : popAt pc = popAt (c.party t)) (hself : c.PartyInv pc) : (c.goTo t pc).Inv := by
  exact
    { h with
      pushes := by
        show Tickets _ (pushAt ∘ Function.update c.party t pc) _
        rw [pushAt_goTo hpush]
        exact h.pushes
      pops := by
        show ∃ taken : List (Nat × Slot), _ ∧ _ ∧
          Tickets _ (popAt ∘ Function.update c.party t pc) _
        rw [popAt_goTo hpop]
        exact h.pops
      party := h.party_goTo hself (fun _ _ _ _ => ⟨rfl, rfl⟩) (List.Subset.refl _)
      stored := fun e he =>
        have hstored := h.stored e he
        ⟨hstored.author, hstored.data, hstored.published⟩ }

omit [DecidableEq τ] in
theorem StoredInv.frame {e : Nat × Slot} (h : c.StoredInv e) (hslot : c'.slot e.1 = c.slot e.1)
    (hauthor : c'.author (place bits e.1) = c.author (place bits e.1))
    (hpopped : c.popped ⊆ c'.popped) : c'.StoredInv e where
  author := hauthor.trans h.author
  data := by
    rw [hslot]
    exact h.data
  published := by
    intro hnot
    rw [hslot]
    exact h.published fun hmem => hnot (List.map_subset _ hpopped hmem)

theorem slots_setData_ne (ring : MpmcRing bits) {index : UInt64} (data : Slot) {q : Nat}
    (hne : place bits q ≠ place bits index.toNat) :
    (ring.setData index data).slots (place bits q) = ring.slots (place bits q) := by
  rw [← slotAt_eq] at hne
  exact Function.update_of_ne hne _ _

theorem slots_setSequence_ne (ring : MpmcRing bits) {index : UInt64} (sequence : UInt64) {q : Nat}
    (hne : place bits q ≠ place bits index.toNat) :
    (ring.setSequence index sequence).slots (place bits q) = ring.slots (place bits q) := by
  rw [← slotAt_eq] at hne
  exact Function.update_of_ne hne _ _

theorem slots_setData_self (ring : MpmcRing bits) (index : UInt64) (data : Slot) :
    (ring.setData index data).slots (place bits index.toNat) =
      { ring.slots (place bits index.toNat) with data := data } := by
  rw [← slotAt_eq]
  exact Function.update_self _ _ _

theorem slots_setSequence_self (ring : MpmcRing bits) (index sequence : UInt64) :
    (ring.setSequence index sequence).slots (place bits index.toNat) =
      { ring.slots (place bits index.toNat) with sequence := sequence } := by
  rw [← slotAt_eq]
  exact Function.update_self _ _ _

/-! ## Positions -/

omit [DecidableEq τ] in
theorem Inv.pushed_lt (h : c.Inv) {e : Nat × Slot} (he : e ∈ c.pushed) :
    e.1 < c.ring.head.toNat :=
  ((h.pushes.mem_spent e.1).mp (List.mem_map_of_mem he)).1

omit [DecidableEq τ] in
theorem Inv.claimed_lt (h : c.Inv) {p : Nat} (hp : pushAt (c.party t) = some p) :
    p < c.ring.head.toNat :=
  h.pushes.issued t p hp

omit [DecidableEq τ] in
theorem Inv.taken_lt (h : c.Inv) {p : Nat} (hp : popAt (c.party t) = some p) :
    p < 2 ^ bits.val := by
  have ⟨_, _, _, hpops⟩ := h.pops
  exact (hpops.issued t p hp).trans_le h.tailLe

omit [DecidableEq τ] in
-- A position that is neither claimed nor taken over is one whose push has returned.
theorem Inv.mem_pushed_of_published (h : c.Inv) {p : Nat} (hp : p < 2 ^ bits.val)
    (hseq : (c.slot p).sequence.toNat = p + 1) : p ∈ c.pushed.map Prod.fst := by
  rw [h.pushes.mem_spent]
  by_cases hhead : p < c.ring.head.toNat
  · refine ⟨hhead, fun u hu => ?_⟩
    have hparty := h.party u
    rw [Function.comp_apply] at hu
    cases hpc : c.party u with
    | claimed data head turn | granted data head turn =>
      rw [hpc] at hu hparty
      have hnat : head.toNat = p := Option.some.inj hu
      have ⟨_, hunwritten, _⟩ := hparty
      rw [hnat] at hunwritten
      omega
    | written data head turn =>
      rw [hpc] at hu hparty
      have hnat : head.toNat = p := Option.some.inj hu
      have ⟨_, hunpublished, _⟩ := hparty
      rw [hnat] at hunpublished
      omega
    | idle | pushing data | popping | taken tail | admitted tail | read tail data author =>
      rw [hpc] at hu
      cases hu
  · have ⟨hunwritten, _⟩ := h.fresh p (Nat.le_of_not_lt hhead) hp
    omega

/-! ## Steps of a push -/

theorem toNat_succ {x : UInt64} (hlt : x.toNat < 2 ^ bits.val) : (x + 1).toNat = x.toNat + 1 := by
  have hbits := two_pow_lt_two_pow_64 bits
  rw [UInt64.toNat_add]
  exact Nat.mod_eq_of_lt (Nat.lt_of_le_of_lt hlt hbits)

theorem lt_capacity_iff {x : UInt64} : x < capacity bits ↔ x.toNat < 2 ^ bits.val := by
  rw [UInt64.lt_iff_toNat_lt, capacity, toNat_ofNat_two_pow]

theorem Inv.claim (h : c.Inv) {data : Slot} (hpc : c.party t = .pushing data)
    (hfree : c.ring.head < capacity bits) : (c.next t).2.Inv := by
  rw [lt_capacity_iff] at hfree
  have hsucc := toNat_succ hfree
  have hnone : (pushAt ∘ c.party) t = none := by
    rw [Function.comp_apply, hpc]
    rfl
  rw [next, hpc]
  exact
    { h with
      turns := by
        show c.turns + 1 = (c.ring.head + 1).toNat
        rw [hsucc, h.turns]
      headLe := by
        show (c.ring.head + 1).toNat ≤ _
        rw [hsucc]
        exact hfree
      pushes := by
        show Tickets (c.ring.head + 1).toNat (pushAt ∘ Function.update c.party t _) _
        rw [Function.comp_update, hsucc]
        exact h.pushes.take t hnone
      pops := by
        show ∃ taken : List (Nat × Slot), _ ∧ _ ∧
          Tickets _ (popAt ∘ Function.update c.party t _) _
        rw [popAt_goTo (by rw [hpc]; rfl)]
        exact h.pops
      fresh := by
        intro p hp hlt
        change (c.ring.head + 1).toNat ≤ p at hp
        exact h.fresh p (by omega) hlt
      party := h.party_goTo ⟨h.turns, h.fresh _ le_rfl hfree⟩ (fun _ _ _ _ => ⟨rfl, rfl⟩)
        (List.Subset.refl _)
      stored := fun e he => (h.stored e he).frame rfl rfl (List.Subset.refl _) }

omit [DecidableEq τ] in
theorem Unwritten.granted {head : UInt64} (h : c.Unwritten head.toNat)
    (hlt : head.toNat < 2 ^ bits.val) :
    (c.ring.slots (slotAt bits head)).sequence = slotIdx bits head := by
  apply UInt64.toNat.inj
  rw [slotAt_eq, slotIdx_toNat hlt]
  exact h.1

theorem Inv.look_push (h : c.Inv) {data : Slot} {head : UInt64} {turn : Nat}
    (hpc : c.party t = .claimed data head turn) :
    c.next t = (none, c.goTo t (.granted data head turn)) := by
  have hparty := h.party t
  rw [hpc] at hparty
  have hlt := (h.claimed_lt (t := t) (by rw [hpc]; rfl)).trans_le h.headLe
  rw [next, hpc]
  exact if_pos (hparty.2.granted hlt)

theorem Inv.write (h : c.Inv) {data : Slot} {head : UInt64} {turn : Nat}
    (hpc : c.party t = .granted data head turn) : (c.next t).2.Inv := by
  have hparty := h.party t
  rw [hpc] at hparty
  have ⟨hturn, hseq, _⟩ := hparty
  have hpos : pushAt (c.party t) = some head.toNat := by
    rw [hpc]
    rfl
  have hlt := h.claimed_lt hpos
  -- Only the slot of this position is written.
  have hother {q : Nat} (hq : q < 2 ^ bits.val) (hne : q ≠ head.toNat) :
      (c.ring.setData head data).slots (place bits q) = c.slot q ∧
        Function.update c.author (slotAt bits head) (some turn) (place bits q) =
          c.author (place bits q) := by
    have hplace := place_ne_of_lt hq (hlt.trans_le h.headLe) hne
    refine ⟨slots_setData_ne _ _ hplace, ?_⟩
    rw [slotAt_eq]
    exact Function.update_of_ne hplace _ _
  rw [next, hpc]
  exact
    { h with
      pushes := by
        show Tickets _ (pushAt ∘ Function.update c.party t _) _
        rw [pushAt_goTo (by rw [hpc]; rfl)]
        exact h.pushes
      pops := by
        show ∃ taken : List (Nat × Slot), _ ∧ _ ∧
          Tickets _ (popAt ∘ Function.update c.party t _) _
        rw [popAt_goTo (by rw [hpc]; rfl)]
        exact h.pops
      fresh := by
        intro p hp hpb
        have ⟨hslot, hauthor⟩ := hother hpb (by change c.ring.head.toNat ≤ p at hp; omega)
        have ⟨hseq, hnone⟩ := h.fresh p hp hpb
        refine ⟨?_, hauthor.trans hnone⟩
        show ((c.ring.setData head data).slots (place bits p)).sequence.toNat = p
        rw [hslot]
        exact hseq
      party := by
        refine h.party_goTo ⟨hturn, ?_, ?_, ?_⟩ ?_ (List.Subset.refl _)
        · show ((c.ring.setData head data).slots (place bits head.toNat)).sequence.toNat = _
          rw [slots_setData_self]
          exact hseq
        · show ((c.ring.setData head data).slots (place bits head.toNat)).data = data
          rw [slots_setData_self]
        · show Function.update c.author (slotAt bits head) (some turn) (place bits head.toNat) = _
          rw [slotAt_eq, Function.update_self, hturn]
        · intro u q hu hq
          exact hother ((h.claimed_lt hq).trans_le h.headLe) (h.pushes.ne_of_ne hu hq hpos)
      stored := by
        intro e he
        have ⟨hslot, hauthor⟩ := hother ((h.pushed_lt he).trans_le h.headLe) (by
          intro heq
          exact h.pushes.notMem_spent hpos (heq ▸ List.mem_map_of_mem he))
        exact (h.stored e he).frame hslot hauthor (List.Subset.refl _) }

theorem Inv.publish (h : c.Inv) {data : Slot} {head : UInt64} {turn : Nat}
    (hpc : c.party t = .written data head turn) : (c.next t).2.Inv := by
  have hparty := h.party t
  rw [hpc] at hparty
  have ⟨hturn, _, hdata, hauthor⟩ := hparty
  have hpos : pushAt (c.party t) = some head.toNat := by
    rw [hpc]
    rfl
  have hlt := h.claimed_lt hpos
  have hbound := hlt.trans_le h.headLe
  have hother {q : Nat} (hq : q < 2 ^ bits.val) (hne : q ≠ head.toNat) :
      (c.ring.setSequence head (slotIdx bits head + 1)).slots (place bits q) = c.slot q :=
    slots_setSequence_ne _ _ (place_ne_of_lt hq hbound hne)
  rw [next, hpc]
  exact
    { h with
      pushes := by
        show Tickets _ (pushAt ∘ Function.update c.party t _) ((c.pushed ++ [(turn, data)]).map _)
        rw [Function.comp_update, List.map_append, List.map_singleton, hturn]
        exact h.pushes.spend hpos
      pops := by
        have ⟨taken, hpopped, hsubset, hpops⟩ := h.pops
        refine ⟨taken, hpopped, List.subset_append_of_subset_left _ hsubset, ?_⟩
        show Tickets _ (popAt ∘ Function.update c.party t _) _
        rw [popAt_goTo (by rw [hpc]; rfl)]
        exact hpops
      fresh := by
        intro p hp hpb
        have ⟨hseq, hnone⟩ := h.fresh p hp hpb
        refine ⟨?_, hnone⟩
        show ((c.ring.setSequence head _).slots (place bits p)).sequence.toNat = p
        rw [hother hpb (by change c.ring.head.toNat ≤ p at hp; omega)]
        exact hseq
      party := by
        refine h.party_goTo trivial ?_ (List.subset_append_left _ _)
        intro u q hu hq
        exact ⟨hother ((h.claimed_lt hq).trans_le h.headLe) (h.pushes.ne_of_ne hu hq hpos), rfl⟩
      stored := by
        intro e he
        rcases List.mem_append.mp he with he | he
        · refine (h.stored e he).frame (hother ((h.pushed_lt he).trans_le h.headLe) ?_) rfl
            (List.Subset.refl _)
          intro heq
          exact h.pushes.notMem_spent hpos (heq ▸ List.mem_map_of_mem he)
        · rw [List.mem_singleton, hturn] at he
          subst he
          refine ⟨hauthor, ?_, fun _ => ?_⟩
          · show ((c.ring.setSequence head _).slots (place bits head.toNat)).data = data
            rw [slots_setSequence_self]
            exact hdata
          · show ((c.ring.setSequence head _).slots (place bits head.toNat)).sequence.toNat = _
            rw [slots_setSequence_self]
            show (slotIdx bits head + 1).toNat = head.toNat + 1
            have hidx := slotIdx_toNat hbound
            rw [← hidx] at hbound ⊢
            exact toNat_succ hbound }

/-! ## Steps of a pop -/

theorem Inv.take (h : c.Inv) (hpc : c.party t = .popping)
    (hfree : c.ring.tail < capacity bits) : (c.next t).2.Inv := by
  rw [lt_capacity_iff] at hfree
  have hsucc := toNat_succ hfree
  have hnone : (popAt ∘ c.party) t = none := by
    rw [Function.comp_apply, hpc]
    rfl
  rw [next, hpc]
  exact
    { h with
      tailLe := by
        show (c.ring.tail + 1).toNat ≤ _
        rw [hsucc]
        exact hfree
      pushes := by
        show Tickets _ (pushAt ∘ Function.update c.party t _) _
        rw [pushAt_goTo (by rw [hpc]; rfl)]
        exact h.pushes
      pops := by
        have ⟨taken, hpopped, hsubset, hpops⟩ := h.pops
        refine ⟨taken, hpopped, hsubset, ?_⟩
        show Tickets (c.ring.tail + 1).toNat (popAt ∘ Function.update c.party t _) _
        rw [Function.comp_update, hsucc]
        exact hpops.take t hnone
      party := h.party_goTo trivial (fun _ _ _ _ => ⟨rfl, rfl⟩) (List.Subset.refl _)
      stored := fun e he => (h.stored e he).frame rfl rfl (List.Subset.refl _) }

theorem Inv.look_pop (h : c.Inv) {tail : UInt64} (hpc : c.party t = .taken tail)
    (hseq : (c.ring.slots (slotAt bits tail)).sequence = slotIdx bits tail + 1) :
    c.next t = (none, c.goTo t (.admitted tail)) ∧ c.PartyInv (.admitted tail) := by
  have hlt := h.taken_lt (t := t) (p := tail.toNat) (by rw [hpc]; rfl)
  constructor
  · rw [next, hpc]
    exact if_pos hseq
  · apply h.mem_pushed_of_published hlt
    have hidx := slotIdx_toNat hlt
    rw [slot, ← slotAt_eq, hseq]
    rw [← hidx] at hlt ⊢
    exact toNat_succ hlt

theorem Inv.read (h : c.Inv) {tail : UInt64} (hpc : c.party t = .admitted tail) :
    (c.next t).2.Inv := by
  have hparty := h.party t
  rw [hpc] at hparty
  have ⟨e, he, hfst⟩ := List.mem_map.mp hparty
  have hstored := h.stored e he
  rw [next, hpc]
  refine h.goTo (by rw [hpc]; rfl) (by rw [hpc]; rfl) ⟨?_, ?_⟩
  · rw [slotAt_eq, ← hfst]
    exact hstored.author
  · rw [slotAt_eq, ← hfst]
    have hdata : (c.ring.slots (place bits e.1)).data = e.2 := hstored.data
    rw [hdata]
    exact he

theorem Inv.release (h : c.Inv) {tail : UInt64} {data : Slot} {author : Option Nat}
    (hpc : c.party t = .read tail data author) : (c.next t).2.Inv := by
  have hparty := h.party t
  rw [hpc] at hparty
  have ⟨hauthor, hmem⟩ := hparty
  have hpos : popAt (c.party t) = some tail.toNat := by
    rw [hpc]
    rfl
  have hlt := h.pushed_lt hmem
  have hbound := h.taken_lt hpos
  have hother {q : Nat} (hq : q < 2 ^ bits.val) (hne : q ≠ tail.toNat) :
      (c.ring.setSequence tail (slotIdx bits tail + 1 + capacity bits - 1)).slots (place bits q) =
        c.slot q :=
    slots_setSequence_ne _ _ (place_ne_of_lt hq hbound hne)
  rw [next, hpc]
  exact
    { h with
      pushes := by
        show Tickets _ (pushAt ∘ Function.update c.party t _) _
        rw [pushAt_goTo (by rw [hpc]; rfl)]
        exact h.pushes
      pops := by
        have ⟨taken, hpopped, hsubset, hpops⟩ := h.pops
        refine ⟨taken ++ [(tail.toNat, data)], ?_, ?_, ?_⟩
        · show c.popped ++ [(author, data)] = _
          rw [hpopped, hauthor, List.map_append]
          rfl
        · have hlast : [(tail.toNat, data)] ⊆ c.pushed :=
            List.cons_subset.mpr ⟨hmem, List.nil_subset _⟩
          exact List.append_subset.mpr ⟨hsubset, hlast⟩
        · show Tickets _ (popAt ∘ Function.update c.party t _) _
          rw [Function.comp_update, List.map_append]
          exact hpops.spend hpos
      fresh := by
        intro p hp hpb
        have ⟨hseq, hnone⟩ := h.fresh p hp hpb
        refine ⟨?_, hnone⟩
        show ((c.ring.setSequence tail _).slots (place bits p)).sequence.toNat = p
        rw [hother hpb (by change c.ring.head.toNat ≤ p at hp; dsimp only at hlt; omega)]
        exact hseq
      party := by
        refine h.party_goTo trivial ?_ (List.Subset.refl _)
        intro u q hu hq
        refine ⟨hother ((h.claimed_lt hq).trans_le h.headLe) ?_, rfl⟩
        intro heq
        exact h.pushes.notMem_spent hq (heq ▸ List.mem_map_of_mem hmem)
      stored := by
        intro e he
        have hstored := h.stored e he
        by_cases heq : e.1 = tail.toNat
        · refine ⟨hstored.author, ?_, fun hnot => ?_⟩
          · show ((c.ring.setSequence tail _).slots (place bits e.1)).data = e.2
            rw [heq, slots_setSequence_self, ← heq]
            exact hstored.data
          · refine (hnot ?_).elim
            show some e.1 ∈ (c.popped ++ [(author, data)]).map Prod.fst
            rw [heq, hauthor, List.map_append]
            exact List.mem_append_right _ (List.mem_singleton_self _)
        · exact hstored.frame (hother ((h.pushed_lt he).trans_le h.headLe) heq) rfl
            (List.subset_append_left _ _) }

/-! ## Runs -/

theorem Inv.next (h : c.Inv) (hlap : c.InFirstLap (.next t)) : (c.next t).2.Inv := by
  rw [InFirstLap] at hlap
  have hparty := h.party t
  cases hpc : c.party t with
  | idle =>
    rw [MpmcChannel.next, hpc]
    exact h
  | pushing data =>
    rw [hpc] at hlap
    exact h.claim hpc hlap
  | claimed data head turn =>
    rw [hpc] at hparty
    rw [h.look_push hpc]
    exact h.goTo (by rw [hpc]; rfl) (by rw [hpc]; rfl) hparty
  | granted data head turn => exact h.write hpc
  | written data head turn => exact h.publish hpc
  | popping =>
    rw [hpc] at hlap
    exact h.take hpc hlap
  | taken tail =>
    rw [hpc] at hlap
    have ⟨hnext, hself⟩ := h.look_pop hpc hlap
    rw [hnext]
    exact h.goTo (by rw [hpc]; rfl) (by rw [hpc]; rfl) hself
  | admitted tail => exact h.read hpc
  | read tail data author => exact h.release hpc

omit [DecidableEq τ] in
theorem Inv.withChanged (h : c.Inv) (changed : τ → Bool) : Inv { c with changed := changed } :=
  { h with
    stored := fun e he =>
      have hstored := h.stored e he
      ⟨hstored.author, hstored.data, hstored.published⟩ }

theorem Inv.call (h : c.Inv) {pc : MpmcPc} (hpush : pushAt pc = none) (hpop : popAt pc = none)
    (hself : c.PartyInv pc) : (c.call t pc).Inv := by
  rw [MpmcChannel.call]
  split
  next hidle =>
    refine (h.goTo ?_ ?_ hself).withChanged _
    · rw [hpush, hidle]
      rfl
    · rw [hpop, hidle]
      rfl
  next => exact h

theorem Inv.step {m : Move τ} (h : c.Inv) (hlap : c.InFirstLap m) : (c.step m).Inv := by
  cases m with
  | tryPush t data => exact h.call rfl rfl trivial
  | tryPop t => exact h.call rfl rfl trivial
  | next t => exact (h.next hlap).withChanged _

theorem Inv.not_failure (h : c.Inv) (hlap : c.InFirstLap (.next t)) {answer : MpmcAnswer}
    (hanswer : (c.next t).1 = some answer) : ¬answer.IsFailure := by
  rw [InFirstLap] at hlap
  cases hpc : c.party t with
  | claimed data head turn =>
    rw [h.look_push hpc] at hanswer
    cases hanswer
  | taken tail =>
    rw [hpc] at hlap
    rw [(h.look_pop hpc hlap).1] at hanswer
    cases hanswer
  | idle | pushing data | granted data head turn | popping | admitted tail =>
    rw [MpmcChannel.next, hpc] at hanswer
    cases hanswer
  | written data head turn | read tail data author =>
    rw [MpmcChannel.next, hpc] at hanswer
    cases hanswer
    rintro (hfails | hfails) <;> cases hfails

theorem Inv.sound {m : Move τ} (h : c.Inv) (hlap : c.InFirstLap m) : c.Sound m := by
  cases m with
  | tryPush t data => trivial
  | tryPop t => trivial
  | next t =>
    refine ⟨?_, fun answer hanswer hfails => (h.not_failure hlap hanswer hfails).elim⟩
    intro data head turn hpc old hold
    have hparty := h.party t
    rw [hpc] at hparty
    rw [slotAt_eq, hparty.2.2] at hold
    cases hold

/-! ## Calls on their own -/

def At (c : MpmcChannel τ bits) (t : τ) (pc : MpmcPc) (pushed : List (Nat × Slot))
    (popped : List (Option Nat × Slot)) : Prop :=
  c.party t = pc ∧ c.pushed = pushed ∧ c.popped = popped

theorem at_call {pc : MpmcPc} (hidle : c.party t = .idle) :
    At (c.call t pc) t pc c.pushed c.popped := by
  rw [MpmcChannel.call, if_pos hidle]
  exact ⟨Function.update_self _ _ _, rfl, rfl⟩

theorem at_next {pc : MpmcPc} {pushed : List (Nat × Slot)} {popped : List (Option Nat × Slot)}
    (h : At (c.next t).2 t pc pushed popped) : At (c.step (.next t)) t pc pushed popped := h

section

variable {data : Slot} {head tail : UInt64} {turn : Nat} {pushed : List (Nat × Slot)}
  {popped : List (Option Nat × Slot)}

theorem At.claim (h : At c t (.pushing data) pushed popped) :
    ∃ head turn, At (c.step (.next t)) t (.claimed data head turn) pushed popped := by
  have ⟨hpc, hpushed, hpopped⟩ := h
  refine ⟨c.ring.head, c.turns, at_next ?_⟩
  rw [MpmcChannel.next, hpc]
  exact ⟨Function.update_self _ _ _, hpushed, hpopped⟩

theorem At.look_push (h : At c t (.claimed data head turn) pushed popped) (hinv : c.Inv) :
    At (c.step (.next t)) t (.granted data head turn) pushed popped := by
  have ⟨hpc, hpushed, hpopped⟩ := h
  apply at_next
  rw [hinv.look_push hpc]
  exact ⟨Function.update_self _ _ _, hpushed, hpopped⟩

theorem At.write (h : At c t (.granted data head turn) pushed popped) :
    At (c.step (.next t)) t (.written data head turn) pushed popped := by
  have ⟨hpc, hpushed, hpopped⟩ := h
  apply at_next
  rw [MpmcChannel.next, hpc]
  exact ⟨Function.update_self _ _ _, hpushed, hpopped⟩

theorem At.publish (h : At c t (.written data head turn) pushed popped) :
    At (c.step (.next t)) t .idle (pushed ++ [(turn, data)]) popped := by
  have ⟨hpc, hpushed, hpopped⟩ := h
  apply at_next
  rw [MpmcChannel.next, hpc]
  exact ⟨Function.update_self _ _ _, congrArg (· ++ [(turn, data)]) hpushed, hpopped⟩

theorem At.take (h : At c t .popping pushed popped) :
    At (c.step (.next t)) t (.taken c.ring.tail) pushed popped := by
  have ⟨hpc, hpushed, hpopped⟩ := h
  apply at_next
  rw [MpmcChannel.next, hpc]
  exact ⟨Function.update_self _ _ _, hpushed, hpopped⟩

theorem At.look_pop (h : At c t (.taken tail) pushed popped)
    (hseq : (c.ring.slots (slotAt bits tail)).sequence = slotIdx bits tail + 1) :
    At (c.step (.next t)) t (.admitted tail) pushed popped := by
  have ⟨hpc, hpushed, hpopped⟩ := h
  apply at_next
  rw [MpmcChannel.next, hpc]
  dsimp only
  rw [if_pos hseq]
  exact ⟨Function.update_self _ _ _, hpushed, hpopped⟩

theorem At.read (h : At c t (.admitted tail) pushed popped) :
    ∃ data author, At (c.step (.next t)) t (.read tail data author) pushed popped := by
  have ⟨hpc, hpushed, hpopped⟩ := h
  refine ⟨(c.ring.slots (slotAt bits tail)).data, c.author (slotAt bits tail), at_next ?_⟩
  rw [MpmcChannel.next, hpc]
  exact ⟨Function.update_self _ _ _, hpushed, hpopped⟩

theorem At.release {author : Option Nat} (h : At c t (.read tail data author) pushed popped) :
    At (c.step (.next t)) t .idle pushed (popped ++ [(author, data)]) := by
  have ⟨hpc, hpushed, hpopped⟩ := h
  apply at_next
  rw [MpmcChannel.next, hpc]
  exact ⟨Function.update_self _ _ _, hpushed, congrArg (· ++ [(author, data)]) hpopped⟩

end

theorem Inv.pushAlone (h : c.Inv) {data : Slot} (hidle : c.party t = .idle)
    (hlap : MeetsAlong MpmcChannel.step InFirstLap c (pushAlone t data)) :
    ∃ turn, ((MpmcChannel.pushAlone t data).foldl MpmcChannel.step c).pushed =
      c.pushed ++ [(turn, data)] := by
  have ⟨hcall, hclaim, _⟩ := hlap
  have hcalled : At (c.step (.tryPush t data)) t (.pushing data) c.pushed c.popped :=
    at_call hidle
  obtain ⟨head, turn, hclaimed⟩ := hcalled.claim
  have hgranted := hclaimed.look_push ((h.step hcall).step hclaim)
  exact ⟨turn, hgranted.write.publish.2.1⟩

theorem Inv.popAlone (hidle : c.party t = .idle)
    (hlap : MeetsAlong MpmcChannel.step InFirstLap c (popAlone t)) :
    ∃ e, ((MpmcChannel.popAlone t).foldl MpmcChannel.step c).popped = c.popped ++ [e] := by
  have ⟨_, _, hlook, _⟩ := hlap
  have hcalled : At (c.step (.tryPop t)) t .popping c.pushed c.popped := at_call hidle
  have htaken := hcalled.take
  rw [InFirstLap, htaken.1] at hlook
  obtain ⟨data, author, hread⟩ := (htaken.look_pop hlook).read
  exact ⟨_, hread.release.2.2⟩

omit [DecidableEq τ] in
-- In a quiescent ring that is not empty, the push that took the next position of a pop is over.
theorem Inv.next_published (h : c.Inv) (hquiet : c.Quiescent) (hnotEmpty : c.NotEmpty) :
    c.ring.tail.toNat < 2 ^ bits.val ∧
      (c.ring.slots (slotAt bits c.ring.tail)).sequence = slotIdx bits c.ring.tail + 1 := by
  have ⟨taken, hpopped, _, hpops⟩ := h.pops
  have hnoPush (u : τ) : (pushAt ∘ c.party) u = none := by
    rw [Function.comp_apply, hquiet u]
    rfl
  have hnoPop (u : τ) : (popAt ∘ c.party) u = none := by
    rw [Function.comp_apply, hquiet u]
    rfl
  have hhead : c.pushed.length = c.ring.head.toNat := by
    rw [← h.pushes.length_spent hnoPush, List.length_map]
  have htail : c.popped.length = c.ring.tail.toNat := by
    rw [← hpops.length_spent hnoPop, hpopped, List.length_map, List.length_map]
  have hlt : c.ring.tail.toNat < c.ring.head.toNat := by
    rw [← htail, ← hhead]
    exact hnotEmpty
  have hbound := hlt.trans_le h.headLe
  have hmem : c.ring.tail.toNat ∈ c.pushed.map Prod.fst := by
    rw [h.pushes.mem_spent]
    refine ⟨hlt, fun u hu => ?_⟩
    rw [hnoPush u] at hu
    cases hu
  have ⟨e, he, hfst⟩ := List.mem_map.mp hmem
  have hunpopped : some e.1 ∉ c.popped.map Prod.fst := by
    intro hspent
    rw [hpopped, List.map_map, hfst] at hspent
    have ⟨own, hown, hsome⟩ := List.mem_map.mp hspent
    have hown := List.mem_map_of_mem (f := Prod.fst) hown
    rw [Option.some.inj hsome] at hown
    exact hpops.next_notMem_spent hown
  have hseq := (h.stored e he).published hunpopped
  rw [hfst] at hseq
  refine ⟨hbound, UInt64.toNat.inj ?_⟩
  have hidx := slotIdx_toNat hbound
  have hsucc := toNat_succ (x := slotIdx bits c.ring.tail) (hidx.trans_lt hbound)
  rw [hsucc, hidx, slotAt_eq]
  exact hseq

theorem Inv.popAlone_inFirstLap (h : c.Inv) (hquiet : c.Quiescent) (hnotEmpty : c.NotEmpty) :
    MeetsAlong MpmcChannel.step InFirstLap c (MpmcChannel.popAlone t) := by
  have ⟨hbound, hpublished⟩ := h.next_published hquiet hnotEmpty
  have hcalled : At (c.step (.tryPop t)) t .popping c.pushed c.popped := at_call (hquiet t)
  have hring : (c.step (.tryPop t)).ring = c.ring := by
    rw [MpmcChannel.step, MpmcChannel.call, if_pos (hquiet t)]
    rfl
  have htaken := hcalled.take
  have hslots : ((c.step (.tryPop t)).step (.next t)).ring.slots = c.ring.slots := by
    show ((c.step (.tryPop t)).next t).2.ring.slots = c.ring.slots
    rw [MpmcChannel.next, hcalled.1]
    show (c.step (.tryPop t)).ring.slots = c.ring.slots
    rw [hring]
  have hlook : InFirstLap ((c.step (.tryPop t)).step (.next t)) (.next t) := by
    rw [InFirstLap, htaken.1]
    show (((c.step (.tryPop t)).step (.next t)).ring.slots _).sequence = _
    rw [hslots, hring]
    exact hpublished
  have hadmitted := htaken.look_pop (by rw [InFirstLap, htaken.1] at hlook; exact hlook)
  obtain ⟨data, author, hread⟩ := hadmitted.read
  refine ⟨trivial, ?_, hlook, ?_, ?_, trivial⟩
  · rw [InFirstLap, hcalled.1]
    show (c.step (.tryPop t)).ring.tail < capacity bits
    rw [hring, lt_capacity_iff]
    exact hbound
  · rw [InFirstLap, hadmitted.1]
    trivial
  · rw [InFirstLap, hread.1]
    trivial

/-! ## The claim about runs -/

theorem inv_run {moves : List (Move τ)}
    (hlap : MeetsAlong step InFirstLap (start τ bits) moves) : (run bits moves).Inv :=
  hlap.invariant Inv.step (inv_start τ bits)

/-- In the first lap the ring loses and duplicates nothing, and a pop on its own from a ring that is
not empty stays in it. -/
theorem isQueue_of_inFirstLap {moves : List (Move τ)}
    (hlap : MeetsAlong step InFirstLap (start τ bits) moves) :
    IsQueue bits moves ∧ ∀ t, (run bits moves).Quiescent → (run bits moves).NotEmpty →
      MeetsAlong step InFirstLap (start τ bits) (moves ++ popAlone t) := by
  have hinv := inv_run hlap
  obtain ⟨taken, hpopped, hsubset, hpops⟩ := hinv.pops
  constructor
  · refine ⟨hlap.imp Inv.step Inv.sound (inv_start τ bits), ?_, ?_, ?_, ?_⟩
    · have hturns : (run bits moves).popped.map Prod.fst = (taken.map Prod.fst).map some := by
        rw [hpopped, List.map_map, List.map_map]
        rfl
      rw [hturns]
      exact hpops.nodup.map (Option.some_injective Nat)
    · intro e he
      rw [hpopped] at he
      obtain ⟨own, hown, rfl⟩ := List.mem_map.mp he
      exact ⟨own.1, rfl, hsubset hown⟩
    · rintro before t data rfl hquiet -
      rw [meetsAlong_append] at hlap
      rw [run, List.foldl_append]
      exact (inv_run hlap.1).pushAlone (hquiet t) hlap.2
    · rintro before t rfl hquiet -
      rw [meetsAlong_append] at hlap
      rw [run, List.foldl_append]
      exact Inv.popAlone (hquiet t) hlap.2
  · intro t hquiet hnotEmpty
    rw [meetsAlong_append]
    exact ⟨hlap, hinv.popAlone_inFirstLap hquiet hnotEmpty⟩

def firstSlot : Slot := .arenaOffset 9 64

def secondSlot : Slot := .arenaOffset 16 128

/-- Two pushes and two pops that run beside each other fill and drain a ring of two slots. -/
theorem isQueue_of_inFirstLap_two :
    let moves : List (Move Bool) := [.tryPush false firstSlot, .tryPush true secondSlot,
      .next true, .next false, .next false, .next false, .next false, .tryPop false, .next true,
      .next true, .next true, .tryPop true, .next false, .next true, .next true, .next false,
      .next false, .next true, .next true, .next false]
    IsQueue 1 moves ∧ ∀ t, (run 1 moves).Quiescent → (run 1 moves).NotEmpty →
      MeetsAlong step InFirstLap (start Bool 1) (moves ++ popAlone t) :=
  isQueue_of_inFirstLap (by decide +kernel)

/-- Two elements through a ring of two slots, and then a third one. -/
def secondLap : List (Move Unit) :=
  pushAlone () firstSlot ++ pushAlone () secondSlot ++ popAlone () ++ popAlone ()

/-- A push into the empty ring is refused once each of its slots was used. -/
theorem second_lap_refused : ¬IsQueue 1 (secondLap ++ pushAlone () firstSlot) := by
  intro h
  have hquiet : (run 1 secondLap).Quiescent := by
    intro ⟨⟩
    decide +kernel
  obtain ⟨turn, hpushed⟩ := h.pushes secondLap () firstSlot rfl hquiet (by
    show _ < _
    decide +kernel)
  have hlength := congrArg List.length hpushed
  rw [List.length_append, List.length_singleton] at hlength
  revert hlength
  decide +kernel

end MpmcChannel

end VedDb
