import Mathlib.Data.List.Nodup
import Mathlib.Data.List.Pairwise
import Mathlib.Data.List.Perm.Basic
import VedDb.Kv.HashTable
import VedDb.Lib.Blocks
import VedDb.Lib.Masks
import VedDb.Lib.Runs

/-!
# The shared-memory arena

`arena.rs`: a bump pointer and one free list for each size class, whose nodes lie in the freed
blocks themselves.  The counters of the statistics are left out: nothing reads them.

A freed block joins the list of a size class whose size is not the block's: the next one who takes
it may ask for more than it was cut with, and its node needs 16 bytes.  Where no request and no node
is larger than the block that it gets, the blocks of the clients and the nodes stay apart.
-/

namespace VedDb

open LittleEndian (Bytes leBytes ofLeBytes)

namespace SharedArena

/-- `SIZE_CLASSES`. -/
def sizeClasses : List Nat :=
  [8, 16, 32, 64, 128, 256, 512, 1024, 2048, 4096, 8192, 16384, 32768]

structure Header where
  current : UInt64
  size : UInt64
  freeLists : Nat → UInt64

/-- `mem::size_of::<Arena>()`: three words, the heads of the free lists and three counters. -/
def headerSize : UInt64 := 152

/-- `Arena::init`, over zeroed memory. -/
def init (size : UInt64) : ArenaState Header :=
  { header := { current := headerSize, size := size, freeLists := fun _ => 0 }
    memory := fun _ => 0 }

/-- `size_class_for`: the first class that is large enough, with its size. -/
def sizeClassFor (size : Nat) : Option (Nat × Nat) := do
  let index ← sizeClasses.findIdx? (size ≤ ·)
  let classSize ← sizeClasses[index]?
  return (index, classSize)

/-- `head_node.next`. -/
def nextOf (memory : Memory UInt8) (offset : UInt64) : UInt64 :=
  UInt64.ofNat (ofLeBytes (memory.read { offset := offset.toNat, length := 8 }))

def allocateFromFreeList (arena : ArenaState Header) (size align : Nat) :
    Option (UInt64 × ArenaState Header) := do
  let (index, classSize) ← sizeClassFor size
  if classSize < size ∨ size < classSize / 2 then none
  let head := arena.header.freeLists index
  if head = 0 then none
  if head % UInt64.ofNat align ≠ 0 then none
  let freeLists := Function.update arena.header.freeLists index (nextOf arena.memory head)
  return (head, { arena with header := { arena.header with freeLists := freeLists } })

def bumpAllocate (arena : ArenaState Header) (size align : Nat) : UInt64 × ArenaState Header :=
  let aligned :=
    (arena.header.current + UInt64.ofNat align - 1) &&& ~~~(UInt64.ofNat align - 1)
  let current := aligned + UInt64.ofNat size
  if arena.header.size < current then (0, arena)
  else (aligned, { arena with header := { arena.header with current := current } })

def allocate (arena : ArenaState Header) (size align : Nat) : UInt64 × ArenaState Header :=
  if size = 0 then (0, arena)
  else
    match allocateFromFreeList arena size align with
    | some result => result
    | none => bumpAllocate arena size align

/-- `add_to_free_list`: the node, of 16 bytes, is written over the freed block. -/
def addToFreeList (arena : ArenaState Header) (offset : UInt64) (size index : Nat) :
    ArenaState Header :=
  let node :=
    leBytes 8 (arena.header.freeLists index).toNat ++ leBytes 4 size ++ leBytes 4 0
  { header :=
      { arena.header with freeLists := Function.update arena.header.freeLists index offset }
    memory := arena.memory.write offset.toNat node }

def free (arena : ArenaState Header) (offset : UInt64) (size : Nat) : ArenaState Header :=
  if offset = 0 ∨ size = 0 then arena
  else
    match sizeClassFor size with
    | none => arena
    | some (index, classSize) =>
      if classSize / 2 ≤ size ∧ size ≤ classSize then addToFreeList arena offset classSize index
      else arena

def arena : Arena Header := { allocate := allocate, free := free }

end SharedArena

/-! ## Blocks of the arena -/

namespace SharedArena

/-- A block that a client holds, with the size and the alignment it asked for. -/
structure Allocation where
  offset : UInt64
  size : UInt64
  alignBits : Fin 64
deriving DecidableEq

def Allocation.block (a : Allocation) : Block := ⟨a.offset.toNat, a.size.toNat⟩

/-- The arena with the blocks that its clients hold and those that the bump pointer has cut. -/
structure Held where
  arena : ArenaState Header
  live : List Allocation
  cut : List Block

/-- Calls, and what a client writes into the block it holds. -/
inductive Call where
  | allocate (size : UInt64) (alignBits : Fin 64)
  | free (i : Nat)
  | write (i start : Nat) (bytes : Bytes)

namespace Held

def start (size : UInt64) : Held := { arena := init size, live := [], cut := [] }

def Served (s : Held) (size : UInt64) (alignBits : Fin 64) : Prop :=
  (allocateFromFreeList s.arena size.toNat (2 ^ alignBits.val)).isSome

instance (s : Held) (size : UInt64) (alignBits : Fin 64) : Decidable (s.Served size alignBits) :=
  inferInstanceAs (Decidable (_ = true))

def allocate (s : Held) (size : UInt64) (alignBits : Fin 64) : Held :=
  let (offset, arena) := SharedArena.allocate s.arena size.toNat (2 ^ alignBits.val)
  if offset = 0 then { s with arena := arena }
  else
    { arena := arena
      live := ⟨offset, size, alignBits⟩ :: s.live
      cut := if s.Served size alignBits then s.cut else ⟨offset.toNat, size.toNat⟩ :: s.cut }

def free (s : Held) (i : Nat) : Held :=
  match s.live[i]? with
  | none => s
  | some a =>
    { s with
      arena := SharedArena.free s.arena a.offset a.size.toNat
      live := s.live.eraseIdx i }

def write (s : Held) (i start : Nat) (bytes : Bytes) : Held :=
  match s.live[i]? with
  | none => s
  | some a =>
    if start + bytes.length ≤ a.size.toNat then
      { s with
        arena := { s.arena with memory := s.arena.memory.write (a.offset.toNat + start) bytes } }
    else s

def step (s : Held) : Call → Held
  | .allocate size alignBits => s.allocate size alignBits
  | .free i => s.free i
  | .write i start bytes => s.write i start bytes

/-! ## What is claimed of the arena -/

/-- The 16 bytes of a free-list node. -/
def nodeBlock (offset : UInt64) : Block := ⟨offset.toNat, 16⟩

structure Sound (s : Held) : Prop where
  apart : s.live.Pairwise fun a b => a.block.Apart b.block
  aligned : ∀ a ∈ s.live, a.offset.toNat % 2 ^ a.alignBits.val = 0
  inside : ∀ a ∈ s.live, headerSize.toNat ≤ a.offset.toNat ∧
    a.offset.toNat + a.size.toNat ≤ s.arena.header.size.toNat
  nodes (index : Nat) (offset : UInt64) :
    LinkedList.Reaches (nextOf s.arena.memory) 0 (s.arena.header.freeLists index) offset →
      ∀ a ∈ s.live, (nodeBlock offset).Apart a.block

/-- No sum of the bump allocation of this call wraps. -/
def NoWrap (s : Held) : Call → Prop
  | .allocate size alignBits =>
    size ≠ 0 → ¬s.Served size alignBits →
      let align := UInt64.ofNat (2 ^ alignBits.val)
      let aligned := (s.arena.header.current + align - 1) &&& ~~~(align - 1)
      (s.arena.header.current + align).toNat = s.arena.header.current.toNat + align.toNat ∧
        (aligned + size).toNat = aligned.toNat + size.toNat
  | _ => True

/-- The free lists take a block of this size. -/
def Pooled (size : UInt64) : Prop :=
  ∃ c ∈ sizeClassFor size.toNat, c.2 / 2 ≤ size.toNat

instance (size : UInt64) : Decidable (Pooled size) :=
  inferInstanceAs (Decidable (∃ c ∈ sizeClassFor size.toNat, _))

/-- A request that is served from a free list asks for no more than the block there was cut with,
another one for less than what is left of the word; and a block that joins a free list was cut with
room for the node. -/
def HasRoom (s : Held) : Call → Prop
  | .allocate size alignBits =>
    size ≠ 0 →
      if s.Served size alignBits then
        ∀ c ∈ sizeClassFor size.toNat, ∀ b ∈ s.cut,
          b.offset = (s.arena.header.freeLists c.1).toNat → size.toNat ≤ b.length
      else
        s.arena.header.current.toNat + 2 ^ alignBits.val < 2 ^ 64 ∧
          alignUp s.arena.header.current.toNat (2 ^ alignBits.val) + size.toNat < 2 ^ 64
  | .free i =>
    ∀ a ∈ s.live[i]?, Pooled a.size → ∀ b ∈ s.cut,
      b.offset = a.offset.toNat → 16 ≤ b.length
  | .write _ _ _ => True

/-! ## The invariant -/

/-- This many bytes from an offset on are part of a block that the bump pointer has cut there. -/
def CutAt (s : Held) (offset : UInt64) (length : Nat) : Prop :=
  ∃ b ∈ s.cut, b.offset = offset.toNat ∧ length ≤ b.length

structure Owned (s : Held) (members : Nat → List UInt64) : Prop where
  current : headerSize.toNat ≤ s.arena.header.current.toNat
  cutApart : s.cut.Pairwise Block.Apart
  cutInside : ∀ b ∈ s.cut, 0 < b.length ∧ headerSize.toNat ≤ b.offset ∧
    b.offset + b.length ≤ s.arena.header.current.toNat ∧
    b.offset + b.length ≤ s.arena.header.size.toNat
  aligned : ∀ a ∈ s.live, a.offset.toNat % 2 ^ a.alignBits.val = 0
  live : ∀ a ∈ s.live, s.CutAt a.offset a.size.toNat
  nodes : ∀ index, ∀ offset ∈ members index, s.CutAt offset 16
  linked (index : Nat) : LinkedList.Holds (nextOf s.arena.memory) 0
    (s.arena.header.freeLists index) (members index)
  liveNodup : (s.live.map Allocation.offset).Nodup
  listNodup (index : Nat) : (members index).Nodup
  listsApart {i j : Nat} : i ≠ j → (members i).Disjoint (members j)
  liveApart (index : Nat) : (s.live.map Allocation.offset).Disjoint (members index)

variable {s : Held} {members : Nat → List UInt64}

theorem owned_start (size : UInt64) : (start size).Owned fun _ => [] where
  current := Nat.le_refl _
  cutApart := .nil
  cutInside _ h := by cases h
  aligned _ h := by cases h
  live _ h := by cases h
  nodes _ _ h := by cases h
  linked _ := rfl
  liveNodup := .nil
  listNodup _ := .nil
  listsApart _ := List.disjoint_nil_left _
  liveApart _ := List.disjoint_nil_left _

theorem Owned.apart (h : s.Owned members) {offset other : UInt64} {n k : Nat}
    (hoffset : s.CutAt offset n) (hother : s.CutAt other k) (hne : offset ≠ other) :
    (⟨offset.toNat, n⟩ : Block).Apart ⟨other.toNat, k⟩ := by
  obtain ⟨b, hb, hbo, hn⟩ := hoffset
  obtain ⟨c, hc, hco, hk⟩ := hother
  have hbc : b ≠ c := by
    intro heq
    rw [heq, hco] at hbo
    exact hne (UInt64.toNat_inj.mp hbo.symm)
  have hapart := h.cutApart.forall hb hc hbc
  rw [← hbo, ← hco]
  exact ((hapart.shrink hn).symm.shrink hk).symm

theorem Owned.offset_ne_zero (h : s.Owned members) {offset : UInt64} {n : Nat}
    (hoffset : s.CutAt offset n) : offset ≠ 0 := by
  obtain ⟨b, hb, hbo, _⟩ := hoffset
  have ⟨_, hheader, _⟩ := h.cutInside b hb
  intro hzero
  rw [hbo, hzero] at hheader
  exact absurd hheader (by decide)

theorem Owned.node_apart (h : s.Owned members) {a : Allocation} (ha : a ∈ s.live) {index : Nat}
    {offset : UInt64} (hoffset : offset ∈ members index) : (nodeBlock offset).Apart a.block := by
  refine h.apart (h.nodes index offset hoffset) (h.live a ha) fun heq => ?_
  exact h.liveApart index (List.mem_map_of_mem ha) (heq ▸ hoffset)

theorem Owned.sound (h : s.Owned members) : s.Sound where
  apart := by
    have hnodup := List.pairwise_map.mp h.liveNodup
    exact hnodup.imp_of_mem fun ha hb hne => h.apart (h.live _ ha) (h.live _ hb) hne
  aligned := h.aligned
  inside a ha := by
    obtain ⟨b, hb, hbo, hlength⟩ := h.live a ha
    have ⟨_, hheader, _, hsize⟩ := h.cutInside b hb
    omega
  nodes index _ hreaches _ ha := h.node_apart ha (hreaches.mem (h.linked index))

/-! ## Writes -/

theorem holds_write {head : UInt64} {l : List UInt64} {memory : Memory UInt8} {start : Nat}
    {bytes : Bytes} (h : LinkedList.Holds (nextOf memory) 0 head l)
    (hapart : ∀ offset ∈ l, (⟨start, bytes.length⟩ : Block).Apart (nodeBlock offset)) :
    LinkedList.Holds (nextOf (memory.write start bytes)) 0 head l := by
  refine h.congr fun offset hoffset => ?_
  have hnode : (⟨start, bytes.length⟩ : Block).Apart ⟨offset.toNat, 8⟩ :=
    ((hapart offset hoffset).symm.shrink (n := 8) (by decide : 8 ≤ 16)).symm
  rw [nextOf, nextOf, Memory.read_write_of_apart hnode]

theorem Owned.write (h : s.Owned members) (i start : Nat) (bytes : Bytes) :
    (s.write i start bytes).Owned members := by
  rw [Held.write]
  cases hlive : s.live[i]? with
  | none => exact h
  | some a =>
    dsimp only
    split
    next hinside =>
      have ha := List.mem_of_getElem? hlive
      refine { h with
        linked := fun index => holds_write (h.linked index) fun offset hoffset => ?_ }
      have hapart := h.node_apart ha hoffset
      rw [Block.Apart, Allocation.block] at hapart
      rw [Block.Apart]
      dsimp only [nodeBlock] at hapart ⊢
      omega
    next => exact h

/-! ## Frees -/

/-- A live block is given up. -/
theorem Owned.forget (h : s.Owned members) {a : Allocation} {rest : List Allocation}
    (hperm : (a :: rest).Perm s.live) :
    ({ s with live := rest } : Held).Owned members ∧ a.offset ∉ rest.map Allocation.offset := by
  have hmem {b : Allocation} (hb : b ∈ rest) : b ∈ s.live :=
    hperm.mem_iff.mp (List.mem_cons_of_mem _ hb)
  have hnodup := (hperm.map Allocation.offset).nodup_iff.mpr h.liveNodup
  rw [List.map_cons, List.nodup_cons] at hnodup
  refine ⟨{ h with
    aligned := fun b hb => h.aligned b (hmem hb)
    live := fun b hb => h.live b (hmem hb)
    liveNodup := hnodup.2
    liveApart := fun index offset hoffset => h.liveApart index ?_ }, hnodup.1⟩
  exact (hperm.map Allocation.offset).mem_iff.mp (List.mem_cons_of_mem _ hoffset)

theorem nextOf_node (memory : Memory UInt8) (offset head : UInt64) (rest : Bytes) :
    nextOf (memory.write offset.toNat (leBytes 8 head.toNat ++ rest)) offset = head := by
  have hread := Memory.read_write_left memory offset.toNat (leBytes 8 head.toNat) rest
  rw [LittleEndian.leBytes_length] at hread
  rw [nextOf, hread, LittleEndian.ofLeBytes_leBytes_of_lt head.toNat_lt, UInt64.ofNat_toNat]

theorem Owned.pool (h : s.Owned members) {offset : UInt64} {size index : Nat}
    (hcut : s.CutAt offset 16) (hlive : offset ∉ s.live.map Allocation.offset)
    (hnodes : ∀ index, offset ∉ members index) :
    ({ s with arena := addToFreeList s.arena offset size index } : Held).Owned
      (Function.update members index (offset :: members index)) := by
  have hlinked (i : Nat) : LinkedList.Holds
      (nextOf (addToFreeList s.arena offset size index).memory) 0
      (s.arena.header.freeLists i) (members i) := by
    refine holds_write (h.linked i) fun other hother => ?_
    rw [List.length_append, List.length_append, LittleEndian.leBytes_length,
      LittleEndian.leBytes_length, LittleEndian.leBytes_length]
    exact h.apart hcut (h.nodes i other hother) fun heq => hnodes i (heq ▸ hother)
  refine { h with
    nodes := fun i other hother => ?_
    linked := fun i => ?_
    listNodup := fun i => ?_
    listsApart := fun {i j} hne => ?_
    liveApart := fun i => ?_ }
  · rw [Function.update_apply] at hother
    split at hother
    next =>
      rcases List.mem_cons.mp hother with rfl | hother
      · exact hcut
      · exact h.nodes index other hother
    next => exact h.nodes i other hother
  · show LinkedList.Holds _ 0 (Function.update s.arena.header.freeLists index offset i) _
    by_cases hi : i = index
    · rw [hi, Function.update_self, Function.update_self]
      refine ⟨rfl, h.offset_ne_zero hcut, ?_⟩
      have hnext : nextOf (addToFreeList s.arena offset size index).memory offset =
          s.arena.header.freeLists index := by
        rw [addToFreeList, List.append_assoc]
        exact nextOf_node _ _ _ _
      rw [hnext]
      exact hlinked index
    · rw [Function.update_of_ne hi, Function.update_of_ne hi]
      exact hlinked i
  · rw [Function.update_apply]
    split
    next => exact List.nodup_cons.mpr ⟨hnodes index, h.listNodup index⟩
    next => exact h.listNodup i
  · by_cases hi : i = index
    · rw [hi, Function.update_self, Function.update_of_ne (hi ▸ hne.symm), List.disjoint_cons_left]
      exact ⟨hnodes j, h.listsApart (hi ▸ hne)⟩
    · rw [Function.update_of_ne hi, Function.update_apply]
      split
      next hj =>
        rw [List.disjoint_cons_right]
        exact ⟨hnodes i, h.listsApart hi⟩
      next => exact h.listsApart hne
  · rw [Function.update_apply]
    split
    next =>
      rw [List.disjoint_cons_right]
      exact ⟨hlive, h.liveApart index⟩
    next => exact h.liveApart i

theorem Owned.free (h : s.Owned members) {i : Nat} (hroom : s.HasRoom (.free i)) :
    ∃ members', (s.free i).Owned members' := by
  rw [Held.free]
  cases hlive : s.live[i]? with
  | none => exact ⟨members, h⟩
  | some a =>
    obtain ⟨hi, ha⟩ := List.getElem?_eq_some_iff.mp hlive
    have hmem := List.mem_of_getElem? hlive
    have hperm := List.getElem_cons_eraseIdx_perm hi
    rw [ha] at hperm
    have ⟨hforget, hfree⟩ := h.forget hperm
    dsimp only
    rw [SharedArena.free]
    split
    next => exact ⟨members, hforget⟩
    next =>
      split
      next => exact ⟨members, hforget⟩
      next index classSize hclass =>
        split
        next hsize =>
          refine ⟨_, hforget.pool ?_ hfree fun j hj => ?_⟩
          on_goal 2 => exact h.liveApart j (List.mem_map_of_mem hmem) hj
          obtain ⟨b, hb, hbo, _⟩ := h.live a hmem
          exact ⟨b, hb, hbo, hroom a hlive ⟨_, hclass, hsize.1⟩ b hb hbo⟩
        next => exact ⟨members, hforget⟩

/-! ## Allocations -/

theorem allocateFromFreeList_eq_some {arena : ArenaState Header} {size align : Nat}
    {r : UInt64 × ArenaState Header} (h : allocateFromFreeList arena size align = some r) :
    ∃ c, sizeClassFor size = some c ∧ arena.header.freeLists c.1 ≠ 0 ∧
      arena.header.freeLists c.1 % UInt64.ofNat align = 0 ∧
      r = (arena.header.freeLists c.1, { arena with
        header := { arena.header with
          freeLists := Function.update arena.header.freeLists c.1
            (nextOf arena.memory (arena.header.freeLists c.1)) } }) := by
  rw [allocateFromFreeList] at h
  simp only [bind, Option.bind, pure] at h
  cases hclass : sizeClassFor size with
  | none =>
    rw [hclass] at h
    cases h
  | some c =>
    rw [hclass] at h
    dsimp only at h
    split at h
    next => cases h
    next =>
      split at h
      next => cases h
      next hhead =>
        split at h
        next => cases h
        next haligned => exact ⟨c, rfl, hhead, not_not.mp haligned, (Option.some.inj h).symm⟩

/-- The head of a list goes to a client. -/
theorem Owned.take (h : s.Owned members) {index : Nat} {size : UInt64} {alignBits : Fin 64}
    (hhead : s.arena.header.freeLists index ≠ 0)
    (haligned : (s.arena.header.freeLists index).toNat % 2 ^ alignBits.val = 0)
    (hcut : s.CutAt (s.arena.header.freeLists index) size.toNat) :
    ∃ members', ({ s with
      arena := { s.arena with header := { s.arena.header with
        freeLists := Function.update s.arena.header.freeLists index
          (nextOf s.arena.memory (s.arena.header.freeLists index)) } }
      live := ⟨s.arena.header.freeLists index, size, alignBits⟩ :: s.live } : Held).Owned
        members' := by
  have hlinked := h.linked index
  have hnodup := h.listNodup index
  generalize hmembers : members index = l at hlinked hnodup
  cases l with
  | nil => exact (hhead hlinked).elim
  | cons head rest =>
    obtain ⟨heq, _, hrest⟩ := hlinked
    rw [heq] at haligned hcut ⊢
    rw [List.nodup_cons] at hnodup
    have hmem : head ∈ members index := hmembers ▸ List.mem_cons_self
    have hsub (i : Nat) {offset : UInt64}
        (hoffset : offset ∈ Function.update members index rest i) : offset ∈ members i := by
      rw [Function.update_apply] at hoffset
      split at hoffset
      next hi =>
        rw [hi, hmembers]
        exact List.mem_cons_of_mem _ hoffset
      next => exact hoffset
    refine ⟨Function.update members index rest, { h with
      aligned := List.forall_mem_cons.mpr ⟨haligned, h.aligned⟩
      live := List.forall_mem_cons.mpr ⟨hcut, h.live⟩
      nodes := fun i offset hoffset => h.nodes i offset (hsub i hoffset)
      linked := fun i => ?_
      liveNodup := List.nodup_cons.mpr ⟨fun hlive => h.liveApart index hlive hmem, h.liveNodup⟩
      listNodup := fun i => ?_
      listsApart := fun hne offset hi hj => h.listsApart hne (hsub _ hi) (hsub _ hj)
      liveApart := fun i offset hlive hi => ?_ }⟩
    · show LinkedList.Holds (nextOf s.arena.memory) 0
        (Function.update s.arena.header.freeLists index (nextOf s.arena.memory head) i) _
      by_cases hi : i = index
      · rw [hi, Function.update_self, Function.update_self]
        exact hrest
      · rw [Function.update_of_ne hi, Function.update_of_ne hi]
        exact h.linked i
    · rw [Function.update_apply]
      split
      next => exact hnodup.2
      next => exact h.listNodup i
    · rcases List.mem_cons.mp hlive with rfl | hlive
      · by_cases heq : i = index
        · rw [heq, Function.update_self] at hi
          exact hnodup.1 hi
        · exact h.listsApart heq (hsub i hi) hmem
      · exact h.liveApart i hlive (hsub i hi)

/-- The offset that the bump allocation computes. -/
theorem toNat_aligned {current : UInt64} {alignBits : Fin 64}
    (h : current.toNat + 2 ^ alignBits.val < 2 ^ 64) :
    ((current + UInt64.ofNat (2 ^ alignBits.val) - 1) &&&
      ~~~(UInt64.ofNat (2 ^ alignBits.val) - 1)).toNat =
        alignUp current.toNat (2 ^ alignBits.val) := by
  have hadd : (current + UInt64.ofNat (2 ^ alignBits.val)).toNat =
      current.toNat + 2 ^ alignBits.val := by
    rw [UInt64.toNat_add, toNat_ofNat_two_pow, Nat.mod_eq_of_lt h]
  have hone : (1 : UInt64) ≤ current + UInt64.ofNat (2 ^ alignBits.val) := by
    rw [UInt64.le_iff_toNat_le, hadd]
    exact (Nat.one_le_two_pow).trans (Nat.le_add_left _ _)
  rw [toNat_and_high_bits, UInt64.toNat_sub_of_le _ _ hone, hadd, alignUp,
    ← Nat.add_sub_assoc Nat.one_le_two_pow, UInt64.toNat_one]

/-- The bump pointer cuts a block that no one had. -/
theorem Owned.cutNew (h : s.Owned members) {offset size : UInt64} {alignBits : Fin 64}
    (hsize : size ≠ 0) (haligned : offset.toNat % 2 ^ alignBits.val = 0)
    (hcurrent : s.arena.header.current.toNat ≤ offset.toNat)
    (hadd : (offset + size).toNat = offset.toNat + size.toNat)
    (hinside : offset + size ≤ s.arena.header.size) :
    ({ arena := { s.arena with header := { s.arena.header with current := offset + size } }
       live := ⟨offset, size, alignBits⟩ :: s.live
       cut := ⟨offset.toNat, size.toNat⟩ :: s.cut } : Held).Owned members := by
  have hpos : 0 < size.toNat := Nat.pos_of_ne_zero fun hzero => hsize (UInt64.toNat_inj.mp hzero)
  have hbefore {other : UInt64} {n : Nat} (hother : s.CutAt other n) : other ≠ offset := by
    obtain ⟨b, hb, hbo, _⟩ := hother
    have ⟨hlength, _, hend, _⟩ := h.cutInside b hb
    intro heq
    rw [hbo, heq] at hend
    omega
  have hmore {other : UInt64} {n : Nat} (hother : s.CutAt other n) :
      ∃ b ∈ (⟨offset.toNat, size.toNat⟩ : Block) :: s.cut, b.offset = other.toNat ∧
        n ≤ b.length := by
    obtain ⟨b, hb, hbo⟩ := hother
    exact ⟨b, List.mem_cons_of_mem _ hb, hbo⟩
  refine { h with
    current := ?_
    cutApart := List.pairwise_cons.mpr ⟨fun b hb => ?_, h.cutApart⟩
    cutInside := List.forall_mem_cons.mpr ⟨⟨hpos, h.current.trans hcurrent, ?_, ?_⟩, fun b hb => ?_⟩
    aligned := List.forall_mem_cons.mpr ⟨haligned, h.aligned⟩
    live := List.forall_mem_cons.mpr
      ⟨⟨_, List.mem_cons_self, rfl, Nat.le_refl _⟩, fun a ha => hmore (h.live a ha)⟩
    nodes := fun i other hother => hmore (h.nodes i other hother)
    liveNodup := List.nodup_cons.mpr ⟨fun hmem => ?_, h.liveNodup⟩
    liveApart := fun i other hlive hi => ?_ }
  · show headerSize.toNat ≤ (offset + size).toNat
    have hheader := h.current
    omega
  · have ⟨_, _, hend, _⟩ := h.cutInside b hb
    exact .inr (.inr (.inr (hend.trans hcurrent)))
  · show offset.toNat + size.toNat ≤ (offset + size).toNat
    rw [hadd]
  · show offset.toNat + size.toNat ≤ s.arena.header.size.toNat
    rw [← hadd]
    exact UInt64.le_iff_toNat_le.mp hinside
  · have ⟨hlength, hheader, hend, hsize⟩ := h.cutInside b hb
    refine ⟨hlength, hheader, ?_, hsize⟩
    show b.offset + b.length ≤ (offset + size).toNat
    omega
  · obtain ⟨a, ha, heq⟩ := List.mem_map.mp hmem
    exact hbefore (h.live a ha) heq
  · rcases List.mem_cons.mp hlive with rfl | hlive
    · exact hbefore (h.nodes i _ hi) rfl
    · exact h.liveApart i hlive hi

theorem Owned.allocate (h : s.Owned members) {size : UInt64} {alignBits : Fin 64}
    (hroom : s.HasRoom (.allocate size alignBits)) :
    ∃ members', (s.allocate size alignBits).Owned members' := by
  rw [Held.allocate, SharedArena.allocate]
  by_cases hsize : size = 0
  · rw [hsize]
    exact ⟨members, h⟩
  · have hsize' : size.toNat ≠ 0 := fun hzero => hsize (UInt64.toNat_inj.mp hzero)
    have hroom := hroom hsize
    rw [if_neg hsize']
    cases hlist : allocateFromFreeList s.arena size.toNat (2 ^ alignBits.val) with
    | some r =>
      have hserved : s.Served size alignBits := by
        rw [Served, hlist]
        rfl
      rw [if_pos hserved] at hroom
      obtain ⟨c, hclass, hhead, haligned, rfl⟩ := allocateFromFreeList_eq_some hlist
      dsimp only
      rw [if_neg hhead, if_pos hserved]
      refine h.take hhead ?_ ?_
      · have hmod := congrArg UInt64.toNat haligned
        rw [UInt64.toNat_mod, toNat_ofNat_two_pow] at hmod
        exact hmod
      · have hlinked := h.linked c.1
        cases hmembers : members c.1 with
        | nil =>
          rw [hmembers] at hlinked
          exact (hhead hlinked).elim
        | cons head rest =>
          rw [hmembers] at hlinked
          obtain ⟨b, hb, hbo, _⟩ := h.nodes c.1 head (hmembers ▸ List.mem_cons_self)
          rw [← hlinked.1] at hbo
          exact ⟨b, hb, hbo, hroom c hclass b hb hbo⟩
    | none =>
      have hserved : ¬s.Served size alignBits := by
        rw [Served, hlist]
        exact nofun
      rw [if_neg hserved] at hroom
      have ⟨halign, hsum⟩ := hroom
      have haligned := toNat_aligned halign
      dsimp only [bumpAllocate]
      rw [UInt64.ofNat_toNat, if_neg hserved]
      generalize (s.arena.header.current + UInt64.ofNat (2 ^ alignBits.val) - 1) &&&
        ~~~(UInt64.ofNat (2 ^ alignBits.val) - 1) = offset at haligned ⊢
      have hadd : (offset + size).toNat = offset.toNat + size.toNat := by
        rw [UInt64.toNat_add, haligned, Nat.mod_eq_of_lt hsum]
      have hcurrent : s.arena.header.current.toNat ≤
          alignUp s.arena.header.current.toNat (2 ^ alignBits.val) :=
        le_alignUp (Nat.two_pow_pos alignBits.val)
      split
      next =>
        rw [if_pos rfl]
        exact ⟨members, h⟩
      next hfits =>
        have hzero : offset ≠ 0 := by
          have hheader : 152 ≤ s.arena.header.current.toNat := h.current
          intro heq
          rw [heq] at haligned
          have hnat : (0 : UInt64).toNat = 0 := rfl
          omega
        dsimp only
        rw [if_neg hzero]
        refine ⟨members, h.cutNew hsize ?_ ?_ hadd (UInt64.not_lt.mp hfits)⟩
        · rw [haligned]
          exact Nat.mul_mod_left _ _
        · rw [haligned]
          exact hcurrent

theorem Owned.step (h : s.Owned members) {call : Call} (hroom : s.HasRoom call) :
    ∃ members', (s.step call).Owned members' := by
  cases call with
  | allocate size alignBits => exact h.allocate hroom
  | free i => exact h.free hroom
  | write i start bytes => exact ⟨members, h.write i start bytes⟩

theorem HasRoom.noWrap {call : Call} (hroom : s.HasRoom call) : s.NoWrap call := by
  cases call with
  | allocate size alignBits =>
    intro hsize hserved
    have hroom := hroom hsize
    rw [if_neg hserved] at hroom
    dsimp only
    rw [UInt64.toNat_add, UInt64.toNat_add, toNat_aligned hroom.1, toNat_ofNat_two_pow,
      Nat.mod_eq_of_lt hroom.1, Nat.mod_eq_of_lt hroom.2]
    exact ⟨rfl, rfl⟩
  | free i => trivial
  | write i start bytes => trivial

/-! ## Runs -/

def LeavesSound (s : Held) (call : Call) : Prop := s.NoWrap call ∧ (s.step call).Sound

/-- Where every request and every node has room in its block, the blocks never overlap. -/
theorem sound_along (size : UInt64) (calls : List Call)
    (hroom : MeetsAlong step HasRoom (start size) calls) :
    MeetsAlong step LeavesSound (start size) calls := by
  refine hroom.imp (I := fun s => ∃ members, s.Owned members) (fun ⟨_, h⟩ hroom => h.step hroom)
    (fun ⟨_, h⟩ hroom => ⟨hroom.noWrap, ?_⟩) ⟨_, owned_start size⟩
  obtain ⟨_, hstep⟩ := h.step hroom
  exact hstep.sound

instance HasRoom.decidable (s : Held) : (call : Call) → Decidable (s.HasRoom call)
  | .allocate size _ => inferInstanceAs (Decidable (size ≠ 0 → ite _ _ _))
  | .free i => inferInstanceAs (Decidable (∀ a ∈ s.live[i]?, _ → _))
  | .write _ _ _ => .isTrue trivial

/-- A block that is freed and reused at its own size. -/
theorem sound_along_reuse : MeetsAlong step LeavesSound (start 4096)
    [.allocate 64 3, .allocate 40 4, .write 0 0 [1, 2, 3], .free 1, .allocate 64 3, .free 0,
      .allocate 30000 0] :=
  sound_along 4096 _ (by decide +kernel)

/-- A request of 32 bytes gets the 20 of a freed block and the 12 after them; the node of a freed
block of 8 bytes covers the next block; and a request for all bytes of the word wraps. -/
theorem blocks_overlap :
    ¬MeetsAlong step LeavesSound (start 4096)
        [.allocate 20 0, .allocate 20 0, .free 1, .allocate 32 0] ∧
      ¬MeetsAlong step LeavesSound (start 4096) [.allocate 8 0, .allocate 8 0, .free 1] ∧
      ¬MeetsAlong step LeavesSound (start 4096) [.allocate 18446744073709551615 0] := by
  refine ⟨fun ⟨_, _, _, hlast, _⟩ => ?_, fun ⟨_, _, hlast, _⟩ => ?_, fun ⟨hlast, _⟩ => ?_⟩
  · have hapart := hlast.2.apart
    revert hapart
    decide +kernel
  · have hnode := hlast.2.nodes 0 152 (.head (by decide +kernel)) ⟨160, 8, 0⟩ (by decide +kernel)
    revert hnode
    decide +kernel
  · have hsum := (hlast.1 (by decide) (by decide +kernel)).2
    revert hsum
    decide +kernel

end Held

end SharedArena

end VedDb
