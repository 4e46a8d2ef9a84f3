import VedDb.Kv.ArenaBlocks
import VedDb.Kv.Termination

/-!
# Running out of memory

An insert or a compare-and-swap of larger data gives up the old block before it asks for a new one.
When there is none, the call fails and the entry still points to the block that it gave up: the
arena has written a node of its free lists over the key and the value.
-/

namespace VedDb

open LittleEndian (Bytes)
open SharedArena (Header headerSize sizeClasses sizeClassFor nextOf addToFreeList)

namespace HashTable

variable {bits : Fin 64} {table : HashTable bits} {arena : ArenaState Header} {size : UInt64}

/-! ## The arena's side -/

theorem sizeClasses_bounds :
    ∀ i, (hi : i < sizeClasses.length) → 8 ≤ sizeClasses[i] ∧ sizeClasses[i] ≤ 32768 := by
  decide

/-- Each class but the first is twice another one. -/
theorem sizeClasses_double : ∀ i, (hi : i < sizeClasses.length) → sizeClasses[i] = 8 ∨
    ∃ j, ∃ hj : j < i, sizeClasses[i] = 2 * sizeClasses.get ⟨j, Nat.lt_trans hj hi⟩ := by
  decide

theorem sizeClassFor_spec {n : Nat} {c : Nat × Nat} (h : sizeClassFor n = some c) :
    n ≤ c.2 ∧ (c.2 = 8 ∨ c.2 / 2 < n) ∧ 8 ≤ c.2 ∧ c.2 ≤ 32768 := by
  simp only [sizeClassFor, Option.bind_eq_bind, Option.bind_eq_some_iff, Option.pure_def,
    Option.some.injEq] at h
  obtain ⟨i, hindex, classSize, hclass, rfl⟩ := h
  obtain ⟨hi, hle, hbefore⟩ := List.findIdx?_eq_some_iff_getElem.mp hindex
  rw [List.getElem?_eq_getElem hi, Option.some.injEq] at hclass
  rw [decide_eq_true_eq] at hle
  subst hclass
  refine ⟨hle, ?_, sizeClasses_bounds i hi⟩
  rcases sizeClasses_double i hi with hfirst | ⟨j, hj, hdouble⟩
  · exact .inl hfirst
  · have hlt := hbefore j hj
    rw [decide_eq_true_eq] at hlt
    rw [List.get_eq_getElem] at hdouble
    dsimp only at hdouble ⊢
    exact .inr (by omega)

theorem lt_of_sizeClassFor_none {n : Nat} (h : sizeClassFor n = none) : 32768 < n := by
  cases hindex : sizeClasses.findIdx? (n ≤ ·) with
  | none =>
    have hlast := List.findIdx?_eq_none_iff.mp hindex 32768 (by decide)
    rw [decide_eq_false_iff_not] at hlast
    exact Nat.not_le.mp hlast
  | some i =>
    obtain ⟨hi, _⟩ := List.findIdx?_eq_some_iff_getElem.mp hindex
    rw [sizeClassFor, hindex] at h
    simp [hi] at h

/-- The free lists take no blocks below half of the smallest class and above the largest one. -/
theorem free_eq_self {offset : UInt64} {n : Nat} (h : n < 4 ∨ 32768 < n) :
    SharedArena.free arena offset n = arena := by
  rw [SharedArena.free]
  split
  next => rfl
  next =>
    split
    next => rfl
    next index classSize hclass =>
      obtain ⟨hle, hhalf, hmin, hmax⟩ := sizeClassFor_spec hclass
      dsimp only at hle hhalf hmin hmax
      rw [if_neg (by omega)]

theorem free_eq_addToFreeList (arena : ArenaState Header) {offset : UInt64} {n : Nat}
    (hoffset : offset ≠ 0) (hn : 4 ≤ n) (hle : n ≤ 32768) :
    ∃ classSize list, SharedArena.free arena offset n =
      addToFreeList arena offset classSize list := by
  rw [SharedArena.free, if_neg (by simp [hoffset]; omega)]
  cases hclass : sizeClassFor n with
  | none =>
    have hlarge := lt_of_sizeClassFor_none hclass
    omega
  | some c =>
    obtain ⟨hle, hhalf, -⟩ := sizeClassFor_spec hclass
    exact ⟨c.2, c.1, if_pos ⟨by omega, hle⟩⟩

theorem free_header (arena : ArenaState Header) (offset : UInt64) (n : Nat) :
    (SharedArena.free arena offset n).header.current = arena.header.current ∧
      (SharedArena.free arena offset n).header.size = arena.header.size := by
  rw [SharedArena.free]
  split
  next => exact ⟨rfl, rfl⟩
  next =>
    split
    next => exact ⟨rfl, rfl⟩
    next =>
      split
      next => exact ⟨rfl, rfl⟩
      next => exact ⟨rfl, rfl⟩

/-- The bump pointer is past the header and does not pass the end of the arena. -/
structure InBounds (size : UInt64) (arena : ArenaState Header) : Prop where
  size_eq : arena.header.size = size
  header_le : headerSize.toNat ≤ arena.header.current.toNat
  current_le : arena.header.current.toNat ≤ headerSize.toNat + size.toNat

theorem inBounds_init (size : UInt64) : InBounds size (SharedArena.init size) :=
  { size_eq := rfl, header_le := Nat.le_refl _, current_le := Nat.le_add_right _ _ }

theorem InBounds.free (h : InBounds size arena) (offset : UInt64) (n : Nat) :
    InBounds size (SharedArena.free arena offset n) := by
  obtain ⟨hcurrent, hsize⟩ := free_header arena offset n
  refine ⟨hsize.trans h.size_eq, ?_, ?_⟩
  · rw [hcurrent]
    exact h.header_le
  · rw [hcurrent]
    exact h.current_le

/-- A request is refused, served from a free list or cut off by the bump pointer. -/
inductive Allocated (arena : ArenaState Header) (n : Nat) :
    UInt64 × ArenaState Header → Prop where
  | refused : Allocated arena n (0, arena)
  | listed (head : UInt64) (freeLists : Nat → UInt64) (hhead : head ≠ 0) :
      Allocated arena n
        (head, { arena with header := { arena.header with freeLists := freeLists } })
  | bumped (offset : UInt64) (hle : arena.header.current.toNat ≤ offset.toNat)
      (hlt : offset.toNat < arena.header.current.toNat + 8)
      (hfits : offset + UInt64.ofNat n ≤ arena.header.size) :
      Allocated arena n
        (offset, { arena with header := { arena.header with current := offset + UInt64.ofNat n } })

theorem allocated (hcurrent : arena.header.current.toNat + 8 < 2 ^ 64) (n : Nat) :
    Allocated arena n (SharedArena.allocate arena n 8) := by
  rw [SharedArena.allocate]
  split
  next => exact .refused
  next =>
    split
    next r hlist =>
      obtain ⟨c, _, hhead, _, rfl⟩ := SharedArena.Held.allocateFromFreeList_eq_some hlist
      exact .listed _ _ hhead
    next =>
      have haligned : ((arena.header.current + UInt64.ofNat 8 - 1) &&&
          ~~~(UInt64.ofNat 8 - 1)).toNat = alignUp arena.header.current.toNat 8 :=
        @SharedArena.Held.toNat_aligned _ 3 hcurrent
      have hle : arena.header.current.toNat ≤ alignUp arena.header.current.toNat 8 :=
        le_alignUp (by decide)
      have hlt : alignUp arena.header.current.toNat 8 ≤ arena.header.current.toNat + 7 :=
        Nat.div_mul_le_self _ _
      rw [SharedArena.bumpAllocate]
      dsimp only
      split
      next => exact .refused
      next hfits =>
        refine .bumped _ ?_ ?_ (UInt64.not_lt.mp hfits)
        · rw [haligned]
          exact hle
        · rw [haligned]
          exact Nat.lt_succ_of_le hlt

section

variable (h : InBounds size arena) (hsize : size.toNat < 2 ^ 63)

include h hsize

theorem InBounds.current_lt : arena.header.current.toNat + 8 < 2 ^ 64 := by
  have hle := h.current_le
  have hheader : headerSize.toNat = 152 := rfl
  omega

/-- A refused request changes nothing. -/
theorem InBounds.allocate_refused {n : Nat} {arena' : ArenaState Header}
    (hzero : SharedArena.allocate arena n 8 = (0, arena')) : arena' = arena := by
  have hallocated := allocated (h.current_lt hsize) n
  rw [hzero] at hallocated
  cases hallocated with
  | refused => rfl
  | listed _ _ hhead => exact absurd rfl hhead
  | bumped _ hle hlt hfits =>
    have hheader := h.header_le
    have hpos : 0 < headerSize.toNat := by decide
    have hnat : (0 : UInt64).toNat = 0 := rfl
    omega

theorem InBounds.allocate {n : Nat} (hn : size.toNat + n + 256 < 2 ^ 64) :
    InBounds size (SharedArena.allocate arena n 8).2 := by
  have hallocated := allocated (h.current_lt hsize) n
  generalize SharedArena.allocate arena n 8 = r at hallocated
  cases hallocated with
  | refused => exact h
  | listed head freeLists hhead =>
    exact { size_eq := h.size_eq, header_le := h.header_le, current_le := h.current_le }
  | bumped offset hle hlt hfits =>
    have hcurrent := h.current_le
    have hheader : headerSize.toNat = 152 := rfl
    have hsum : (offset + UInt64.ofNat n).toNat = offset.toNat + n := by
      rw [UInt64.toNat_add, UInt64.toNat_ofNat_of_lt' (show n < 2 ^ 64 by omega)]
      exact Nat.mod_eq_of_lt (by omega)
    refine { size_eq := h.size_eq, header_le := ?_, current_le := ?_ }
    · show headerSize.toNat ≤ (offset + UInt64.ofNat n).toNat
      have hle' := h.header_le
      omega
    · show (offset + UInt64.ofNat n).toNat ≤ headerSize.toNat + size.toNat
      rw [h.size_eq] at hfits
      exact (UInt64.le_iff_toNat_le.mp hfits).trans (Nat.le_add_left _ _)

omit hsize in
theorem InBounds.copy (offset : UInt64) (key value : Bytes) :
    InBounds size (arena.copy offset key value) :=
  { size_eq := h.size_eq, header_le := h.header_le, current_le := h.current_le }

theorem InBounds.resize (entry : Entry) {n : Nat} (hn : size.toNat + n + 256 < 2 ^ 64) :
    InBounds size (resize SharedArena.arena arena entry n).2 := by
  rw [HashTable.resize]
  split
  next => exact (h.free entry.dataOffset entry.dataSize).allocate hsize hn
  next => exact h

/-- A resize that fails has given up the block. -/
theorem InBounds.resize_none {entry : Entry} {n : Nat} {arena' : ArenaState Header}
    (hresize : HashTable.resize SharedArena.arena arena entry n = (none, arena')) :
    arena' = SharedArena.free arena entry.dataOffset entry.dataSize := by
  rw [HashTable.resize] at hresize
  split at hresize
  next =>
    rw [Prod.mk.injEq] at hresize
    obtain ⟨hnone, harena⟩ := hresize
    split at hnone
    next hzero =>
      apply (h.free entry.dataOffset entry.dataSize).allocate_refused hsize
      exact Prod.ext hzero harena
    next => cases hnone
  next => cases hresize

end

/-! ## Calls that run out of memory -/

def Reply.outOfMemory : Reply → Bool
  | .inserted (.error .outOfMemory) | .swapped (.error .outOfMemory) => true
  | _ => false

/-- The arena and what is written into it lie in one address space, of which half is the user's. -/
def Call.FitsBeside (size : UInt64) : Call → Prop
  | .cas _ _ newValue => size.toNat + newValue.length < 2 ^ 63
  | .insert .. | .get _ | .remove _ => True

instance (size : UInt64) : (call : Call) → Decidable (call.FitsBeside size)
  | .cas .. => inferInstanceAs (Decidable (_ < _))
  | .insert .. | .get _ | .remove _ => .isTrue trivial

section

variable {digest : Bytes → UInt64} {table' : HashTable bits} {arena' : ArenaState Header}
  {key value : Bytes} (h : InBounds size arena) (hsize : size.toNat < 2 ^ 63)

include h hsize

theorem InBounds.insert {result : Except KvError Bool}
    (hinsert : table.insert SharedArena.arena digest arena key value =
      some (result, table', arena')) : InBounds size arena' := by
  rw [HashTable.insert] at hinsert
  split at hinsert
  next =>
    cases hinsert
    exact h
  next hshort =>
    have hn : size.toNat + (key.length + value.length) + 256 < 2 ^ 64 := by omega
    simp only at hinsert
    split at hinsert
    next => cases hinsert
    next index _ =>
      have hresize := h.resize hsize (table.entries index) hn
      split at hinsert
      next heq =>
        cases hinsert
        rw [heq] at hresize
        exact hresize
      next heq =>
        cases hinsert
        rw [heq] at hresize
        exact hresize.copy _ _ _
    next =>
      have hallocate := h.allocate hsize hn
      split at hinsert
      next =>
        cases hinsert
        exact hallocate
      next =>
        cases hinsert
        exact hallocate.copy _ _ _

theorem InBounds.cas {expectedVersion : UInt64} {result : Except KvError UInt64}
    (hfits : size.toNat + value.length < 2 ^ 63)
    (hcas : table.cas SharedArena.arena digest arena key expectedVersion value =
      some (result, table', arena')) : InBounds size arena' := by
  rw [HashTable.cas] at hcas
  split at hcas
  next => cases hcas
  next =>
    cases hcas
    exact h
  next index _ =>
    simp only at hcas
    split at hcas
    next =>
      cases hcas
      exact h
    next =>
      have hkey := (table.entries index).keyLen.toNat_lt
      have hresize := h.resize hsize (table.entries index)
        (n := (table.entries index).keyLen.toNat + value.length) (by omega)
      split at hcas
      next heq =>
        cases hcas
        rw [heq] at hresize
        exact hresize
      next heq =>
        cases hcas
        rw [heq] at hresize
        exact hresize.copy _ _ _

omit hsize in
theorem InBounds.remove {removed : Option Nat}
    (hremove : table.remove SharedArena.arena digest arena key = some (removed, table', arena')) :
    InBounds size arena' := by
  rw [HashTable.remove] at hremove
  split at hremove
  next => cases hremove
  next =>
    simp only at hremove
    split at hremove
    next =>
      cases hremove
      exact h
    next =>
      cases hremove
      exact h.free _ _
  next =>
    cases hremove
    exact h

theorem InBounds.step {call : Call} {reply : Reply} (hfits : call.FitsBeside size)
    (hstep : table.step SharedArena.arena digest arena call = some (reply, table', arena')) :
    InBounds size arena' := by
  cases call with
  | insert key value =>
    simp only [HashTable.step, Option.bind_eq_bind, Option.bind_eq_some_iff, Option.pure_def,
      Option.some.injEq, Prod.exists, Prod.mk.injEq] at hstep
    rcases hstep with ⟨_, _, _, hinsert, _, _, rfl⟩
    exact h.insert hsize hinsert
  | get key =>
    simp only [HashTable.step, Option.bind_eq_bind, Option.bind_eq_some_iff, Option.pure_def,
      Option.some.injEq, Prod.mk.injEq] at hstep
    rcases hstep with ⟨_, _, _, _, rfl⟩
    exact h
  | remove key =>
    simp only [HashTable.step, Option.bind_eq_bind, Option.bind_eq_some_iff, Option.pure_def,
      Option.some.injEq, Prod.exists, Prod.mk.injEq] at hstep
    rcases hstep with ⟨_, _, _, hremove, _, _, rfl⟩
    exact h.remove hremove
  | cas key expectedVersion newValue =>
    simp only [HashTable.step, Option.bind_eq_bind, Option.bind_eq_some_iff, Option.pure_def,
      Option.some.injEq, Prod.exists, Prod.mk.injEq] at hstep
    rcases hstep with ⟨_, _, _, hcas, _, _, rfl⟩
    exact h.cas hsize hfits hcas

/-- A call that runs out of memory leaves the table, and the arena too unless its key is there. -/
theorem InBounds.out_of_memory {call : Call} {reply : Reply}
    (hstep : table.step SharedArena.arena digest arena call = some (reply, table', arena'))
    (hoom : reply.outOfMemory) :
    table' = table ∧
      ((∀ index, ¬table.Reached arena.memory (hashKey digest call.key) call.key index) ∧
          arena' = arena ∨
        ∃ index, table.Reached arena.memory (hashKey digest call.key) call.key index ∧
          arena' = SharedArena.free arena (table.entries index).dataOffset
            (table.entries index).dataSize) := by
  cases call with
  | insert key value =>
    simp only [HashTable.step, Option.bind_eq_bind, Option.bind_eq_some_iff, Option.pure_def,
      Option.some.injEq, Prod.exists, Prod.mk.injEq] at hstep
    rcases hstep with ⟨_, _, _, hinsert, rfl, rfl, rfl⟩
    rw [HashTable.insert] at hinsert
    split at hinsert
    next =>
      cases hinsert
      cases hoom
    next =>
      simp only at hinsert
      split at hinsert
      next => cases hinsert
      next index hfind =>
        split at hinsert
        next hresize =>
          cases hinsert
          refine ⟨rfl, .inr ⟨index, reached_of_findEntry hfind, ?_⟩⟩
          exact h.resize_none hsize hresize
        next =>
          cases hinsert
          cases hoom
      next hfind =>
        split at hinsert
        next hoffset =>
          cases hinsert
          refine ⟨rfl, .inl ⟨not_reached_of_findEntry (two_le_hashKey digest key).1 hfind, ?_⟩⟩
          exact h.allocate_refused hsize (Prod.ext hoffset rfl)
        next =>
          cases hinsert
          cases hoom
  | get key =>
    simp only [HashTable.step, Option.bind_eq_bind, Option.bind_eq_some_iff, Option.pure_def,
      Option.some.injEq, Prod.mk.injEq] at hstep
    rcases hstep with ⟨_, _, rfl, _⟩
    cases hoom
  | remove key =>
    simp only [HashTable.step, Option.bind_eq_bind, Option.bind_eq_some_iff, Option.pure_def,
      Option.some.injEq, Prod.exists, Prod.mk.injEq] at hstep
    rcases hstep with ⟨_, _, _, _, rfl, _⟩
    cases hoom
  | cas key expectedVersion newValue =>
    simp only [HashTable.step, Option.bind_eq_bind, Option.bind_eq_some_iff, Option.pure_def,
      Option.some.injEq, Prod.exists, Prod.mk.injEq] at hstep
    rcases hstep with ⟨_, _, _, hcas, rfl, rfl, rfl⟩
    rw [HashTable.cas] at hcas
    split at hcas
    next => cases hcas
    next =>
      cases hcas
      cases hoom
    next index hfind =>
      simp only at hcas
      split at hcas
      next =>
        cases hcas
        cases hoom
      next =>
        split at hcas
        next hresize =>
          cases hcas
          refine ⟨rfl, .inr ⟨index, reached_of_findEntry hfind, ?_⟩⟩
          exact h.resize_none hsize hresize
        next =>
          cases hcas
          cases hoom

end

/-! ## What is claimed of them -/

structure OwnsBlock (table : HashTable bits) (arena : ArenaState Header)
    (index : Fin (2 ^ bits.val)) : Prop where
  cut : headerSize.toNat ≤ (table.entries index).dataOffset.toNat ∧
    (table.entries index).dataOffset.toNat + (table.entries index).dataSize ≤
      arena.header.current.toNat
  nodes (list : Nat) (offset : UInt64) :
    LinkedList.Reaches (nextOf arena.memory) 0 (arena.header.freeLists list) offset →
      (SharedArena.Held.nodeBlock offset).Apart (table.entries index).block
  apart (other : Fin (2 ^ bits.val)) : other ≠ index → (table.entries other).Live →
    (table.entries other).block.Apart (table.entries index).block

/-- Every get and every version is what it was, and every live entry has its block to itself. -/
structure Unaffected (digest : Bytes → UInt64) (table : HashTable bits)
    (arena : ArenaState Header) (table' : HashTable bits) (arena' : ArenaState Header) : Prop where
  gets (key : Bytes) : table'.get digest arena' key = table.get digest arena key
  versions (index : Fin (2 ^ bits.val)) :
    (table'.entries index).version = (table.entries index).version
  owned (index : Fin (2 ^ bits.val)) : (table'.entries index).Live → table'.OwnsBlock arena' index

/-- The key has no entry, or one whose data the free lists do not take: they take 4 to 32768
bytes. -/
def KeepsBlock (digest : Bytes → UInt64) (table : HashTable bits) (arena : ArenaState Header)
    (key : Bytes) : Prop :=
  ∀ index, table.Reached arena.memory (hashKey digest key) key index →
    (table.entries index).dataSize < 4 ∨ 32768 < (table.entries index).dataSize

namespace Shared

variable {digest : Bytes → UInt64} {table' : HashTable bits} {arena' : ArenaState Header}

theorem inBounds_run (hsize : size.toNat < 2 ^ 63) {calls : List Call}
    (hfits : ∀ call ∈ calls, call.FitsBeside size) {s : Shared bits Header}
    (h : InBounds size s.arena) :
    InBounds size (calls.foldl (after SharedArena.arena digest) s).arena := by
  induction calls generalizing s with
  | nil => exact h
  | cons call calls ih =>
    refine ih (fun c hc => hfits c (List.mem_cons_of_mem _ hc)) ?_
    rw [after]
    split
    next => exact h
    next hstep => exact h.step hsize (hfits call List.mem_cons_self) hstep

theorem not_ownsBlock_free {table : HashTable bits} {index : Fin (2 ^ bits.val)}
    (hmin : 4 ≤ (table.entries index).dataSize) (hmax : (table.entries index).dataSize ≤ 32768) :
    ¬table.OwnsBlock (SharedArena.free arena (table.entries index).dataOffset
      (table.entries index).dataSize) index := by
  intro howns
  have hheader : headerSize.toNat = 152 := rfl
  have hoffset : (table.entries index).dataOffset ≠ 0 := by
    intro hzero
    have hcut := howns.cut.1
    rw [hzero, hheader] at hcut
    exact absurd hcut (by decide)
  obtain ⟨classSize, list, hfree⟩ := free_eq_addToFreeList arena hoffset hmin hmax
  rw [hfree] at howns
  have hhead : (addToFreeList arena (table.entries index).dataOffset classSize
      list).header.freeLists list = (table.entries index).dataOffset := Function.update_self ..
  have hne : (addToFreeList arena (table.entries index).dataOffset classSize
      list).header.freeLists list ≠ 0 := by
    rw [hhead]
    exact hoffset
  have hapart := howns.nodes list _ (.head hne)
  rw [hhead, Block.Apart] at hapart
  dsimp only [SharedArena.Held.nodeBlock, Entry.block] at hapart
  omega

/-- A call that runs out of memory leaves everything as it was exactly where every live entry had
its block to itself and the call does not give one up. -/
theorem unaffected_iff (digest : Bytes → UInt64) (size : UInt64) (hsize : size.toNat < 2 ^ 63)
    (calls : List Call) (hfits : ∀ call ∈ calls, call.FitsBeside size) (s : Shared bits Header)
    (hs : s = calls.foldl (after SharedArena.arena digest) (start bits (SharedArena.init size)))
    (call : Call) {reply : Reply}
    (hstep : s.table.step SharedArena.arena digest s.arena call = some (reply, table', arena'))
    (hoom : reply.outOfMemory) :
    Unaffected digest s.table s.arena table' arena' ↔
      (∀ index, (s.table.entries index).Live → s.table.OwnsBlock s.arena index) ∧
        KeepsBlock digest s.table s.arena call.key := by
  have hin : InBounds size s.arena := hs ▸ inBounds_run hsize hfits (inBounds_init size)
  obtain ⟨rfl, hcases⟩ := hin.out_of_memory hsize hstep hoom
  have hsame (harena : arena' = s.arena) (hkeeps : KeepsBlock digest s.table s.arena call.key) :
      Unaffected digest s.table s.arena s.table arena' ↔
        (∀ index, (s.table.entries index).Live → s.table.OwnsBlock s.arena index) ∧
          KeepsBlock digest s.table s.arena call.key := by
    rw [harena]
    exact ⟨fun h => ⟨h.owned, hkeeps⟩,
      fun h => { gets := fun _ => rfl, versions := fun _ => rfl, owned := h.1 }⟩
  rcases hcases with ⟨habsent, harena⟩ | ⟨index, hreached, harena⟩
  · exact hsame harena fun index hreached => absurd hreached (habsent index)
  · by_cases hkept : (s.table.entries index).dataSize < 4 ∨
        32768 < (s.table.entries index).dataSize
    · rw [free_eq_self hkept] at harena
      exact hsame harena fun i hi => hi.unique hreached ▸ hkept
    · obtain ⟨hmin, hmax⟩ := not_or.mp hkept
      have hlive : (s.table.entries index).Live := by
        obtain ⟨_, _, hmatch, _⟩ := hreached
        rw [Entry.Live, hmatch.1]
        exact two_le_hashKey digest call.key
      refine iff_of_false (fun h => ?_) fun h => hkept (h.2 index hreached)
      have howns := h.owned index hlive
      rw [harena] at howns
      exact not_ownsBlock_free (Nat.not_lt.mp hmin) (Nat.not_lt.mp hmax) howns

/-- A key of four bytes with a value of four, in an arena with no room for more. -/
def lastBlock : Shared ⟨2, by decide⟩ Header :=
  [Call.insert [1, 2, 3, 4] [5, 6, 7, 8]].foldl (after SharedArena.arena fnv1a)
    (start ⟨2, by decide⟩ (SharedArena.init 176))

theorem lastBlock_owned (index : Fin (2 ^ 2)) (hlive : (lastBlock.table.entries index).Live) :
    lastBlock.table.OwnsBlock lastBlock.arena index where
  cut := by
    revert index
    decide +kernel
  nodes list offset hreaches := by
    have hlists : lastBlock.arena.header.freeLists list = 0 := rfl
    rw [hlists] at hreaches
    have hnil : LinkedList.Holds (nextOf lastBlock.arena.memory) 0 0 [] := rfl
    exact absurd (hreaches.mem hnil) List.not_mem_nil
  apart other := by
    revert index other
    decide +kernel

theorem lastBlock_keeps : KeepsBlock fnv1a lastBlock.table lastBlock.arena [9] := by
  rintro index ⟨_, _, hmatch, -⟩
  have hhash : ∀ index, (lastBlock.table.entries index).hash ≠ hashKey fnv1a [9] := by
    decide +kernel
  exact absurd hmatch.1 (hhash index)

/-- An insert of a new key that finds no room. -/
theorem unaffected_iff_new_key : ∃ reply table arena,
    lastBlock.table.step SharedArena.arena fnv1a lastBlock.arena
        (.insert [9] (List.replicate 40 0)) = some (reply, table, arena) ∧
      reply.outOfMemory ∧
      Unaffected fnv1a lastBlock.table lastBlock.arena table arena := by
  have hreturns : (lastBlock.table.step SharedArena.arena fnv1a lastBlock.arena
      (.insert [9] (List.replicate 40 0))).any fun r => r.1.outOfMemory := by
    decide +kernel
  have howned := lastBlock_owned
  have hkeeps := lastBlock_keeps
  generalize hs : lastBlock = s at hreturns howned hkeeps ⊢
  obtain ⟨⟨reply, table, arena⟩, hstep, hoom⟩ := (Option.any_eq_true _ _).mp hreturns
  have hsize : (176 : UInt64).toNat < 2 ^ 63 := by decide
  have hfits : ∀ call ∈ [Call.insert [1, 2, 3, 4] [5, 6, 7, 8]], call.FitsBeside 176 := by
    simp [Call.FitsBeside]
  have hrun : s = [Call.insert [1, 2, 3, 4] [5, 6, 7, 8]].foldl (after SharedArena.arena fnv1a)
      (start 2 (SharedArena.init 176)) := hs.symm
  exact ⟨reply, table, arena, hstep, hoom,
    (unaffected_iff fnv1a 176 hsize _ hfits s hrun _ hstep hoom).mpr ⟨howned, hkeeps⟩⟩

/-- A larger value for the key: the insert fails, and the old value is gone. -/
theorem out_of_memory_loses_value :
    let s := lastBlock.after SharedArena.arena fnv1a
      (.insert [1, 2, 3, 4] (List.replicate 28 9))
    (lastBlock.table.step SharedArena.arena fnv1a lastBlock.arena
      (.insert [1, 2, 3, 4] (List.replicate 28 9))).any (fun r => r.1.outOfMemory) ∧
      lastBlock.table.get fnv1a lastBlock.arena [1, 2, 3, 4] = some (some [5, 6, 7, 8]) ∧
      s.table.get fnv1a s.arena [1, 2, 3, 4] = some none := by
  refine ⟨?_, ?_, ?_⟩
  · decide +kernel
  · decide +kernel
  · decide +kernel

end Shared

end HashTable

end VedDb
