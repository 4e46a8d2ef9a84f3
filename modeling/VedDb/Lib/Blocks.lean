import Mathlib.Tactic.Common

/-!
# Blocks of a memory

A memory is a function from addresses to cells.  A block is a range of addresses; a write is seen by
a read of the same block and of none apart from it.
-/

namespace VedDb

/-- A memory of cells of any kind. -/
def Memory (α : Type) : Type := Nat → α

structure Block where
  offset : Nat
  length : Nat
deriving DecidableEq

namespace Block

variable {b c : Block}

/-- Two blocks that share no address. -/
def Apart (b c : Block) : Prop :=
  b.length = 0 ∨ c.length = 0 ∨ b.offset + b.length ≤ c.offset ∨ c.offset + c.length ≤ b.offset

instance (b c : Block) : Decidable (b.Apart c) := inferInstanceAs (Decidable (_ ∨ _))

theorem apart_iff : b.Apart c ↔
    ∀ i, b.offset ≤ i → i < b.offset + b.length →
      ¬(c.offset ≤ i ∧ i < c.offset + c.length) := by
  rw [Apart]
  constructor
  · intro h i hb hb'
    omega
  · intro h
    have hstart := h c.offset
    have hstart' := h b.offset
    omega

theorem Apart.symm (h : b.Apart c) : c.Apart b := by
  rw [Apart] at h ⊢
  omega

instance : Std.Symm Block.Apart := ⟨fun _ _ => Apart.symm⟩

/-- A block that starts where another one does and is no longer is apart from what that one is. -/
theorem Apart.shrink {n : Nat} (h : b.Apart c) (hn : n ≤ b.length) :
    ({ b with length := n } : Block).Apart c := by
  rw [Apart] at h ⊢
  show n = 0 ∨ c.length = 0 ∨ b.offset + n ≤ c.offset ∨ c.offset + c.length ≤ b.offset
  omega

end Block

namespace Memory

variable {α : Type} {m : Memory α} {b : Block} {offset : Nat} {xs ys : List α}

/-- The cells of a block. -/
def read (m : Memory α) (b : Block) : List α :=
  (List.range b.length).map fun i => m (b.offset + i)

/-- The memory after a list of cells is written from an address on. -/
def write (m : Memory α) (offset : Nat) (xs : List α) : Memory α :=
  fun i => if offset ≤ i then xs[i - offset]?.getD (m i) else m i

@[simp] theorem length_read (m : Memory α) (b : Block) : (m.read b).length = b.length := by
  simp [read]

theorem read_congr {m' : Memory α}
    (h : ∀ i, b.offset ≤ i → i < b.offset + b.length → m' i = m i) : m'.read b = m.read b := by
  apply List.map_congr_left
  intro i hi
  rw [List.mem_range] at hi
  exact h (b.offset + i) (by omega) (by omega)

theorem write_of_lt {i : Nat} (h : i < offset) : m.write offset xs i = m i := if_neg (by omega)

theorem write_of_le {i : Nat} (h : offset + xs.length ≤ i) : m.write offset xs i = m i := by
  rw [write, if_pos (by omega), List.getElem?_eq_none (by omega), Option.getD_none]

theorem read_write_of_apart (h : ({ offset := offset, length := xs.length } : Block).Apart b) :
    (m.write offset xs).read b = m.read b := by
  rw [Block.apart_iff] at h
  apply read_congr
  intro i hb hb'
  by_cases hbefore : i < offset
  · exact write_of_lt hbefore
  · by_cases hafter : offset + xs.length ≤ i
    · exact write_of_le hafter
    · exact absurd ⟨hb, hb'⟩ (h i (Nat.not_lt.mp hbefore) (Nat.not_le.mp hafter))

theorem read_write (m : Memory α) (offset : Nat) (xs : List α) :
    (m.write offset xs).read { offset := offset, length := xs.length } = xs := by
  apply List.ext_getElem
  · rw [length_read]
  · intro i hi hi'
    simp only [read, List.getElem_map, List.getElem_range]
    rw [write, if_pos (by omega), show offset + i - offset = i by omega,
      List.getElem?_eq_getElem hi', Option.getD_some]

/-- Two writes one after the other are one. -/
theorem write_write (m : Memory α) (offset : Nat) (xs ys : List α) :
    (m.write offset xs).write (offset + xs.length) ys = m.write offset (xs ++ ys) := by
  funext i
  by_cases hbefore : i < offset + xs.length
  · rw [write_of_lt hbefore, write, write, List.getElem?_append]
    split
    · rw [if_pos (by omega)]
    · rfl
  · rw [write, if_pos (by omega), write_of_le (by omega), write, if_pos (by omega),
      List.getElem?_append_right (by omega),
      show i - offset - xs.length = i - (offset + xs.length) by
        omega]

/-- A block is read in two parts. -/
theorem read_append (m : Memory α) (offset n k : Nat) :
    m.read { offset := offset, length := n + k } =
      m.read { offset := offset, length := n } ++
        m.read { offset := offset + n, length := k } := by
  simp only [read, List.range_add, List.map_append, List.map_map, Function.comp_def,
    Nat.add_assoc]

theorem read_write_left (m : Memory α) (offset : Nat) (xs ys : List α) :
    (m.write offset (xs ++ ys)).read { offset := offset, length := xs.length } = xs := by
  have h := read_write m offset (xs ++ ys)
  rw [List.length_append, read_append] at h
  exact (List.append_inj h (length_read _ _)).1

theorem read_write_right (m : Memory α) (offset : Nat) (xs ys : List α) :
    (m.write offset (xs ++ ys)).read
      { offset := offset + xs.length, length := ys.length } = ys := by
  have h := read_write m offset (xs ++ ys)
  rw [List.length_append, read_append] at h
  exact (List.append_inj h (length_read _ _)).2

end Memory

/-!
## Linked lists

A list that is threaded through a function, from a head on: each element's successor is what the
function says, and the successor of the last one is a value that is no element.
-/

namespace LinkedList

variable {α : Type} {next next' : α → α} {last head : α} {l : List α}

/-- The elements in the order in which they are linked. -/
def Holds (next : α → α) (last : α) : α → List α → Prop
  | head, [] => head = last
  | head, x :: l => head = x ∧ x ≠ last ∧ Holds next last (next x) l

/-- What a walk along the list meets. -/
inductive Reaches (next : α → α) (last head : α) : α → Prop
  | head : head ≠ last → Reaches next last head head
  | next {x : α} : Reaches next last head x → next x ≠ last → Reaches next last head (next x)

theorem Holds.congr (h : Holds next last head l) (hnext : ∀ x ∈ l, next' x = next x) :
    Holds next' last head l := by
  induction l generalizing head with
  | nil => exact h
  | cons x l ih =>
    refine ⟨h.1, h.2.1, ?_⟩
    rw [hnext x List.mem_cons_self]
    exact ih h.2.2 fun y hy => hnext y (List.mem_cons_of_mem _ hy)

/-- The successor of an element is an element or the end. -/
theorem Holds.next_mem (h : Holds next last head l) {x : α} (hx : x ∈ l) (hnext : next x ≠ last) :
    next x ∈ l := by
  induction l generalizing head with
  | nil => cases hx
  | cons y l ih =>
    rcases List.mem_cons.mp hx with rfl | hx
    · cases l with
      | nil => exact (hnext h.2.2).elim
      | cons z l =>
        rw [h.2.2.1]
        exact List.mem_cons_of_mem _ List.mem_cons_self
    · exact List.mem_cons_of_mem _ (ih h.2.2 hx)

/-- A walk meets the elements of the list and no others. -/
theorem Reaches.mem {x : α} (hx : Reaches next last head x) (h : Holds next last head l) :
    x ∈ l := by
  induction hx with
  | head hhead =>
    cases l with
    | nil => exact (hhead h).elim
    | cons y l =>
      rw [h.1]
      exact List.mem_cons_self
  | next _ hnext ih => exact h.next_mem ih hnext

end LinkedList

end VedDb
