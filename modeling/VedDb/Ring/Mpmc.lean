import VedDb.Lib.Runs
import VedDb.Ring.Slot

/-!
# The ring of many producers and many consumers

`ring/mpmc.rs`, in the single steps that `try_push` and `try_pop` take on the shared memory.  Any
number of parties take their steps in any order.
-/

namespace VedDb

structure MpmcSlot where
  sequence : UInt64
  data : Slot
deriving DecidableEq

/-- A ring of `2 ^ bits` slots. -/
structure MpmcRing (bits : Fin 64) where
  head : UInt64
  tail : UInt64
  slots : Fin (2 ^ bits.val) → MpmcSlot
deriving DecidableEq

namespace MpmcRing

variable {bits : Fin 64}

def init (bits : Fin 64) : MpmcRing bits :=
  { head := 0, tail := 0, slots := fun i => { sequence := UInt64.ofNat i.val, data := .empty } }

def capacity (bits : Fin 64) : UInt64 := UInt64.ofNat (2 ^ bits.val)

/-- `head & self.mask`, as a number. -/
def slotIdx (bits : Fin 64) (index : UInt64) : UInt64 := index &&& ringMask bits

def setData (ring : MpmcRing bits) (index : UInt64) (data : Slot) : MpmcRing bits :=
  let i := slotAt bits index
  { ring with slots := Function.update ring.slots i { ring.slots i with data := data } }

def setSequence (ring : MpmcRing bits) (index sequence : UInt64) : MpmcRing bits :=
  let i := slotAt bits index
  { ring with slots := Function.update ring.slots i { ring.slots i with sequence := sequence } }

end MpmcRing

/-! ## Steps -/

/-- Where a party stands.  A push is known by its turn, the number of pushes that took a position
before it. -/
inductive MpmcPc where
  | idle
  | pushing (data : Slot)
  /-- A position is taken; the slot is looked at until its sequence decides. -/
  | claimed (data : Slot) (head : UInt64) (turn : Nat)
  | granted (data : Slot) (head : UInt64) (turn : Nat)
  | written (data : Slot) (head : UInt64) (turn : Nat)
  | popping
  | taken (tail : UInt64)
  | admitted (tail : UInt64)
  /-- The data is read, and with it the turn of the push that wrote it. -/
  | read (tail : UInt64) (data : Slot) (author : Option Nat)
deriving DecidableEq

/-- What a call returns. -/
inductive MpmcAnswer where
  | pushed (done : Bool)
  | popped (data : Option Slot)
deriving DecidableEq

/-- The call reports failure. -/
def MpmcAnswer.IsFailure (answer : MpmcAnswer) : Prop :=
  answer = .pushed false ∨ answer = .popped none

/-- A ring and its parties.  `author` is the push that wrote a slot last, `pushed` and `popped` are
the calls that succeeded, and `changed` tells whether the call of a party has changed the ring. -/
structure MpmcChannel (τ : Type) (bits : Fin 64) where
  ring : MpmcRing bits
  party : τ → MpmcPc
  turns : Nat
  author : Fin (2 ^ bits.val) → Option Nat
  pushed : List (Nat × Slot)
  popped : List (Option Nat × Slot)
  changed : τ → Bool

namespace MpmcChannel

variable {τ : Type} [DecidableEq τ] {bits : Fin 64}

open MpmcRing (capacity slotIdx)

omit [DecidableEq τ] in
def start (τ : Type) (bits : Fin 64) : MpmcChannel τ bits :=
  { ring := .init bits
    party := fun _ => .idle
    turns := 0
    author := fun _ => none
    pushed := []
    popped := []
    changed := fun _ => false }

def goTo (c : MpmcChannel τ bits) (t : τ) (pc : MpmcPc) : MpmcChannel τ bits :=
  { c with party := Function.update c.party t pc }

/-- The next step of a party, and what its call returns if it is the last one. -/
def next (c : MpmcChannel τ bits) (t : τ) : Option MpmcAnswer × MpmcChannel τ bits :=
  match c.party t with
  | .idle => (none, c)
  | .pushing data =>
    (none,
      { c.goTo t (.claimed data c.ring.head c.turns) with
        ring := { c.ring with head := c.ring.head + 1 }
        turns := c.turns + 1 })
  | .claimed data head turn =>
    let seq := (c.ring.slots (slotAt bits head)).sequence
    if seq = slotIdx bits head then (none, c.goTo t (.granted data head turn))
    else if seq < slotIdx bits head then (none, c)
    else (some (.pushed false), c.goTo t .idle)
  | .granted data head turn =>
    (none,
      { c.goTo t (.written data head turn) with
        ring := c.ring.setData head data
        author := Function.update c.author (slotAt bits head) (some turn) })
  | .written data head turn =>
    (some (.pushed true),
      { c.goTo t .idle with
        ring := c.ring.setSequence head (slotIdx bits head + 1)
        pushed := c.pushed ++ [(turn, data)] })
  | .popping =>
    (none,
      { c.goTo t (.taken c.ring.tail) with ring := { c.ring with tail := c.ring.tail + 1 } })
  | .taken tail =>
    let seq := (c.ring.slots (slotAt bits tail)).sequence
    if seq = slotIdx bits tail + 1 then (none, c.goTo t (.admitted tail))
    else if seq < slotIdx bits tail + 1 then (some (.popped none), c.goTo t .idle)
    else (none, c)
  | .admitted tail =>
    (none,
      c.goTo t
        (.read tail (c.ring.slots (slotAt bits tail)).data (c.author (slotAt bits tail))))
  | .read tail data author =>
    (some (.popped (some data)),
      { c.goTo t .idle with
        ring := c.ring.setSequence tail (slotIdx bits tail + 1 + capacity bits - 1)
        popped := c.popped ++ [(author, data)] })

/-- What the scheduler lets a party do: call, or take the next step of its call. -/
inductive Move (τ : Type) where
  | tryPush (t : τ) (data : Slot)
  | tryPop (t : τ)
  | next (t : τ)

def call (c : MpmcChannel τ bits) (t : τ) (pc : MpmcPc) : MpmcChannel τ bits :=
  if c.party t = .idle then { c.goTo t pc with changed := Function.update c.changed t false }
  else c

def step (c : MpmcChannel τ bits) : Move τ → MpmcChannel τ bits
  | .tryPush t data => c.call t (.pushing data)
  | .tryPop t => c.call t .popping
  | .next t =>
    let after := (c.next t).2
    { after with
      changed := Function.update c.changed t (c.changed t || decide (after.ring ≠ c.ring)) }

def run (bits : Fin 64) (moves : List (Move τ)) : MpmcChannel τ bits :=
  moves.foldl step (start τ bits)

/-- A push that no other party disturbs. -/
def pushAlone (t : τ) (data : Slot) : List (Move τ) :=
  [.tryPush t data, .next t, .next t, .next t, .next t]

/-- A pop that no other party disturbs. -/
def popAlone (t : τ) : List (Move τ) := [.tryPop t, .next t, .next t, .next t, .next t]

/-! ## What a channel has to do -/

/-- No call is under way. -/
def Quiescent (c : MpmcChannel τ bits) : Prop := ∀ t, c.party t = .idle

def NotFull (c : MpmcChannel τ bits) : Prop := c.pushed.length < c.popped.length + 2 ^ bits.val

def NotEmpty (c : MpmcChannel τ bits) : Prop := c.popped.length < c.pushed.length

/-- A slot is written when what the push before left in it has been popped, and a call that fails
has changed nothing. -/
def Sound (c : MpmcChannel τ bits) : Move τ → Prop
  | .tryPush _ _ => True
  | .tryPop _ => True
  | .next t =>
    (∀ data head turn, c.party t = .granted data head turn →
      ∀ old, c.author (slotAt bits head) = some old → some old ∈ c.popped.map Prod.fst) ∧
    ∀ answer, (c.next t).1 = some answer → answer.IsFailure →
      (c.step (.next t)).changed t = false

/-- A run of the ring loses and duplicates nothing. -/
structure IsQueue (bits : Fin 64) (moves : List (Move τ)) : Prop where
  steps : MeetsAlong step Sound (start τ bits) moves
  once : ((run bits moves).popped.map Prod.fst).Nodup
  pushedOnly : ∀ e ∈ (run bits moves).popped, ∃ turn, e.1 = some turn ∧
    (turn, e.2) ∈ (run bits moves).pushed
  pushes : ∀ before t data, moves = before ++ pushAlone t data →
    (run bits before).Quiescent → (run bits before).NotFull →
    ∃ turn, (run bits moves).pushed = (run bits before).pushed ++ [(turn, data)]
  pops : ∀ before t, moves = before ++ popAlone t →
    (run bits before).Quiescent → (run bits before).NotEmpty →
    ∃ e, (run bits moves).popped = (run bits before).popped ++ [e]

end MpmcChannel

end VedDb
