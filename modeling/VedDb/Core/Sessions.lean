import VedDb.Kv.HashTable
import VedDb.Ring.Spsc

/-!
# Sessions

`session.rs`: the registry of sessions with its reusable slots, and the session manager, which takes
the rings of a session from the arena and wakes clients through event descriptors.  The calls of one
manager run one after another; clients and the other users of the arena may change the rings and the
arena in between.
-/

namespace VedDb

open LittleEndian (Bytes)

inductive SessionError where
  | tooManySessions
  | outOfMemory
  | sessionNotFound
  | ringFull
deriving DecidableEq

/-- A slot of the registry; it is free if the id is 0.  `eventfd` is -1 without a descriptor. -/
structure SessionDesc where
  id : UInt64
  pid : UInt32
  cmdRingOffset : UInt64
  respRingOffset : UInt64
  ringCapacity : UInt64
  eventfd : Int
  pendingNotifications : UInt32
  lastActivity : UInt64
deriving DecidableEq

namespace SessionDesc

def new (id : UInt64) (pid : UInt32) : SessionDesc :=
  { id := id
    pid := pid
    cmdRingOffset := 0
    respRingOffset := 0
    ringCapacity := 0
    eventfd := -1
    pendingNotifications := 0
    lastActivity := 0 }

def touch (now : UInt64) (session : SessionDesc) : SessionDesc :=
  { session with lastActivity := now }

/-- `is_stale`, by the difference that saturates at 0. -/
def isStale (now timeout : UInt64) (session : SessionDesc) : Bool :=
  timeout.toNat < now.toNat - session.lastActivity.toNat

/-- What `remove_session` leaves in the slot. -/
def free (session : SessionDesc) : SessionDesc := { session with id := 0, pid := 0 }

end SessionDesc

/-! ## The registry -/

structure SessionRegistry where
  nextSessionId : UInt64
  maxSessions : UInt64
  activeSessions : UInt64
  sessions : List SessionDesc

/-- The change of the first element with a property. -/
def modifyFirst {α : Type} (p : α → Bool) (f : α → α) : List α → List α
  | [] => []
  | x :: xs => if p x then f x :: xs else x :: modifyFirst p f xs

section

variable {α β : Type} {p : α → Bool} {f : α → α} {xs : List α} {x : α}

theorem modifyFirst_append {before after : List α} (hbefore : ∀ y ∈ before, p y = false)
    (hx : p x = true) : modifyFirst p f (before ++ x :: after) = before ++ f x :: after := by
  induction before with
  | nil => exact if_pos hx
  | cons y before ih =>
    rw [List.forall_mem_cons] at hbefore
    rw [List.cons_append, modifyFirst, hbefore.1, ih hbefore.2]
    rfl

/-- The first element with a property, and what lies on its sides. -/
theorem exists_of_find?_eq_some (h : xs.find? p = some x) :
    ∃ before after, xs = before ++ x :: after ∧ p x = true ∧ ∀ y ∈ before, p y = false := by
  have ⟨hx, before, after, heq, hbefore⟩ := List.find?_eq_some_iff_append.mp h
  refine ⟨before, after, heq, hx, fun y hy => ?_⟩
  have hy := hbefore y hy
  rw [Bool.not_eq_true'] at hy
  exact hy

theorem find?_append_cons {before after : List α} (hbefore : ∀ y ∈ before, p y = false)
    (hx : p x = true) : (before ++ x :: after).find? p = some x := by
  refine List.find?_eq_some_iff_append.mpr ⟨hx, before, after, rfl, fun y hy => ?_⟩
  rw [hbefore y hy]
  rfl

theorem map_modifyFirst {g : α → β} (hf : ∀ x, g (f x) = g x) :
    (modifyFirst p f xs).map g = xs.map g := by
  induction xs with
  | nil => rfl
  | cons y ys ih =>
    rw [modifyFirst]
    split
    next => rw [List.map_cons, List.map_cons, hf]
    next => rw [List.map_cons, List.map_cons, ih]

end

namespace SessionRegistry

def init (maxSessions : UInt64) : SessionRegistry :=
  { nextSessionId := 1
    maxSessions := maxSessions
    activeSessions := 0
    sessions := List.replicate maxSessions.toNat (.new 0 0) }

def findFreeSlot (registry : SessionRegistry) : Option SessionDesc :=
  registry.sessions.find? fun s => s.id = 0

def getSession (registry : SessionRegistry) (id : UInt64) : Option SessionDesc :=
  registry.sessions.find? fun s => s.id = id

/-- A change through `get_session_mut`, or through the atomics of `get_session`. -/
def modifySession (registry : SessionRegistry) (id : UInt64) (f : SessionDesc → SessionDesc) :
    SessionRegistry :=
  { registry with sessions := modifyFirst (fun s => s.id = id) f registry.sessions }

/-- `create_session`, with what `eventfd` returns. -/
def createSession (registry : SessionRegistry) (pid : UInt32) (ringCapacity now : UInt64)
    (eventfd : Int) : Option (UInt64 × SessionRegistry) :=
  if registry.maxSessions ≤ registry.activeSessions then none
  else
    match registry.findFreeSlot with
    | none => none
    | some _ =>
      let id := registry.nextSessionId
      let fill (session : SessionDesc) : SessionDesc :=
        { session with
          id := id
          pid := pid
          ringCapacity := ringCapacity
          lastActivity := now
          eventfd := eventfd }
      some (id,
        { registry with
          nextSessionId := id + 1
          activeSessions := registry.activeSessions + 1
          sessions := modifyFirst (fun s => s.id = 0) fill registry.sessions })

/-- `remove_session`, but for the `close` of the descriptor. -/
def removeSession (registry : SessionRegistry) (id : UInt64) :
    Option (SessionDesc × SessionRegistry) :=
  match registry.getSession id with
  | none => none
  | some session =>
    some (session,
      { registry.modifySession id SessionDesc.free with
        activeSessions := registry.activeSessions - 1 })

/-- The sessions that `cleanup_stale_sessions` ends. -/
def stale (registry : SessionRegistry) (now timeout : UInt64) : List SessionDesc :=
  registry.sessions.filter fun s => s.id ≠ 0 ∧ s.isStale now timeout

/-- `cleanup_stale_sessions`, but for the `close` of the descriptors. -/
def cleanupStaleSessions (registry : SessionRegistry) (now timeout : UInt64) : SessionRegistry :=
  { registry with
    activeSessions :=
      registry.activeSessions - UInt64.ofNat (registry.stale now timeout).length
    sessions := registry.sessions.map fun s =>
      if s.id ≠ 0 ∧ s.isStale now timeout then s.free else s }

/-- The slots that are in use. -/
def occupied (registry : SessionRegistry) : List SessionDesc :=
  registry.sessions.filter fun s => s.id ≠ 0

/-! ## Slots -/

variable {registry : SessionRegistry}

/-- What `create_session` does: it fills the first free slot. -/
theorem createSession_eq_some {registry' : SessionRegistry} {pid : UInt32}
    {ringCapacity now id : UInt64} {eventfd : Int}
    (h : registry.createSession pid ringCapacity now eventfd = some (id, registry')) :
    registry.activeSessions < registry.maxSessions ∧ id = registry.nextSessionId ∧
      ∃ before s after, registry.sessions = before ++ s :: after ∧ s.id = 0 ∧
        (∀ b ∈ before, b.id ≠ 0) ∧ registry.findFreeSlot = some s ∧
        registry' =
          { registry with
            nextSessionId := id + 1
            activeSessions := registry.activeSessions + 1
            sessions := before ++
              { s with
                id := id
                pid := pid
                ringCapacity := ringCapacity
                lastActivity := now
                eventfd := eventfd } :: after } := by
  rw [createSession] at h
  split at h
  next => cases h
  next hroom =>
    cases hfree : registry.findFreeSlot with
    | none =>
      rw [hfree] at h
      cases h
    | some s =>
      rw [hfree] at h
      cases h
      obtain ⟨before, after, hsessions, hs, hbefore⟩ := exists_of_find?_eq_some hfree
      refine ⟨UInt64.not_le.mp hroom, rfl, before, s, after, hsessions, of_decide_eq_true hs,
        fun b hb => of_decide_eq_false (hbefore b hb), rfl, ?_⟩
      rw [hsessions, modifyFirst_append hbefore hs]

/-- What `remove_session` does: it frees the first slot with the id. -/
theorem removeSession_of_some {id : UInt64} {session : SessionDesc}
    (hget : registry.getSession id = some session) :
    ∃ before after, registry.sessions = before ++ session :: after ∧ session.id = id ∧
      registry.removeSession id = some (session,
        { registry with
          activeSessions := registry.activeSessions - 1
          sessions := before ++ session.free :: after }) := by
  obtain ⟨before, after, hsessions, hid, hbefore⟩ := exists_of_find?_eq_some hget
  refine ⟨before, after, hsessions, of_decide_eq_true hid, ?_⟩
  rw [removeSession, hget]
  dsimp only
  rw [modifySession, hsessions, modifyFirst_append hbefore hid]

theorem occupied_append_free {before after : List SessionDesc} {s : SessionDesc}
    (hsessions : registry.sessions = before ++ s :: after) (hs : s.id = 0) :
    registry.occupied = (before ++ after).filter fun s => s.id ≠ 0 := by
  rw [occupied, hsessions, List.filter_append, List.filter_append,
    List.filter_cons_of_neg (by simp [hs])]

theorem occupied_append_used {before after : List SessionDesc} {s : SessionDesc}
    (hsessions : registry.sessions = before ++ s :: after) (hs : s.id ≠ 0) :
    registry.occupied.Perm (s :: (before ++ after).filter fun s => s.id ≠ 0) := by
  rw [occupied, hsessions, List.filter_append, List.filter_append,
    List.filter_cons_of_pos (by simp [hs])]
  exact List.perm_middle

theorem mem_occupied {s : SessionDesc} :
    s ∈ registry.occupied ↔ s ∈ registry.sessions ∧ s.id ≠ 0 := by
  rw [occupied, List.mem_filter, decide_eq_true_iff]

theorem getSession_eq_some {id : UInt64} {s : SessionDesc} (h : registry.getSession id = some s) :
    s ∈ registry.sessions ∧ s.id = id := by
  have hid := List.find?_some h
  exact ⟨List.mem_of_find?_eq_some h, of_decide_eq_true hid⟩

end SessionRegistry

/-! ## The manager -/

/-- What is asked of the arena: a block for a ring or for a response, with the offset it returns,
and the return of the block at an offset. -/
inductive ArenaCall where
  | ring (offset : UInt64)
  | response (offset : UInt64)
  | free (offset : UInt64)
deriving DecidableEq

def SpscRing.sizeForCapacity (bits : Fin 64) : Nat := (192 + SpscRing.capacity bits * 16).toNat

/-- The memory that a manager of rings of `2 ^ bits` slots works on, and the kernel's side of the
descriptors: the session that an open one is for, and the sessions that were signalled.  The calls
of the arena, the ids given out, and the responses a client has not acknowledged are kept on
record. -/
structure SessionManager (β : Type) (bits : Fin 64) where
  registry : SessionRegistry
  arena : ArenaState β
  rings : UInt64 → SpscRing bits
  descriptors : Int → Option UInt64
  signals : List UInt64
  calls : List ArenaCall
  issued : List UInt64
  outstanding : UInt64 → Nat

namespace SessionManager

variable {β : Type} {bits : Fin 64}

def start (maxSessions : UInt64) (arena : ArenaState β) (rings : UInt64 → SpscRing bits) :
    SessionManager β bits :=
  { registry := .init maxSessions
    arena := arena
    rings := rings
    descriptors := fun _ => none
    signals := []
    calls := []
    issued := []
    outstanding := fun _ => 0 }

/-- The descriptor is open for a session, or not open, unless it is -1. -/
def setDescriptor (descriptors : Int → Option UInt64) (eventfd : Int) (owner : Option UInt64) :
    Int → Option UInt64 :=
  if eventfd = -1 then descriptors else Function.update descriptors eventfd owner

/-- `close`, of a descriptor that is not -1. -/
def close (m : SessionManager β bits) (eventfd : Int) : SessionManager β bits :=
  { m with descriptors := setDescriptor m.descriptors eventfd none }

/-- The result of `eventfd`: a number that is not in use, or -1. -/
def eventfd (m : SessionManager β bits) : Option Nat → Int
  | none => -1
  | some fd => if m.descriptors fd = none then fd else -1

def removeSession (m : SessionManager β bits) (id : UInt64) : SessionManager β bits :=
  match m.registry.removeSession id with
  | none => m
  | some (session, registry) => { m.close session.eventfd with registry := registry }

section

variable (alloc : Arena β)

def allocateRing (m : SessionManager β bits) : UInt64 × SessionManager β bits :=
  let (offset, arena) := alloc.allocate m.arena (SpscRing.sizeForCapacity bits) 64
  (offset, { m with arena := arena, calls := m.calls ++ [.ring offset] })

def freeRing (m : SessionManager β bits) (offset : UInt64) : SessionManager β bits :=
  { m with
    arena := alloc.free m.arena offset (SpscRing.sizeForCapacity bits)
    calls := m.calls ++ [.free offset] }

/-- `create_session`, with the descriptor. -/
def createSession (m : SessionManager β bits) (pid : UInt32) (now : UInt64) (fd : Option Nat) :
    Option (UInt64 × SessionManager β bits) :=
  let eventfd := m.eventfd fd
  match m.registry.createSession pid (SpscRing.capacity bits) now eventfd with
  | none => none
  | some (id, registry) =>
    some (id,
      { m with
        registry := registry
        descriptors := setDescriptor m.descriptors eventfd (some id)
        issued := m.issued ++ [id] })

/-- The rest of `attach_session`, once the arena has been asked for the rings. -/
def finishAttach (m : SessionManager β bits) (id cmdRingOffset respRingOffset now : UInt64) :
    Except SessionError UInt64 × SessionManager β bits :=
  if cmdRingOffset = 0 ∨ respRingOffset = 0 then (.error .outOfMemory, m.removeSession id)
  else
    let rings := Function.update m.rings cmdRingOffset (.init bits)
    let attach (session : SessionDesc) : SessionDesc :=
      { session with
        cmdRingOffset := cmdRingOffset
        respRingOffset := respRingOffset
        lastActivity := now }
    (.ok id,
      { m with
        rings := Function.update rings respRingOffset (.init bits)
        registry := m.registry.modifySession id attach
        outstanding := Function.update m.outstanding id 0 })

def attachSession (m : SessionManager β bits) (pid : UInt32) (now : UInt64) (fd : Option Nat) :
    Except SessionError UInt64 × SessionManager β bits :=
  match m.createSession pid now fd with
  | none => (.error .tooManySessions, m)
  | some (id, m) =>
    let (cmdRingOffset, m) := m.allocateRing alloc
    let (respRingOffset, m) := m.allocateRing alloc
    m.finishAttach id cmdRingOffset respRingOffset now

def detachSession (m : SessionManager β bits) (id : UInt64) :
    Except SessionError Unit × SessionManager β bits :=
  match m.registry.getSession id with
  | none => (.error .sessionNotFound, m)
  | some session =>
    (.ok (),
      ((m.removeSession id).freeRing alloc session.cmdRingOffset).freeRing alloc
        session.respRingOffset)

def cleanupStaleSessions (m : SessionManager β bits) (now timeout : UInt64) :
    SessionManager β bits :=
  { (m.registry.stale now timeout).foldl (fun m session => m.close session.eventfd) m with
    registry := m.registry.cleanupStaleSessions now timeout }

/-- The session that the write to a descriptor wakes; only the first pending notification is
written. -/
def signalled (m : SessionManager β bits) (session : SessionDesc) : Option UInt64 :=
  if session.pendingNotifications = 0 ∧ session.eventfd ≠ -1 then m.descriptors session.eventfd
  else none

/-- `SessionManager::send_response`. -/
def sendSlot (m : SessionManager β bits) (id : UInt64) (slot : Slot) (now : UInt64) :
    Except SessionError Unit × SessionManager β bits :=
  match m.registry.getSession id with
  | none => (.error .sessionNotFound, m)
  | some session =>
    match (m.rings session.respRingOffset).tryPush slot with
    | none => (.error .ringFull, m)
    | some ring =>
      let notify (session : SessionDesc) : SessionDesc :=
        { session with
          pendingNotifications := session.pendingNotifications + 1
          lastActivity := now }
      (.ok (),
        { m with
          signals := m.signals ++ (m.signalled session).toList
          rings := Function.update m.rings session.respRingOffset ring
          registry := m.registry.modifySession id notify
          outstanding := Function.update m.outstanding id (m.outstanding id + 1) })

def ackNotifications (m : SessionManager β bits) (id now : UInt64) :
    Except SessionError Unit × SessionManager β bits :=
  match m.registry.getSession id with
  | none => (.error .sessionNotFound, m)
  | some _ =>
    let ack (session : SessionDesc) : SessionDesc :=
      { session with pendingNotifications := 0, lastActivity := now }
    (.ok (),
      { m with
        registry := m.registry.modifySession id ack
        outstanding := Function.update m.outstanding id 0 })

/-- `VedDb::send_response`, on the bytes of the response. -/
def sendResponse (m : SessionManager β bits) (id : UInt64) (response : Bytes) (now : UInt64) :
    Except SessionError Unit × SessionManager β bits :=
  match Slot.inlineData response with
  | some slot => m.sendSlot id slot now
  | none =>
    let (offset, arena) := alloc.allocate m.arena response.length 1
    let m := { m with arena := arena, calls := m.calls ++ [.response offset] }
    if offset = 0 then (.error .outOfMemory, m)
    else
      let memory := m.arena.memory.write offset.toNat response
      let m := { m with arena := { m.arena with memory := memory } }
      m.sendSlot id (.arenaOffset (UInt32.ofNat response.length) offset) now

end

/-! ## Steps -/

/-- A call of the manager, or a change of the rings and the arena by others. -/
inductive Op (β : Type) (bits : Fin 64) where
  | attach (pid : UInt32) (now : UInt64) (fd : Option Nat)
  | detach (id : UInt64)
  | cleanup (now timeout : UInt64)
  | send (id : UInt64) (response : Bytes) (now : UInt64)
  | sendSlot (id : UInt64) (slot : Slot) (now : UInt64)
  | ack (id now : UInt64)
  | others (arena : ArenaState β) (rings : UInt64 → SpscRing bits)

def step (alloc : Arena β) (m : SessionManager β bits) : Op β bits → SessionManager β bits
  | .attach pid now fd => (m.attachSession alloc pid now fd).2
  | .detach id => (m.detachSession alloc id).2
  | .cleanup now timeout => m.cleanupStaleSessions now timeout
  | .send id response now => (m.sendResponse alloc id response now).2
  | .sendSlot id slot now => (m.sendSlot id slot now).2
  | .ack id now => (m.ackNotifications id now).2
  | .others arena rings => { m with arena := arena, rings := rings }

end SessionManager

end VedDb
