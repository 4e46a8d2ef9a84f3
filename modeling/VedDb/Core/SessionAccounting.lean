import VedDb.Core.SessionCalls
import VedDb.Kv.ArenaBlocks
import VedDb.Lib.Runs

/-!
# The accounts of the session manager

What the counter of active sessions, the ids and the ring blocks have to come to, and the calls that
upset them: `detach_session` of the id of a free slot, `cleanup_stale_sessions` of a session whose
rings it does not return, an attach that gets one ring of two, and a response that has its block but
no session or no room to go to.
-/

namespace VedDb

open LittleEndian (Bytes)

namespace SessionManager

variable {β : Type} {bits : Fin 64}

def ringBlocks (m : SessionManager β bits) : List UInt64 :=
  m.registry.occupied.flatMap fun s => [s.cmdRingOffset, s.respRingOffset]

/-- The slots in use are counted, no id is given out twice, and the ring blocks that were taken and
not yet returned are those of the sessions. -/
structure Accounted (m : SessionManager β bits) : Prop where
  active : m.registry.activeSessions.toNat = m.registry.occupied.length
  bounded : m.registry.activeSessions ≤ m.registry.maxSessions
  ids : m.issued.Nodup
  rings : ∀ offset, offset ≠ 0 →
    m.calls.count (.ring offset) = m.calls.count (.free offset) + m.ringBlocks.count offset

/-- A response that is not sent leaves no block behind. -/
def LeavesNoBlock (alloc : Arena β) (m : SessionManager β bits) : Op β bits → Prop
  | .send id response now =>
    ∀ e, (m.sendResponse alloc id response now).1 = .error e → ∀ offset, offset ≠ 0 →
      (m.sendResponse alloc id response now).2.calls.count (.response offset) =
        m.calls.count (.response offset)
  | _ => True

/-- A session has room for a response. -/
def CanSend (m : SessionManager β bits) (id : UInt64) : Prop :=
  ∃ session, m.registry.getSession id = some session ∧
    let ring := m.rings session.respRingOffset
    ring.producerIndex - ring.consumerIndex < SpscRing.capacity bits

/-- The steps that keep the accounts. -/
def Tidy (alloc : Arena β) (m : SessionManager β bits) : Op β bits → Prop
  | .attach pid now fd =>
    m.createSession pid now fd ≠ none → m.registry.nextSessionId ≠ 0 ∧
      ((m.ringOffsets alloc).1 = 0 ↔ (m.ringOffsets alloc).2 = 0)
  | .detach id => id ≠ 0 ∨ m.registry.findFreeSlot = none
  | .cleanup now timeout => m.registry.stale now timeout = []
  | .send id response _ =>
    Slot.inlineSize < response.length → (alloc.allocate m.arena response.length 1).1 ≠ 0 →
      m.CanSend id
  | .sendSlot _ _ _ => True
  | .ack _ _ => True
  | .others _ _ => True

/-! ## The invariant -/

structure AccountInv (m : SessionManager β bits) : Prop where
  ids : m.IdsInv
  length : m.registry.sessions.length = m.registry.maxSessions.toNat
  active : m.registry.activeSessions.toNat = m.registry.occupied.length
  rings : ∀ offset, offset ≠ 0 →
    m.calls.count (.ring offset) = m.calls.count (.free offset) + m.ringBlocks.count offset

variable {alloc : Arena β} {m : SessionManager β bits}

theorem AccountInv.accounted (h : m.AccountInv) : m.Accounted where
  active := h.active
  bounded := by
    rw [UInt64.le_iff_toNat_le, h.active, ← h.length]
    exact List.length_filter_le _ _
  ids := h.ids.nodup
  rings := h.rings

theorem accountInv_start (maxSessions : UInt64) (arena : ArenaState β)
    (rings : UInt64 → SpscRing bits) : (start maxSessions arena rings).AccountInv := by
  have hnone : (start maxSessions arena rings).registry.occupied = [] := by
    rw [SessionRegistry.occupied, List.filter_eq_nil_iff]
    intro s hs
    rw [List.eq_of_mem_replicate hs]
    decide
  refine ⟨idsInv_start maxSessions arena rings, List.length_replicate, ?_, ?_⟩
  · rw [hnone]
    rfl
  · intro offset _
    rw [ringBlocks, hnone]
    rfl

/-- What the accounts see of a slot. -/
def account (s : SessionDesc) : UInt64 × UInt64 × UInt64 :=
  (s.id, s.cmdRingOffset, s.respRingOffset)

theorem occupied_account (registry : SessionRegistry) :
    registry.occupied.map account =
      (registry.sessions.map account).filter fun a => a.1 ≠ 0 := by
  rw [SessionRegistry.occupied, List.filter_map]
  rfl

theorem ringBlocks_account (m : SessionManager β bits) :
    m.ringBlocks =
      (m.registry.occupied.map account).flatMap fun a => [a.2.1, a.2.2] := by
  rw [ringBlocks, List.flatMap_map]
  rfl

/-- Calls that leave the ids and the rings of all slots alone. -/
theorem AccountInv.of_account {m' : SessionManager β bits} (h : m.AccountInv) (hids : m'.IdsInv)
    (hmax : m'.registry.maxSessions = m.registry.maxSessions)
    (hactive : m'.registry.activeSessions = m.registry.activeSessions)
    (hsessions : m'.registry.sessions.map account =
      m.registry.sessions.map account)
    (hring : ∀ offset, offset ≠ 0 → m'.calls.count (.ring offset) = m.calls.count (.ring offset))
    (hfree : ∀ offset, m'.calls.count (.free offset) = m.calls.count (.free offset)) :
    m'.AccountInv := by
  have hoccupied : m'.registry.occupied.map account =
      m.registry.occupied.map account := by
    rw [occupied_account, occupied_account, hsessions]
  have hlength := congrArg List.length hsessions
  have hcount := congrArg List.length hoccupied
  rw [List.length_map, List.length_map] at hlength hcount
  refine ⟨hids, ?_, ?_, fun offset hne => ?_⟩
  · rw [hlength, hmax, h.length]
  · rw [hactive, hcount, h.active]
  · rw [hring offset hne, hfree, ringBlocks_account, hoccupied, ← ringBlocks_account]
    exact h.rings offset hne

/-! ## Steps -/

theorem count_ring_append (calls : List ArenaCall) (block offset : UInt64) :
    (calls ++ [ArenaCall.ring block]).count (ArenaCall.ring offset) =
      calls.count (ArenaCall.ring offset) + [block].count offset := by
  simp [List.count_append, List.count_singleton]

theorem count_free_append (calls : List ArenaCall) (block offset : UInt64) :
    (calls ++ [ArenaCall.free block]).count (ArenaCall.free offset) =
      calls.count (ArenaCall.free offset) + [block].count offset := by
  simp [List.count_append, List.count_singleton]

theorem count_append_ne (calls : List ArenaCall) {call call' : ArenaCall} (hne : call' ≠ call) :
    (calls ++ [call]).count call' = calls.count call' := by
  simp [List.count_append, hne.symm]

theorem count_ringBlocks {s : SessionDesc} {others : List SessionDesc}
    (hoccupied : m.registry.occupied.Perm (s :: others)) (offset : UInt64) :
    m.ringBlocks.count offset =
      [s.cmdRingOffset].count offset + [s.respRingOffset].count offset +
        (others.flatMap fun s => [s.cmdRingOffset, s.respRingOffset]).count offset := by
  have hpair : [s.cmdRingOffset, s.respRingOffset] = [s.cmdRingOffset] ++ [s.respRingOffset] := rfl
  rw [ringBlocks, (hoccupied.flatMap_right _).count_eq, List.flatMap_cons, List.count_append, hpair,
    List.count_append]

theorem AccountInv.attach (h : m.AccountInv) {pid : UInt32} {now : UInt64} {fd : Option Nat}
    (htidy : m.Tidy alloc (.attach pid now fd)) :
    (m.attachSession alloc pid now fd).2.AccountInv := by
  have hfresh : m.FreshId (.attach pid now fd) := fun hcreate => (htidy hcreate).1
  have hids : (m.attachSession alloc pid now fd).2.IdsInv := h.ids.step hfresh
  rcases attachSession_cases h.ids alloc pid now fd hfresh with hrefused | ⟨before, s, after,
    filled, hsessions, hs, _, hcreate, hnext, hroom, hfilled, hfails | hsucceeds⟩
  · rw [hrefused]
    exact h
  · have hboth := (htidy hcreate).2
    have hcmd : (m.ringOffsets alloc).1 = 0 := hfails.noRoom.elim id hboth.mpr
    have hresp : (m.ringOffsets alloc).2 = 0 := hboth.mp hcmd
    have hregistry := hfails.state.registry
    have hcalls := hfails.state.calls
    generalize (m.attachSession alloc pid now fd).2 = m' at hids hregistry hcalls
    have hoccupied : m'.registry.occupied = m.registry.occupied := by
      rw [SessionRegistry.occupied_append_free hsessions hs]
      exact SessionRegistry.occupied_append_free (by rw [hregistry]) rfl
    refine ⟨hids, ?_, ?_, fun offset hne => ?_⟩
    · rw [hregistry, ← h.length, hsessions]
      simp
    · rw [hoccupied, ← h.active, hregistry]
      dsimp only
      rw [UInt64.add_sub_cancel]
    · have hcount := h.rings offset hne
      rw [ringBlocks] at hcount ⊢
      have hring : ArenaCall.ring offset ≠ .ring 0 := fun heq => hne (ArenaCall.ring.inj heq)
      have hother : ArenaCall.free offset ≠ .ring 0 := nofun
      rw [hoccupied, hcalls, hcmd, hresp, count_append_ne _ hring, count_append_ne _ hring,
        count_append_ne _ hother, count_append_ne _ hother, hcount]
  · have hregistry := hsucceeds.state.registry
    have hcalls := hsucceeds.state.calls
    generalize (m.attachSession alloc pid now fd).2 = m' at hids hregistry hcalls
    have hid : filled.id ≠ 0 := by
      rw [hfilled]
      exact hnext
    have hold := SessionRegistry.occupied_append_free hsessions hs
    have hsessions' : m'.registry.sessions = before ++
        { filled with
          cmdRingOffset := (m.ringOffsets alloc).1
          respRingOffset := (m.ringOffsets alloc).2 } :: after := by rw [hregistry]
    have hoccupied := SessionRegistry.occupied_append_used hsessions' hid
    refine ⟨hids, ?_, ?_, fun offset hne => ?_⟩
    · rw [hregistry, ← h.length, hsessions]
      simp
    · have hlt := m.registry.maxSessions.toNat_lt
      rw [hoccupied.length_eq, List.length_cons, ← hold, ← h.active, hregistry]
      show (m.registry.activeSessions + 1).toNat = _
      rw [UInt64.toNat_add]
      exact Nat.mod_eq_of_lt (Nat.lt_of_le_of_lt hroom hlt)
    · have hcount := h.rings offset hne
      rw [ringBlocks, hold] at hcount
      have hother (block : UInt64) : ArenaCall.free offset ≠ .ring block := nofun
      rw [count_ringBlocks hoccupied, hcalls, count_ring_append, count_ring_append,
        count_append_ne _ (hother _), count_append_ne _ (hother _), hcount]
      dsimp only
      omega

theorem AccountInv.detach (h : m.AccountInv) {id : UInt64} (htidy : m.Tidy alloc (.detach id)) :
    (m.detachSession alloc id).2.AccountInv := by
  have hstep : (m.step alloc (.detach id)).IdsInv := h.ids.step trivial
  have hids : (m.detachSession alloc id).2.IdsInv := hstep
  cases hget : m.registry.getSession id with
  | none =>
    rw [detachSession_of_none hget]
    exact h
  | some session =>
    obtain ⟨before, after, hsessions, hid, arena, hdetach⟩ :=
      detachSession_of_some alloc hget
    have hne : session.id ≠ 0 := by
      rcases htidy with hne | hfree
      · exact hid ▸ hne
      · intro hzero
        rw [hzero] at hid
        rw [← hid] at hget
        rw [SessionRegistry.findFreeSlot] at hfree
        rw [SessionRegistry.getSession, hfree] at hget
        cases hget
    have hoccupied := SessionRegistry.occupied_append_used hsessions hne
    rw [hdetach] at hids ⊢
    have hrest : SessionRegistry.occupied
        { m.registry with
          activeSessions := m.registry.activeSessions - 1
          sessions := before ++ session.free :: after } =
          (before ++ after).filter fun s => s.id ≠ 0 :=
      SessionRegistry.occupied_append_free rfl rfl
    have hcount := hoccupied.length_eq
    rw [List.length_cons, ← hrest, ← h.active] at hcount
    refine ⟨hids, ?_, ?_, fun offset hoffset => ?_⟩
    · rw [← h.length, hsessions]
      simp
    · show (m.registry.activeSessions - 1).toNat = _
      rw [UInt64.toNat_sub_of_le, hcount]
      · rfl
      · rw [UInt64.le_iff_toNat_le, hcount]
        exact Nat.le_add_left _ _
    · have hbefore := h.rings offset hoffset
      rw [count_ringBlocks hoccupied] at hbefore
      have hother (block : UInt64) : ArenaCall.ring offset ≠ .free block := by
        intro heq
        cases heq
      rw [ringBlocks, hrest, count_free_append, count_free_append, count_append_ne _ (hother _),
        count_append_ne _ (hother _), hbefore]
      omega

theorem AccountInv.cleanup (h : m.AccountInv) {now timeout : UInt64}
    (htidy : m.registry.stale now timeout = []) :
    (m.cleanupStaleSessions now timeout).AccountInv := by
  have hnone := List.filter_eq_nil_iff.mp htidy
  have hsame : m.registry.cleanupStaleSessions now timeout = m.registry := by
    rw [SessionRegistry.cleanupStaleSessions, htidy, List.length_nil]
    have hsessions : (m.registry.sessions.map fun s =>
        if s.id ≠ 0 ∧ s.isStale now timeout then s.free else s) = m.registry.sessions := by
      refine (List.map_congr_left fun s hs => ?_).trans (List.map_id _)
      have hkept := hnone s hs
      rw [decide_eq_true_iff] at hkept
      exact if_neg hkept
    rw [hsessions]
    simp
  rw [cleanupStaleSessions_eq, htidy, hsame]
  exact h

theorem AccountInv.sendSlot (h : m.AccountInv) (id : UInt64) (slot : Slot) (now : UInt64) :
    (m.sendSlot id slot now).2.AccountInv := by
  have hids := h.ids.sendSlot id slot now
  rcases m.sendSlot_cases id slot now with ⟨e, hsend⟩ | ⟨session, rings, _, hsend⟩
  · rw [hsend]
    exact h
  · rw [hsend] at hids ⊢
    exact h.of_account hids rfl rfl (map_modifyFirst fun _ => rfl) (fun _ _ => rfl) fun _ => rfl

theorem AccountInv.withResponse (h : m.AccountInv) (arena : ArenaState β) (offset : UInt64) :
    AccountInv { m with arena := arena, calls := m.calls ++ [.response offset] } := by
  refine h.of_account ⟨h.ids.nodup, h.ids.fresh, h.ids.issued, h.ids.distinct⟩ rfl rfl rfl ?_ ?_
  · intro block _
    have hother : ArenaCall.ring block ≠ .response offset := nofun
    exact count_append_ne _ hother
  · intro block
    have hother : ArenaCall.free block ≠ .response offset := nofun
    exact count_append_ne _ hother

theorem AccountInv.step {op : Op β bits} (h : m.AccountInv) (htidy : m.Tidy alloc op) :
    (m.step alloc op).AccountInv := by
  cases op with
  | attach pid now fd => exact h.attach htidy
  | detach id => exact h.detach htidy
  | cleanup now timeout => exact h.cleanup htidy
  | send id response now =>
    rw [SessionManager.step]
    rcases sendResponse_cases alloc m id response now with
      ⟨slot, hsend⟩ | ⟨_, arena, ⟨_, hsend⟩ | ⟨_, slot, hsend⟩⟩
    · rw [hsend]
      exact h.sendSlot id slot now
    · rw [hsend]
      exact h.withResponse arena _
    · rw [hsend]
      exact (h.withResponse arena _).sendSlot id slot now
  | sendSlot id slot now => exact h.sendSlot id slot now
  | ack id now =>
    have hids : (m.step alloc (.ack id now)).IdsInv := h.ids.step trivial
    rw [SessionManager.step, ackNotifications] at hids ⊢
    cases hget : m.registry.getSession id with
    | none => exact h
    | some session =>
      rw [hget] at hids
      exact h.of_account hids rfl rfl (map_modifyFirst fun _ => rfl) (fun _ _ => rfl)
        fun _ => rfl
  | others arena rings => exact ⟨⟨h.ids.nodup, h.ids.fresh, h.ids.issued, h.ids.distinct⟩, h.length,
      h.active, h.rings⟩

/-! ## Responses -/

theorem sendSlot_calls (m : SessionManager β bits) (id : UInt64) (slot : Slot) (now : UInt64) :
    (m.sendSlot id slot now).2.calls = m.calls := by
  rcases m.sendSlot_cases id slot now with ⟨e, hsend⟩ | ⟨session, rings, _, hsend⟩
  · rw [hsend]
  · rw [hsend]

theorem CanSend.sendSlot {id : UInt64} (h : m.CanSend id) (slot : Slot) (now : UInt64) :
    (m.sendSlot id slot now).1 = .ok () := by
  obtain ⟨session, hget, hroom⟩ := h
  have hpush : ∃ ring, (m.rings session.respRingOffset).tryPush slot = some ring := by
    rw [SpscRing.tryPush, if_neg (UInt64.not_le.mpr hroom)]
    exact ⟨_, rfl⟩
  obtain ⟨ring, hring⟩ := hpush
  rw [SessionManager.sendSlot, hget]
  dsimp only
  rw [hring]

theorem leavesNoBlock {op : Op β bits} (htidy : m.Tidy alloc op) : m.LeavesNoBlock alloc op := by
  cases op with
  | send id response now =>
    intro e herror offset hne
    rcases sendResponse_cases alloc m id response now with
      ⟨slot, hsend⟩ | ⟨hlong, arena, ⟨hzero, hsend⟩ | ⟨hblock, slot, hsend⟩⟩
    · rw [hsend, sendSlot_calls]
    · have hother : ArenaCall.response offset ≠ .response 0 := fun heq =>
        hne (ArenaCall.response.inj heq)
      rw [hsend, hzero]
      exact count_append_ne _ hother
    · have hcan : CanSend { m with
          arena := arena
          calls := m.calls ++ [.response (alloc.allocate m.arena response.length 1).1] } id :=
        htidy hlong hblock
      rw [hsend, hcan.sendSlot slot now] at herror
      cases herror
  | attach pid now fd | detach id | cleanup now timeout | sendSlot id slot now | ack id now
    | others arena rings => trivial

/-! ## Runs -/

/-- A run of tidy steps keeps the accounts, and no response that fails leaves a block behind. -/
theorem accounted_along (alloc : Arena β) (maxSessions : UInt64) (arena : ArenaState β)
    (rings : UInt64 → SpscRing bits) (ops : List (Op β bits))
    (htidy : MeetsAlong (step alloc) (Tidy alloc) (start maxSessions arena rings) ops) :
    (∀ n, ((ops.take n).foldl (step alloc) (start maxSessions arena rings)).Accounted) ∧
      MeetsAlong (step alloc) (LeavesNoBlock alloc) (start maxSessions arena rings) ops := by
  have hstart := accountInv_start maxSessions arena rings
  constructor
  · intro n
    exact ((htidy.take n).invariant AccountInv.step hstart).accounted
  · exact htidy.imp AccountInv.step (fun _ hop => leavesNoBlock hop) hstart

/-- A manager of rings of `2 ^ ringBits` slots, over an arena of this size. -/
def freshManager (ringBits : Fin 64) (maxSessions size : UInt64) :
    SessionManager SharedArena.Header ringBits :=
  start maxSessions (SharedArena.init size) fun _ => .init ringBits

def nineBytes : Bytes := List.replicate 9 65

/-- A session that comes, gets a response, and goes, and the next one in its slot. -/
theorem accounted_along_two_sessions :
    let ops : List (Op SharedArena.Header 0) := [.attach 7 100 (some 3), .send 1 nineBytes 101,
      .ack 1 102, .detach 1, .attach 8 103 (some 3), .cleanup 104 60, .detach 1]
    (∀ n, ((ops.take n).foldl (step SharedArena.arena) (freshManager 0 1 4096)).Accounted) ∧
      MeetsAlong (step SharedArena.arena) (LeavesNoBlock SharedArena.arena) (freshManager 0 1 4096)
        ops := by
  refine accounted_along SharedArena.arena 1 (SharedArena.init 4096) (fun _ => .init 0) _ ?_
  refine ⟨fun _ => by decide +kernel, fun _ _ => ⟨_, rfl, by decide +kernel⟩, trivial, ?_, ?_, ?_,
    ?_, trivial⟩
  · exact .inl (by decide)
  · exact fun _ => by decide +kernel
  · show SessionRegistry.stale _ 104 60 = []
    decide +kernel
  · exact .inl (by decide)

/-- The id of a free slot, an arena with room for one ring, a session that is swept away, and a
response to nobody. -/
theorem accounts_upset :
    ¬((freshManager 0 1 4096).step SharedArena.arena (.detach 0)).Accounted ∧
      ¬((freshManager 0 1 512).step SharedArena.arena (.attach 7 100 (some 3))).Accounted ∧
      ¬(((freshManager 0 1 4096).step SharedArena.arena (.attach 7 100 (some 3))).step
          SharedArena.arena (.cleanup 200 60)).Accounted ∧
      ¬(freshManager 0 1 4096).LeavesNoBlock SharedArena.arena (.send 5 nineBytes 100) := by
  refine ⟨fun h => ?_, fun h => ?_, fun h => ?_, fun h => ?_⟩
  · have hactive := h.active
    revert hactive
    decide +kernel
  · have hrings := h.rings 192 (by decide)
    revert hrings
    decide +kernel
  · have hrings := h.rings 192 (by decide)
    revert hrings
    decide +kernel
  · have hblocks := h .sessionNotFound (by decide +kernel) 152 (by decide)
    revert hblocks
    decide +kernel

end SessionManager

end VedDb
