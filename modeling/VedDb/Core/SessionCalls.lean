import VedDb.Core.Sessions

/-!
# What the calls of a session manager do

Each call comes down to one slot of the registry, which it fills, frees or updates in place.  The
ids that are given out stay apart as long as the counter has not come round to 0.
-/

namespace VedDb

open LittleEndian (Bytes)

namespace SessionManager

variable {β : Type} {bits : Fin 64}

variable {alloc : Arena β} {m : SessionManager β bits}

/-- The offsets that the arena returns for the two rings of an attach. -/
def ringOffsets (alloc : Arena β) (m : SessionManager β bits) : UInt64 × UInt64 :=
  let (cmdRingOffset, m) := m.allocateRing alloc
  (cmdRingOffset, (m.allocateRing alloc).1)

/-- The ids given out so far. -/
structure IdsInv (m : SessionManager β bits) : Prop where
  nodup : m.issued.Nodup
  fresh : m.registry.nextSessionId ≠ 0 → ∀ id ∈ m.issued, id < m.registry.nextSessionId
  issued : ∀ s ∈ m.registry.occupied, s.id ∈ m.issued
  distinct : (m.registry.occupied.map fun s => s.id).Nodup

theorem IdsInv.next_notMem (h : m.IdsInv) (hnext : m.registry.nextSessionId ≠ 0) :
    m.registry.nextSessionId ∉ m.issued :=
  fun hmem => UInt64.lt_irrefl _ (h.fresh hnext _ hmem)

theorem find_filled {id : UInt64} {before after : List SessionDesc} {filled : SessionDesc}
    (hsessions : m.registry.sessions = before ++ filled :: after) (hid : filled.id = id)
    (hbefore : ∀ b ∈ before, b.id ≠ id) :
    m.registry.getSession id = some filled ∧ ∀ f, m.registry.modifySession id f =
      { m.registry with sessions := before ++ f filled :: after } := by
  have hother : ∀ b ∈ before, decide (b.id = id) = false := fun b hb =>
    decide_eq_false (hbefore b hb)
  constructor
  · rw [SessionRegistry.getSession, hsessions]
    exact find?_append_cons hother (decide_eq_true hid)
  · intro f
    rw [SessionRegistry.modifySession, hsessions,
      modifyFirst_append hother (decide_eq_true hid)]

theorem finishAttach_of_zero {id cmd resp now : UInt64} {before after : List SessionDesc}
    {filled : SessionDesc} (hsessions : m.registry.sessions = before ++ filled :: after)
    (hid : filled.id = id) (hbefore : ∀ b ∈ before, b.id ≠ id) (hzero : cmd = 0 ∨ resp = 0) :
    m.finishAttach id cmd resp now = (.error .outOfMemory,
      { m.close filled.eventfd with
        registry :=
          { m.registry with
            activeSessions := m.registry.activeSessions - 1
            sessions := before ++ filled.free :: after } }) := by
  have ⟨hget, hmodify⟩ := find_filled hsessions hid hbefore
  rw [finishAttach, if_pos hzero, removeSession, SessionRegistry.removeSession, hget]
  dsimp only
  rw [hmodify]

theorem finishAttach_of_ne {id cmd resp now : UInt64} {before after : List SessionDesc}
    {filled : SessionDesc} (hsessions : m.registry.sessions = before ++ filled :: after)
    (hid : filled.id = id) (hbefore : ∀ b ∈ before, b.id ≠ id) (hne : ¬(cmd = 0 ∨ resp = 0)) :
    m.finishAttach id cmd resp now = (.ok id,
      { m with
        rings := Function.update (Function.update m.rings cmd (.init bits)) resp (.init bits)
        registry :=
          { m.registry with
            sessions := before ++
              { filled with
                cmdRingOffset := cmd
                respRingOffset := resp
                lastActivity := now } :: after }
        outstanding := Function.update m.outstanding id 0 }) := by
  have ⟨_, hmodify⟩ := find_filled hsessions hid hbefore
  rw [finishAttach, if_neg hne]
  dsimp only
  rw [hmodify]

/-- The state that an attach leaves behind, by what it makes of the slot it has filled. -/
structure AfterAttach (alloc : Arena β) (m m' : SessionManager β bits) (active : UInt64)
    (sessions : List SessionDesc) : Prop where
  registry : m'.registry =
    { m.registry with
      nextSessionId := m.registry.nextSessionId + 1
      activeSessions := active
      sessions := sessions }
  calls : m'.calls =
    m.calls ++ [.ring (m.ringOffsets alloc).1] ++ [.ring (m.ringOffsets alloc).2]
  issued : m'.issued = m.issued ++ [m.registry.nextSessionId]
  signals : m'.signals = m.signals

structure AttachFails (alloc : Arena β) (m : SessionManager β bits) (filled : SessionDesc)
    (before after : List SessionDesc)
    (r : Except SessionError UInt64 × SessionManager β bits) : Prop where
  noRoom : (m.ringOffsets alloc).1 = 0 ∨ (m.ringOffsets alloc).2 = 0
  result : r.1 = .error .outOfMemory
  state : AfterAttach alloc m r.2 (m.registry.activeSessions + 1 - 1)
    (before ++ filled.free :: after)
  descriptors : r.2.descriptors =
    setDescriptor (setDescriptor m.descriptors filled.eventfd (some filled.id)) filled.eventfd none
  outstanding : r.2.outstanding = m.outstanding

structure AttachSucceeds (alloc : Arena β) (m : SessionManager β bits) (filled : SessionDesc)
    (before after : List SessionDesc)
    (r : Except SessionError UInt64 × SessionManager β bits) : Prop where
  cmd : (m.ringOffsets alloc).1 ≠ 0
  resp : (m.ringOffsets alloc).2 ≠ 0
  result : r.1 = .ok filled.id
  state : AfterAttach alloc m r.2 (m.registry.activeSessions + 1)
    (before ++
      { filled with
        cmdRingOffset := (m.ringOffsets alloc).1
        respRingOffset := (m.ringOffsets alloc).2 } :: after)
  descriptors : r.2.descriptors = setDescriptor m.descriptors filled.eventfd (some filled.id)
  outstanding : r.2.outstanding = Function.update m.outstanding filled.id 0

/-- The state once a slot is filled and the arena has been asked for the rings. -/
structure Filled (alloc : Arena β) (m m' : SessionManager β bits) (filled : SessionDesc)
    (before after : List SessionDesc) : Prop where
  state : AfterAttach alloc m m' (m.registry.activeSessions + 1) (before ++ filled :: after)
  descriptors : m'.descriptors = setDescriptor m.descriptors filled.eventfd (some filled.id)
  outstanding : m'.outstanding = m.outstanding

theorem Filled.finishAttach {m' : SessionManager β bits} {filled : SessionDesc}
    {before after : List SessionDesc} (h : Filled alloc m m' filled before after)
    (hbefore : ∀ b ∈ before, b.id ≠ filled.id) :
    let r := m'.finishAttach filled.id (m.ringOffsets alloc).1 (m.ringOffsets alloc).2
      filled.lastActivity
    AttachFails alloc m filled before after r ∨ AttachSucceeds alloc m filled before after r := by
  have hsessions : m'.registry.sessions = before ++ filled :: after := by rw [h.state.registry]
  by_cases hzero : (m.ringOffsets alloc).1 = 0 ∨ (m.ringOffsets alloc).2 = 0
  · rw [finishAttach_of_zero hsessions rfl hbefore hzero]
    refine .inl ⟨hzero, rfl, ⟨?_, h.state.calls, h.state.issued, h.state.signals⟩, ?_,
      h.outstanding⟩
    · rw [h.state.registry]
    · show setDescriptor m'.descriptors _ _ = _
      rw [h.descriptors]
  · have ⟨hcmd, hresp⟩ := not_or.mp hzero
    rw [finishAttach_of_ne hsessions rfl hbefore hzero]
    refine .inr ⟨hcmd, hresp, rfl, ⟨?_, h.state.calls, h.state.issued, h.state.signals⟩,
      h.descriptors, ?_⟩
    · rw [h.state.registry]
    · rw [h.outstanding]

theorem attachSession_cases (h : m.IdsInv) (alloc : Arena β) (pid : UInt32) (now : UInt64)
    (fd : Option Nat)
    (hnext : m.createSession pid now fd ≠ none → m.registry.nextSessionId ≠ 0) :
    m.attachSession alloc pid now fd = (.error .tooManySessions, m) ∨
      ∃ before s after filled, m.registry.sessions = before ++ s :: after ∧ s.id = 0 ∧
        m.registry.findFreeSlot = some s ∧ m.createSession pid now fd ≠ none ∧
        m.registry.nextSessionId ≠ 0 ∧ m.registry.activeSessions < m.registry.maxSessions ∧
        filled =
          { s with
            id := m.registry.nextSessionId
            pid := pid
            ringCapacity := SpscRing.capacity bits
            lastActivity := now
            eventfd := m.eventfd fd } ∧
        (AttachFails alloc m filled before after (m.attachSession alloc pid now fd) ∨
          AttachSucceeds alloc m filled before after (m.attachSession alloc pid now fd)) := by
  rw [attachSession]
  cases hcreate : m.createSession pid now fd with
  | none => exact .inl rfl
  | some created =>
    obtain ⟨id, m₁⟩ := created
    have hsome : m.createSession pid now fd ≠ none := by
      rw [hcreate]
      nofun
    have hnext := hnext hsome
    rw [createSession] at hcreate
    split at hcreate
    next => cases hcreate
    next id' registry hregistry =>
      cases hcreate
      obtain ⟨hroom, rfl, before, s, after, hsessions, hs, hbefore, hfree, rfl⟩ :=
        SessionRegistry.createSession_eq_some hregistry
      refine .inr ⟨before, s, after, _, hsessions, hs, hfree, Option.some_ne_none _, hnext, hroom,
        rfl, ?_⟩
      have hother : ∀ b ∈ before, b.id ≠ m.registry.nextSessionId := by
        intro b hb heq
        have hmem : b ∈ m.registry.occupied := by
          rw [SessionRegistry.mem_occupied, hsessions]
          exact ⟨List.mem_append_left _ hb, hbefore b hb⟩
        exact h.next_notMem hnext (heq ▸ h.issued b hmem)
      exact Filled.finishAttach ⟨⟨rfl, rfl, rfl, rfl⟩, rfl, rfl⟩ hother

/-! ## The other calls -/

theorem detachSession_of_some (alloc : Arena β) {id : UInt64} {session : SessionDesc}
    (hget : m.registry.getSession id = some session) :
    ∃ before after, m.registry.sessions = before ++ session :: after ∧ session.id = id ∧
      ∃ arena, m.detachSession alloc id = (.ok (),
        { m.close session.eventfd with
          arena := arena
          registry :=
            { m.registry with
              activeSessions := m.registry.activeSessions - 1
              sessions := before ++ session.free :: after }
          calls :=
            m.calls ++ [.free session.cmdRingOffset] ++ [.free session.respRingOffset] }) := by
  obtain ⟨before, after, hsessions, hid, hremove⟩ := SessionRegistry.removeSession_of_some hget
  let size := SpscRing.sizeForCapacity bits
  refine ⟨before, after, hsessions, hid,
    alloc.free (alloc.free m.arena session.cmdRingOffset size) session.respRingOffset size, ?_⟩
  rw [detachSession, hget]
  dsimp only
  rw [removeSession, hremove]
  rfl

theorem detachSession_of_none {id : UInt64} (hget : m.registry.getSession id = none) :
    m.detachSession alloc id = (.error .sessionNotFound, m) := by
  rw [detachSession, hget]

/-- A response that is pushed is counted, and signalled if it is the first one. -/
theorem sendSlot_cases (m : SessionManager β bits) (id : UInt64) (slot : Slot) (now : UInt64) :
    (∃ e, m.sendSlot id slot now = (.error e, m)) ∨
      ∃ session rings, m.registry.getSession id = some session ∧
        m.sendSlot id slot now = (.ok (),
          { m with
            signals := m.signals ++ (m.signalled session).toList
            rings := rings
            registry := m.registry.modifySession id fun session =>
              { session with
                pendingNotifications := session.pendingNotifications + 1
                lastActivity := now }
            outstanding := Function.update m.outstanding id (m.outstanding id + 1) }) := by
  rw [sendSlot]
  cases hget : m.registry.getSession id with
  | none => exact .inl ⟨_, rfl⟩
  | some session =>
    cases hring : (m.rings session.respRingOffset).tryPush slot with
    | none =>
      dsimp only
      rw [hring]
      exact .inl ⟨_, rfl⟩
    | some ring =>
      dsimp only
      rw [hring]
      exact .inr ⟨session, _, rfl, rfl⟩

/-- A response that fits its slot is sent as it is; a longer one takes a block first. -/
theorem sendResponse_cases (alloc : Arena β) (m : SessionManager β bits) (id : UInt64)
    (response : Bytes) (now : UInt64) :
    (∃ slot, m.sendResponse alloc id response now = m.sendSlot id slot now) ∨
      Slot.inlineSize < response.length ∧ ∃ arena,
        let offset := (alloc.allocate m.arena response.length 1).1
        let m' : SessionManager β bits :=
          { m with arena := arena, calls := m.calls ++ [.response offset] }
        offset = 0 ∧ m.sendResponse alloc id response now = (.error .outOfMemory, m') ∨
          offset ≠ 0 ∧ ∃ slot, m.sendResponse alloc id response now = m'.sendSlot id slot now := by
  rw [sendResponse, Slot.inlineData]
  by_cases hlength : response.length ≤ Slot.inlineSize
  · rw [if_pos hlength]
    exact .inl ⟨_, rfl⟩
  · rw [if_neg hlength]
    refine .inr ⟨Nat.lt_of_not_le hlength, ?_⟩
    dsimp only
    split
    next hzero => exact ⟨_, .inl ⟨hzero, rfl⟩⟩
    next hne => exact ⟨_, .inr ⟨hne, _, rfl⟩⟩

theorem foldl_close (sessions : List SessionDesc) (m : SessionManager β bits) :
    sessions.foldl (fun m session => m.close session.eventfd) m =
      { m with
        descriptors := sessions.foldl (fun d session => setDescriptor d session.eventfd none)
          m.descriptors } := by
  induction sessions generalizing m with
  | nil => rfl
  | cons session sessions ih => exact ih (m.close session.eventfd)

theorem cleanupStaleSessions_eq (m : SessionManager β bits) (now timeout : UInt64) :
    m.cleanupStaleSessions now timeout =
      { m with
        registry := m.registry.cleanupStaleSessions now timeout
        descriptors := (m.registry.stale now timeout).foldl
          (fun d session => setDescriptor d session.eventfd none) m.descriptors } := by
  rw [cleanupStaleSessions, foldl_close]

/-! ## Ids -/

theorem lt_add_one_of_ne_zero {x y : UInt64} (hle : x ≤ y) (hne : y + 1 ≠ 0) : x < y + 1 := by
  have hlt := y.toNat_lt
  have hsucc : (y + 1).toNat = y.toNat + 1 := by
    rw [UInt64.toNat_add]
    refine Nat.mod_eq_of_lt (lt_of_le_of_ne hlt fun heq => hne ?_)
    apply UInt64.toNat.inj
    rw [UInt64.toNat_add]
    have hone : (1 : UInt64).toNat = 1 := rfl
    have hzero : (0 : UInt64).toNat = 0 := rfl
    omega
  rw [UInt64.lt_iff_toNat_lt, hsucc]
  exact Nat.lt_succ_of_le (UInt64.le_iff_toNat_le.mp hle)

theorem IdsInv.attach {m' : SessionManager β bits} {before after : List SessionDesc}
    {s x : SessionDesc} {active : UInt64} (h : m.IdsInv)
    (hafter : AfterAttach alloc m m' active (before ++ x :: after))
    (hsessions : m.registry.sessions = before ++ s :: after) (hs : s.id = 0)
    (hx : x.id = m.registry.nextSessionId ∨ x.id = 0) (hnext : m.registry.nextSessionId ≠ 0) :
    m'.IdsInv := by
  have hsessions' : m'.registry.sessions = before ++ x :: after := by rw [hafter.registry]
  have hold := SessionRegistry.occupied_append_free hsessions hs
  have hissued := h.issued
  have hdistinct := h.distinct
  rw [hold] at hissued hdistinct
  have hnotMem := h.next_notMem hnext
  have hnodup : m'.issued.Nodup := by
    rw [hafter.issued, List.nodup_append]
    refine ⟨h.nodup, List.nodup_singleton _, fun a ha b hb heq => ?_⟩
    rw [List.mem_singleton] at hb
    exact hnotMem (hb ▸ heq ▸ ha)
  have hfresh : m'.registry.nextSessionId ≠ 0 →
      ∀ id ∈ m'.issued, id < m'.registry.nextSessionId := by
    rw [hafter.issued, hafter.registry]
    intro hne id hid
    rcases List.mem_append.mp hid with hid | hid
    · exact lt_add_one_of_ne_zero (UInt64.le_of_lt (h.fresh hnext id hid)) hne
    · rw [List.mem_singleton.mp hid]
      exact lt_add_one_of_ne_zero UInt64.le_rfl hne
  rcases hx with hx | hx
  · have hperm := SessionRegistry.occupied_append_used hsessions' (hx ▸ hnext)
    refine ⟨hnodup, hfresh, ?_, ?_⟩
    · intro own hown
      rw [hafter.issued]
      rcases List.mem_cons.mp (hperm.mem_iff.mp hown) with rfl | hown
      · exact List.mem_append_right _ (List.mem_singleton.mpr hx)
      · exact List.mem_append_left _ (hissued own hown)
    · rw [(hperm.map _).nodup_iff, List.map_cons, List.nodup_cons]
      refine ⟨fun hmem => ?_, hdistinct⟩
      obtain ⟨own, hown, hid⟩ := List.mem_map.mp hmem
      exact hnotMem (hx ▸ hid ▸ hissued own hown)
  · have hnew := SessionRegistry.occupied_append_free hsessions' hx
    rw [← hnew] at hissued hdistinct
    refine ⟨hnodup, hfresh, ?_, hdistinct⟩
    intro own hown
    rw [hafter.issued]
    exact List.mem_append_left _ (hissued own hown)

/-- Calls that give out no id: the ids in use stay, or become fewer. -/
theorem IdsInv.of_sublist {m' : SessionManager β bits} (h : m.IdsInv)
    (hnext : m'.registry.nextSessionId = m.registry.nextSessionId) (hissued : m'.issued = m.issued)
    (hids : ((m'.registry.sessions.map fun s => s.id).filter fun id => id ≠ 0).Sublist
      ((m.registry.sessions.map fun s => s.id).filter fun id => id ≠ 0)) : m'.IdsInv := by
  have hmap (registry : SessionRegistry) : (registry.occupied.map fun s => s.id) =
      (registry.sessions.map fun s => s.id).filter fun id => id ≠ 0 := by
    rw [SessionRegistry.occupied, List.filter_map]
    rfl
  rw [← hmap, ← hmap] at hids
  refine ⟨hissued ▸ h.nodup, ?_, ?_, h.distinct.sublist hids⟩
  · rw [hnext, hissued]
    exact h.fresh
  · intro s hs
    obtain ⟨own, hown, hid⟩ := List.mem_map.mp (hids.subset (List.mem_map_of_mem hs))
    rw [hissued, ← hid]
    exact h.issued own hown

/-- An attach that takes a slot is given an id that is not 0. -/
def FreshId (m : SessionManager β bits) : Op β bits → Prop
  | .attach pid now fd => m.createSession pid now fd ≠ none → m.registry.nextSessionId ≠ 0
  | _ => True

theorem idsInv_start (maxSessions : UInt64) (arena : ArenaState β)
    (rings : UInt64 → SpscRing bits) : (start maxSessions arena rings).IdsInv := by
  have hnone : (start maxSessions arena rings).registry.occupied = [] := by
    rw [SessionRegistry.occupied, List.filter_eq_nil_iff]
    intro s hs
    rw [List.eq_of_mem_replicate hs]
    decide
  refine ⟨List.nodup_nil, ?_, ?_, ?_⟩
  · intro _ id hid
    cases hid
  · rw [hnone]
    intro session hsession
    cases hsession
  · rw [hnone]
    exact List.nodup_nil

theorem ids_modifySession (registry : SessionRegistry) (id : UInt64)
    {f : SessionDesc → SessionDesc} (hf : ∀ s, (f s).id = s.id) :
    (((registry.modifySession id f).sessions.map fun s => s.id).filter fun id => id ≠ 0).Sublist
      ((registry.sessions.map fun s => s.id).filter fun id => id ≠ 0) := by
  have hsame : ((registry.modifySession id f).sessions.map fun s => s.id) =
      registry.sessions.map fun s => s.id := map_modifyFirst hf
  rw [hsame]

theorem ids_cleanup (registry : SessionRegistry) (now timeout : UInt64) :
    (((registry.cleanupStaleSessions now timeout).sessions.map fun s => s.id).filter
        fun id => id ≠ 0).Sublist
      ((registry.sessions.map fun s => s.id).filter fun id => id ≠ 0) := by
  rw [SessionRegistry.cleanupStaleSessions]
  dsimp only
  induction registry.sessions with
  | nil => exact List.Sublist.refl _
  | cons s sessions ih =>
    rw [List.map_cons, List.map_cons, List.map_cons]
    by_cases hstale : s.id ≠ 0 ∧ s.isStale now timeout
    · rw [if_pos hstale, List.filter_cons_of_neg (by simp [SessionDesc.free]),
        List.filter_cons_of_pos (by simp [hstale.1])]
      exact ih.cons _
    · rw [if_neg hstale]
      by_cases hid : s.id = 0
      · rw [List.filter_cons_of_neg (by simp [hid]), List.filter_cons_of_neg (by simp [hid])]
        exact ih
      · rw [List.filter_cons_of_pos (by simp [hid]), List.filter_cons_of_pos (by simp [hid])]
        exact ih.cons_cons _

theorem IdsInv.sendSlot (h : m.IdsInv) (id : UInt64) (slot : Slot) (now : UInt64) :
    (m.sendSlot id slot now).2.IdsInv := by
  rcases m.sendSlot_cases id slot now with ⟨e, hsend⟩ | ⟨session, rings, _, hsend⟩
  · rw [hsend]
    exact h
  · rw [hsend]
    exact h.of_sublist rfl rfl (ids_modifySession _ _ fun _ => rfl)

theorem IdsInv.step {op : Op β bits} (h : m.IdsInv) (hop : m.FreshId op) :
    (m.step alloc op).IdsInv := by
  cases op with
  | attach pid now fd =>
    rcases attachSession_cases h alloc pid now fd hop with hrefused | ⟨before, s, after, filled,
      hsessions, hs, _, _, hnext, _, hfilled, hfails | hsucceeds⟩
    · rw [SessionManager.step, hrefused]
      exact h
    · exact h.attach hfails.state hsessions hs (.inr rfl) hnext
    · refine h.attach hsucceeds.state hsessions hs (.inl ?_) hnext
      rw [hfilled]
  | detach id =>
    rw [SessionManager.step]
    cases hget : m.registry.getSession id with
    | none =>
      rw [detachSession_of_none hget]
      exact h
    | some session =>
      obtain ⟨before, after, hsessions, _, arena, hdetach⟩ :=
        detachSession_of_some alloc hget
      rw [hdetach]
      refine h.of_sublist rfl rfl ?_
      dsimp only
      rw [hsessions, List.map_append, List.map_append, List.map_cons, List.map_cons,
        List.filter_append, List.filter_append]
      refine (List.Sublist.refl _).append ?_
      rw [List.filter_cons_of_neg (by simp [SessionDesc.free])]
      exact (List.sublist_cons_self _ _).filter _
  | cleanup now timeout =>
    rw [SessionManager.step, cleanupStaleSessions_eq]
    exact h.of_sublist rfl rfl (ids_cleanup _ _ _)
  | send id response now =>
    rw [SessionManager.step]
    have hcalls (arena : ArenaState β) (calls : List ArenaCall) :
        IdsInv { m with arena := arena, calls := calls } :=
      ⟨h.nodup, h.fresh, h.issued, h.distinct⟩
    rcases sendResponse_cases alloc m id response now with
      ⟨slot, hsend⟩ | ⟨_, arena, ⟨_, hsend⟩ | ⟨_, slot, hsend⟩⟩
    · rw [hsend]
      exact h.sendSlot id slot now
    · rw [hsend]
      exact hcalls arena _
    · rw [hsend]
      exact (hcalls arena _).sendSlot id slot now
  | sendSlot id slot now => exact h.sendSlot id slot now
  | ack id now =>
    rw [SessionManager.step, ackNotifications]
    cases hget : m.registry.getSession id with
    | none => exact h
    | some session => exact h.of_sublist rfl rfl (ids_modifySession _ _ fun _ => rfl)
  | others arena rings => exact ⟨h.nodup, h.fresh, h.issued, h.distinct⟩

end SessionManager

end VedDb
