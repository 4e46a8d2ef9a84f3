import VedDb.Core.SessionCalls
import VedDb.Kv.ArenaBlocks
import VedDb.Lib.Runs

/-!
# Wake-ups

A response is written to the descriptor of its session only if the slot counts no pending
notification.  The counter stays with the slot when its session ends: a session is woken as long as
each one found the counter of its slot at 0.
-/

namespace VedDb

open LittleEndian (Bytes)

namespace SessionManager

variable {β : Type} {bits : Fin 64}

/-- A response that is sent to a session whose client has none left to acknowledge wakes it. -/
def Wakes (alloc : Arena β) (m : SessionManager β bits) : Op β bits → Prop
  | .send id response now =>
    id ≠ 0 → m.outstanding id = 0 → (m.sendResponse alloc id response now).1 = .ok () →
      (m.sendResponse alloc id response now).2.signals = m.signals ++ [id]
  | .sendSlot id slot now =>
    id ≠ 0 → m.outstanding id = 0 → (m.sendSlot id slot now).1 = .ok () →
      (m.sendSlot id slot now).2.signals = m.signals ++ [id]
  | _ => True

def StartsClean (m : SessionManager β bits) : Op β bits → Prop
  | .attach pid now fd =>
    m.createSession pid now fd ≠ none → m.registry.nextSessionId ≠ 0 ∧ m.eventfd fd ≠ -1 ∧
      ∀ s, m.registry.findFreeSlot = some s → s.pendingNotifications = 0
  | .detach id =>
    id ≠ 0 ∨ ∀ s, m.registry.findFreeSlot = some s → m.descriptors s.eventfd = none
  | _ => True

/-! ## The invariant -/

/-- What a session has to wake its client with. -/
structure SessionInv (m : SessionManager β bits) (s : SessionDesc) : Prop where
  eventfd : s.eventfd ≠ -1
  descriptor : m.descriptors s.eventfd = some s.id
  pending : s.pendingNotifications = UInt32.ofNat (m.outstanding s.id)

structure WakeInv (m : SessionManager β bits) : Prop where
  ids : m.IdsInv
  sessions : ∀ s ∈ m.registry.occupied, m.SessionInv s

variable {alloc : Arena β} {m : SessionManager β bits}

theorem wakeInv_start (maxSessions : UInt64) (arena : ArenaState β)
    (rings : UInt64 → SpscRing bits) : (start maxSessions arena rings).WakeInv := by
  refine ⟨idsInv_start maxSessions arena rings, fun s hs => ?_⟩
  obtain ⟨hmem, hid⟩ := SessionRegistry.mem_occupied.mp hs
  rw [List.eq_of_mem_replicate hmem] at hid
  exact (hid rfl).elim

theorem setDescriptor_of_ne {descriptors : Int → Option UInt64} {eventfd fd : Int}
    (owner : Option UInt64) (hne : fd ≠ eventfd) :
    setDescriptor descriptors eventfd owner fd = descriptors fd := by
  rw [setDescriptor]
  split
  next => rfl
  next => exact Function.update_of_ne hne _ _

theorem setDescriptor_self {descriptors : Int → Option UInt64} {eventfd : Int}
    (owner : Option UInt64) (hne : eventfd ≠ -1) :
    setDescriptor descriptors eventfd owner eventfd = owner := by
  rw [setDescriptor, if_neg hne, Function.update_self]

/-- The descriptors of two sessions differ. -/
theorem WakeInv.eventfd_ne (h : m.WakeInv) {s t : SessionDesc} (hs : s ∈ m.registry.occupied)
    (ht : t ∈ m.registry.occupied) (hne : s.id ≠ t.id) : s.eventfd ≠ t.eventfd := by
  intro heq
  have howner := (h.sessions s hs).descriptor
  rw [heq, (h.sessions t ht).descriptor] at howner
  exact hne (Option.some.inj howner).symm

/-- A number that `eventfd` returns is no session's. -/
theorem WakeInv.eventfd_ne_new (h : m.WakeInv) {fd : Option Nat} (hfd : m.eventfd fd ≠ -1)
    {s : SessionDesc} (hs : s ∈ m.registry.occupied) : s.eventfd ≠ m.eventfd fd := by
  intro heq
  have howner := (h.sessions s hs).descriptor
  rw [heq] at howner
  cases fd with
  | none => exact hfd rfl
  | some fd =>
    rw [SessionManager.eventfd] at hfd howner
    split at hfd
    next hfree =>
      rw [if_pos hfree, hfree] at howner
      cases howner
    next => exact hfd rfl

/-! ## Steps -/

theorem WakeInv.attach (h : m.WakeInv) {pid : UInt32} {now : UInt64} {fd : Option Nat}
    (hclean : m.StartsClean (.attach pid now fd)) :
    (m.attachSession alloc pid now fd).2.WakeInv := by
  have hfresh : m.FreshId (.attach pid now fd) := fun hcreate => (hclean hcreate).1
  have hstep : (m.step alloc (.attach pid now fd)).IdsInv := h.ids.step hfresh
  have hids : (m.attachSession alloc pid now fd).2.IdsInv := hstep
  rcases attachSession_cases h.ids alloc pid now fd hfresh with hrefused | ⟨before, s, after,
    filled, hsessions, hs, hfree, hcreate, hnext, _, hfilled, hattach⟩
  · rw [hrefused]
    exact h
  · have ⟨_, hfd, hpending⟩ := hclean hcreate
    have heventfd : filled.eventfd = m.eventfd fd := by rw [hfilled]
    have hid : filled.id = m.registry.nextSessionId := by rw [hfilled]
    have hold := SessionRegistry.occupied_append_free hsessions hs
    have hnew (own : SessionDesc) (hown : own ∈ m.registry.occupied) :
        own.eventfd ≠ filled.eventfd := by
      rw [heventfd]
      exact h.eventfd_ne_new hfd hown
    generalize m.attachSession alloc pid now fd = r at hids hattach
    refine ⟨hids, fun own hown => ?_⟩
    rcases hattach with hfails | hsucceeds
    · have hsessions' : r.2.registry.sessions = before ++ filled.free :: after := by
        rw [hfails.state.registry]
      rw [SessionRegistry.occupied_append_free hsessions' rfl, ← hold] at hown
      have hkept := h.sessions own hown
      refine ⟨hkept.eventfd, ?_, ?_⟩
      · rw [hfails.descriptors, setDescriptor_of_ne _ (hnew own hown),
          setDescriptor_of_ne _ (hnew own hown)]
        exact hkept.descriptor
      · rw [hfails.outstanding]
        exact hkept.pending
    · have hsessions' : r.2.registry.sessions = before ++
          { filled with
            cmdRingOffset := (m.ringOffsets alloc).1
            respRingOffset := (m.ringOffsets alloc).2 } :: after := by
        rw [hsucceeds.state.registry]
      have hoccupied := SessionRegistry.occupied_append_used hsessions' (by
        show filled.id ≠ 0
        rw [hid]
        exact hnext)
      rw [← hold] at hoccupied
      rcases List.mem_cons.mp (hoccupied.mem_iff.mp hown) with rfl | hown
      · refine ⟨?_, ?_, ?_⟩
        · show filled.eventfd ≠ -1
          rw [heventfd]
          exact hfd
        · show r.2.descriptors filled.eventfd = some filled.id
          rw [hsucceeds.descriptors, setDescriptor_self]
          rw [heventfd]
          exact hfd
        · show filled.pendingNotifications = UInt32.ofNat (r.2.outstanding filled.id)
          rw [hsucceeds.outstanding, Function.update_self, hfilled]
          exact hpending s hfree
      · have hkept := h.sessions own hown
        have hne : own.id ≠ filled.id := by
          rw [hid]
          intro heq
          exact h.ids.next_notMem hnext (heq ▸ h.ids.issued own hown)
        refine ⟨hkept.eventfd, ?_, ?_⟩
        · rw [hsucceeds.descriptors, setDescriptor_of_ne _ (hnew own hown)]
          exact hkept.descriptor
        · rw [hsucceeds.outstanding, Function.update_of_ne hne]
          exact hkept.pending

theorem IdsInv.id_ne_of_perm (h : m.IdsInv) {session : SessionDesc} {others : List SessionDesc}
    (hoccupied : m.registry.occupied.Perm (session :: others)) {own : SessionDesc}
    (hown : own ∈ others) : own.id ≠ session.id := by
  have hdistinct := (hoccupied.map fun s => s.id).nodup_iff.mp h.distinct
  rw [List.map_cons, List.nodup_cons] at hdistinct
  intro heq
  exact hdistinct.1 (heq ▸ List.mem_map_of_mem hown)

theorem WakeInv.detach (h : m.WakeInv) {id : UInt64} (hclean : m.StartsClean (.detach id)) :
    (m.detachSession alloc id).2.WakeInv := by
  have hstep : (m.step alloc (.detach id)).IdsInv := h.ids.step trivial
  have hids : (m.detachSession alloc id).2.IdsInv := hstep
  cases hget : m.registry.getSession id with
  | none =>
    rw [detachSession_of_none hget]
    exact h
  | some session =>
    obtain ⟨before, after, hsessions, hid, arena, hdetach⟩ :=
      detachSession_of_some alloc hget
    rw [hdetach] at hids ⊢
    refine ⟨hids, fun own hown => ?_⟩
    rw [SessionRegistry.occupied_append_free rfl rfl] at hown
    -- Closing the descriptor of the slot closes no other session's.
    have hclosed : own ∈ m.registry.occupied ∧
        setDescriptor m.descriptors session.eventfd none own.eventfd =
          m.descriptors own.eventfd := by
      by_cases hzero : session.id = 0
      · rw [← SessionRegistry.occupied_append_free hsessions hzero] at hown
        refine ⟨hown, ?_⟩
        have hstale : m.descriptors session.eventfd = none := by
          refine (hclean.resolve_left fun hne => hne (hid ▸ hzero)) session ?_
          rw [← hid, hzero] at hget
          exact hget
        refine setDescriptor_of_ne none fun heq => ?_
        have howner := (h.sessions own hown).descriptor
        rw [heq, hstale] at howner
        cases howner
      · have hoccupied := SessionRegistry.occupied_append_used hsessions hzero
        have hmem := hoccupied.mem_iff.mpr (List.mem_cons_of_mem _ hown)
        have hsession := hoccupied.mem_iff.mpr List.mem_cons_self
        exact ⟨hmem, setDescriptor_of_ne none
          (h.eventfd_ne hmem hsession (h.ids.id_ne_of_perm hoccupied hown))⟩
    have hkept := h.sessions own hclosed.1
    exact ⟨hkept.eventfd, hclosed.2.trans hkept.descriptor, hkept.pending⟩

theorem foldl_setDescriptor {fd : Int} {sessions : List SessionDesc}
    (hne : ∀ s ∈ sessions, fd ≠ s.eventfd) (descriptors : Int → Option UInt64) :
    sessions.foldl (fun d session => setDescriptor d session.eventfd none) descriptors fd =
      descriptors fd := by
  induction sessions generalizing descriptors with
  | nil => rfl
  | cons session sessions ih =>
    rw [List.forall_mem_cons] at hne
    rw [List.foldl_cons, ih hne.2, setDescriptor_of_ne none hne.1]

theorem WakeInv.cleanup (h : m.WakeInv) (now timeout : UInt64) :
    (m.cleanupStaleSessions now timeout).WakeInv := by
  rw [cleanupStaleSessions_eq]
  refine ⟨h.ids.of_sublist rfl rfl (ids_cleanup _ _ _), fun own hown => ?_⟩
  obtain ⟨hmem, hid⟩ := SessionRegistry.mem_occupied.mp hown
  obtain ⟨s, hs, heq⟩ := List.mem_map.mp hmem
  -- A slot that is in use afterwards is one that was not stale.
  have hfresh : ¬(s.id ≠ 0 ∧ s.isStale now timeout) := by
    intro hstale
    rw [if_pos hstale] at heq
    rw [← heq] at hid
    exact hid rfl
  rw [if_neg hfresh] at heq
  subst heq
  have hkept := h.sessions s (SessionRegistry.mem_occupied.mpr ⟨hs, hid⟩)
  refine ⟨hkept.eventfd, ?_, hkept.pending⟩
  refine (foldl_setDescriptor (fun t ht => ?_) _).trans hkept.descriptor
  obtain ⟨htmem, hstale⟩ := List.mem_filter.mp ht
  rw [decide_eq_true_iff] at hstale
  have htused := SessionRegistry.mem_occupied.mpr ⟨htmem, hstale.1⟩
  have hsused := SessionRegistry.mem_occupied.mpr ⟨hs, hid⟩
  refine h.eventfd_ne hsused htused fun hsame => hfresh ?_
  rw [List.inj_on_of_nodup_map h.ids.distinct hsused htused hsame]
  exact hstale

/-- A change of the notifications of one slot, with what its client has left to acknowledge. -/
theorem WakeInv.modify {m' : SessionManager β bits} {id : UInt64} {session : SessionDesc}
    {f : SessionDesc → SessionDesc} {n : Nat} (h : m.WakeInv) (hids : m'.IdsInv)
    (hget : m.registry.getSession id = some session)
    (hregistry : m'.registry = m.registry.modifySession id f)
    (hdescriptors : m'.descriptors = m.descriptors)
    (houtstanding : m'.outstanding = Function.update m.outstanding id n)
    (hid : (f session).id = session.id) (hfd : (f session).eventfd = session.eventfd)
    (hpending : m.SessionInv session → (f session).pendingNotifications = UInt32.ofNat n) :
    m'.WakeInv := by
  refine ⟨hids, fun own hown => ?_⟩
  obtain ⟨before, after, hsessions, hmatch, hbefore⟩ := exists_of_find?_eq_some hget
  have hsession : session.id = id := of_decide_eq_true hmatch
  have hsessions' : m'.registry.sessions = before ++ f session :: after := by
    rw [hregistry, SessionRegistry.modifySession, hsessions, modifyFirst_append hbefore hmatch]
  have hother (hmem : own ∈ m.registry.occupied) (hne : own.id ≠ id) : m'.SessionInv own := by
    have hkept := h.sessions own hmem
    refine ⟨hkept.eventfd, ?_, ?_⟩
    · rw [hdescriptors]
      exact hkept.descriptor
    · rw [houtstanding, Function.update_of_ne hne]
      exact hkept.pending
  by_cases hzero : session.id = 0
  · rw [SessionRegistry.occupied_append_free hsessions' (hid.trans hzero),
      ← SessionRegistry.occupied_append_free hsessions hzero] at hown
    refine hother hown fun heq => (SessionRegistry.mem_occupied.mp hown).2 ?_
    rw [heq, ← hsession, hzero]
  · have hoccupied := SessionRegistry.occupied_append_used hsessions hzero
    have hoccupied' := SessionRegistry.occupied_append_used hsessions' (hid ▸ hzero)
    rcases List.mem_cons.mp (hoccupied'.mem_iff.mp hown) with rfl | hown
    · have hkept := h.sessions session (hoccupied.mem_iff.mpr List.mem_cons_self)
      refine ⟨?_, ?_, ?_⟩
      · rw [hfd]
        exact hkept.eventfd
      · rw [hfd, hid, hdescriptors]
        exact hkept.descriptor
      · rw [hid, hsession, houtstanding, Function.update_self]
        exact hpending hkept
    · have hmem := hoccupied.mem_iff.mpr (List.mem_cons_of_mem _ hown)
      refine hother hmem ?_
      rw [← hsession]
      exact h.ids.id_ne_of_perm hoccupied hown

theorem WakeInv.sendSlot (h : m.WakeInv) (id : UInt64) (slot : Slot) (now : UInt64) :
    (m.sendSlot id slot now).2.WakeInv := by
  have hids := h.ids.sendSlot id slot now
  rcases m.sendSlot_cases id slot now with ⟨e, hsend⟩ | ⟨session, rings, hget, hsend⟩
  · rw [hsend]
    exact h
  · rw [hsend] at hids ⊢
    refine h.modify hids hget rfl rfl rfl rfl rfl fun hsession => ?_
    have hid := (SessionRegistry.getSession_eq_some hget).2
    dsimp only
    rw [hsession.pending, hid, UInt32.ofNat_add]
    rfl

theorem WakeInv.withArena (h : m.WakeInv) (arena : ArenaState β) (calls : List ArenaCall)
    (rings : UInt64 → SpscRing bits) :
    WakeInv { m with arena := arena, calls := calls, rings := rings } := by
  refine ⟨⟨h.ids.nodup, h.ids.fresh, h.ids.issued, h.ids.distinct⟩, fun own hown => ?_⟩
  have hkept := h.sessions own hown
  exact ⟨hkept.eventfd, hkept.descriptor, hkept.pending⟩

theorem WakeInv.step {op : Op β bits} (h : m.WakeInv) (hclean : m.StartsClean op) :
    (m.step alloc op).WakeInv := by
  cases op with
  | attach pid now fd => exact h.attach hclean
  | detach id => exact h.detach hclean
  | cleanup now timeout => exact h.cleanup now timeout
  | send id response now =>
    rw [SessionManager.step]
    rcases sendResponse_cases alloc m id response now with
      ⟨slot, hsend⟩ | ⟨_, arena, ⟨_, hsend⟩ | ⟨_, slot, hsend⟩⟩
    · rw [hsend]
      exact h.sendSlot id slot now
    · rw [hsend]
      exact h.withArena arena _ m.rings
    · rw [hsend]
      exact (h.withArena arena _ m.rings).sendSlot id slot now
  | sendSlot id slot now => exact h.sendSlot id slot now
  | ack id now =>
    have hids : (m.step alloc (.ack id now)).IdsInv := h.ids.step trivial
    rw [SessionManager.step, ackNotifications] at hids ⊢
    cases hget : m.registry.getSession id with
    | none => exact h
    | some session =>
      rw [hget] at hids
      exact h.modify hids hget rfl rfl rfl rfl rfl fun _ => rfl
  | others arena rings => exact h.withArena arena m.calls rings

/-- A response pushed for a client that has none left to acknowledge is signalled. -/
theorem WakeInv.sendSlot_signals (h : m.WakeInv) {id : UInt64} {slot : Slot} {now : UInt64}
    (hid : id ≠ 0) (hnone : m.outstanding id = 0) (hsent : (m.sendSlot id slot now).1 = .ok ()) :
    (m.sendSlot id slot now).2.signals = m.signals ++ [id] := by
  rcases m.sendSlot_cases id slot now with ⟨e, hsend⟩ | ⟨session, rings, hget, hsend⟩
  · rw [hsend] at hsent
    cases hsent
  · obtain ⟨hmem, hsession⟩ := SessionRegistry.getSession_eq_some hget
    have hkept := h.sessions session (SessionRegistry.mem_occupied.mpr ⟨hmem, hsession ▸ hid⟩)
    have hpending := hkept.pending
    rw [hsession, hnone] at hpending
    rw [hsend]
    show m.signals ++ (m.signalled session).toList = _
    rw [signalled, if_pos ⟨hpending, hkept.eventfd⟩, hkept.descriptor, hsession]
    rfl

theorem WakeInv.wakes {op : Op β bits} (h : m.WakeInv) : m.Wakes alloc op := by
  cases op with
  | send id response now =>
    intro hid hnone hsent
    rcases sendResponse_cases alloc m id response now with
      ⟨slot, hsend⟩ | ⟨_, arena, ⟨_, hsend⟩ | ⟨_, slot, hsend⟩⟩
    · rw [hsend] at hsent ⊢
      exact h.sendSlot_signals hid hnone hsent
    · rw [hsend] at hsent
      cases hsent
    · rw [hsend] at hsent ⊢
      exact (h.withArena arena _ m.rings).sendSlot_signals hid hnone hsent
  | sendSlot id slot now => exact fun hid hnone hsent => h.sendSlot_signals hid hnone hsent
  | attach pid now fd | detach id | cleanup now timeout | ack id now | others arena rings => trivial

/-! ## Runs -/

/-- Where every session starts clean, no wake-up is lost. -/
theorem wakes_along (alloc : Arena β) (maxSessions : UInt64) (arena : ArenaState β)
    (rings : UInt64 → SpscRing bits) (ops : List (Op β bits))
    (hclean : MeetsAlong (step alloc) StartsClean (start maxSessions arena rings) ops) :
    MeetsAlong (step alloc) (Wakes alloc) (start maxSessions arena rings) ops :=
  hclean.imp WakeInv.step (fun h _ => h.wakes) (wakeInv_start maxSessions arena rings)

def oneByte : Slot := { len := 1, dataOrOffset := 65 }

/-- A client that acknowledges its response before it goes leaves a clean slot to the next one. -/
theorem wakes_along_clean_slot :
    let ops : List (Op SharedArena.Header 0) := [.attach 7 100 (some 3), .sendSlot 1 oneByte 101,
      .ack 1 102, .detach 1, .attach 8 103 (some 3), .sendSlot 2 oneByte 104]
    MeetsAlong (step SharedArena.arena) (Wakes SharedArena.arena)
      (start 1 (SharedArena.init 4096) fun _ => .init 0) ops := by
  refine wakes_along SharedArena.arena 1 (SharedArena.init 4096) (fun _ => .init 0) _ ?_
  refine ⟨fun _ => ⟨by decide +kernel, by decide +kernel, ?_⟩, trivial, trivial, .inl (by decide),
    fun _ => ⟨by decide +kernel, by decide +kernel, ?_⟩, trivial, trivial⟩
  · intro s hs
    cases hs
    rfl
  · intro s hs
    have hslot : s = _ := (Option.some.inj hs).symm
    rw [hslot]
    decide +kernel

/-- A client that goes with a response pending leaves its counter to the next session, whose first
response wakes nobody. -/
theorem wake_up_lost :
    ¬MeetsAlong (step SharedArena.arena) (Wakes SharedArena.arena)
      (start 1 (SharedArena.init 4096) fun _ => .init 0)
      ([.attach 7 100 (some 3), .sendSlot 1 oneByte 101, .detach 1, .attach 8 103 (some 3),
        .sendSlot 2 oneByte 104] : List (Op SharedArena.Header 0)) := by
  intro ⟨_, _, _, _, hwakes, _⟩
  have hsignals := hwakes (by decide) (by decide +kernel) (by decide +kernel)
  revert hsignals
  decide +kernel

end SessionManager

end VedDb
